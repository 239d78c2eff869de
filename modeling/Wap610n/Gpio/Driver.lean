import Wap610n.Gpio.PushButton
import Wap610n.Lib.Mask

/-!
The push buttons with the registers that `str9100_gpio.c` writes for them. `samples` and `pushes` are history:
what `pbc_validate_push` read, latest first, and how often `gpio_pbc_end` set the flag. An interrupt of several
lines is one event for each of them.
-/

namespace Wap610n.Gpio

open Function Mask

def pinInput : BitVec 32 := 0#32

def pinOutput : BitVec 32 := 1#32

def pinTrigEdge : BitVec 32 := 0#32

def pinTrigSingle : BitVec 32 := 0#32

def pinTrigFailing : BitVec 32 := 1#32

structure Sample where
  time : ℕ
  level : Level
  byInterrupt : Bool
deriving DecidableEq, Repr

structure Driver where
  core : State
  pinDir : BitVec 32
  intrTrigger : BitVec 32
  intrBoth : BitVec 32
  intrRiseneg : BitVec 32
  intrEnable : BitVec 32
  samples : ℕ → List Sample
  pushes : ℕ → ℕ

namespace Driver

def writeDirectionBit (d : Driver) (data : BitVec 32) (bit : ℕ) : Driver :=
  if bit ≤ 20 then { d with pinDir := writeBit d.pinDir bit data } else d

/-- The handler is `gpio_pbc_start` in every call. -/
def setEdgeintr (d : Driver) (trigBoth trigRising : BitVec 32) (gpioPin : ℕ) : Driver :=
  if gpioPin < maxGpioLine then
    { d.writeDirectionBit pinInput gpioPin with
      intrTrigger := writeBit d.intrTrigger gpioPin pinTrigEdge
      intrBoth := writeBit d.intrBoth gpioPin trigBoth
      intrRiseneg := writeBit d.intrRiseneg gpioPin trigRising
      core := d.core.setEdgeintr gpioPin
      intrEnable := setBit d.intrEnable gpioPin }
  else d

def clearIntr (d : Driver) (gpioPin : ℕ) : Driver :=
  if gpioPin < maxGpioLine then
    { d with core := d.core.clearIntr gpioPin, intrEnable := clearBit d.intrEnable gpioPin }
  else d

def startTimer (d : Driver) (gpio : ℕ) (t : PbcTimer) : Driver := { d with core := d.core.addTimer gpio t }

def stopTimer (d : Driver) (gpio : ℕ) : Driver := { d with core := d.core.delTimer gpio }

def setPushed (d : Driver) (gpio : ℕ) : Driver :=
  { d with core := d.core.setFlag gpio 2, pushes := update d.pushes gpio (d.pushes gpio + 1) }

def recordTime (d : Driver) (gpio : ℕ) : Driver :=
  { d with core := { d.core with recognisedAt := update d.core.recognisedAt gpio d.core.jiffies } }

def gpioPbcEnd (d : Driver) (gpio : ℕ) : Driver :=
  let d := ((d.setPushed gpio).clearIntr gpio).setEdgeintr pinTrigSingle pinTrigFailing gpio
  let d := (d.stopTimer gpio).recordTime gpio
  d.startTimer gpio ⟨secsToJiffies 20 + d.core.jiffies, gpio, .pbcCancel⟩

def setFlag (d : Driver) (gpio : ℕ) (flag : ℤ) : Driver := { d with core := d.core.setFlag gpio flag }

def pbcCancel (d : Driver) (gpio : ℕ) : Driver := d.setFlag gpio 0

def log (d : Driver) (gpio : ℕ) (temp : Level) (byInterrupt : Bool) : Driver :=
  { d with samples := update d.samples gpio (⟨d.core.jiffies, temp, byInterrupt⟩ :: d.samples gpio) }

def pbcValidatePush (d : Driver) (byInterrupt : Bool) (pbcWaitFlag : ℕ) (temp : Level) : Driver :=
  let gpio := pbcWaitFlag >>> 16
  let pbcWaitFlag := (pbcWaitFlag &&& 0xFFFF) + 1
  let timerExpires := msecsToJiffies 75 + d.core.jiffies
  let d := d.log gpio temp byInterrupt
  if temp = .gpioOff then d.setEdgeintr pinTrigSingle pinTrigFailing gpio
  else
    let d := d.stopTimer gpio
    if pbcWaitFlag ≤ State.pbWaitingTime gpio then
      d.startTimer gpio ⟨timerExpires, (gpio <<< 16) ||| pbcWaitFlag, .pbcValidatePush⟩
    else d.gpioPbcEnd gpio

def gpioPbcStart (d : Driver) (gpio : ℕ) (temp : Level) : Driver :=
  (d.clearIntr gpio).pbcValidatePush true (gpio <<< 16) temp

def expired (d : Driver) (gpio : ℕ) (t : PbcTimer) (level : Level) : Driver :=
  match t.function with
  | .pbcValidatePush => (d.stopTimer gpio).pbcValidatePush false t.data level
  | .pbcCancel => (d.stopTimer gpio).pbcCancel t.data

def step (d : Driver) : Event → Option Driver
  | .elapse n => (d.core.step (.elapse n)).map fun core => { d with core }
  | .interrupt gpio level => if d.core.gpioIsr gpio then some (d.gpioPbcStart gpio level) else none
  | .expire gpio level =>
    (d.core.pbcTimer gpio).bind fun t => if t.expires ≤ d.core.jiffies then some (d.expired gpio t level) else none
  | .read gpio interrupted copyFails =>
    (d.core.step (.read gpio interrupted copyFails)).map fun core => { d with core }

def initButton (d : Driver) (gpio : ℕ) : Driver :=
  (d.writeDirectionBit pinInput gpio).setEdgeintr pinTrigSingle pinTrigFailing gpio

def loaded (jiffies : ℕ) (pinDir intrTrigger intrBoth intrRiseneg intrEnable : BitVec 32) : Driver where
  core := .loaded jiffies
  pinDir := pinDir
  intrTrigger := intrTrigger
  intrBoth := intrBoth
  intrRiseneg := intrRiseneg
  intrEnable := intrEnable
  samples _ := []
  pushes _ := 0

def gpioInit (d : Driver) (outputLeds pushButtons : List ℕ) : Driver :=
  (pushButtons.take maxGpios).foldl initButton
    ((outputLeds.take maxGpios).foldl (fun d gpio => d.writeDirectionBit pinOutput gpio) d)

section Core

variable (d : Driver) (gpio : ℕ)

@[simp] theorem core_writeDirectionBit (data : BitVec 32) : (d.writeDirectionBit data gpio).core = d.core := by
  unfold writeDirectionBit
  split_ifs <;> rfl

@[simp] theorem core_setEdgeintr (trigBoth trigRising : BitVec 32) :
    (d.setEdgeintr trigBoth trigRising gpio).core = d.core.setEdgeintr gpio := by
  unfold setEdgeintr
  split_ifs with h
  · rfl
  · exact (if_neg h).symm

@[simp] theorem core_clearIntr : (d.clearIntr gpio).core = d.core.clearIntr gpio := by
  unfold clearIntr
  split_ifs with h
  · rfl
  · exact (if_neg h).symm

theorem core_gpioPbcEnd : (d.gpioPbcEnd gpio).core = d.core.gpioPbcEnd gpio := by
  simp [gpioPbcEnd, State.gpioPbcEnd, startTimer, stopTimer, setPushed, recordTime]

theorem core_pbcValidatePush (byInterrupt : Bool) (pbcWaitFlag : ℕ) (temp : Level) :
    (d.pbcValidatePush byInterrupt pbcWaitFlag temp).core = d.core.pbcValidatePush pbcWaitFlag temp := by
  unfold pbcValidatePush State.pbcValidatePush
  dsimp only
  split_ifs
  · exact core_setEdgeintr _ _ _ _
  · rfl
  · exact core_gpioPbcEnd _ _

theorem core_gpioPbcStart (temp : Level) : (d.gpioPbcStart gpio temp).core = d.core.gpioPbcStart gpio temp := by
  rw [gpioPbcStart, core_pbcValidatePush, core_clearIntr, State.gpioPbcStart]

theorem core_expired (t : PbcTimer) (level : Level) : (d.expired gpio t level).core = d.core.expired gpio t level := by
  unfold expired State.expired
  cases t.function with
  | pbcValidatePush => exact core_pbcValidatePush _ _ _ _
  | pbcCancel => rfl

theorem core_step (e : Event) : (d.step e).map core = d.core.step e := by
  cases e with
  | elapse n =>
    rw [step, Option.map_map]
    exact Option.map_id'
  | interrupt gpio level =>
    rw [step, State.step]
    split_ifs
    · rw [Option.map_some, core_gpioPbcStart]
    · rfl
  | expire gpio level =>
    rw [step, State.step]
    cases d.core.pbcTimer gpio with
    | none => rfl
    | some t =>
      rw [Option.bind_some, Option.bind_some]
      split_ifs
      · rw [Option.map_some, core_expired]
      · rfl
  | read gpio interrupted copyFails =>
    rw [step, Option.map_map]
    exact Option.map_id'

end Core

end Driver

end Wap610n.Gpio
