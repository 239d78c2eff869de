import Wap610n.Gpio.Driver
import Wap610n.Gpio.PressCleared

namespace Wap610n.Gpio

open Function Mask

/-- The driver as one GPIO sees it; of each register the bit of its line. -/
structure Pin where
  flag : ℤ
  timer : Option PbcTimer
  isr : Bool
  direction : Bool
  trigger : Bool
  both : Bool
  riseneg : Bool
  enable : Bool
  samples : List Sample
  pushes : ℕ

namespace Pin

def arm (p : Pin) : Pin :=
  { p with isr := true, direction := false, trigger := false, both := false, riseneg := true, enable := true }

def disarm (p : Pin) : Pin := { p with isr := false, enable := false }

def sampled (p : Pin) (jiffies gpio k : ℕ) (byInterrupt : Bool) (temp : Level) : Pin :=
  let p := { p with samples := ⟨jiffies, temp, byInterrupt⟩ :: p.samples }
  if temp = .gpioOff then p.arm
  else if k + 1 ≤ State.pbWaitingTime gpio then
    { p with timer := some ⟨msecsToJiffies 75 + jiffies, (gpio <<< 16) ||| (k + 1), .pbcValidatePush⟩ }
  else
    { p.arm with
      flag := 2, timer := some ⟨secsToJiffies 20 + jiffies, gpio, .pbcCancel⟩, pushes := p.pushes + 1 }

structure Armed (p : Pin) : Prop where
  isr : p.isr = true
  enable : p.enable = true
  edge : p.trigger = false
  single : p.both = false
  falling : p.riseneg = true
  input : p.direction = false

structure Validating (p : Pin) : Prop where
  isr : p.isr = false
  enable : p.enable = false
  pending : ∃ t ∈ p.timer, t.function = .pbcValidatePush

end Pin

def sampleTime : ℕ := msecsToJiffies 75

def HeldFor (n now : ℕ) (samples : List Sample) : Prop :=
  ∀ i ≤ n, ∃ time, time + i * sampleTime = now ∧ samples[i]? = some ⟨time, .gpioOn, decide (i = n)⟩

theorem shiftLeft_or_and (gpio : ℕ) {k : ℕ} (h : k < 2 ^ 16) : (gpio <<< 16 ||| k) &&& 0xFFFF = k := by
  rw [show 0xFFFF = 2 ^ 16 - 1 from rfl, Nat.and_two_pow_sub_one_eq_mod, ← Nat.shiftLeft_add_eq_or_of_lt h,
    Nat.shiftLeft_eq, Nat.mul_comm, Nat.mul_add_mod, Nat.mod_eq_of_lt h]

theorem heldFor_first (now : ℕ) (samples : List Sample) : HeldFor 0 now (⟨now, .gpioOn, true⟩ :: samples) := by
  intro i hi
  obtain rfl := Nat.le_zero.mp hi
  exact ⟨now, by omega, rfl⟩

theorem HeldFor.next {n now : ℕ} {samples : List Sample} (h : HeldFor n now samples) :
    HeldFor (n + 1) (sampleTime + now) (⟨sampleTime + now, .gpioOn, false⟩ :: samples) := by
  intro i hi
  cases i with
  | zero => exact ⟨_, by omega, rfl⟩
  | succ i =>
    obtain ⟨time, htime, hget⟩ := h i (by omega)
    refine ⟨time, by rw [Nat.add_mul]; omega, ?_⟩
    rw [List.getElem?_cons_succ, hget]
    simp

namespace Driver

def pin (d : Driver) (gpio : ℕ) : Pin where
  flag := d.core.pbcFlag gpio
  timer := d.core.pbcTimer gpio
  isr := d.core.gpioIsr gpio
  direction := d.pinDir.getLsbD gpio
  trigger := d.intrTrigger.getLsbD gpio
  both := d.intrBoth.getLsbD gpio
  riseneg := d.intrRiseneg.getLsbD gpio
  enable := d.intrEnable.getLsbD gpio
  samples := d.samples gpio
  pushes := d.pushes gpio

section Pins

variable (d : Driver) {gpio g : ℕ}

theorem pin_setEdgeintr (h : gpio < maxGpioLine) :
    (d.setEdgeintr pinTrigSingle pinTrigFailing gpio).pin g = if g = gpio then (d.pin g).arm else d.pin g := by
  have hbit : gpio < 32 := h.trans (by decide)
  have hle : gpio ≤ 20 := Nat.lt_succ_iff.mp h
  simp only [pin, setEdgeintr, State.setEdgeintr, writeDirectionBit, h, hle, if_true, pinInput, pinTrigEdge,
    pinTrigSingle, pinTrigFailing, getLsbD_writeBit_zero _ hbit, getLsbD_writeBit_one _ hbit, getLsbD_setBit _ hbit]
  split_ifs with heq
  · simp [heq, Pin.arm]
  · simp [heq]

theorem pin_clearIntr (h : gpio < maxGpioLine) :
    (d.clearIntr gpio).pin g = if g = gpio then (d.pin g).disarm else d.pin g := by
  have hbit : gpio < 32 := h.trans (by decide)
  simp only [pin, clearIntr, State.clearIntr, h, if_true, getLsbD_clearBit _ hbit]
  split_ifs with heq
  · simp [heq, Pin.disarm]
  · simp [heq]

theorem pin_log (temp : Level) (byInterrupt : Bool) : (d.log gpio temp byInterrupt).pin g =
    if g = gpio then { d.pin g with samples := ⟨d.core.jiffies, temp, byInterrupt⟩ :: d.samples g } else d.pin g := by
  simp only [pin, log]
  split_ifs with heq
  · simp [heq]
  · simp [heq]

theorem pin_stopTimer : (d.stopTimer gpio).pin g = if g = gpio then { d.pin g with timer := none } else d.pin g := by
  simp only [pin, stopTimer, State.delTimer]
  split_ifs with heq
  · simp [heq]
  · simp [heq]

theorem pin_startTimer (t : PbcTimer) :
    (d.startTimer gpio t).pin g = if g = gpio then { d.pin g with timer := some t } else d.pin g := by
  simp only [pin, startTimer, State.addTimer]
  split_ifs with heq
  · simp [heq]
  · simp [heq]

theorem pin_setFlag (flag : ℤ) :
    (d.setFlag gpio flag).pin g = if g = gpio then { d.pin g with flag := flag } else d.pin g := by
  simp only [pin, setFlag, State.setFlag]
  split_ifs with heq
  · simp [heq]
  · simp [heq]

theorem pin_setPushed : (d.setPushed gpio).pin g =
    if g = gpio then { d.pin g with flag := 2, pushes := d.pushes g + 1 } else d.pin g := by
  simp only [pin, setPushed, State.setFlag]
  split_ifs with heq
  · simp [heq]
  · simp [heq]

theorem pin_recordTime : (d.recordTime gpio).pin g = d.pin g := rfl

theorem jiffies_setEdgeintr (trigBoth trigRising : BitVec 32) :
    (d.setEdgeintr trigBoth trigRising gpio).core.jiffies = d.core.jiffies := by
  rw [core_setEdgeintr, State.setEdgeintr]
  split_ifs <;> rfl

theorem jiffies_clearIntr : (d.clearIntr gpio).core.jiffies = d.core.jiffies := by
  rw [core_clearIntr, State.clearIntr]
  split_ifs <;> rfl

theorem jiffies_gpioPbcEnd : (d.gpioPbcEnd gpio).core.jiffies = d.core.jiffies := by
  apply Eq.trans (jiffies_setEdgeintr _ _ _)
  exact jiffies_clearIntr _

theorem pin_gpioPbcEnd (h : gpio < maxGpioLine) : (d.gpioPbcEnd gpio).pin g =
    if g = gpio then
      { (d.pin g).arm with
        flag := 2, timer := some ⟨secsToJiffies 20 + d.core.jiffies, gpio, .pbcCancel⟩, pushes := d.pushes g + 1 }
    else d.pin g := by
  have hj : (((((d.setPushed gpio).clearIntr gpio).setEdgeintr pinTrigSingle pinTrigFailing gpio).stopTimer
      gpio).recordTime gpio).core.jiffies = d.core.jiffies := jiffies_gpioPbcEnd d
  unfold gpioPbcEnd
  dsimp only
  rw [hj, pin_startTimer, pin_recordTime, pin_stopTimer, pin_setEdgeintr _ h, pin_clearIntr _ h, pin_setPushed]
  split_ifs
  · rfl
  · rfl

theorem jiffies_pbcValidatePush (byInterrupt : Bool) (pbcWaitFlag : ℕ) (temp : Level) :
    (d.pbcValidatePush byInterrupt pbcWaitFlag temp).core.jiffies = d.core.jiffies := by
  unfold pbcValidatePush
  dsimp only
  split_ifs
  · exact jiffies_setEdgeintr _ _ _
  · rfl
  · exact jiffies_gpioPbcEnd _

theorem pin_pbcValidatePush {k : ℕ} (h : gpio < maxGpioLine) (hk : k < 2 ^ 16) (byInterrupt : Bool) (temp : Level) :
    (d.pbcValidatePush byInterrupt (gpio <<< 16 ||| k) temp).pin g =
      if g = gpio then (d.pin g).sampled d.core.jiffies gpio k byInterrupt temp else d.pin g := by
  have hlow : (gpio <<< 16 ||| k) &&& 0xFFFF = k := shiftLeft_or_and gpio hk
  unfold pbcValidatePush Pin.sampled
  dsimp only
  rw [shiftLeft_or_shiftRight gpio hk, hlow]
  split_ifs with htemp heq hwait heq heq
  · rw [pin_setEdgeintr _ h, pin_log, if_pos heq, if_pos heq]
    rfl
  · rw [pin_setEdgeintr _ h, pin_log, if_neg heq, if_neg heq]
  · rw [pin_startTimer, pin_stopTimer, pin_log, if_pos heq, if_pos heq, if_pos heq]
    rfl
  · rw [pin_startTimer, pin_stopTimer, pin_log, if_neg heq, if_neg heq, if_neg heq]
  · rw [pin_gpioPbcEnd _ h, pin_stopTimer, pin_log, if_pos heq, if_pos heq, if_pos heq]
    rfl
  · rw [pin_gpioPbcEnd _ h, pin_stopTimer, pin_log, if_neg heq, if_neg heq, if_neg heq]

end Pins

end Driver

end Wap610n.Gpio
