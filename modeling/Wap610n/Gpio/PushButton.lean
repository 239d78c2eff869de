import Mathlib.Data.Nat.Bitwise
import Mathlib.Logic.Function.Basic
import Wap610n.Lib.Transition

/-!
The push buttons of `gpioDevice.c`. An event is an interrupt, an expired timer, a `read` or some time that
passes; a handler runs to its end before the next event, and a due timer runs before the clock goes on.
-/

namespace Wap610n.Gpio

open Function

def maxGpios : ℕ := 32

def maxGpioLine : ℕ := 21

def resetDftGpio : ℕ := 3

def resetDftWaitSec : ℕ := 3

def hz : ℕ := 100

def msecsToJiffies (x : ℕ) : ℕ := x * hz / 1000

def secsToJiffies (x : ℕ) : ℕ := x * hz

inductive Level
  | gpioOn | gpioOff
deriving DecidableEq, Repr

inductive TimerFunction
  | pbcValidatePush | pbcCancel
deriving DecidableEq, Repr

structure PbcTimer where
  expires : ℕ
  data : ℕ
  function : TimerFunction
deriving DecidableEq, Repr

/-- `recognisedAt` is history: the time of the last `gpio_pbc_end`. -/
structure State where
  jiffies : ℕ
  pbcFlag : ℕ → ℤ
  pbcTimer : ℕ → Option PbcTimer
  gpioIsr : ℕ → Bool
  recognisedAt : ℕ → ℕ

inductive ReadResult
  | enodev | erestartsys | enomem | eagain | pbcOn | eof
deriving DecidableEq, Repr

inductive Event
  | elapse (n : ℕ)
  | interrupt (gpio : ℕ) (level : Level)
  | expire (gpio : ℕ) (level : Level)
  | read (gpio : ℕ) (interrupted copyFails : Bool)
deriving DecidableEq, Repr

namespace State

def setEdgeintr (s : State) (gpio : ℕ) : State :=
  if gpio < maxGpioLine then { s with gpioIsr := update s.gpioIsr gpio true } else s

def clearIntr (s : State) (gpio : ℕ) : State :=
  if gpio < maxGpioLine then { s with gpioIsr := update s.gpioIsr gpio false } else s

def delTimer (s : State) (gpio : ℕ) : State := { s with pbcTimer := update s.pbcTimer gpio none }

def addTimer (s : State) (gpio : ℕ) (t : PbcTimer) : State :=
  { s with pbcTimer := update s.pbcTimer gpio (some t) }

def setFlag (s : State) (gpio : ℕ) (flag : ℤ) : State := { s with pbcFlag := update s.pbcFlag gpio flag }

def pbcCancel (s : State) (gpio : ℕ) : State := s.setFlag gpio 0

def gpioPbcEnd (s : State) (gpio : ℕ) : State :=
  let s := (((s.setFlag gpio 2).clearIntr gpio).setEdgeintr gpio).delTimer gpio
  let s := { s with recognisedAt := update s.recognisedAt gpio s.jiffies }
  s.addTimer gpio ⟨secsToJiffies 20 + s.jiffies, gpio, .pbcCancel⟩

def pbWaitingTime (gpio : ℕ) : ℕ := if gpio = resetDftGpio then 12 * resetDftWaitSec else 2

/-- The argument has the GPIO in its upper and the number of earlier calls in its lower half. -/
def pbcValidatePush (s : State) (pbcWaitFlag : ℕ) (temp : Level) : State :=
  let gpio := pbcWaitFlag >>> 16
  let pbcWaitFlag := (pbcWaitFlag &&& 0xFFFF) + 1
  let timerExpires := msecsToJiffies 75 + s.jiffies
  if temp = .gpioOff then s.setEdgeintr gpio
  else
    let s := s.delTimer gpio
    if pbcWaitFlag ≤ pbWaitingTime gpio then
      s.addTimer gpio ⟨timerExpires, (gpio <<< 16) ||| pbcWaitFlag, .pbcValidatePush⟩
    else s.gpioPbcEnd gpio

def gpioPbcStart (s : State) (gpio : ℕ) (temp : Level) : State :=
  (s.clearIntr gpio).pbcValidatePush (gpio <<< 16) temp

/-- `none` is a reader that sleeps. -/
def gpioRead (s : State) (gpio : ℕ) (interrupted copyFails : Bool) : Option (ReadResult × State) :=
  if gpio ≥ maxGpios then some (.enodev, s)
  else if s.pbcFlag gpio = 0 then if interrupted then some (.erestartsys, s) else none
  else if s.pbcFlag gpio > 0 then
    if s.pbcFlag gpio > 1 then
      if copyFails then some (.enomem, s) else some (.pbcOn, s.setFlag gpio (s.pbcFlag gpio - 1))
    else some (.eof, s.setFlag gpio 0)
  else some (.eagain, s)

/-- The kernel takes a timer off its list before it calls the function. -/
def expired (s : State) (gpio : ℕ) (t : PbcTimer) (level : Level) : State :=
  match t.function with
  | .pbcValidatePush => (s.delTimer gpio).pbcValidatePush t.data level
  | .pbcCancel => (s.delTimer gpio).pbcCancel t.data

def step (s : State) : Event → Option State
  | .elapse n =>
    if ∀ gpio < maxGpios, ∀ t ∈ s.pbcTimer gpio, s.jiffies + n ≤ t.expires then
      some { s with jiffies := s.jiffies + n }
    else none
  | .interrupt gpio level => if s.gpioIsr gpio then some (s.gpioPbcStart gpio level) else none
  | .expire gpio level =>
    (s.pbcTimer gpio).bind fun t => if t.expires ≤ s.jiffies then some (s.expired gpio t level) else none
  | .read gpio interrupted copyFails => (s.gpioRead gpio interrupted copyFails).map Prod.snd

def loaded (jiffies : ℕ) : State where
  jiffies := jiffies
  pbcFlag _ := 0
  pbcTimer _ := none
  gpioIsr _ := false
  recognisedAt _ := 0

def gpioInit (jiffies : ℕ) (pushButtons : List ℕ) : State :=
  (pushButtons.take maxGpios).foldl setEdgeintr (loaded jiffies)

end State

end Wap610n.Gpio
