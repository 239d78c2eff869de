import Wap610n.Gpio.PushButton
import Wap610n.Lib.CString

/-!
The LEDs of `gpioDevice.c`. A line that is an output reads back as the level it drives, so writing one bit leaves
the other LEDs as they are. `none` is an access outside `Buffer` or `ledPatterns`.
-/

namespace Wap610n.Gpio

open Function CString

def bufferSize : ℕ := 512

def maxLedPattern : ℕ := 16

def systemLedGpio : ℕ := 2

structure LedPattern where
  repetitionCount : ℤ
  timerVals : List ℤ

def ledPattern (repetitionCount : ℤ) (vals : List ℤ) : LedPattern :=
  ⟨repetitionCount, vals ++ List.replicate (maxLedPattern - vals.length) 0⟩

def ms (x : ℕ) : ℤ := msecsToJiffies x

abbrev numPatterns : ℕ := 5

def ledPatterns : Vector LedPattern numPatterns :=
  #v[ledPattern (-1) [ms 1000, ms 1000, -1],
    ledPattern (-1) [ms 100, ms 100, ms 100, ms 100, ms 100, ms 100, ms 100, ms 100, ms 100, ms 600, -1],
    ledPattern (-1) [ms 100, ms 100, -1],
    ledPattern (-1) [ms 300, ms 300, -1],
    ledPattern (-1) [ms 200, ms 100, -1]]

structure Led where
  level : Level
  pattern : Option (Fin numPatterns)
  currIndex : ℕ
  currRepetition : ℤ
  pulseTimer : Option ℤ
deriving DecidableEq

namespace Led

def gpioSet (led : Led) (gpio : ℕ) (level : Level) : Led := if gpio ≤ 20 then { led with level } else led

def stop (led : Led) : Led := if led.pulseTimer.isSome then { led with pulseTimer := none, pattern := none } else led

def latch (led : Led) (pulsePattern : BitVec 32) : Option Led :=
  match led.pattern with
  | some _ => some led
  | none =>
    if h : 0 ≤ pulsePattern.toInt ∧ pulsePattern.toInt < numPatterns then
      some { led with pattern := some ⟨pulsePattern.toInt.toNat, by omega⟩, currIndex := 0, currRepetition := 0 }
    else none

def nextRepetition (led : Led) (timerVal : ℤ) : Led :=
  if timerVal = -1 then { led with currIndex := 0, currRepetition := led.currRepetition + 1 } else led

def pulse (led : Led) (currPattern : LedPattern) (lednum jiffies : ℕ) : Option Led :=
  currPattern.timerVals[led.currIndex]?.bind fun timerVal =>
    let led := led.nextRepetition timerVal
    if currPattern.repetitionCount ≠ -1 ∧ led.currRepetition = currPattern.repetitionCount then
      some { led.gpioSet lednum .gpioOff with pattern := none }
    else
      currPattern.timerVals[led.currIndex]?.map fun pulseLen =>
        let led := { led with pulseTimer := some (pulseLen + jiffies) }
        let ledStatus := if led.currIndex % 2 = 1 then .gpioOff else .gpioOn
        { led.gpioSet lednum ledStatus with currIndex := led.currIndex + 1 }

def ledPulse (led : Led) (pulsePattern : BitVec 32) (lednum jiffies : ℕ) : Option Led :=
  (led.latch pulsePattern).bind fun led =>
    led.pattern.bind fun currPattern => led.pulse ledPatterns[currPattern] lednum jiffies

end Led

structure SysledTimer where
  expires : ℕ
  data : Level
deriving DecidableEq

structure Leds where
  jiffies : ℕ
  buffer : List UInt8
  pulsePattern : BitVec 32
  led : ℕ → Led
  sysBlinkingFlag : Bool
  sysledTimer : Option SysledTimer

inductive WriteResult
  | enodev | enomem | einval
  | count (n : ℕ)
deriving DecidableEq, Repr

inductive LedEvent
  | elapse (n : ℕ)
  | write (gpio : ℕ) (buf : List UInt8) (readable : ℕ)
  | expire (gpio : ℕ)
  | blink

def strtoulLoop (base : ℕ) (result : BitVec 32) : List UInt8 → Option (BitVec 32)
  | [] => none
  | c :: cp =>
    match hexValue c with
    | some value =>
      if value < base then strtoulLoop base (result * BitVec.ofNat 32 base + BitVec.ofNat 32 value) cp else some result
    | none => some result

/-- With base 10 there is no prefix to skip. -/
def simpleStrtoul (cp : List UInt8) : Option (BitVec 32) := strtoulLoop 10 0#32 cp

/-- What cannot be read is filled up with zeros. -/
def copyFromUser (buffer buf : List UInt8) (readable : ℕ) : List UInt8 :=
  buf.take readable ++ List.replicate (buf.length - readable) 0 ++ buffer.drop buf.length

namespace Leds

def setLed (s : Leds) (gpio : ℕ) (led : Led) : Leds := { s with led := update s.led gpio led }

def ledPulse (s : Leds) (lednum : ℕ) : Option Leds :=
  ((s.led lednum).ledPulse s.pulsePattern lednum s.jiffies).map (s.setLed lednum)

def stopBlinkingSysLed (s : Leds) (stopValue : ℤ) : Leds :=
  if stopValue > 0 then { s with sysBlinkingFlag := false } else s

def writeValue (s : Leds) (gpio : ℕ) (gpioval : BitVec 32) (count : ℕ) : Option (WriteResult × Leds) :=
  let s := s.setLed gpio (s.led gpio).stop
  if gpioval = 0#32 then
    let s := s.setLed gpio ((s.led gpio).gpioSet gpio .gpioOff)
    some (.count count, if gpio = systemLedGpio then s.stopBlinkingSysLed 1 else s)
  else if gpioval = 1#32 then some (.count count, s.setLed gpio ((s.led gpio).gpioSet gpio .gpioOn))
  else
    let s := { s with pulsePattern := gpioval - 2#32 }
    if s.pulsePattern.toInt ≥ (numPatterns : ℤ) then some (.einval, s)
    else (s.ledPulse gpio).map fun s => (.count count, s)

/-- `readable` bytes of the caller's buffer can be read. -/
def gpioWrite (s : Leds) (gpio : ℕ) (buf : List UInt8) (readable : ℕ) : Option (WriteResult × Leds) :=
  if gpio ≥ maxGpios then some (.enodev, s)
  else if buf.length > bufferSize then none
  else
    let s := { s with buffer := copyFromUser s.buffer buf readable }
    if readable < buf.length then some (.enomem, s)
    else (simpleStrtoul s.buffer).bind fun gpioval => s.writeValue gpio gpioval buf.length

def blinkingSystemLed (s : Leds) (gpioOnoff : Level) : Leds :=
  if s.sysBlinkingFlag then
    let s := s.setLed systemLedGpio ((s.led systemLedGpio).gpioSet systemLedGpio gpioOnoff)
    { s with
      sysledTimer := some ⟨secsToJiffies 1 + s.jiffies, if gpioOnoff = .gpioOn then .gpioOff else .gpioOn⟩ }
  else s.setLed systemLedGpio ((s.led systemLedGpio).gpioSet systemLedGpio .gpioOff)

def step (s : Leds) : LedEvent → Option Leds
  | .elapse n => some { s with jiffies := s.jiffies + n }
  | .write gpio buf readable => (s.gpioWrite gpio buf readable).map Prod.snd
  | .expire gpio =>
    (s.led gpio).pulseTimer.bind fun expires =>
      if expires ≤ s.jiffies then (s.setLed gpio { s.led gpio with pulseTimer := none }).ledPulse gpio else none
  | .blink =>
    s.sysledTimer.bind fun t =>
      if t.expires ≤ s.jiffies then some ({ s with sysledTimer := none }.blinkingSystemLed t.data) else none

/-- Before `gpio_init`: the lines have any levels, and the system LED may already blink. -/
def loaded (jiffies : ℕ) (lines : ℕ → Level) (sysBlinkingFlag : Bool) (sysledTimer : Option SysledTimer) : Leds where
  jiffies := jiffies
  buffer := List.replicate bufferSize 0
  pulsePattern := 0#32
  led gpio := ⟨lines gpio, none, 0, 0, none⟩
  sysBlinkingFlag := sysBlinkingFlag
  sysledTimer := sysledTimer

def initLed (s : Leds) (gpio : ℕ) : Leds :=
  s.setLed gpio
    { (s.led gpio).gpioSet gpio .gpioOff with pattern := none, currIndex := 0, currRepetition := 0 }

def gpioInit (s : Leds) (outputLeds : List ℕ) : Leds := (outputLeds.take maxGpios).foldl initLed s

end Leds

end Wap610n.Gpio
