import Wap610n.Gpio.Led

namespace Wap610n.Gpio

open Function CString Transition

inductive Action
  | turnOff | turnOn
  | pattern (p : Fin numPatterns)
  | refused

def select (gpioval : BitVec 32) : Option Action :=
  if gpioval.toNat = 0 then some .turnOff
  else if gpioval.toNat = 1 then some .turnOn
  else if h : gpioval.toNat ≤ 6 then some (.pattern ⟨gpioval.toNat - 2, show gpioval.toNat - 2 < 5 by omega⟩)
  else if gpioval.toNat ≤ 2 ^ 31 + 1 then some .refused
  else none

theorem select_some {v : BitVec 32} {a : Action} (h : select v = some a) :
    (a = .turnOff ∧ v.toNat = 0) ∨ (a = .turnOn ∧ v.toNat = 1) ∨ (∃ p, a = .pattern p ∧ v.toNat = p + 2) ∨
      (a = .refused ∧ 7 ≤ v.toNat ∧ v.toNat ≤ 2 ^ 31 + 1) := by
  unfold select at h
  split_ifs at h with h0 h1 h6 hbig
  · exact Or.inl ⟨(Option.some.inj h).symm, h0⟩
  · exact Or.inr (Or.inl ⟨(Option.some.inj h).symm, h1⟩)
  · exact Or.inr (Or.inr (Or.inl ⟨_, (Option.some.inj h).symm, by dsimp only; omega⟩))
  · exact Or.inr (Or.inr (Or.inr ⟨(Option.some.inj h).symm, by omega, hbig⟩))

theorem select_none {v : BitVec 32} : select v = none ↔ 2 ^ 31 + 1 < v.toNat := by
  unfold select
  split_ifs
  all_goals simp only [false_iff, true_iff]
  all_goals omega

def Led.cleared (led : Led) : Led := { led with pulseTimer := none, pattern := none }

namespace Action

def result (a : Action) (count : ℕ) : WriteResult :=
  match a with
  | refused => .einval
  | turnOff | turnOn | pattern _ => .count count

def firstPulse (p : Fin numPatterns) : ℤ := (ledPatterns.get p).timerVals[0]?.getD 0

def led (a : Action) (gpio jiffies : ℕ) (led : Led) : Led :=
  match a with
  | turnOff => led.cleared.gpioSet gpio .gpioOff
  | turnOn => led.cleared.gpioSet gpio .gpioOn
  | pattern p =>
    { led.cleared.gpioSet gpio .gpioOn with
      pattern := some p, currIndex := 1, currRepetition := 0, pulseTimer := some (firstPulse p + jiffies) }
  | refused => led.cleared

def sysBlinkingFlag (a : Action) (gpio : ℕ) (flag : Bool) : Bool :=
  match a with
  | turnOff => if gpio = systemLedGpio then false else flag
  | turnOn | pattern _ | refused => flag

end Action

namespace Led

def Stopped (led : Led) : Prop := led.pulseTimer = none → led.pattern = none

theorem stop_eq {led : Led} (h : led.Stopped) : led.stop = led.cleared := by
  unfold stop cleared
  cases ht : led.pulseTimer with
  | some t => rfl
  | none =>
    have hp := h ht
    obtain ⟨level, pattern, currIndex, currRepetition, pulseTimer⟩ := led
    simp only at ht hp
    simp [ht, hp]

theorem gpioSet_fields (led : Led) (gpio : ℕ) (level : Level) :
    (led.gpioSet gpio level).pattern = led.pattern ∧ (led.gpioSet gpio level).pulseTimer = led.pulseTimer := by
  unfold gpioSet
  split_ifs <;> exact ⟨rfl, rfl⟩

theorem stopped_gpioSet {led : Led} (h : led.Stopped) (gpio : ℕ) (level : Level) : (led.gpioSet gpio level).Stopped := by
  obtain ⟨hp, ht⟩ := led.gpioSet_fields gpio level
  intro hnone
  rw [hp]
  exact h (ht ▸ hnone)

theorem stopped_pulse {led led' : Led} {p : LedPattern} {lednum jiffies : ℕ}
    (h : led.pulse p lednum jiffies = some led') : led'.Stopped := by
  unfold pulse at h
  obtain ⟨timerVal, -, h⟩ := Option.bind_eq_some_iff.mp h
  dsimp only at h
  split at h
  · obtain rfl := Option.some.inj h
    exact fun _ => rfl
  · obtain ⟨pulseLen, -, rfl⟩ := Option.map_eq_some_iff.mp h
    intro hnone
    rw [(gpioSet_fields _ _ _).2] at hnone
    exact absurd hnone (by simp)

theorem stopped_ledPulse {led led' : Led} {pulsePattern : BitVec 32} {lednum jiffies : ℕ}
    (h : led.ledPulse pulsePattern lednum jiffies = some led') : led'.Stopped := by
  obtain ⟨latched, -, h⟩ := Option.bind_eq_some_iff.mp h
  obtain ⟨p, -, h⟩ := Option.bind_eq_some_iff.mp h
  exact stopped_pulse h

theorem firstPulse_spec : ∀ p : Fin numPatterns, (ledPatterns.get p).timerVals[0]? = some (Action.firstPulse p) ∧
    Action.firstPulse p ≠ -1 ∧ (ledPatterns.get p).repetitionCount = -1 := by decide

theorem ledPulse_first {led : Led} {pulsePattern : BitVec 32} (p : Fin numPatterns) (hnone : led.pattern = none)
    (hp : pulsePattern.toInt = p) (gpio jiffies : ℕ) :
    led.ledPulse pulsePattern gpio jiffies = some { led.gpioSet gpio .gpioOn with
      pattern := some p, currIndex := 1, currRepetition := 0,
      pulseTimer := some (Action.firstPulse p + jiffies) } := by
  obtain ⟨hval, hne, hrep⟩ := firstPulse_spec p
  have hlatch : led.latch pulsePattern = some { led with pattern := some p, currIndex := 0, currRepetition := 0 } := by
    have hlt : (p : ℤ) < numPatterns := Int.ofNat_lt.mpr p.isLt
    unfold latch
    rw [hnone]
    dsimp only
    rw [dif_pos ⟨by rw [hp]; exact Int.natCast_nonneg _, by rw [hp]; exact hlt⟩]
    congr
    rw [hp, Int.toNat_natCast]
  unfold ledPulse
  rw [hlatch, Option.bind_some, Option.bind_some]
  change pulse _ (ledPatterns.get p) gpio jiffies = _
  unfold pulse
  dsimp only
  rw [hval, Option.bind_some]
  unfold nextRepetition
  rw [if_neg hne, if_neg (by rw [hrep]; simp)]
  dsimp only
  rw [hval, Option.map_some, if_neg (show ¬0 % 2 = 1 by decide)]
  unfold gpioSet
  split_ifs
  · rfl
  · rfl

end Led

namespace Leds

variable {s s' : Leds} {gpio : ℕ}

theorem toInt_sub_two (v : BitVec 32) (h : 2 ≤ v.toNat) :
    (v - 2#32).toInt = if v.toNat ≤ 2 ^ 31 + 1 then (v.toNat : ℤ) - 2 else v.toNat - 2 - 2 ^ 32 := by
  have hlt := v.isLt
  have hsub : (v - 2#32).toNat = v.toNat - 2 := by
    rw [BitVec.toNat_sub]
    simp only [BitVec.toNat_ofNat]
    omega
  rw [BitVec.toInt_eq_toNat_cond, hsub]
  split_ifs <;> omega

theorem writeValue_select (h : (s.led gpio).Stopped) {v : BitVec 32} {a : Action} (ha : select v = some a)
    (count : ℕ) :
    ∃ s', s.writeValue gpio v count = some (a.result count, s') ∧
      s'.led = update s.led gpio (a.led gpio s.jiffies (s.led gpio)) ∧
      s'.sysBlinkingFlag = a.sysBlinkingFlag gpio s.sysBlinkingFlag ∧ s'.jiffies = s.jiffies ∧ s'.buffer = s.buffer := by
  have hzero : v = 0#32 ↔ v.toNat = 0 := by rw [← BitVec.toNat_inj]; rfl
  have hone : v = 1#32 ↔ v.toNat = 1 := by rw [← BitVec.toNat_inj]; rfl
  have hnum : (numPatterns : ℤ) = 5 := rfl
  unfold writeValue
  dsimp only
  rw [Led.stop_eq h]
  unfold select at ha
  split_ifs at ha with h0 h1 h6 hbig
  · obtain rfl := Option.some.inj ha
    rw [if_pos (hzero.mpr h0)]
    refine ⟨_, rfl, ?_, ?_, ?_, ?_⟩
    · split_ifs <;> simp [setLed, stopBlinkingSysLed, Action.led]
    · unfold Action.sysBlinkingFlag
      dsimp only
      split_ifs <;> rfl
    · split_ifs <;> rfl
    · split_ifs <;> rfl
  · obtain rfl := Option.some.inj ha
    rw [if_neg (fun hv => h0 (hzero.mp hv)), if_pos (hone.mpr h1)]
    exact ⟨_, rfl, by simp [setLed, Action.led], rfl, rfl, rfl⟩
  · obtain rfl := Option.some.inj ha
    have hint := toInt_sub_two v (by omega)
    rw [if_pos (by omega)] at hint
    rw [if_neg (fun hv => h0 (hzero.mp hv)), if_neg (fun hv => h1 (hone.mp hv)),
      if_neg (show ¬(v - 2#32).toInt ≥ (numPatterns : ℤ) by omega)]
    have hp : (v - 2#32).toInt = ((⟨v.toNat - 2, show v.toNat - 2 < 5 by omega⟩ : Fin numPatterns) : ℕ) := by
      dsimp only
      omega
    have hcleared : (s.led gpio).cleared.pattern = none := rfl
    have hpulse := Led.ledPulse_first _ hcleared hp gpio s.jiffies
    unfold ledPulse
    simp only [setLed, update_self, hpulse, Option.map_some]
    exact ⟨_, rfl, by simp [Action.led], rfl, rfl, rfl⟩
  · obtain rfl := Option.some.inj ha
    have hint := toInt_sub_two v (by omega)
    rw [if_pos hbig] at hint
    rw [if_neg (fun hv => h0 (hzero.mp hv)), if_neg (fun hv => h1 (hone.mp hv)),
      if_pos (show (v - 2#32).toInt ≥ (numPatterns : ℤ) by omega)]
    exact ⟨_, rfl, by simp [setLed, Action.led], rfl, rfl, rfl⟩

theorem writeValue_wild (h : (s.led gpio).Stopped) {v : BitVec 32} (hv : select v = none) (count : ℕ) :
    s.writeValue gpio v count = none := by
  have hbig := select_none.mp hv
  have hint := toInt_sub_two v (by omega)
  have hlt := v.isLt
  have hzero : v ≠ 0#32 := by
    rintro rfl
    exact absurd hbig (by decide)
  have hone : v ≠ 1#32 := by
    rintro rfl
    exact absurd hbig (by decide)
  have hnum : (numPatterns : ℤ) = 5 := rfl
  rw [if_neg (by omega)] at hint
  unfold writeValue
  dsimp only
  rw [Led.stop_eq h, if_neg hzero, if_neg hone, if_neg (by omega)]
  unfold ledPulse Led.ledPulse Led.latch
  simp only [setLed, update_self]
  rw [dif_neg (by omega)]
  rfl

structure Inv (s : Leds) : Prop where
  buffer : s.buffer.length = bufferSize
  stopped : ∀ gpio, (s.led gpio).Stopped

theorem Inv.setLed (h : s.Inv) (gpio : ℕ) {led : Led} (hled : led.Stopped) : (s.setLed gpio led).Inv := by
  refine ⟨h.buffer, fun g => ?_⟩
  simp only [Leds.setLed, update_apply]
  split_ifs
  · exact hled
  · exact h.stopped g

theorem Inv.ledPulse {led : Led} (h : s.Inv) (hs : (s.setLed gpio led).ledPulse gpio = some s') : s'.Inv := by
  obtain ⟨led', hpulse, rfl⟩ := Option.map_eq_some_iff.mp hs
  have hset : (s.setLed gpio led).setLed gpio led' = s.setLed gpio led' := by simp [Leds.setLed]
  rw [hset]
  exact h.setLed gpio (Led.stopped_ledPulse hpulse)

theorem stopped_stop {led : Led} (h : led.Stopped) : led.stop.Stopped := by
  rw [Led.stop_eq h]
  exact fun _ => rfl

theorem Inv.writeValue (h : s.Inv) {v : BitVec 32} {count : ℕ} {r : WriteResult}
    (hs : s.writeValue gpio v count = some (r, s')) : s'.Inv := by
  have hstop := h.setLed gpio (stopped_stop (h.stopped gpio))
  unfold Leds.writeValue at hs
  dsimp only at hs
  split at hs
  · obtain ⟨-, rfl⟩ := Prod.mk.inj (Option.some.inj hs)
    have hoff := hstop.setLed gpio (Led.stopped_gpioSet (hstop.stopped gpio) gpio .gpioOff)
    split
    · exact ⟨hoff.buffer, hoff.stopped⟩
    · exact hoff
  · split at hs
    · obtain ⟨-, rfl⟩ := Prod.mk.inj (Option.some.inj hs)
      exact hstop.setLed gpio (Led.stopped_gpioSet (hstop.stopped gpio) gpio .gpioOn)
    · split at hs
      · obtain ⟨-, rfl⟩ := Prod.mk.inj (Option.some.inj hs)
        exact ⟨hstop.buffer, hstop.stopped⟩
      · obtain ⟨u, hu, heq⟩ := Option.map_eq_some_iff.mp hs
        obtain ⟨-, rfl⟩ := Prod.mk.inj heq
        exact Inv.ledPulse (s := { s with pulsePattern := v - 2#32 }) ⟨h.buffer, h.stopped⟩ hu

theorem copyFromUser_length {buffer buf : List UInt8} (readable : ℕ) (h : buf.length ≤ buffer.length) :
    (copyFromUser buffer buf readable).length = buffer.length := by
  simp only [copyFromUser, List.length_append, List.length_take, List.length_replicate, List.length_drop]
  omega

theorem Inv.gpioWrite (h : s.Inv) {buf : List UInt8} {readable : ℕ} {r : WriteResult}
    (hs : s.gpioWrite gpio buf readable = some (r, s')) : s'.Inv := by
  unfold Leds.gpioWrite at hs
  dsimp only at hs
  split_ifs at hs with hdev hlong hfault
  · obtain ⟨-, rfl⟩ := Prod.mk.inj (Option.some.inj hs)
    exact h
  · obtain ⟨-, rfl⟩ := Prod.mk.inj (Option.some.inj hs)
    refine ⟨?_, h.stopped⟩
    rw [copyFromUser_length readable (by rw [h.buffer]; omega), h.buffer]
  · obtain ⟨v, -, hv⟩ := Option.bind_eq_some_iff.mp hs
    refine Inv.writeValue (s := { s with buffer := copyFromUser s.buffer buf readable }) ⟨?_, h.stopped⟩ hv
    rw [copyFromUser_length readable (by rw [h.buffer]; omega), h.buffer]

theorem Inv.blink (h : s.Inv) (level : Level) : (s.blinkingSystemLed level).Inv := by
  unfold blinkingSystemLed
  split
  · have hset := h.setLed systemLedGpio (Led.stopped_gpioSet (h.stopped systemLedGpio) systemLedGpio level)
    exact ⟨hset.buffer, hset.stopped⟩
  · exact h.setLed systemLedGpio (Led.stopped_gpioSet (h.stopped systemLedGpio) systemLedGpio .gpioOff)

theorem Inv.step (h : s.Inv) {e : LedEvent} (hs : s.step e = some s') : s'.Inv := by
  cases e with
  | elapse n => exact Option.some.inj hs ▸ ⟨h.buffer, h.stopped⟩
  | write gpio buf readable =>
    obtain ⟨⟨r, u⟩, hr, rfl⟩ := Option.map_eq_some_iff.mp hs
    exact h.gpioWrite hr
  | expire gpio =>
    obtain ⟨t, -, hrun⟩ := Option.bind_eq_some_iff.mp hs
    split_ifs at hrun
    exact h.ledPulse hrun
  | blink =>
    obtain ⟨t, -, hrun⟩ := Option.bind_eq_some_iff.mp hs
    split_ifs at hrun
    exact Option.some.inj hrun ▸ Inv.blink (s := { s with sysledTimer := none }) ⟨h.buffer, h.stopped⟩ t.data

theorem inv_gpioInit (jiffies : ℕ) (lines : ℕ → Level) (flag : Bool) (timer : Option SysledTimer)
    (outputLeds : List ℕ) : ((loaded jiffies lines flag timer).gpioInit outputLeds).Inv := by
  have hloaded : (loaded jiffies lines flag timer).Inv := ⟨List.length_replicate, fun _ _ => rfl⟩
  unfold gpioInit
  generalize outputLeds.take maxGpios = leds
  generalize loaded jiffies lines flag timer = s₀ at hloaded
  induction leds generalizing s₀ with
  | nil => exact hloaded
  | cons gpio leds ih => exact ih _ (hloaded.setLed gpio fun _ => rfl)

theorem inv_of_exec {jiffies : ℕ} {lines : ℕ → Level} {flag : Bool} {timer : Option SysledTimer} {outputLeds : List ℕ}
    {es : List LedEvent} (h : exec step ((loaded jiffies lines flag timer).gpioInit outputLeds) es = some s) : s.Inv := by
  apply exec_inv (inv_gpioInit _ _ _ _ _) _ (fun _ _ _ _ _ _ _ _ => trivial) h
  intro s e s' hs hstep _
  exact hs.step hstep

end Leds

end Wap610n.Gpio
