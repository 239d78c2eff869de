import Wap610n.Gpio.LedWrite
import Wap610n.Lib.Bytes

namespace Wap610n.Gpio

open Function Bytes CString Transition

section Number

variable {base : ℕ} {r v : BitVec 32}

theorem strtoulLoop_append {a : List UInt8} (h : strtoulLoop base r a = some v) (b : List UInt8) :
    strtoulLoop base r (a ++ b) = some v := by
  induction a generalizing r with
  | nil => cases h
  | cons c a ih =>
    rw [List.cons_append, strtoulLoop]
    rw [strtoulLoop] at h
    cases hc : hexValue c with
    | none => rwa [hc] at h
    | some value =>
      rw [hc] at h
      dsimp only at h ⊢
      split_ifs at h ⊢
      · exact ih h
      · exact h

theorem strtoulLoop_digits {a b : List UInt8} (h : strtoulLoop base r a = none)
    (hb : ∀ r, strtoulLoop base r b = none) : strtoulLoop base r (a ++ b) = none := by
  induction a generalizing r with
  | nil => exact hb r
  | cons c a ih =>
    rw [List.cons_append, strtoulLoop]
    rw [strtoulLoop] at h
    cases hc : hexValue c with
    | none =>
      rw [hc] at h
      cases h
    | some value =>
      rw [hc] at h
      dsimp only at h ⊢
      split_ifs at h ⊢
      exact ih h

theorem strtoulLoop_zeros (n : ℕ) (r : BitVec 32) : strtoulLoop 10 r (List.replicate n 48) = none := by
  induction n generalizing r with
  | zero => rfl
  | succ n ih => exact ih _

end Number

namespace Leds

variable {s s' : Leds} {gpio : ℕ} {buf : List UInt8}

theorem copyFromUser_all (buffer buf : List UInt8) :
    copyFromUser buffer buf buf.length = buf ++ buffer.drop buf.length := by
  simp [copyFromUser]

theorem gpioWrite_eq (hgpio : gpio < maxGpios) (hlen : buf.length ≤ bufferSize) :
    s.gpioWrite gpio buf buf.length = (simpleStrtoul (buf ++ s.buffer.drop buf.length)).bind fun gpioval =>
      { s with buffer := buf ++ s.buffer.drop buf.length }.writeValue gpio gpioval buf.length := by
  unfold gpioWrite
  rw [if_neg (by omega), if_neg (by omega)]
  dsimp only
  rw [if_neg (by omega), copyFromUser_all]

theorem gpioWrite_select (h : s.Inv) (hgpio : gpio < maxGpios) (hlen : buf.length ≤ bufferSize) {v : BitVec 32}
    {a : Action} (hv : simpleStrtoul (buf ++ s.buffer.drop buf.length) = some v) (ha : select v = some a) :
    ∃ s', s.gpioWrite gpio buf buf.length = some (a.result buf.length, s') ∧
      s'.led = update s.led gpio (a.led gpio s.jiffies (s.led gpio)) ∧
      s'.sysBlinkingFlag = a.sysBlinkingFlag gpio s.sysBlinkingFlag ∧ s'.jiffies = s.jiffies ∧
      s'.buffer = buf ++ s.buffer.drop buf.length := by
  rw [gpioWrite_eq hgpio hlen, hv]
  exact writeValue_select (s := { s with buffer := buf ++ s.buffer.drop buf.length }) (h.stopped gpio) ha buf.length

theorem gpioWrite_wild (h : s.Inv) (hgpio : gpio < maxGpios) (hlen : buf.length ≤ bufferSize) {v : BitVec 32}
    (hv : simpleStrtoul (buf ++ s.buffer.drop buf.length) = some v) (ha : select v = none) :
    s.gpioWrite gpio buf buf.length = none := by
  rw [gpioWrite_eq hgpio hlen, hv]
  exact writeValue_wild (s := { s with buffer := buf ++ s.buffer.drop buf.length }) (h.stopped gpio) ha buf.length

def WriteChecked (s : Leds) (gpio : ℕ) (buf : List UInt8) : Prop :=
  ∃ r s', s.gpioWrite gpio buf buf.length = some (r, s') ∧
    ((r = .count buf.length ∧ ∃ v, simpleStrtoul s'.buffer = some v ∧
        (v = 0#32 ∨ v = 1#32 ∨ ∃ p : Fin numPatterns, v.toNat = p + 2 ∧ (s'.led gpio).pattern = some p)) ∨
      (r = .einval ∧ s'.led gpio = s.led gpio))

theorem led_cleared_iff {led : Led} (h : led.Stopped) : led.cleared = led ↔ led.pulseTimer = none := by
  constructor
  · intro heq
    rw [← heq]
    rfl
  · intro hnone
    have hp := h hnone
    obtain ⟨level, pattern, currIndex, currRepetition, pulseTimer⟩ := led
    simp only at hnone hp
    rw [Led.cleared, hnone, hp]

theorem select_writeChecked {led : Led} {v : BitVec 32} {a : Action} {count jiffies : ℕ} (h : led.Stopped)
    (ha : select v = some a) (hv : simpleStrtoul s'.buffer = some v) (hled : s'.led gpio = a.led gpio jiffies led) :
    (∃ r u, some (a.result count, s') = some (r, u) ∧
      ((r = .count count ∧ ∃ v, simpleStrtoul u.buffer = some v ∧
          (v = 0#32 ∨ v = 1#32 ∨ ∃ p : Fin numPatterns, v.toNat = p + 2 ∧ (u.led gpio).pattern = some p)) ∨
        (r = .einval ∧ u.led gpio = led))) ↔
      v.toNat ≤ 6 ∨ v.toNat ≤ 2 ^ 31 + 1 ∧ led.pulseTimer = none := by
  constructor
  · rintro ⟨r, u, heq, hu⟩
    obtain ⟨rfl, rfl⟩ := Prod.mk.inj (Option.some.inj heq)
    rcases select_some ha with ⟨rfl, h0⟩ | ⟨rfl, h1⟩ | ⟨p, rfl, hp⟩ | ⟨rfl, -, hle⟩
    · omega
    · omega
    · have hlt : (p : ℕ) < 5 := p.isLt
      omega
    · rcases hu with ⟨hr, -⟩ | ⟨-, hsame⟩
      · cases hr
      · rw [hled] at hsame
        exact Or.inr ⟨hle, (led_cleared_iff h).mp hsame⟩
  · intro hle
    refine ⟨_, s', rfl, ?_⟩
    rcases select_some ha with ⟨rfl, h0⟩ | ⟨rfl, h1⟩ | ⟨p, rfl, hp⟩ | ⟨rfl, h7, -⟩
    · exact Or.inl ⟨rfl, v, hv, Or.inl (BitVec.eq_of_toNat_eq h0)⟩
    · exact Or.inl ⟨rfl, v, hv, Or.inr (Or.inl (BitVec.eq_of_toNat_eq h1))⟩
    · refine Or.inl ⟨rfl, v, hv, Or.inr (Or.inr ⟨p, hp, ?_⟩)⟩
      rw [hled]
      rfl
    · refine Or.inr ⟨rfl, ?_⟩
      rw [hled]
      exact (led_cleared_iff h).mpr (hle.resolve_left (by omega)).2

theorem writeChecked_iff_of_inv (h : s.Inv) (hgpio : gpio < maxGpios) (buf : List UInt8) :
    s.WriteChecked gpio buf ↔ buf.length ≤ bufferSize ∧
      ∃ v, simpleStrtoul (buf ++ s.buffer.drop buf.length) = some v ∧
        (v.toNat ≤ 6 ∨ v.toNat ≤ 2 ^ 31 + 1 ∧ (s.led gpio).pulseTimer = none) := by
  unfold WriteChecked
  rcases Nat.lt_or_ge bufferSize buf.length with hlong | hlen
  · have hwrite : s.gpioWrite gpio buf buf.length = none := by
      unfold gpioWrite
      rw [if_neg (by omega), if_pos hlong]
    rw [hwrite]
    constructor
    · rintro ⟨r, s', ⟨⟩, -⟩
    · rintro ⟨hle, -⟩
      omega
  cases hv : simpleStrtoul (buf ++ s.buffer.drop buf.length) with
  | none =>
    rw [gpioWrite_eq hgpio hlen, hv]
    constructor
    · rintro ⟨r, s', ⟨⟩, -⟩
    · rintro ⟨-, v, ⟨⟩, -⟩
  | some v =>
    cases ha : select v with
    | none =>
      rw [gpioWrite_wild h hgpio hlen hv ha]
      have hbig := select_none.mp ha
      constructor
      · rintro ⟨r, s', ⟨⟩, -⟩
      · rintro ⟨-, w, hw, hle⟩
        obtain rfl := Option.some.inj hw
        omega
    | some a =>
      obtain ⟨s', hs', hled, -, -, hbuffer⟩ := gpioWrite_select h hgpio hlen hv ha
      have hnumber : simpleStrtoul s'.buffer = some v := by
        rw [hbuffer]
        exact hv
      rw [hs', select_writeChecked (h.stopped gpio) ha hnumber (by rw [hled, update_self])]
      constructor
      · intro hw
        exact ⟨hlen, v, rfl, hw⟩
      · rintro ⟨-, w, hw, hle⟩
        exact Option.some.inj hw ▸ hle

section Runs

variable {jiffies : ℕ} {lines : ℕ → Level} {flag : Bool} {timer : Option SysledTimer} {outputLeds : List ℕ}

theorem write_checked_iff {es : List LedEvent}
    (h : exec step ((loaded jiffies lines flag timer).gpioInit outputLeds) es = some s) (hgpio : gpio < maxGpios)
    (buf : List UInt8) :
    s.WriteChecked gpio buf ↔ buf.length ≤ bufferSize ∧
      ∃ v, simpleStrtoul (buf ++ s.buffer.drop buf.length) = some v ∧
        (v.toNat ≤ 6 ∨ v.toNat ≤ 2 ^ 31 + 1 ∧ (s.led gpio).pulseTimer = none) :=
  writeChecked_iff_of_inv (inv_of_exec h) hgpio buf

theorem blinking_5 : ∃ s, exec step ((loaded 0 (fun _ => .gpioOff) false none).gpioInit [5])
    [.write 5 (text "2\n") 2] = some s ∧ (s.led 5).pulseTimer = some 100 ∧
      simpleStrtoul (text "9\n" ++ s.buffer.drop (text "9\n").length) = some 9#32 := ⟨_, rfl, rfl, rfl⟩

theorem write_checked_5 : ∃ s, exec step ((loaded 0 (fun _ => .gpioOff) false none).gpioInit [5])
    [.write 5 (text "2\n") 2] = some s ∧
      (s.WriteChecked 5 (text "9\n") ↔ (text "9\n").length ≤ bufferSize ∧
        ∃ v, simpleStrtoul (text "9\n" ++ s.buffer.drop (text "9\n").length) = some v ∧
          (v.toNat ≤ 6 ∨ v.toNat ≤ 2 ^ 31 + 1 ∧ (s.led 5).pulseTimer = none)) := by
  obtain ⟨s, hs, -⟩ := blinking_5
  exact ⟨s, hs, write_checked_iff hs (by decide) (text "9\n")⟩

theorem refused_write_stops_pattern : ∃ s s', exec step ((loaded 0 (fun _ => .gpioOff) false none).gpioInit [5])
    [.write 5 (text "2\n") 2] = some s ∧ s.gpioWrite 5 (text "9\n") 2 = some (.einval, s') ∧
      (s.led 5).pulseTimer = some 100 ∧ (s'.led 5).pulseTimer = none ∧ ¬s.WriteChecked 5 (text "9\n") := by
  obtain ⟨s, hs, htimer, hnumber⟩ := blinking_5
  have hinv := inv_of_exec hs
  obtain ⟨s', hs', hled, -⟩ := gpioWrite_select hinv (show 5 < maxGpios by decide) (by decide) hnumber rfl
  refine ⟨s, s', hs, hs', htimer, ?_, ?_⟩
  · rw [hled, update_self]
    rfl
  · rw [writeChecked_iff_of_inv hinv (by decide)]
    rintro ⟨-, v, hv, hle⟩
    obtain rfl := Option.some.inj (hnumber.symm.trans hv)
    rcases hle with hle | ⟨-, hnone⟩
    · exact absurd hle (by decide)
    · exact absurd (htimer.symm.trans hnone) (by simp)

end Runs

end Leds

end Wap610n.Gpio
