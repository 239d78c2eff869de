import Wap610n.Gpio.LedChecked

namespace Wap610n.Gpio.Leds

open Function Bytes Transition

def view (s : Leds) (gpio : ℕ) : ℕ × Led × Bool := (s.jiffies, s.led gpio, s.sysBlinkingFlag)

def SameWrite (s₁ s₂ : Leds) (gpio : ℕ) (buf : List UInt8) : Prop :=
  ∃ r s₁' s₂', s₁.gpioWrite gpio buf buf.length = some (r, s₁') ∧ s₂.gpioWrite gpio buf buf.length = some (r, s₂') ∧
    s₁'.view gpio = s₂'.view gpio

variable {s s₁ s₂ : Leds} {gpio : ℕ} {buf : List UInt8}

theorem sameWrite_of_number (h₁ : s₁.Inv) (h₂ : s₂.Inv) (hgpio : gpio < maxGpios) (hlen : buf.length ≤ bufferSize)
    {v : BitVec 32} (hv : simpleStrtoul buf = some v) (hle : v.toNat ≤ 2 ^ 31 + 1)
    (hview : s₁.view gpio = s₂.view gpio) : SameWrite s₁ s₂ gpio buf := by
  obtain ⟨a, ha⟩ : ∃ a, select v = some a := by
    apply Option.ne_none_iff_exists'.mp
    rw [Ne, select_none]
    omega
  obtain ⟨s₁', hs₁, hled₁, hflag₁, hj₁, -⟩ := gpioWrite_select h₁ hgpio hlen (strtoulLoop_append hv _) ha
  obtain ⟨s₂', hs₂, hled₂, hflag₂, hj₂, -⟩ := gpioWrite_select h₂ hgpio hlen (strtoulLoop_append hv _) ha
  refine ⟨_, s₁', s₂', hs₁, hs₂, ?_⟩
  unfold view at hview ⊢
  obtain ⟨hj, hrest⟩ := Prod.mk.inj hview
  obtain ⟨hled, hflag⟩ := Prod.mk.inj hrest
  rw [hled₁, hled₂, hflag₁, hflag₂, hj₁, hj₂, update_self, update_self, hj, hled, hflag]

def otherLed (gpio : ℕ) : ℕ := if gpio = 0 then 1 else 0

theorem otherLed_spec (gpio : ℕ) : otherLed gpio < maxGpios ∧ gpio ≠ otherLed gpio ∧ otherLed gpio ≠ systemLedGpio := by
  unfold otherLed maxGpios systemLedGpio
  split_ifs <;> omega

theorem exec_fill (h : s.Inv) (hbuf : buf.length = bufferSize) {v : BitVec 32} {a : Action}
    (hv : simpleStrtoul buf = some v) (ha : select v = some a) (gpio : ℕ) :
    ∃ s', exec step s [.write (otherLed gpio) buf buf.length] = some s' ∧ s'.buffer = buf ∧
      s'.view gpio = s.view gpio := by
  obtain ⟨hlt, hne, hsys⟩ := otherLed_spec gpio
  obtain ⟨s', hs', hled, hflag, hj, hbuffer⟩ := gpioWrite_select h hlt hbuf.le (strtoulLoop_append hv _) ha
  refine ⟨s', ?_, ?_, ?_⟩
  · rw [exec, step, hs']
    rfl
  · rw [hbuffer, hbuf, List.drop_of_length_le h.buffer.le, List.append_nil]
  · have hkeep : a.sysBlinkingFlag (otherLed gpio) s.sysBlinkingFlag = s.sysBlinkingFlag := by
      cases a with
      | turnOff => exact if_neg hsys
      | turnOn | pattern | refused => rfl
    rw [view, hled, hflag, hj, update_of_ne hne, hkeep, view]

def digitFill (c : UInt8) : List UInt8 := c :: List.replicate (bufferSize - 1) 0

theorem digitFill_length (c : UInt8) : (digitFill c).length = bufferSize := by
  rw [digitFill, List.length_cons, List.length_replicate]
  rfl

theorem empty_write_differs (h : s.Inv) (hgpio : gpio < maxGpios) :
    ∃ es₁ es₂ s₁ s₂, exec step s es₁ = some s₁ ∧ exec step s es₂ = some s₂ ∧ s₁.view gpio = s₂.view gpio ∧
      ¬SameWrite s₁ s₂ gpio [] := by
  obtain ⟨s₁, hs₁, hbuffer₁, hview₁⟩ := exec_fill (v := 0#32) h (digitFill_length 48) rfl rfl gpio
  obtain ⟨s₂, hs₂, hbuffer₂, hview₂⟩ := exec_fill (v := 2#32) h (digitFill_length 50) rfl rfl gpio
  refine ⟨_, _, s₁, s₂, hs₁, hs₂, hview₁.trans hview₂.symm, ?_⟩
  have hinv₁ : s₁.Inv := exec_inv h (fun _ _ _ hi he _ => hi.step he) (fun _ _ _ _ _ _ _ _ => trivial) hs₁
  have hinv₂ : s₂.Inv := exec_inv h (fun _ _ _ hi he _ => hi.step he) (fun _ _ _ _ _ _ _ _ => trivial) hs₂
  have hnil : ([] : List UInt8).length ≤ bufferSize := Nat.zero_le _
  obtain ⟨u₁, hu₁, hled₁, -⟩ := gpioWrite_select (v := 0#32) hinv₁ hgpio hnil
    (by rw [hbuffer₁]; rfl) rfl
  obtain ⟨u₂, hu₂, hled₂, -⟩ := gpioWrite_select (v := 2#32) hinv₂ hgpio hnil
    (by rw [hbuffer₂]; rfl) rfl
  rintro ⟨r, s₁', s₂', hw₁, hw₂, hview⟩
  obtain ⟨-, rfl⟩ := Prod.mk.inj (Option.some.inj (hu₁.symm.trans hw₁))
  obtain ⟨-, rfl⟩ := Prod.mk.inj (Option.some.inj (hu₂.symm.trans hw₂))
  have hpattern : (u₁.led gpio).pattern = (u₂.led gpio).pattern :=
    congrArg (fun x : ℕ × Led × Bool => x.2.1.pattern) hview
  rw [hled₁, hled₂, update_self, update_self] at hpattern
  unfold Action.led at hpattern
  rw [(Led.gpioSet_fields _ _ _).1] at hpattern
  cases hpattern

theorem digits_write_outside (h : s.Inv) (hgpio : gpio < maxGpios) (hlen : buf.length ≤ bufferSize) (hne : buf ≠ [])
    (hv : simpleStrtoul buf = none) :
    ∃ es s₁, exec step s es = some s₁ ∧ s₁.gpioWrite gpio buf buf.length = none := by
  obtain ⟨k, hk⟩ : ∃ k, buf.length = k + 1 := Nat.exists_eq_succ_of_ne_zero (List.length_pos_iff.mpr hne).ne'
  have hfill : (List.replicate buf.length 0 ++ List.replicate (bufferSize - buf.length) (48 : UInt8)).length =
      bufferSize := by
    rw [List.length_append, List.length_replicate, List.length_replicate]
    omega
  have hnul : simpleStrtoul (List.replicate buf.length 0 ++ List.replicate (bufferSize - buf.length) 48) =
      some 0#32 := by
    rw [hk]
    rfl
  obtain ⟨s₁, hs₁, hbuffer, -⟩ := exec_fill h hfill hnul rfl gpio
  refine ⟨_, s₁, hs₁, ?_⟩
  rw [gpioWrite_eq hgpio hlen, hbuffer, List.drop_left' List.length_replicate]
  rw [simpleStrtoul, strtoulLoop_digits hv (strtoulLoop_zeros _)]
  rfl

theorem write_independent_iff (jiffies : ℕ) (lines : ℕ → Level) (flag : Bool) (timer : Option SysledTimer)
    (outputLeds : List ℕ) (hgpio : gpio < maxGpios) (hlen : buf.length ≤ bufferSize) :
    (∀ es₁ es₂ s₁ s₂, exec step ((loaded jiffies lines flag timer).gpioInit outputLeds) es₁ = some s₁ →
      exec step ((loaded jiffies lines flag timer).gpioInit outputLeds) es₂ = some s₂ →
      s₁.view gpio = s₂.view gpio → SameWrite s₁ s₂ gpio buf) ↔
      ∃ v, simpleStrtoul buf = some v ∧ v.toNat ≤ 2 ^ 31 + 1 := by
  have hinit := inv_gpioInit jiffies lines flag timer outputLeds
  constructor
  · intro h
    cases hv : simpleStrtoul buf with
    | some v =>
      refine ⟨v, rfl, ?_⟩
      by_contra hbig
      obtain ⟨r, s', -, hs', -⟩ := h [] [] _ _ rfl rfl rfl
      have hwild := gpioWrite_wild hinit hgpio hlen (strtoulLoop_append hv _)
        (select_none.mpr (Nat.lt_of_not_le hbig))
      exact absurd (hwild.symm.trans hs') (by simp)
    | none =>
      by_cases hnil : buf = []
      · subst hnil
        obtain ⟨es₁, es₂, s₁, s₂, hs₁, hs₂, hview, hdiffer⟩ := empty_write_differs hinit hgpio
        exact absurd (h es₁ es₂ s₁ s₂ hs₁ hs₂ hview) hdiffer
      · obtain ⟨es, s₁, hs₁, hnone⟩ := digits_write_outside hinit hgpio hlen hnil hv
        obtain ⟨r, s', -, hs', -⟩ := h es es s₁ s₁ hs₁ hs₁ rfl
        exact absurd (hnone.symm.trans hs') (by simp)
  · rintro ⟨v, hv, hle⟩ es₁ es₂ s₁ s₂ hs₁ hs₂ hview
    exact sameWrite_of_number (inv_of_exec hs₁) (inv_of_exec hs₂) hgpio hlen hv hle hview

theorem newline_independent :
    (∀ es₁ es₂ s₁ s₂, exec step ((loaded 0 (fun _ => .gpioOff) false none).gpioInit [5, 6]) es₁ = some s₁ →
      exec step ((loaded 0 (fun _ => .gpioOff) false none).gpioInit [5, 6]) es₂ = some s₂ →
      s₁.view 5 = s₂.view 5 → SameWrite s₁ s₂ 5 (text "5\n")) ↔
      ∃ v, simpleStrtoul (text "5\n") = some v ∧ v.toNat ≤ 2 ^ 31 + 1 :=
  write_independent_iff 0 (fun _ => .gpioOff) false none [5, 6] (by decide) (by decide)

theorem digit_depends_on_history : ∃ s₁ s₂ s₁' s₂',
    exec step ((loaded 0 (fun _ => .gpioOff) false none).gpioInit [5, 6]) [] = some s₁ ∧
      exec step ((loaded 0 (fun _ => .gpioOff) false none).gpioInit [5, 6]) [.write 6 (text "13\n") 3] = some s₂ ∧
      s₁.view 5 = s₂.view 5 ∧ s₁.gpioWrite 5 (text "5") 1 = some (.count 1, s₁') ∧
      s₂.gpioWrite 5 (text "5") 1 = some (.einval, s₂') ∧ ¬SameWrite s₁ s₂ 5 (text "5") := by
  obtain ⟨s₁, s₂, s₁', s₂', hs₁, hs₂, hview, hw₁, hw₂⟩ : ∃ s₁ s₂ s₁' s₂',
      exec step ((loaded 0 (fun _ => .gpioOff) false none).gpioInit [5, 6]) [] = some s₁ ∧
        exec step ((loaded 0 (fun _ => .gpioOff) false none).gpioInit [5, 6]) [.write 6 (text "13\n") 3] = some s₂ ∧
        s₁.view 5 = s₂.view 5 ∧ s₁.gpioWrite 5 (text "5") 1 = some (.count 1, s₁') ∧
        s₂.gpioWrite 5 (text "5") 1 = some (.einval, s₂') := ⟨_, _, _, _, rfl, rfl, rfl, rfl, rfl⟩
  refine ⟨s₁, s₂, s₁', s₂', hs₁, hs₂, hview, hw₁, hw₂, ?_⟩
  rintro ⟨r, u₁, u₂, hu₁, hu₂, -⟩
  obtain ⟨rfl, -⟩ := Prod.mk.inj (Option.some.inj (hw₁.symm.trans hu₁))
  obtain ⟨hr, -⟩ := Prod.mk.inj (Option.some.inj (hw₂.symm.trans hu₂))
  cases hr

end Wap610n.Gpio.Leds
