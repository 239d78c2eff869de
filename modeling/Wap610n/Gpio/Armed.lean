import Wap610n.Gpio.Live

namespace Wap610n.Gpio.Driver

open Transition

variable {buttons : List ℕ} {d d' : Driver}

def Fresh (buttons : List ℕ) (d : Driver) : Prop :=
  ∀ g, (d.pin g).timer = none ∧ (d.pin g).flag = 0 ∧
    ((d.pin g).Armed ∧ g < maxGpioLine ∨ (d.pin g).isr = false ∧ ¬(g ∈ buttons ∧ g < maxGpioLine))

theorem Fresh.inv (h : d.Fresh buttons) : d.Inv buttons := by
  refine ⟨fun g => ?_, fun g => ?_⟩
  · obtain ⟨htimer, -, ⟨harmed, line⟩ | ⟨hisr, hnot⟩⟩ := h g
    · refine Or.inl (.armed line harmed ?_)
      rw [htimer]
      rintro t ⟨⟩
    · exact Or.inr ⟨⟨hisr, htimer⟩, hnot⟩
  · rw [(h g).2.1]
    decide

theorem pin_initButton (d : Driver) {gpio g : ℕ} (h : gpio < maxGpioLine) :
    (d.initButton gpio).pin g = if g = gpio then (d.pin g).arm else d.pin g := by
  have hbit : gpio < 32 := h.trans (by decide)
  rw [initButton, pin_setEdgeintr _ h]
  unfold writeDirectionBit
  rw [if_pos (Nat.lt_succ_iff.mp h)]
  split_ifs with heq
  · rfl
  · simp only [pin, pinInput, Mask.getLsbD_writeBit_zero _ hbit, if_neg heq]

theorem initButton_beyond (d : Driver) {gpio : ℕ} (h : ¬gpio < maxGpioLine) : d.initButton gpio = d := by
  have hbit : ¬gpio ≤ 20 := fun hle => h (Nat.lt_succ_of_le hle)
  rw [initButton, writeDirectionBit, if_neg hbit, setEdgeintr, if_neg h]

theorem Fresh.initButton (h : d.Fresh buttons) (gpio : ℕ) : (d.initButton gpio).Fresh (buttons ++ [gpio]) := by
  intro g
  obtain ⟨htimer, hflag, hphase⟩ := h g
  by_cases line : gpio < maxGpioLine
  · rw [pin_initButton d line]
    split_ifs with heq
    · exact ⟨htimer, hflag, Or.inl ⟨Pin.armed_arm _, heq ▸ line⟩⟩
    · refine ⟨htimer, hflag, hphase.imp_right ?_⟩
      rintro ⟨hisr, hnot⟩
      refine ⟨hisr, fun hmem => hnot ⟨?_, hmem.2⟩⟩
      simpa [heq] using hmem.1
  · rw [initButton_beyond d line]
    refine ⟨htimer, hflag, hphase.imp_right ?_⟩
    rintro ⟨hisr, hnot⟩
    refine ⟨hisr, fun hmem => hnot ⟨?_, hmem.2⟩⟩
    have hne : g ≠ gpio := fun heq => line (heq ▸ hmem.2)
    simpa [hne] using hmem.1

theorem Fresh.foldl (h : d.Fresh buttons) (rest : List ℕ) : (rest.foldl Driver.initButton d).Fresh (buttons ++ rest) := by
  induction rest generalizing d buttons with
  | nil => simpa using h
  | cons gpio rest ih =>
    rw [List.foldl_cons, ← List.singleton_append, ← List.append_assoc]
    exact ih (h.initButton gpio)

theorem core_outputs (d : Driver) (leds : List ℕ) :
    (leds.foldl (fun d gpio => d.writeDirectionBit pinOutput gpio) d).core = d.core := by
  induction leds generalizing d with
  | nil => rfl
  | cons gpio leds ih => rw [List.foldl_cons, ih, core_writeDirectionBit]

theorem inv_gpioInit (jiffies : ℕ) (pinDir intrTrigger intrBoth intrRiseneg intrEnable : BitVec 32)
    (outputLeds pushButtons : List ℕ) :
    ((loaded jiffies pinDir intrTrigger intrBoth intrRiseneg intrEnable).gpioInit outputLeds pushButtons).Inv
      (pushButtons.take maxGpios) := by
  apply Fresh.inv
  unfold gpioInit
  rw [← List.nil_append (pushButtons.take maxGpios)]
  apply Fresh.foldl
  intro g
  simp only [pin, core_outputs]
  exact ⟨rfl, rfl, Or.inr ⟨rfl, fun hmem => absurd hmem.1 List.not_mem_nil⟩⟩

section Runs

variable {jiffies : ℕ} {pinDir intrTrigger intrBoth intrRiseneg intrEnable : BitVec 32}
  {outputLeds pushButtons : List ℕ} {es : List Event}

theorem inv_of_exec (h : exec step ((loaded jiffies pinDir intrTrigger intrBoth intrRiseneg intrEnable).gpioInit
    outputLeds pushButtons) es = some d) : d.Inv (pushButtons.take maxGpios) := by
  apply exec_inv (inv_gpioInit _ _ _ _ _ _ _ _) _ (fun _ _ _ _ _ _ _ _ => trivial) h
  intro s e s' hs hstep _
  exact (hs.step hstep).1

theorem button_armed_xor_validating (h : exec step ((loaded jiffies pinDir intrTrigger intrBoth intrRiseneg
    intrEnable).gpioInit outputLeds pushButtons) es = some d) {gpio : ℕ} (hbutton : gpio ∈ pushButtons.take maxGpios)
    (hline : gpio < maxGpioLine) : Xor (d.pin gpio).Armed (d.pin gpio).Validating := by
  rcases (inv_of_exec h).pin gpio with hlive | ⟨-, hnot⟩
  · exact hlive.armed_xor_validating
  · exact absurd ⟨hbutton, hline⟩ hnot

theorem pressed_13_validating :
    ∃ d, exec step ((loaded 0 0#32 0#32 0#32 0#32 0#32).gpioInit [2] [3, 13]) [.interrupt 13 .gpioOn] = some d ∧
      Xor (d.pin 13).Armed (d.pin 13).Validating := by
  obtain ⟨d, hd⟩ : ∃ d, exec step ((loaded 0 0#32 0#32 0#32 0#32 0#32).gpioInit [2] [3, 13])
    [.interrupt 13 .gpioOn] = some d := ⟨_, rfl⟩
  exact ⟨d, hd, button_armed_xor_validating hd (by decide) (by decide)⟩

theorem flag_set_after_long_press (h : exec step ((loaded jiffies pinDir intrTrigger intrBoth intrRiseneg
    intrEnable).gpioInit outputLeds pushButtons) es = some d) {e : Event} (hs : d.step e = some d') (gpio : ℕ) :
    (d'.pushes gpio = d.pushes gpio ∧ (d'.core.pbcFlag gpio = 2 → d.core.pbcFlag gpio = 2)) ∨
      (d'.pushes gpio = d.pushes gpio + 1 ∧ d'.core.pbcFlag gpio = 2 ∧
        HeldFor (if gpio = 3 then 36 else 2) d'.core.jiffies (d'.samples gpio)) :=
  ((inv_of_exec h).step hs).2 gpio

theorem long_press_13 :
    ∃ d d', exec step ((loaded 0 0#32 0#32 0#32 0#32 0#32).gpioInit [2] [3, 13])
        [.interrupt 13 .gpioOn, .elapse 7, .expire 13 .gpioOn, .elapse 7] = some d ∧
      d.step (.expire 13 .gpioOn) = some d' ∧
      ((d'.pushes 13 = d.pushes 13 ∧ (d'.core.pbcFlag 13 = 2 → d.core.pbcFlag 13 = 2)) ∨
        (d'.pushes 13 = d.pushes 13 + 1 ∧ d'.core.pbcFlag 13 = 2 ∧
          HeldFor (if 13 = 3 then 36 else 2) d'.core.jiffies (d'.samples 13))) := by
  obtain ⟨d, hd, d', hd'⟩ : ∃ d, exec step ((loaded 0 0#32 0#32 0#32 0#32 0#32).gpioInit [2] [3, 13])
      [.interrupt 13 .gpioOn, .elapse 7, .expire 13 .gpioOn, .elapse 7] = some d ∧
    ∃ d', d.step (.expire 13 .gpioOn) = some d' := ⟨_, rfl, _, rfl⟩
  exact ⟨d, d', hd, hd', flag_set_after_long_press hd hd' 13⟩

end Runs

end Wap610n.Gpio.Driver
