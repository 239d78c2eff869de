import Wap610n.Gpio.PushButton

namespace Wap610n.Gpio

open Function Transition

structure Button where
  flag : ℤ
  timer : Option PbcTimer
  isr : Bool
  recognisedAt : ℕ

structure Button.Sound (jiffies gpio : ℕ) (b : Button) : Prop where
  flag : b.flag ≤ 2
  isr : b.isr = true → gpio < maxGpioLine
  line : b.timer ≠ none → gpio < maxGpioLine
  pending : b.flag = 2 → b.timer ≠ none
  due : ∀ t ∈ b.timer, jiffies ≤ t.expires
  validated : ∀ t ∈ b.timer, t.function = .pbcValidatePush → t.data >>> 16 = gpio
  cancelled : ∀ t ∈ b.timer, t.function = .pbcCancel →
    t.data = gpio ∧ t.expires = secsToJiffies 20 + b.recognisedAt

theorem pbWaitingTime_bounds (gpio : ℕ) : 2 ≤ State.pbWaitingTime gpio ∧ State.pbWaitingTime gpio ≤ 36 := by
  unfold State.pbWaitingTime resetDftWaitSec
  split_ifs <;> omega

theorem shiftLeft_or_shiftRight (gpio : ℕ) {flag : ℕ} (h : flag < 2 ^ 16) : (gpio <<< 16 ||| flag) >>> 16 = gpio := by
  rw [Nat.shiftRight_or_distrib, Nat.shiftLeft_shiftRight, Nat.shiftRight_eq_div_pow, Nat.div_eq_of_lt h, Nat.or_zero]

namespace State

def button (s : State) (gpio : ℕ) : Button := ⟨s.pbcFlag gpio, s.pbcTimer gpio, s.gpioIsr gpio, s.recognisedAt gpio⟩

def Sound (s : State) : Prop := ∀ gpio, (s.button gpio).Sound s.jiffies gpio

def PressCleared (s : State) : Prop := ∀ gpio, s.pbcFlag gpio = 2 →
  (∃ t ∈ s.pbcTimer gpio, t.function = .pbcCancel ∧ s.jiffies ≤ t.expires ∧
    t.expires = secsToJiffies 20 + s.recognisedAt gpio) ∨
  ∃ t ∈ s.pbcTimer gpio, t.function = .pbcValidatePush

def Keeps (s : State) : Event → Prop
  | .expire gpio .gpioOff => s.pbcFlag gpio = 2 → ∀ t ∈ s.pbcTimer gpio, t.function ≠ .pbcValidatePush
  | _ => True

variable {s s' : State} {gpio : ℕ}

theorem Sound.pressCleared (h : s.Sound) : s.PressCleared := by
  intro gpio hflag
  obtain ⟨t, ht⟩ := Option.ne_none_iff_exists'.mp ((h gpio).pending hflag)
  cases hf : t.function with
  | pbcValidatePush => exact Or.inr ⟨t, ht, hf⟩
  | pbcCancel => exact Or.inl ⟨t, ht, hf, (h gpio).due t ht, ((h gpio).cancelled t ht hf).2⟩

theorem not_pressCleared (hflag : s.pbcFlag gpio = 2) (hnone : s.pbcTimer gpio = none) : ¬s.PressCleared := by
  intro h
  have hpress := h gpio hflag
  rw [hnone] at hpress
  rcases hpress with ⟨t, ht, -⟩ | ⟨t, ht, -⟩
  · exact absurd ht (by simp)
  · exact absurd ht (by simp)

theorem Sound.of_button (gpio : ℕ) (h : ∀ g ≠ gpio, (s.button g).Sound s.jiffies g) (hj : s'.jiffies = s.jiffies)
    (hs : (s'.button gpio).Sound s.jiffies gpio) (hother : ∀ g ≠ gpio, s'.button g = s.button g) : s'.Sound := by
  intro g
  rw [hj]
  by_cases hg : g = gpio
  · exact hg ▸ hs
  · rw [hother g hg]
    exact h g hg

theorem sound_setFlag (h : s.Sound) {flag : ℤ} (hlt : flag < 2) : (s.setFlag gpio flag).Sound := by
  refine Sound.of_button (s := s) gpio (fun g _ => h g) rfl ?_ ?_
  · have hb := h gpio
    simp only [button, setFlag, update_self] at hb ⊢
    exact ⟨Int.le_of_lt hlt, hb.isr, hb.line, fun heq => absurd heq (Int.ne_of_lt hlt), hb.due, hb.validated,
      hb.cancelled⟩
  · intro g hg
    simp [button, setFlag, hg]

theorem sound_updateIsr (h : s.Sound) (hline : gpio < maxGpioLine) (isr : Bool) :
    State.Sound { s with gpioIsr := update s.gpioIsr gpio isr } := by
  refine Sound.of_button (s := s) gpio (fun g _ => h g) rfl ?_ ?_
  · have hb := h gpio
    simp only [button, update_self] at hb ⊢
    exact ⟨hb.flag, fun _ => hline, hb.line, hb.pending, hb.due, hb.validated, hb.cancelled⟩
  · intro g hg
    simp [button, hg]

theorem sound_setEdgeintr (h : s.Sound) : (s.setEdgeintr gpio).Sound := by
  unfold setEdgeintr
  split_ifs with hline
  · exact sound_updateIsr h hline true
  · exact h

theorem sound_gpioPbcEnd (hline : gpio < maxGpioLine) (h : ∀ g ≠ gpio, (s.button g).Sound s.jiffies g) :
    (s.gpioPbcEnd gpio).Sound := by
  have hj : (s.gpioPbcEnd gpio).jiffies = s.jiffies := by
    simp [gpioPbcEnd, addTimer, delTimer, setEdgeintr, clearIntr, setFlag, hline]
  refine Sound.of_button gpio h hj ?_ ?_
  · have hself : (s.gpioPbcEnd gpio).button gpio =
        ⟨2, some ⟨secsToJiffies 20 + s.jiffies, gpio, .pbcCancel⟩, true, s.jiffies⟩ := by
      simp [button, gpioPbcEnd, addTimer, delTimer, setEdgeintr, clearIntr, setFlag, hline]
    rw [hself]
    refine ⟨Int.le_refl 2, fun _ => hline, fun _ => hline, fun _ => Option.some_ne_none _, ?_, ?_, ?_⟩
    · rintro t ⟨⟩
      exact Nat.le_add_left _ _
    · rintro t ⟨⟩ ⟨⟩
    · rintro t ⟨⟩ -
      exact ⟨rfl, rfl⟩
  · intro g hg
    simp [button, gpioPbcEnd, addTimer, delTimer, setEdgeintr, clearIntr, setFlag, hline, hg]

theorem sound_pbcValidatePush {pbcWaitFlag : ℕ} {temp : Level} (hdata : pbcWaitFlag >>> 16 = gpio)
    (hline : gpio < maxGpioLine) (h : ∀ g ≠ gpio, (s.button g).Sound s.jiffies g)
    (hb : s.pbcFlag gpio ≤ 2) (hoff : temp = .gpioOff → s.Sound) :
    (s.pbcValidatePush pbcWaitFlag temp).Sound := by
  unfold pbcValidatePush
  dsimp only
  rw [hdata]
  have hother : ∀ g ≠ gpio, (s.delTimer gpio).button g = s.button g := by
    intro g hg
    simp [button, delTimer, hg]
  split_ifs with htemp hwait
  · exact sound_setEdgeintr (hoff htemp)
  · have hlt : (pbcWaitFlag &&& 0xFFFF) + 1 < 2 ^ 16 := by
      have := (pbWaitingTime_bounds gpio).2
      omega
    refine Sound.of_button gpio h rfl ?_ ?_
    · simp only [button, addTimer, delTimer, update_self]
      refine ⟨hb, fun _ => hline, fun _ => hline, fun _ => Option.some_ne_none _, ?_, ?_, ?_⟩
      · rintro t ⟨⟩
        exact Nat.le_add_left _ _
      · rintro t ⟨⟩ -
        exact shiftLeft_or_shiftRight gpio hlt
      · rintro t ⟨⟩ ⟨⟩
    · intro g hg
      simp [button, addTimer, delTimer, hg]
  · apply sound_gpioPbcEnd hline
    intro g hg
    rw [hother g hg]
    exact h g hg

theorem Sound.interrupt (h : s.Sound) {level : Level} (hisr : s.gpioIsr gpio = true) :
    (s.gpioPbcStart gpio level).Sound := by
  have hline : gpio < maxGpioLine := (h gpio).isr hisr
  have hdata : (gpio <<< 16) >>> 16 = gpio := by rw [Nat.shiftLeft_shiftRight]
  have hclear : (s.clearIntr gpio).Sound := by
    rw [clearIntr, if_pos hline]
    exact sound_updateIsr h hline false
  exact sound_pbcValidatePush hdata hline (fun g _ => hclear g) (hclear gpio).flag fun _ => hclear

theorem delTimer_sound (h : s.Sound) (hflag : s.pbcFlag gpio ≠ 2) : (s.delTimer gpio).Sound := by
  refine Sound.of_button (s := s) gpio (fun g _ => h g) rfl ?_ ?_
  · have hb := h gpio
    simp only [button, delTimer, update_self] at hb ⊢
    refine ⟨hb.flag, hb.isr, fun hn => absurd rfl hn, fun h2 => absurd h2 hflag, ?_, ?_, ?_⟩
    · rintro t ⟨⟩
    · rintro t ⟨⟩
    · rintro t ⟨⟩
  · intro g hg
    simp [button, delTimer, hg]

theorem Sound.expired (h : s.Sound) {t : PbcTimer} {level : Level} (ht : s.pbcTimer gpio = some t)
    (hkeep : s.Keeps (.expire gpio level)) : (s.expired gpio t level).Sound := by
  have hline : gpio < maxGpioLine := (h gpio).line (by simp [button, ht])
  have hother : ∀ g ≠ gpio, ((s.delTimer gpio).button g).Sound s.jiffies g := by
    intro g hg
    have hb := h g
    simpa [button, delTimer, hg] using hb
  unfold State.expired
  cases hf : t.function with
  | pbcValidatePush =>
    refine sound_pbcValidatePush ((h gpio).validated t ht hf) hline hother (h gpio).flag ?_
    rintro rfl
    exact delTimer_sound h fun h2 => hkeep h2 t ht hf
  | pbcCancel =>
    obtain ⟨hdata, -⟩ := (h gpio).cancelled t ht hf
    dsimp only
    rw [hdata]
    exact delTimer_sound (s := s.setFlag gpio 0) (sound_setFlag h (by decide)) (by simp [setFlag])

theorem Sound.read (h : s.Sound) {interrupted copyFails : Bool} {r : ReadResult}
    (hr : s.gpioRead gpio interrupted copyFails = some (r, s')) : s'.Sound := by
  have hle := (h gpio).flag
  simp only [button] at hle
  unfold gpioRead at hr
  split_ifs at hr
  all_goals obtain ⟨-, rfl⟩ := Prod.mk.inj (Option.some.inj hr)
  any_goals exact h
  · exact sound_setFlag h (by omega)
  · exact sound_setFlag h (by omega)

theorem Sound.elapse (h : s.Sound) {n : ℕ}
    (hdue : ∀ gpio < maxGpios, ∀ t ∈ s.pbcTimer gpio, s.jiffies + n ≤ t.expires) :
    State.Sound { s with jiffies := s.jiffies + n } := by
  intro g
  have hb := h g
  refine ⟨hb.flag, hb.isr, hb.line, hb.pending, fun t ht => ?_, hb.validated, hb.cancelled⟩
  have hline := hb.line (Option.ne_none_iff_exists'.mpr ⟨t, ht⟩)
  exact hdue g (hline.trans (by decide)) t ht

theorem Sound.step (h : s.Sound) {e : Event} (hs : s.step e = some s') (hkeep : s.Keeps e) : s'.Sound := by
  cases e with
  | elapse n =>
    rw [State.step] at hs
    split_ifs at hs with hdue
    exact Option.some.inj hs ▸ h.elapse hdue
  | interrupt gpio level =>
    rw [State.step] at hs
    split_ifs at hs with hisr
    exact Option.some.inj hs ▸ h.interrupt hisr
  | expire gpio level =>
    obtain ⟨t, ht, hrun⟩ := Option.bind_eq_some_iff.mp hs
    split_ifs at hrun
    exact Option.some.inj hrun ▸ h.expired ht hkeep
  | read gpio interrupted copyFails =>
    obtain ⟨⟨r, u⟩, hr, rfl⟩ := Option.map_eq_some_iff.mp hs
    exact h.read hr

theorem PressCleared.keeps {e : Event} (h : s.Sound) (hs : s.step e = some s') (hc : s'.PressCleared) : s.Keeps e := by
  cases e with
  | elapse | interrupt | read => trivial
  | expire gpio level =>
    cases level with
    | gpioOn => trivial
    | gpioOff =>
      -- a validation that is given up leaves the flag set and no timer behind
      intro hflag t ht hf
      obtain ⟨t', ht', hrun⟩ := Option.bind_eq_some_iff.mp hs
      obtain rfl := Option.some.inj (ht.symm.trans ht')
      split_ifs at hrun
      obtain rfl := Option.some.inj hrun
      have hline : gpio < maxGpioLine := (h gpio).line (by simp [button, ht'])
      have hdata : t.data >>> 16 = gpio := (h gpio).validated t ht' hf
      have hflag' : (s.expired gpio t .gpioOff).pbcFlag gpio = 2 := by
        simp [State.expired, hf, pbcValidatePush, hdata, setEdgeintr, hline, delTimer, hflag]
      have hnone : (s.expired gpio t .gpioOff).pbcTimer gpio = none := by
        simp [State.expired, hf, pbcValidatePush, hdata, setEdgeintr, hline, delTimer]
      exact not_pressCleared hflag' hnone hc

theorem gpioInit_sound (jiffies : ℕ) (pushButtons : List ℕ) : (gpioInit jiffies pushButtons).Sound := by
  have hloaded : (loaded jiffies).Sound := by
    intro g
    refine ⟨by simp [button, loaded], by simp [button, loaded], by simp [button, loaded], by simp [button, loaded],
      ?_, ?_, ?_⟩
    · rintro t ⟨⟩
    · rintro t ⟨⟩
    · rintro t ⟨⟩
  unfold gpioInit
  generalize pushButtons.take maxGpios = buttons
  generalize loaded jiffies = s₀ at hloaded
  induction buttons generalizing s₀ with
  | nil => exact hloaded
  | cons gpio buttons ih => exact ih _ (sound_setEdgeintr hloaded)

end State

theorem press_cleared_iff (jiffies : ℕ) (pushButtons : List ℕ) (es : List Event) :
    (∀ pre s, pre <+: es → exec State.step (.gpioInit jiffies pushButtons) pre = some s → s.PressCleared) ↔
      ∀ pre e s s', pre ++ [e] <+: es → exec State.step (.gpioInit jiffies pushButtons) pre = some s →
        s.step e = some s' → s.Keeps e := by
  apply exec_safe_iff (State.gpioInit_sound jiffies pushButtons) fun s h => h.pressCleared
  intro s e s' h hs
  exact ⟨h.step hs, fun hc => hc.keeps h hs⟩

def shortSecondPress : List Event :=
  [.interrupt 13 .gpioOn, .elapse 7, .expire 13 .gpioOn, .elapse 7, .expire 13 .gpioOn, .elapse 500,
    .interrupt 13 .gpioOn, .elapse 7, .expire 13 .gpioOff, .elapse 100000]

theorem press_never_cleared : ∃ s, exec State.step (.gpioInit 0 [3, 13]) shortSecondPress = some s ∧
    s.pbcFlag 13 = 2 ∧ s.pbcTimer 13 = none ∧ secsToJiffies 20 + s.recognisedAt 13 < s.jiffies ∧ ¬s.PressCleared := by
  obtain ⟨s, hs, hflag, hnone, hlate⟩ : ∃ s, exec State.step (.gpioInit 0 [3, 13]) shortSecondPress = some s ∧
      s.pbcFlag 13 = 2 ∧ s.pbcTimer 13 = none ∧ secsToJiffies 20 + s.recognisedAt 13 < s.jiffies :=
    ⟨_, rfl, rfl, rfl, by decide⟩
  exact ⟨s, hs, hflag, hnone, hlate, State.not_pressCleared hflag hnone⟩

end Wap610n.Gpio
