import Wap610n.Gpio.ButtonPhase

namespace Wap610n.Gpio

open Function

inductive Pin.Live (jiffies gpio : ℕ) (p : Pin) : Prop
  | armed (line : gpio < maxGpioLine) (h : p.Armed)
      (timer : ∀ t ∈ p.timer, t.function = .pbcCancel ∧ t.data = gpio)
  | validating (line : gpio < maxGpioLine) (k time : ℕ) (isr : p.isr = false) (enable : p.enable = false)
      (timer : p.timer = some ⟨sampleTime + time, gpio <<< 16 ||| (k + 1), .pbcValidatePush⟩)
      (few : k + 1 ≤ State.pbWaitingTime gpio) (due : jiffies ≤ sampleTime + time) (held : HeldFor k time p.samples)

def Pin.Idle (p : Pin) : Prop := p.isr = false ∧ p.timer = none

def Pin.Follows (now gpio : ℕ) (p p' : Pin) : Prop :=
  p'.pushes = p.pushes ∧ (p'.flag = 2 → p.flag = 2) ∨
    p'.pushes = p.pushes + 1 ∧ p'.flag = 2 ∧ HeldFor (State.pbWaitingTime gpio) now p'.samples

namespace Pin

variable {p : Pin} {jiffies gpio k : ℕ} {byInterrupt : Bool} {temp : Level}

theorem armed_arm (p : Pin) : p.arm.Armed := ⟨rfl, rfl, rfl, rfl, rfl, rfl⟩

theorem Live.armed_xor_validating (h : p.Live jiffies gpio) :
    (p.Armed ∧ ¬p.Validating) ∨ (p.Validating ∧ ¬p.Armed) := by
  cases h with
  | armed line h timer =>
    refine Or.inl ⟨h, fun hv => ?_⟩
    exact absurd (h.isr.symm.trans hv.isr) (by decide)
  | validating line k time isr enable timer few due held =>
    refine Or.inr ⟨⟨isr, enable, _, timer, rfl⟩, fun ha => ?_⟩
    exact absurd (isr.symm.trans ha.isr) (by decide)

theorem live_sampled (line : gpio < maxGpioLine) (isr : p.isr = false) (enable : p.enable = false)
    (timer : ∀ t ∈ p.timer, t.function = .pbcCancel ∧ t.data = gpio)
    (held : temp = .gpioOn → HeldFor k jiffies (⟨jiffies, temp, byInterrupt⟩ :: p.samples)) :
    (p.sampled jiffies gpio k byInterrupt temp).Live jiffies gpio := by
  unfold sampled
  dsimp only
  cases temp with
  | gpioOff => exact .armed line (armed_arm _) timer
  | gpioOn =>
    rw [if_neg (by decide)]
    split_ifs with hwait
    · exact .validating line k jiffies isr enable rfl hwait (Nat.le_add_left _ _) (held rfl)
    · refine .armed line ⟨rfl, rfl, rfl, rfl, rfl, rfl⟩ ?_
      rintro t ⟨⟩
      exact ⟨rfl, rfl⟩

theorem follows_sampled (hk : k ≤ State.pbWaitingTime gpio)
    (held : temp = .gpioOn → HeldFor k jiffies (⟨jiffies, temp, byInterrupt⟩ :: p.samples)) :
    p.Follows jiffies gpio (p.sampled jiffies gpio k byInterrupt temp) := by
  unfold sampled Follows
  dsimp only
  cases temp with
  | gpioOff => exact Or.inl ⟨rfl, fun h => h⟩
  | gpioOn =>
    rw [if_neg (by decide)]
    split_ifs with hwait
    · exact Or.inl ⟨rfl, fun h => h⟩
    · obtain rfl : k = State.pbWaitingTime gpio := by omega
      exact Or.inr ⟨rfl, rfl, held rfl⟩

theorem follows_refl (now gpio : ℕ) (p : Pin) : p.Follows now gpio p := Or.inl ⟨rfl, fun h => h⟩

end Pin

namespace Driver

structure Inv (buttons : List ℕ) (d : Driver) : Prop where
  pin : ∀ gpio, (d.pin gpio).Live d.core.jiffies gpio ∨
    (d.pin gpio).Idle ∧ ¬(gpio ∈ buttons ∧ gpio < maxGpioLine)
  flag : ∀ gpio, (d.pin gpio).flag ≤ 2

variable {buttons : List ℕ} {d d' : Driver}

theorem Inv.of_live (h : d.Inv buttons) {gpio : ℕ} {p : Pin} (hj : d'.core.jiffies = d.core.jiffies)
    (hpins : ∀ g, d'.pin g = if g = gpio then p else d.pin g) (hlive : p.Live d.core.jiffies gpio)
    (hfollows : (d.pin gpio).Follows d.core.jiffies gpio p) (hflag : p.flag ≤ 2) :
    d'.Inv buttons ∧ ∀ g, (d.pin g).Follows d'.core.jiffies g (d'.pin g) := by
  refine ⟨⟨fun g => ?_, fun g => ?_⟩, fun g => ?_⟩
  · rw [hj, hpins]
    split_ifs with hg
    · rw [hg]
      exact Or.inl hlive
    · exact h.pin g
  · rw [hpins]
    split_ifs
    · exact hflag
    · exact h.flag g
  · rw [hj, hpins]
    split_ifs with hg
    · rw [hg]
      exact hfollows
    · exact Pin.follows_refl _ _ _

theorem sampled_flag_le {p : Pin} (h : p.flag ≤ 2) (jiffies gpio k : ℕ) (byInterrupt : Bool) (temp : Level) :
    (p.sampled jiffies gpio k byInterrupt temp).flag ≤ 2 := by
  unfold Pin.sampled
  dsimp only
  split_ifs
  · exact h
  · exact h
  · change (2 : ℤ) ≤ 2
    exact Int.le_refl 2

theorem pin_gpioPbcStart {gpio : ℕ} (line : gpio < maxGpioLine) (level : Level) (g : ℕ) :
    (d.gpioPbcStart gpio level).pin g =
      if g = gpio then (d.pin gpio).disarm.sampled d.core.jiffies gpio 0 true level else d.pin g := by
  rw [gpioPbcStart, ← Nat.or_zero (gpio <<< 16), pin_pbcValidatePush _ line (by decide), pin_clearIntr _ line,
    jiffies_clearIntr]
  split_ifs with hg
  · rw [hg]
  · rfl

theorem Inv.interrupt (h : d.Inv buttons) {gpio : ℕ} (level : Level) (hisr : d.core.gpioIsr gpio = true) :
    (d.gpioPbcStart gpio level).Inv buttons ∧
      ∀ g, (d.pin g).Follows (d.gpioPbcStart gpio level).core.jiffies g ((d.gpioPbcStart gpio level).pin g) := by
  have hpin : (d.pin gpio).isr = true := hisr
  rcases h.pin gpio with hlive | ⟨⟨hidle, -⟩, -⟩
  · cases hlive with
    | armed line harmed timer =>
      have held : level = .gpioOn → HeldFor 0 d.core.jiffies
          (⟨d.core.jiffies, level, true⟩ :: (d.pin gpio).disarm.samples) := by
        rintro rfl
        exact heldFor_first _ _
      apply h.of_live _ (pin_gpioPbcStart line level)
      · exact Pin.live_sampled (p := (d.pin gpio).disarm) line rfl rfl timer held
      · exact Pin.follows_sampled (p := (d.pin gpio).disarm) (Nat.zero_le _) held
      · exact sampled_flag_le (p := (d.pin gpio).disarm) (h.flag gpio) _ _ _ _ _
      · exact (jiffies_pbcValidatePush _ _ _ _).trans (jiffies_clearIntr d)
    | validating line k time isr => exact absurd (hpin.symm.trans isr) (by decide)
  · exact absurd (hpin.symm.trans hidle) (by decide)

theorem pin_expired_cancel (gpio : ℕ) {t : PbcTimer} (hcancel : t.function = .pbcCancel) (hdata : t.data = gpio)
    (level : Level) (g : ℕ) :
    (d.expired gpio t level).pin g = if g = gpio then { d.pin gpio with timer := none, flag := 0 } else d.pin g := by
  unfold Driver.expired
  rw [hcancel, hdata]
  dsimp only
  rw [pbcCancel, pin_setFlag, pin_stopTimer]
  split_ifs with hg
  · rw [hg]
  · rfl

theorem pin_expired_validate {gpio k : ℕ} (line : gpio < maxGpioLine) (hk : k < 2 ^ 16) (expires : ℕ) (level : Level)
    (g : ℕ) :
    (d.expired gpio ⟨expires, gpio <<< 16 ||| k, .pbcValidatePush⟩ level).pin g =
      if g = gpio then { d.pin gpio with timer := none }.sampled d.core.jiffies gpio k false level else d.pin g := by
  unfold Driver.expired
  dsimp only
  rw [pin_pbcValidatePush _ line hk, pin_stopTimer]
  split_ifs with hg
  · rw [hg]
    rfl
  · rfl

theorem Inv.expired (h : d.Inv buttons) {gpio : ℕ} {t : PbcTimer} (level : Level) (ht : d.core.pbcTimer gpio = some t)
    (hdue : t.expires ≤ d.core.jiffies) :
    (d.expired gpio t level).Inv buttons ∧
      ∀ g, (d.pin g).Follows (d.expired gpio t level).core.jiffies g ((d.expired gpio t level).pin g) := by
  have htimer : (d.pin gpio).timer = some t := ht
  rcases h.pin gpio with hlive | ⟨⟨-, hidle⟩, -⟩
  · cases hlive with
    | armed line harmed timer =>
      obtain ⟨hcancel, hdata⟩ := timer t htimer
      apply h.of_live _ (pin_expired_cancel gpio hcancel hdata level)
      · refine .armed line ⟨harmed.isr, harmed.enable, harmed.edge, harmed.single, harmed.falling, harmed.input⟩ ?_
        rintro t ⟨⟩
      · exact Or.inl ⟨rfl, fun h0 : (0 : ℤ) = 2 => absurd h0 (by decide)⟩
      · change (0 : ℤ) ≤ 2
        decide
      · unfold Driver.expired
        rw [hcancel]
        rfl
    | validating line k time isr enable timer few due held =>
      obtain rfl : t = ⟨sampleTime + time, gpio <<< 16 ||| (k + 1), .pbcValidatePush⟩ :=
        Option.some.inj (htimer.symm.trans timer)
      have hwait := (pbWaitingTime_bounds gpio).2
      have hnow : d.core.jiffies = sampleTime + time := le_antisymm due hdue
      have held' : level = .gpioOn → HeldFor (k + 1) d.core.jiffies
          (⟨d.core.jiffies, level, false⟩ :: (d.pin gpio).samples) := by
        rintro rfl
        rw [hnow]
        exact held.next
      apply h.of_live _ (pin_expired_validate line (by omega) _ level)
      · apply Pin.live_sampled (p := { d.pin gpio with timer := none }) line isr enable
        · rintro t ⟨⟩
        · exact held'
      · exact Pin.follows_sampled (p := { d.pin gpio with timer := none }) few held'
      · exact sampled_flag_le (p := { d.pin gpio with timer := none }) (h.flag gpio) _ _ _ _ _
      · exact jiffies_pbcValidatePush _ _ _ _
  · exact absurd (htimer.symm.trans hidle) (by simp)

theorem Inv.elapse (h : d.Inv buttons) {n : ℕ}
    (hdue : ∀ gpio < maxGpios, ∀ t ∈ d.core.pbcTimer gpio, d.core.jiffies + n ≤ t.expires) :
    Inv buttons { d with core := { d.core with jiffies := d.core.jiffies + n } } := by
  refine ⟨fun g => ?_, h.flag⟩
  rcases h.pin g with hlive | hidle
  · left
    cases hlive with
    | armed line harmed timer => exact .armed line harmed timer
    | validating line k time isr enable timer few due held =>
      exact .validating line k time isr enable timer few (hdue g (line.trans (by decide)) _ timer) held
  · exact Or.inr hidle

theorem Inv.setFlag (h : d.Inv buttons) (gpio : ℕ) {flag : ℤ} (hflag : flag < 2) :
    (d.setFlag gpio flag).Inv buttons ∧ ∀ g, (d.pin g).Follows d.core.jiffies g ((d.setFlag gpio flag).pin g) := by
  refine ⟨⟨fun g => ?_, fun g => ?_⟩, fun g => Or.inl ⟨rfl, ?_⟩⟩
  · rcases h.pin g with hlive | hidle
    · left
      cases hlive with
      | armed line harmed timer =>
        exact .armed line ⟨harmed.isr, harmed.enable, harmed.edge, harmed.single, harmed.falling, harmed.input⟩ timer
      | validating line k time isr enable timer few due held =>
        exact .validating line k time isr enable timer few due held
    · exact Or.inr hidle
  · rw [pin_setFlag]
    split_ifs
    · exact Int.le_of_lt hflag
    · exact h.flag g
  · rw [pin_setFlag]
    split_ifs
    · exact fun h2 : flag = 2 => absurd h2 (Int.ne_of_lt hflag)
    · exact fun h2 => h2

theorem Inv.read (h : d.Inv buttons) {gpio : ℕ} {interrupted copyFails : Bool} {r : ReadResult} {core : State}
    (hr : d.core.gpioRead gpio interrupted copyFails = some (r, core)) :
    Inv buttons { d with core } ∧ ∀ g, (d.pin g).Follows core.jiffies g (Driver.pin { d with core } g) := by
  have hle : d.core.pbcFlag gpio ≤ 2 := h.flag gpio
  have hsame : Inv buttons { d with core := d.core } ∧
      ∀ g, (d.pin g).Follows d.core.jiffies g (Driver.pin { d with core := d.core } g) :=
    ⟨h, fun g => Pin.follows_refl _ _ _⟩
  unfold State.gpioRead at hr
  split_ifs at hr
  all_goals obtain ⟨-, rfl⟩ := Prod.mk.inj (Option.some.inj hr)
  any_goals exact hsame
  · exact h.setFlag gpio (by omega)
  · exact h.setFlag gpio (by omega)

theorem Inv.step (h : d.Inv buttons) {e : Event} (hs : d.step e = some d') :
    d'.Inv buttons ∧ ∀ g, (d.pin g).Follows d'.core.jiffies g (d'.pin g) := by
  cases e with
  | elapse n =>
    obtain ⟨core, hcore, rfl⟩ := Option.map_eq_some_iff.mp hs
    rw [State.step] at hcore
    split_ifs at hcore with hdue
    obtain rfl := Option.some.inj hcore
    exact ⟨h.elapse hdue, fun g => Pin.follows_refl _ _ _⟩
  | interrupt gpio level =>
    rw [Driver.step] at hs
    split_ifs at hs with hisr
    exact Option.some.inj hs ▸ h.interrupt level hisr
  | expire gpio level =>
    obtain ⟨t, ht, hrun⟩ := Option.bind_eq_some_iff.mp hs
    split_ifs at hrun with hdue
    exact Option.some.inj hrun ▸ h.expired level ht hdue
  | read gpio interrupted copyFails =>
    obtain ⟨core, hcore, rfl⟩ := Option.map_eq_some_iff.mp hs
    obtain ⟨⟨r, u⟩, hr, rfl⟩ := Option.map_eq_some_iff.mp hcore
    exact h.read hr

end Driver

end Wap610n.Gpio
