import Wap610n.Gpio.LedWrite

/-!
The pattern that a LED runs through between two writes. The kernel's own blinking drives the system LED besides the driver.
-/

namespace Wap610n.Gpio

open Function Transition

def patternEnd (p : Fin numPatterns) : ℕ := (ledPatterns.get p).timerVals.idxOf (-1)

theorem pattern_spec : ∀ p : Fin numPatterns, (ledPatterns.get p).repetitionCount = -1 ∧ 0 < patternEnd p ∧
    (ledPatterns.get p).timerVals[patternEnd p]? = some (-1) ∧
    ∀ pos < patternEnd p, ∃ d ∈ (ledPatterns.get p).timerVals[pos]?, 0 ≤ d := by
  decide

def levelAt (pos : ℕ) : Level := if pos % 2 = 1 then .gpioOff else .gpioOn

namespace Led

structure At (led : Led) (p : Fin numPatterns) (pos jiffies : ℕ) (shown : Prop) : Prop where
  before : pos < patternEnd p
  index : led.currIndex = pos + 1
  armed : ∃ d start, (ledPatterns.get p).timerVals[pos]? = some d ∧ 0 ≤ d ∧ start ≤ jiffies ∧
    led.pulseTimer = some ((d : ℤ) + (start : ℕ))
  level : shown → led.level = levelAt pos

structure Follows (led : Led) (a : Option Action) (jiffies : ℕ) (shown : Prop) : Prop where
  idle : led.pattern = none → led.pulseTimer = none
  runs : ∀ p, led.pattern = some p → a = some (.pattern p) ∧ ∃ pos, led.At p pos jiffies shown

theorem gpioSet_level {gpio : ℕ} (h : gpio ≤ 20) (led : Led) (level : Level) : (led.gpioSet gpio level).level = level := by
  rw [gpioSet, if_pos h]

theorem gpioSet_currIndex (led : Led) (gpio : ℕ) (level : Level) : (led.gpioSet gpio level).currIndex = led.currIndex := by
  unfold gpioSet
  split_ifs <;> rfl

def nextPos (p : Fin numPatterns) (currIndex : ℕ) : ℕ := if currIndex = patternEnd p then 0 else currIndex

theorem nextPos_lt {p : Fin numPatterns} {currIndex : ℕ} (h : currIndex ≤ patternEnd p) :
    nextPos p currIndex < patternEnd p := by
  unfold nextPos
  split_ifs with hend
  · exact (pattern_spec p).2.1
  · omega

theorem nextRepetition_pos {led : Led} {p : Fin numPatterns} (h : led.currIndex ≤ patternEnd p) :
    ∃ timerVal, (ledPatterns.get p).timerVals[led.currIndex]? = some timerVal ∧
      (led.nextRepetition timerVal).currIndex = nextPos p led.currIndex ∧
      (led.nextRepetition timerVal).pattern = led.pattern := by
  obtain ⟨-, -, hminus, hvals⟩ := pattern_spec p
  by_cases hend : led.currIndex = patternEnd p
  · refine ⟨-1, hend ▸ hminus, ?_, ?_⟩
    · rw [nextRepetition, if_pos rfl, nextPos, if_pos hend]
    · rw [nextRepetition, if_pos rfl]
  · obtain ⟨d, hd, hnonneg⟩ := hvals led.currIndex (by omega)
    have hne : d ≠ -1 := by omega
    refine ⟨d, hd, ?_, ?_⟩
    · rw [nextRepetition, if_neg hne, nextPos, if_neg hend]
    · rw [nextRepetition, if_neg hne]

theorem follows_idle {led : Led} {a : Option Action} {jiffies : ℕ} {shown : Prop} (hp : led.pattern = none)
    (ht : led.pulseTimer = none) : led.Follows a jiffies shown := by
  refine ⟨fun _ => ht, ?_⟩
  intro p hrun
  rw [hp] at hrun
  cases hrun

section Pulse

variable {led : Led} {gpio : ℕ} {shown : Prop} (hshown : shown → gpio ≤ 20)

include hshown

theorem pulse_at {p : Fin numPatterns} (jiffies : ℕ) (hindex : led.currIndex ≤ patternEnd p) :
    ∃ led', led.pulse (ledPatterns.get p) gpio jiffies = some led' ∧ led'.pattern = led.pattern ∧
      led'.At p (nextPos p led.currIndex) jiffies shown := by
  obtain ⟨hrep, -, -, hvals⟩ := pattern_spec p
  obtain ⟨d, hd, hnonneg⟩ := hvals _ (nextPos_lt hindex)
  obtain ⟨timerVal, hval, hcurr, hpattern⟩ := nextRepetition_pos hindex
  unfold pulse
  rw [hval, Option.bind_some]
  dsimp only
  rw [if_neg (by rw [hrep]; simp), hcurr, hd, Option.map_some]
  refine ⟨_, rfl, ?_, nextPos_lt hindex, rfl, ⟨d, jiffies, hd, hnonneg, Nat.le_refl _, ?_⟩, ?_⟩
  · dsimp only
    rw [(gpioSet_fields _ _ _).1, hpattern]
  · dsimp only
    rw [(gpioSet_fields _ _ _).2]
  · intro h
    dsimp only
    rw [gpioSet_level (hshown h)]
    rfl

theorem follows_pulse {a : Option Action} {jiffies : ℕ} (h : led.Follows a jiffies shown) {expires : ℤ}
    (hpending : led.pulseTimer = some expires) (pulsePattern : BitVec 32) :
    ∃ led', { led with pulseTimer := none }.ledPulse pulsePattern gpio jiffies = some led' ∧
      led'.Follows a jiffies shown := by
  cases hp : led.pattern with
  | none =>
    rw [h.idle hp] at hpending
    cases hpending
  | some p =>
    obtain ⟨ha, pos, hat⟩ := h.runs p hp
    have hindex : { led with pulseTimer := none }.currIndex ≤ patternEnd p := by
      have hcurr := hat.index
      have hbefore := hat.before
      dsimp only
      omega
    obtain ⟨led', hpulse, hsame, hat'⟩ := pulse_at hshown jiffies hindex
    refine ⟨led', ?_, ?_⟩
    · unfold ledPulse latch
      rw [hp] at hpulse
      exact hpulse
    · constructor
      · intro hnone
        rw [hsame, hp] at hnone
        cases hnone
      · intro q hq
        rw [hsame, hp] at hq
        obtain rfl := Option.some.inj hq
        exact ⟨ha, _, hat'⟩

theorem follows_action (a : Action) (jiffies : ℕ) : (a.led gpio jiffies led).Follows (some a) jiffies shown := by
  cases a with
  | turnOff => exact follows_idle (gpioSet_fields _ _ _).1 (gpioSet_fields _ _ _).2
  | turnOn => exact follows_idle (gpioSet_fields _ _ _).1 (gpioSet_fields _ _ _).2
  | refused => exact follows_idle rfl rfl
  | pattern p =>
    refine ⟨?_, ?_⟩
    · intro h
      cases h
    intro q hq
    obtain rfl := Option.some.inj hq
    obtain ⟨-, hpos, -, hvals⟩ := pattern_spec p
    obtain ⟨d, hd, hnonneg⟩ := hvals 0 hpos
    have hfirst : d = Action.firstPulse p := by
      have h := (firstPulse_spec p).1
      rw [hd] at h
      exact Option.some.inj h
    refine ⟨rfl, 0, hpos, rfl, ⟨d, jiffies, hd, hnonneg, Nat.le_refl _, ?_⟩, ?_⟩
    · rw [hfirst]
      rfl
    · intro h
      exact gpioSet_level (hshown h) led.cleared .gpioOn

end Pulse

theorem Follows.later {led : Led} {a : Option Action} {jiffies later : ℕ} {shown : Prop}
    (h : led.Follows a jiffies shown) (hle : jiffies ≤ later) : led.Follows a later shown := by
  refine ⟨h.idle, ?_⟩
  intro p hp
  obtain ⟨ha, pos, hat⟩ := h.runs p hp
  obtain ⟨d, start, hd, hnonneg, hstart, htimer⟩ := hat.armed
  exact ⟨ha, pos, hat.before, hat.index, ⟨d, start, hd, hnonneg, hstart.trans hle, htimer⟩, hat.level⟩

theorem Follows.gpioSet {led : Led} {a : Option Action} {jiffies : ℕ} {shown : Prop} (h : led.Follows a jiffies shown)
    (hhidden : ¬shown) (gpio : ℕ) (level : Level) : (led.gpioSet gpio level).Follows a jiffies shown := by
  obtain ⟨hp, ht⟩ := gpioSet_fields led gpio level
  refine ⟨by rw [hp, ht]; exact h.idle, ?_⟩
  intro p hrun
  rw [hp] at hrun
  obtain ⟨ha, pos, hat⟩ := h.runs p hrun
  refine ⟨ha, pos, hat.before, ?_, ?_, fun hs => absurd hs hhidden⟩
  · rw [gpioSet_currIndex]
    exact hat.index
  · rw [ht]
    exact hat.armed

end Led

namespace Leds

variable {s s' : Leds}

def noteWrite (gpio : ℕ) (s : Leds) (e : LedEvent) (a : Option Action) : Option Action :=
  match e with
  | .write g buf readable =>
    if g = gpio ∧ g < maxGpios ∧ buf.length ≤ readable then
      (simpleStrtoul (copyFromUser s.buffer buf readable)).bind select
    else a
  | .elapse _ | .expire _ | .blink => a

theorem gpioWrite_cases {g : ℕ} {buf : List UInt8} {readable : ℕ} {r : WriteResult} (h : s.Inv)
    (hs : s.gpioWrite g buf readable = some (r, s')) :
    s'.jiffies = s.jiffies ∧
      ((¬(g < maxGpios ∧ buf.length ≤ readable) ∧ s'.led = s.led) ∨
        g < maxGpios ∧ buf.length ≤ readable ∧
          ∃ a, (simpleStrtoul (copyFromUser s.buffer buf readable)).bind select = some a ∧
            s'.led = update s.led g (a.led g s.jiffies (s.led g))) := by
  unfold gpioWrite at hs
  dsimp only at hs
  split_ifs at hs with hdev hlong hfault
  · obtain ⟨-, rfl⟩ := Prod.mk.inj (Option.some.inj hs)
    exact ⟨rfl, Or.inl ⟨by omega, rfl⟩⟩
  · obtain ⟨-, rfl⟩ := Prod.mk.inj (Option.some.inj hs)
    exact ⟨rfl, Or.inl ⟨by omega, rfl⟩⟩
  · obtain ⟨v, hv, hwrite⟩ := Option.bind_eq_some_iff.mp hs
    have hstop : ({ s with buffer := copyFromUser s.buffer buf readable }.led g).Stopped := h.stopped g
    cases ha : select v with
    | none =>
      rw [writeValue_wild hstop ha] at hwrite
      cases hwrite
    | some a =>
      obtain ⟨u, hu, hled, -, hjiffies, -⟩ := writeValue_select hstop ha buf.length
      rw [hu] at hwrite
      obtain ⟨-, rfl⟩ := Prod.mk.inj (Option.some.inj hwrite)
      exact ⟨hjiffies, Or.inr ⟨by omega, by omega, a, by rw [hv]; exact ha, hled⟩⟩

theorem blinkingSystemLed_led (s : Leds) (gpioOnoff : Level) :
    ∃ level, (s.blinkingSystemLed gpioOnoff).led =
        update s.led systemLedGpio ((s.led systemLedGpio).gpioSet systemLedGpio level) ∧
      (s.blinkingSystemLed gpioOnoff).jiffies = s.jiffies := by
  unfold blinkingSystemLed
  split
  · exact ⟨gpioOnoff, rfl, rfl⟩
  · exact ⟨.gpioOff, rfl, rfl⟩

section Step

variable {gpio : ℕ} {a : Option Action} {shown : Prop} (hshown : shown → gpio ≤ 20)

include hshown

theorem follows_step (hinv : s.Inv) (h : (s.led gpio).Follows a s.jiffies shown) {e : LedEvent}
    (hquiet : shown → gpio = systemLedGpio → e ≠ .blink) (hs : s.step e = some s') :
    (s'.led gpio).Follows (noteWrite gpio s e a) s'.jiffies shown := by
  cases e with
  | elapse n =>
    obtain rfl := Option.some.inj hs
    exact h.later (Nat.le_add_right _ _)
  | write g buf readable =>
    obtain ⟨⟨r, u⟩, hr, rfl⟩ := Option.map_eq_some_iff.mp hs
    obtain ⟨hjiffies, ⟨hnot, hled⟩ | ⟨hdev, hread, b, hb, hled⟩⟩ := gpioWrite_cases hinv hr
    · rw [noteWrite, if_neg (fun hand => hnot hand.2), hled, hjiffies]
      exact h
    · rw [hled, hjiffies, noteWrite]
      by_cases hg : g = gpio
      · subst hg
        rw [if_pos ⟨rfl, hdev, hread⟩, hb, update_self]
        exact Led.follows_action hshown b s.jiffies
      · rw [if_neg (fun hand => hg hand.1), update_of_ne (Ne.symm hg)]
        exact h
  | expire g =>
    obtain ⟨t, ht, hrun⟩ := Option.bind_eq_some_iff.mp hs
    split_ifs at hrun
    obtain ⟨led', hpulse, rfl⟩ := Option.map_eq_some_iff.mp hrun
    by_cases hg : g = gpio
    · subst hg
      obtain ⟨u, hu, hfollows⟩ := Led.follows_pulse hshown h ht s.pulsePattern
      simp only [setLed, update_self] at hpulse
      rw [hu] at hpulse
      obtain rfl := Option.some.inj hpulse
      simp only [setLed, update_self]
      exact hfollows
    · simp only [setLed, update_of_ne (Ne.symm hg)]
      exact h
  | blink =>
    obtain ⟨t, -, hrun⟩ := Option.bind_eq_some_iff.mp hs
    split_ifs at hrun
    obtain rfl := Option.some.inj hrun
    obtain ⟨level, hled, hjiffies⟩ := blinkingSystemLed_led { s with sysledTimer := none } t.data
    rw [hled, hjiffies]
    by_cases hg : gpio = systemLedGpio
    · subst hg
      rw [update_self]
      exact h.gpioSet (fun hs => hquiet hs rfl rfl) _ _
    · rw [update_of_ne hg]
      exact h

theorem expire_isSome (h : (s.led gpio).Follows a s.jiffies shown) {t : ℤ} (ht : (s.led gpio).pulseTimer = some t)
    (hdue : t ≤ s.jiffies) : (s.step (.expire gpio)).isSome := by
  obtain ⟨u, hu, -⟩ := Led.follows_pulse hshown h ht s.pulsePattern
  rw [step, ht, Option.bind_some, if_pos hdue, ledPulse]
  simp only [setLed, update_self]
  rw [hu]
  rfl

end Step

theorem write_isSome {gpio : ℕ} {buf : List UInt8} {v : BitVec 32} (hinv : s.Inv) (hgpio : gpio < maxGpios)
    (hlen : buf.length ≤ bufferSize) (hv : simpleStrtoul (copyFromUser s.buffer buf buf.length) = some v)
    (hle : v.toNat ≤ 6) : (s.step (.write gpio buf buf.length)).isSome := by
  have hselect : ∃ a, select v = some a := by
    rw [← Option.ne_none_iff_exists', ne_eq, select_none]
    omega
  obtain ⟨a, ha⟩ := hselect
  have hstop : ({ s with buffer := copyFromUser s.buffer buf buf.length }.led gpio).Stopped := hinv.stopped gpio
  obtain ⟨u, hu, -⟩ := writeValue_select hstop ha buf.length
  rw [step, gpioWrite, if_neg (by omega), if_neg (by omega)]
  dsimp only
  rw [if_neg (by omega), hv, Option.bind_some, hu]
  rfl

theorem follows_gpioInit (jiffies : ℕ) (lines : ℕ → Level) (flag : Bool) (timer : Option SysledTimer)
    (outputLeds : List ℕ) (gpio : ℕ) (shown : Prop) :
    (((loaded jiffies lines flag timer).gpioInit outputLeds).led gpio).Follows none
      ((loaded jiffies lines flag timer).gpioInit outputLeds).jiffies shown := by
  have hidle : ∀ (leds : List ℕ) (s : Leds), (s.led gpio).pattern = none ∧ (s.led gpio).pulseTimer = none →
      ((leds.foldl initLed s).led gpio).pattern = none ∧ ((leds.foldl initLed s).led gpio).pulseTimer = none := by
    intro leds
    induction leds with
    | nil => exact fun _ h => h
    | cons g leds ih =>
      intro s h
      apply ih
      simp only [initLed, setLed, update_apply]
      split_ifs with hg
      · subst hg
        exact ⟨rfl, (Led.gpioSet_fields _ _ _).2.trans h.2⟩
      · exact h
  obtain ⟨hpattern, htimer⟩ := hidle (outputLeds.take maxGpios) (loaded jiffies lines flag timer) ⟨rfl, rfl⟩
  exact Led.follows_idle hpattern htimer

theorem follows_exec {jiffies : ℕ} {lines : ℕ → Level} {flag : Bool} {timer : Option SysledTimer} {outputLeds : List ℕ}
    {es : List LedEvent} {gpio : ℕ} {shown : Prop} (hshown : shown → gpio ≤ 20)
    (hquiet : shown → gpio = systemLedGpio → LedEvent.blink ∉ es)
    (h : exec step ((loaded jiffies lines flag timer).gpioInit outputLeds) es = some s) :
    (s.led gpio).Follows (track step (noteWrite gpio) ((loaded jiffies lines flag timer).gpioInit outputLeds) es none)
      s.jiffies shown := by
  have hrun := exec_track (noteWrite gpio) (fun s a => s.Inv ∧ (s.led gpio).Follows a s.jiffies shown)
    ⟨inv_gpioInit _ _ _ _ _, follows_gpioInit _ _ _ _ _ gpio shown⟩ ?_ h
  · exact hrun.2
  · intro s e s' a he hs hstep
    refine ⟨hs.1.step hstep, follows_step hshown hs.1 hs.2 ?_ hstep⟩
    rintro hshow hg rfl
    exact hquiet hshow hg he

end Leds

theorem leds_follow_last_write (jiffies : ℕ) (lines : ℕ → Level) (flag : Bool) (timer : Option SysledTimer)
    (outputLeds : List ℕ) (es : List LedEvent) (s : Leds)
    (h : exec Leds.step ((Leds.loaded jiffies lines flag timer).gpioInit outputLeds) es = some s) (gpio : ℕ) :
    ((s.led gpio).pattern.isSome ↔ (s.led gpio).pulseTimer.isSome) ∧
    (∀ p, (s.led gpio).pattern = some p →
      track Leds.step (Leds.noteWrite gpio) ((Leds.loaded jiffies lines flag timer).gpioInit outputLeds) es none =
        some (.pattern p) ∧
      (s.led gpio).currIndex ≤ (ledPatterns.get p).timerVals.idxOf (-1) ∧
      ∃ pos : ℕ, ∃ d : ℤ, ∃ start : ℕ, (s.led gpio).currIndex = pos + 1 ∧
        (ledPatterns.get p).timerVals[pos]? = some d ∧ 0 ≤ d ∧
        (s.led gpio).pulseTimer = some (d + start) ∧ start ≤ s.jiffies ∧
        (gpio ≤ 20 → (gpio = systemLedGpio → LedEvent.blink ∉ es) →
          (s.led gpio).level = if pos % 2 = 1 then .gpioOff else .gpioOn)) ∧
    (∀ (buf : List UInt8) (v : BitVec 32), gpio < maxGpios → buf.length ≤ bufferSize →
      simpleStrtoul (copyFromUser s.buffer buf buf.length) = some v → v.toNat ≤ 6 →
      (s.step (.write gpio buf buf.length)).isSome) ∧
    (∀ t, (s.led gpio).pulseTimer = some t → t ≤ s.jiffies → (s.step (.expire gpio)).isSome) := by
  have hshown : gpio ≤ 20 ∧ (gpio = systemLedGpio → LedEvent.blink ∉ es) → gpio ≤ 20 := fun hand => hand.1
  have hfollows := Leds.follows_exec hshown (fun hand => hand.2) h
  refine ⟨?_, ?_, ?_, ?_⟩
  · cases hp : (s.led gpio).pattern with
    | none =>
      rw [hfollows.idle hp]
      exact Iff.rfl
    | some p =>
      obtain ⟨-, pos, hat⟩ := hfollows.runs p hp
      obtain ⟨d, start, -, -, -, htimer⟩ := hat.armed
      rw [htimer]
      rfl
  · intro p hp
    obtain ⟨ha, pos, hat⟩ := hfollows.runs p hp
    obtain ⟨d, start, hd, hnonneg, hstart, htimer⟩ := hat.armed
    refine ⟨ha, ?_, pos, d, start, hat.index, hd, hnonneg, htimer, hstart, ?_⟩
    · rw [hat.index]
      exact hat.before
    · intro hline hquiet
      exact hat.level ⟨hline, hquiet⟩
  · intro buf v hgpio hlen hv hle
    exact Leds.write_isSome (Leds.inv_of_exec h) hgpio hlen hv hle
  · intro t ht hdue
    exact Leds.expire_isSome hshown hfollows ht hdue

theorem led_follows_second_write : ∃ s,
    exec Leds.step ((Leds.loaded 0 (fun _ => .gpioOff) false none).gpioInit [5])
      [.write 5 [50, 10] 2, .write 6 [54, 10] 2, .write 5 [52, 10] 2] = some s ∧
    (s.led 5).pattern = some 2 ∧
    track Leds.step (Leds.noteWrite 5) ((Leds.loaded 0 (fun _ => .gpioOff) false none).gpioInit [5])
      [.write 5 [50, 10] 2, .write 6 [54, 10] 2, .write 5 [52, 10] 2] none = some (.pattern 2) ∧
    (s.led 5).currIndex ≤ (ledPatterns.get 2).timerVals.idxOf (-1) := by
  refine ⟨_, rfl, rfl, ?_⟩
  have h := (leds_follow_last_write 0 (fun _ => .gpioOff) false none [5]
    [.write 5 [50, 10] 2, .write 6 [54, 10] 2, .write 5 [52, 10] 2] _ rfl 5).2.1 2 rfl
  exact ⟨h.1, h.2.1⟩

end Wap610n.Gpio
