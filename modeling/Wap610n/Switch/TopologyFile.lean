import Wap610n.Switch.LoopRun

namespace Wap610n.Switch

/-- The detector, the last value it has written to `local_topology_change` and, as history, how often its main loop
has called `reset_Portmap` or disabled a port. -/
structure Announcer where
  core : Detector
  localTopologyChange : ℕ
  changes : ℕ

namespace Announcer

def resetPortmap (a : Announcer) : Announcer where
  core := a.core.resetPortmap
  localTopologyChange := 1
  changes := a.changes + 1

def initStatus (regValue : BitVec 16) : Announcer where
  core := Detector.initStatus regValue
  localTopologyChange := 0
  changes := 0

def ageTopology (a : Announcer) : Announcer :=
  if a.core.tpChange then
    if a.core.tpTimeOut + 1 > 15 then
      { a with core := { a.core with tpChange := false, tpTimeOut := 0 }, localTopologyChange := 0 }
    else { a with core := { a.core with tpTimeOut := a.core.tpTimeOut + 1 } }
  else a

def checkPort (a : Announcer) (link : ℕ → Bool) : Announcer :=
  let a := { a with core := { a.core with portLink := portStatus (starSwitchGetPortLinkStatus link) } }
  let a := if a.core.portChanged then a.resetPortmap else a
  { a with core := { a.core with prePortLink := a.core.portLink } }

def checkWireless (a : Announcer) (ifwStatus : ℤ) : Announcer :=
  let a := if a.core.wirelessChanged ifwStatus then a.resetPortmap else a
  { a with core := { a.core with ifwStatus := ifwStatus } }

def checkLinks (a : Announcer) (r : Readings) : Announcer :=
  let a :=
    if a.core.checkTime ≥ 2 then
      let a := (a.checkPort r.link).checkWireless r.ifwStatus
      { a with core := { a.core with checkTime := 0 } }
    else a
  { a with core := { a.core with checkTime := a.core.checkTime + 1 } }

def onLoop (a : Announcer) : Announcer := { a with core := a.core.onLoop, changes := a.changes + 1 }

def detectLoop (brLoop : ℕ → ℤ) : ℕ → ℕ → Announcer → Announcer
  | 0, _, a => a
  | n + 1, i, a => if brLoop i ≠ 0 then detectLoop brLoop n (i + 1) a.onLoop else a

def round (a : Announcer) (r : Readings) : Announcer :=
  let a := a.ageTopology.checkLinks r
  if r.wpsLoopDetect then a else detectLoop r.brLoop 4 0 a

def rounds (a : Announcer) (readings : ℕ → Readings) : ℕ → Announcer
  | 0 => a
  | k + 1 => (a.rounds readings k).round (readings k)

section Refinement

variable (a : Announcer)

theorem core_ageTopology : a.ageTopology.core = a.core.ageTopology := by
  unfold ageTopology Detector.ageTopology
  split_ifs <;> rfl

theorem core_checkPort (link : ℕ → Bool) : (a.checkPort link).core = a.core.checkPort link := by
  unfold checkPort Detector.checkPort
  dsimp only
  split_ifs <;> rfl

theorem core_checkWireless (ifwStatus : ℤ) : (a.checkWireless ifwStatus).core = a.core.checkWireless ifwStatus := by
  unfold checkWireless Detector.checkWireless
  dsimp only
  split_ifs <;> rfl

theorem core_checkLinks (r : Readings) : (a.checkLinks r).core = a.core.checkLinks r := by
  unfold checkLinks Detector.checkLinks
  dsimp only
  split_ifs
  · rw [core_checkWireless, core_checkPort]
  · rfl

theorem core_detectLoop (brLoop : ℕ → ℤ) (n i : ℕ) :
    (detectLoop brLoop n i a).core = Detector.detectLoop brLoop n i a.core := by
  induction n generalizing i a with
  | zero => rfl
  | succ n ih =>
    unfold detectLoop Detector.detectLoop
    split_ifs
    · exact ih a.onLoop (i + 1)
    · rfl

theorem core_round (r : Readings) : (a.round r).core = a.core.round r := by
  unfold round Detector.round
  dsimp only
  split_ifs
  · rw [core_checkLinks, core_ageTopology]
  · rw [core_detectLoop, core_checkLinks, core_ageTopology]

theorem core_rounds (regValue : BitVec 16) (readings : ℕ → Readings) (k : ℕ) :
    ((initStatus regValue).rounds readings k).core = Detector.stateAt regValue readings k := by
  induction k with
  | zero => rfl
  | succ k ih => rw [rounds, core_round, ih, Detector.stateAt]

end Refinement

variable {a : Announcer} {r : Readings}

structure Kept (a a' : Announcer) : Prop where
  disablePort : a'.core.disablePort = a.core.disablePort
  tpChange : a'.core.tpChange = a.core.tpChange
  tpTimeOut : a'.core.tpTimeOut = a.core.tpTimeOut
  file : a'.localTopologyChange = a.localTopologyChange
  changes : a'.changes = a.changes

structure Reset (a a' : Announcer) : Prop where
  before : 0 ≤ a.core.disablePort
  disablePort : a'.core.disablePort = -1
  tpChange : a'.core.tpChange = true
  tpTimeOut : a'.core.tpTimeOut = a.core.tpTimeOut
  file : a'.localTopologyChange = 1
  changes : a'.changes = a.changes + 1

theorem checkPort_cases (a : Announcer) (link : ℕ → Bool) :
    a.Kept (a.checkPort link) ∨ a.Reset (a.checkPort link) := by
  unfold checkPort
  dsimp only
  split_ifs with h
  · unfold Detector.portChanged at h
    exact Or.inr ⟨(decide_eq_true_iff.mp h).1, rfl, rfl, rfl, rfl, rfl⟩
  · exact Or.inl ⟨rfl, rfl, rfl, rfl, rfl⟩

theorem checkWireless_cases (a : Announcer) (ifwStatus : ℤ) :
    a.Kept (a.checkWireless ifwStatus) ∨ a.Reset (a.checkWireless ifwStatus) := by
  unfold checkWireless
  dsimp only
  split_ifs with h
  · unfold Detector.wirelessChanged at h
    exact Or.inr ⟨(decide_eq_true_iff.mp h).1, rfl, rfl, rfl, rfl, rfl⟩
  · exact Or.inl ⟨rfl, rfl, rfl, rfl, rfl⟩

theorem checkLinks_cases (a : Announcer) (r : Readings) : a.Kept (a.checkLinks r) ∨ a.Reset (a.checkLinks r) := by
  unfold checkLinks
  dsimp only
  split_ifs
  swap
  · exact Or.inl ⟨rfl, rfl, rfl, rfl, rfl⟩
  rcases a.checkPort_cases r.link with hp | hp <;>
    rcases (a.checkPort r.link).checkWireless_cases r.ifwStatus with hw | hw
  · exact Or.inl ⟨hw.disablePort.trans hp.disablePort, hw.tpChange.trans hp.tpChange, hw.tpTimeOut.trans hp.tpTimeOut,
      hw.file.trans hp.file, hw.changes.trans hp.changes⟩
  · exact Or.inr ⟨hp.disablePort ▸ hw.before, hw.disablePort, hw.tpChange, hw.tpTimeOut.trans hp.tpTimeOut, hw.file,
      hp.changes ▸ hw.changes⟩
  · exact Or.inr ⟨hp.before, hw.disablePort.trans hp.disablePort, hw.tpChange.trans hp.tpChange,
      hw.tpTimeOut.trans hp.tpTimeOut, hw.file.trans hp.file, hw.changes.trans hp.changes⟩
  · -- the first reset leaves no port recorded for a second one
    have hbefore := hw.before
    rw [hp.disablePort] at hbefore
    exact absurd hbefore (by decide)

theorem Kept.of_none (h : a.core.disablePort = -1) (r : Readings) : a.Kept (a.checkLinks r) := by
  rcases a.checkLinks_cases r with hk | hr
  · exact hk
  · exact absurd (h ▸ hr.before) (by decide)

theorem round_of_reports_zero (h : r.reports = 0) (a : Announcer) : a.round r = a.ageTopology.checkLinks r := by
  unfold round
  unfold Readings.reports at h
  split_ifs at h ⊢ with hw
  · rfl
  · rw [detectLoop, if_neg]
    intro h0
    rw [List.range_succ_eq_map, List.takeWhile_cons, if_pos (decide_eq_true h0)] at h
    exact absurd h (Nat.succ_ne_zero _)

theorem round_of_reports_ne_zero (h : r.reports ≠ 0) (a : Announcer) :
    a.round r = detectLoop r.brLoop 3 1 (a.ageTopology.checkLinks r).onLoop := by
  unfold round
  unfold Readings.reports at h
  split_ifs at h ⊢ with hw
  · exact absurd rfl h
  · rw [detectLoop, if_pos]
    intro h0
    rw [List.range_succ_eq_map, List.takeWhile_cons, if_neg (by simp [h0])] at h
    exact h rfl

theorem detectLoop_tpChange (h : a.core.tpChange = true) (brLoop : ℕ → ℤ) (n i : ℕ) :
    (detectLoop brLoop n i a).core.tpChange = true := by
  induction n generalizing i a with
  | zero => exact h
  | succ n ih =>
    rw [detectLoop]
    split_ifs
    · exact ih rfl (i + 1)
    · exact h

theorem detectLoop_file (brLoop : ℕ → ℤ) (n i : ℕ) (a : Announcer) :
    (detectLoop brLoop n i a).localTopologyChange = a.localTopologyChange := by
  induction n generalizing i a with
  | zero => rfl
  | succ n ih =>
    rw [detectLoop]
    split_ifs
    · exact ih (i + 1) a.onLoop
    · rfl

structure Quiet (a : Announcer) : Prop where
  disablePort : a.core.disablePort = -1
  tpChange : a.core.tpChange = false
  file : a.localTopologyChange = 0

theorem quiet_initStatus (regValue : BitVec 16) : (initStatus regValue).Quiet := ⟨rfl, rfl, rfl⟩

theorem Quiet.ageTopology (h : a.Quiet) : a.ageTopology = a := by
  rw [Announcer.ageTopology, h.tpChange, if_neg Bool.false_ne_true]

theorem Quiet.round (h : a.Quiet) (hr : r.reports = 0) : (a.round r).Quiet ∧ (a.round r).changes = a.changes := by
  have hk := Kept.of_none h.disablePort r
  rw [round_of_reports_zero hr, h.ageTopology]
  exact ⟨⟨hk.disablePort.trans h.disablePort, hk.tpChange.trans h.tpChange, hk.file.trans h.file⟩, hk.changes⟩

theorem Quiet.reported (h : a.Quiet) (hr : r.reports ≠ 0) :
    (a.round r).core.tpChange = true ∧ (a.round r).localTopologyChange = 0 := by
  have hk := Kept.of_none h.disablePort r
  rw [round_of_reports_ne_zero hr, h.ageTopology, detectLoop_file]
  exact ⟨detectLoop_tpChange rfl _ _ _, hk.file.trans h.file⟩

theorem Quiet.rounds (h : a.Quiet) {readings : ℕ → Readings} {n : ℕ} (hr : ∀ k < n, (readings k).reports = 0) :
    (a.rounds readings n).Quiet := by
  induction n with
  | zero => exact h
  | succ n ih => exact ((ih fun k hk => hr k (Nat.lt_succ_of_lt hk)).round (hr n (Nat.lt_succ_self n))).1

def Announces (regValue : BitVec 16) (readings : ℕ → Readings) : Prop :=
  ∀ k, (((initStatus regValue).rounds readings k).core.tpChange = true ↔
      ((initStatus regValue).rounds readings k).localTopologyChange = 1) ∧
    (((initStatus regValue).rounds readings k).changes < ((initStatus regValue).rounds readings (k + 1)).changes →
      ∀ j ≤ 15, ((initStatus regValue).rounds readings (k + 1 + j)).localTopologyChange = 1)

theorem announces_iff (regValue : BitVec 16) (readings : ℕ → Readings) :
    Announces regValue readings ↔ ∀ k, (readings k).reports = 0 := by
  have hinit := quiet_initStatus regValue
  constructor
  · intro h k
    induction k using Nat.strong_induction_on with
    | _ k ih =>
      by_contra hr
      obtain ⟨htrue, hfile⟩ := (hinit.rounds ih).reported hr
      have hone := (h (k + 1)).1.mp htrue
      exact absurd (hfile.symm.trans hone) (by decide)
  · intro hr k
    have hk := hinit.rounds (n := k) fun k _ => hr k
    refine ⟨?_, ?_⟩
    · rw [hk.tpChange, hk.file]
      decide
    · intro hlt
      exact absurd (hk.round (hr k)).2 hlt.ne'

theorem first_report_not_announced :
    ((initStatus 0xffff).rounds (Detector.loopReadings [0]) 1).core.tpChange = true ∧
      ((initStatus 0xffff).rounds (Detector.loopReadings [0]) 1).localTopologyChange = 0 ∧
      ¬Announces 0xffff (Detector.loopReadings [0]) := by
  obtain ⟨htrue, hfile⟩ := (quiet_initStatus 0xffff).reported (r := Detector.loopReadings [0] 0) (by decide)
  refine ⟨htrue, hfile, ?_⟩
  intro h
  exact absurd (hfile.symm.trans ((h 1).1.mp htrue)) (by decide)

def Announced (c : ℕ) (a : Announcer) : Prop :=
  a.core.disablePort = -1 ∧
    (c ≤ 15 ∧ a.core.tpChange = true ∧ a.core.tpTimeOut = c ∧ a.localTopologyChange = 1 ∨ 15 < c ∧ a.Quiet)

theorem Announced.ageTopology {c : ℕ} (h : a.Announced c) : a.ageTopology.Announced (c + 1) := by
  obtain ⟨hnone, ⟨hle, htrue, htime, hfile⟩ | ⟨hlt, hquiet⟩⟩ := h
  · rw [Announcer.ageTopology, if_pos htrue, htime]
    split_ifs with hover
    · exact ⟨hnone, Or.inr ⟨hover, hnone, rfl, rfl⟩⟩
    · exact ⟨hnone, Or.inl ⟨Nat.le_of_not_lt hover, htrue, rfl, hfile⟩⟩
  · rw [hquiet.ageTopology]
    exact ⟨hnone, Or.inr ⟨Nat.lt_succ_of_lt hlt, hquiet⟩⟩

theorem Announced.checkLinks {c : ℕ} (h : a.Announced c) (r : Readings) : (a.checkLinks r).Announced c := by
  have hk := Kept.of_none h.1 r
  refine ⟨hk.disablePort.trans h.1, ?_⟩
  rcases h.2 with ⟨hle, htrue, htime, hfile⟩ | ⟨hlt, hquiet⟩
  · exact Or.inl ⟨hle, hk.tpChange.trans htrue, hk.tpTimeOut.trans htime, hk.file.trans hfile⟩
  · exact Or.inr ⟨hlt, hk.disablePort.trans h.1, hk.tpChange.trans hquiet.tpChange, hk.file.trans hquiet.file⟩

theorem Announced.rounds {c : ℕ} (h : a.Announced c) {readings : ℕ → Readings}
    (hr : ∀ k, (readings k).reports = 0) (n : ℕ) : (a.rounds readings n).Announced (c + n) := by
  induction n with
  | zero => exact h
  | succ n ih =>
    rw [Announcer.rounds, round_of_reports_zero (hr n)]
    exact ih.ageTopology.checkLinks (readings n)

theorem ageTopology_le (h : a.core.tpTimeOut ≤ 15) :
    a.ageTopology.core.tpTimeOut ≤ 15 ∧ a.ageTopology.changes = a.changes := by
  unfold Announcer.ageTopology
  split_ifs with _ hover
  · exact ⟨Nat.zero_le 15, rfl⟩
  · exact ⟨Nat.le_of_not_lt hover, rfl⟩
  · exact ⟨h, rfl⟩

theorem file_after_reset (h : a.core.tpTimeOut ≤ 15) (hr : r.reports = 0) (hreset : a.changes < (a.round r).changes)
    {readings : ℕ → Readings} (hrs : ∀ k, (readings k).reports = 0) (j : ℕ) :
    ((a.round r).rounds readings j).localTopologyChange =
      if a.ageTopology.core.tpTimeOut + j ≤ 15 then 1 else 0 := by
  obtain ⟨hle, hchanges⟩ := ageTopology_le h
  rw [round_of_reports_zero hr] at hreset ⊢
  rcases a.ageTopology.checkLinks_cases r with hk | hs
  · exact absurd (hk.changes.trans hchanges) hreset.ne'
  have hstart : (a.ageTopology.checkLinks r).Announced a.ageTopology.core.tpTimeOut :=
    ⟨hs.disablePort, Or.inl ⟨hle, hs.tpChange, hs.tpTimeOut, hs.file⟩⟩
  rcases (hstart.rounds hrs j).2 with ⟨hopen, -, -, hfile⟩ | ⟨hclosed, hquiet⟩
  · rw [if_pos hopen, hfile]
  · rw [if_neg (Nat.not_le_of_lt hclosed), hquiet.file]

end Announcer

end Wap610n.Switch
