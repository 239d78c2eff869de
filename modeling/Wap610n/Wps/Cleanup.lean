import Wap610n.Wps.Monitor

namespace Wap610n.Wps

open Bytes CString Transition

namespace State

def Clean (s : State) : Prop := s.wpsRunning = false ∧ s.pidFile = false ∧ s.trace.getLast? = some (.own 0)

def CleanExit (s : State) : Prop := s.pc = .exited ∨ s.pc = .crashed → s.Clean

def Tidy (s : State) (e : Event) : Prop :=
  match s.pc, e with
  | .slept, .tick => s.retry < 60
  | .connecting, .wireless proc => s.gotSignal = false → s.wpsStatus = 3 → getStationLinkStatus proc ≠ none
  | _, _ => True

def CleanupInv (s : State) : Prop :=
  match s.pc with
  | .exited | .crashed => s.Clean
  | _ => s.pidFile = true

variable {s s' : State}

theorem CleanupInv.cleanExit (h : s.CleanupInv) : s.CleanExit := by
  unfold CleanupInv at h
  rintro (hpc | hpc)
  · rwa [hpc] at h
  · rwa [hpc] at h

theorem CleanupInv.pidFile (h : s.CleanupInv) (hpc : s.pc ≠ .exited) (hpc' : s.pc ≠ .crashed) : s.pidFile = true := by
  unfold CleanupInv at h
  split at h
  · exact absurd ‹_› hpc
  · exact absurd ‹_› hpc'
  · exact h

theorem cleanupInv_of_pidFile (h : s.pidFile = true) (hpc : s.pc ≠ .exited) (hpc' : s.pc ≠ .crashed) :
    s.CleanupInv := by
  unfold CleanupInv
  split
  · exact absurd ‹_› hpc
  · exact absurd ‹_› hpc'
  · exact h

theorem finish_cleanupInv (s : State) : s.finish.CleanupInv := ⟨rfl, rfl, List.getLast?_concat⟩

theorem afterPoll_cleanupInv (hpid : s.pidFile = true) : s.afterPoll.CleanupInv := by
  unfold afterPoll
  by_cases hend : s.wpsStatus = 99 ∨ s.wpsStatus = 10 ∨ s.wpsStatus = 11 ∨ s.wpsStatus = 12 ∨ s.wpsStatus = 13
  · rw [if_pos hend]
    exact hpid
  rw [if_neg hend]
  split_ifs
  · exact hpid
  · exact hpid
  · exact finish_cleanupInv s

theorem poll_cleanupInv (hpid : s.pidFile = true) (hpc : s.pc = .polling) (file : File) :
    (s.poll file).CleanupInv := by
  cases file with
  | missing =>
    unfold poll
    dsimp only
    split_ifs
    · exact afterPoll_cleanupInv hpid
    · exact cleanupInv_of_pidFile hpid (by simp [hpc]) (by simp [hpc])
  | unopened =>
    rw [poll, if_neg (show ¬0 + 1 ≥ 5 by decide)]
    exact cleanupInv_of_pidFile hpid (by simp [hpc]) (by simp [hpc])
  | content c =>
    unfold poll pollContent
    dsimp only
    cases readCode c with
    | none => exact cleanupInv_of_pidFile hpid (by simp [hpc]) (by simp [hpc])
    | some code =>
      dsimp only
      split_ifs
      · exact afterPoll_cleanupInv hpid
      · exact cleanupInv_of_pidFile hpid (by simp [expose, hpc]) (by simp [expose, hpc])

theorem countdown_cleanupInv (hpid : s.pidFile = true) (hpc : s.pc ≠ .exited) (hpc' : s.pc ≠ .crashed)
    {next : State → State} (hnext : ∀ t : State, t.pidFile = true → (next t).CleanupInv) :
    (s.countdown next).CleanupInv := by
  unfold State.countdown
  dsimp only
  split_ifs
  · exact finish_cleanupInv s
  · exact hnext _ hpid
  · exact cleanupInv_of_pidFile hpid hpc hpc'

theorem connect_cleanupInv (hpid : s.pidFile = true) (hpc : s.pc = .connecting) {proc : Option (List UInt8)}
    (hlink : s.gotSignal = false → s.wpsStatus = 3 → getStationLinkStatus proc ≠ none) :
    (s.connect proc).CleanupInv := by
  have hcountdown (t : State) (hkept : t.pidFile = true) (hat : t.pc = .connecting) :
      (t.countdown connectFailed).CleanupInv :=
    countdown_cleanupInv hkept (by simp [hat]) (by simp [hat]) fun _ h => h
  unfold State.connect
  split_ifs with hsig h3
  · exact finish_cleanupInv s
  · cases hup : getStationLinkStatus proc with
    | none => exact absurd hup (hlink (Bool.eq_false_of_not_eq_true hsig) h3)
    | some up =>
      dsimp only
      split_ifs
      · exact hcountdown _ hpid hpc
      · exact hcountdown _ hpid hpc
  · exact hcountdown s hpid hpc

theorem readLastCode_cleanupInv (hpid : s.pidFile = true) (file : File) : (s.readLastCode file).CleanupInv := by
  cases file with
  | missing =>
    unfold readLastCode
    dsimp only
    split_ifs
    · exact finish_cleanupInv _
    · exact hpid
  | unopened => exact finish_cleanupInv _
  | content c =>
    unfold readLastCode lastCodeFound
    dsimp only
    split_ifs
    · unfold exposeLastCode takeLastCode
      cases readCode c with
      | none => split_ifs <;> exact hpid
      | some code => split_ifs <;> exact hpid
    · exact finish_cleanupInv _

theorem CleanupInv.step (h : s.CleanupInv) {e : Event} (hs : s.Step e s') (ht : s.Tidy e) : s'.CleanupInv := by
  cases hs with
  | signal => exact h
  | found hpc | absent hpc | again hpc => exact h.pidFile (by simp [hpc]) (by simp [hpc])
  | timeout hpc hr =>
    simp only [Tidy, hpc] at ht
    omega
  | stopped | pollStopped | searchStopped => exact finish_cleanupInv _
  | polled hpc => exact poll_cleanupInv (h.pidFile (by simp [hpc]) (by simp [hpc])) hpc _
  | lingered hpc | failed hpc | expired hpc =>
    have hpid := h.pidFile (by simp [hpc]) (by simp [hpc])
    exact countdown_cleanupInv hpid (by simp [hpc]) (by simp [hpc]) fun t _ => finish_cleanupInv _
  | connected hpc =>
    simp only [Tidy, hpc] at ht
    exact connect_cleanupInv (h.pidFile (by simp [hpc]) (by simp [hpc])) hpc ht
  | searched hpc => exact h.pidFile (by simp [hpc]) (by simp [hpc])
  | read hpc => exact readLastCode_cleanupInv (h.pidFile (by simp [hpc]) (by simp [hpc])) _

theorem CleanExit.unless (h : s.CleanExit) (hpid : s.pidFile = true) : s.pc ≠ .exited ∧ s.pc ≠ .crashed := by
  constructor
  · intro hpc
    exact Bool.false_ne_true ((h (Or.inl hpc)).2.1.symm.trans hpid)
  · intro hpc
    exact Bool.false_ne_true ((h (Or.inr hpc)).2.1.symm.trans hpid)

theorem CleanExit.tidy (h : s.CleanupInv) {e : Event} (hs : s.Step e s') (hc : s'.CleanExit) : s.Tidy e := by
  cases hs with
  | signal hpc hpc' =>
    unfold Tidy
    cases s.pc <;> trivial
  | timeout hpc hr =>
    simp only [CleanupInv, hpc] at h
    exact absurd rfl (hc.unless h).1
  | stopped hpc hr | again hpc hr =>
    simp only [Tidy, hpc]
    exact hr
  | @connected proc hpc =>
    simp only [CleanupInv, hpc] at h
    simp only [Tidy, hpc]
    intro hsig h3 hnone
    have hend : s.connect proc = s.goto .crashed := by simp [State.connect, hsig, h3, hnone]
    rw [hend] at hc
    exact absurd rfl (hc.unless h).2
  | found hpc | absent hpc | pollStopped hpc | polled hpc | lingered hpc | failed hpc => simp only [Tidy, hpc]
  | searchStopped hpc | searched hpc | read hpc | expired hpc => simp only [Tidy, hpc]

theorem started_cleanupInv (fptr : Fptr) : (started fptr).CleanupInv := rfl

end State

theorem clean_exit_iff (fptr : Fptr) (es : List Event) :
    (∀ pre s, pre <+: es → exec State.step (.started fptr) pre = some s → s.CleanExit) ↔
      ∀ pre e s s', pre ++ [e] <+: es → exec State.step (.started fptr) pre = some s → s.step e = some s' →
        s.Tidy e := by
  apply exec_safe_iff (State.started_cleanupInv fptr) fun s h => h.cleanExit
  intro s e s' h hs
  exact ⟨h.step (.of_step hs), fun hc => hc.tidy h (.of_step hs)⟩

def noStatusRun : List Event := (List.replicate 61 [.stat false, .tick]).flatten

theorem timeout_leaves_files : ∃ s, exec State.step (.started .null) noStatusRun = some s ∧
    s.pc = .exited ∧ s.wpsRunning = true ∧ s.pidFile = true ∧ s.trace = [] ∧ ¬s.CleanExit := by
  refine ⟨⟨.exited, false, 61, 0, 0, 0, .null, true, true, []⟩, by decide +kernel, rfl, rfl, rfl, rfl, fun h => ?_⟩
  exact absurd (h (Or.inl rfl)).1 (by decide)

end Wap610n.Wps
