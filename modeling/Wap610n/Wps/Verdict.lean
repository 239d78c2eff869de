import Wap610n.Wps.Monitor

namespace Wap610n.Wps

open Bytes CString Transition

structure Fresh (trace : List Observation) : Prop where
  noVerdict : .own 14 ∉ trace
  noConnected : .own 99 ∉ trace
  down : .linkCheck true ∉ trace

theorem Fresh.append {trace : List Observation} (h : Fresh trace) {o : Observation} (ho : Fresh [o]) :
    Fresh (trace ++ [o]) := by
  refine ⟨?_, ?_, ?_⟩
  · exact fun hm => (List.mem_append.mp hm).elim h.noVerdict ho.noVerdict
  · exact fun hm => (List.mem_append.mp hm).elim h.noConnected ho.noConnected
  · exact fun hm => (List.mem_append.mp hm).elim h.down ho.down

namespace State

def Honest (s : State) : Prop := .own 14 ∈ s.trace → .linkCheck true ∉ s.trace ∧ .own 99 ∉ s.trace

def Keeps (s : State) : Event → Prop
  | .wireless _ => s.pc = .connecting → s.gotSignal = false → s.delayExit = 1 → s.wpsStatus ≠ 99
  | _ => True

def VerdictInv (s : State) : Prop :=
  match s.pc with
  | .connecting => 1 ≤ s.delayExit ∧
    (s.wpsStatus = 3 ∧ Fresh s.trace ∨ s.wpsStatus = 99 ∧ .own 99 ∈ s.trace ∧ .own 14 ∉ s.trace)
  | .failing | .exited | .crashed => s.Honest
  | _ => Fresh s.trace

variable {s s' : State}

theorem honest_of_fresh (h : Fresh s.trace) : s.Honest := fun hm => absurd hm h.noVerdict

theorem VerdictInv.honest (h : s.VerdictInv) : s.Honest := by
  unfold VerdictInv at h
  cases hpc : s.pc with
  | connecting =>
    rw [hpc] at h
    rcases h.2 with ⟨-, hf⟩ | ⟨-, -, hn⟩
    · exact honest_of_fresh hf
    · exact fun hm => absurd hm hn
  | failing | exited | crashed =>
    rw [hpc] at h
    exact h
  | _ =>
    rw [hpc] at h
    exact honest_of_fresh h

theorem Honest.finish (h : s.Honest) : s.finish.VerdictInv := by
  intro hm
  simp only [State.finish, expose, List.mem_append, List.mem_singleton, reduceCtorEq, or_false, Observation.own.injEq,
    OfNat.ofNat_ne_zero] at hm ⊢
  exact h hm

theorem Honest.countdown (h : s.Honest) (hpc : s.pc = .failing) : (s.countdown State.finish).VerdictInv := by
  unfold State.countdown
  dsimp only
  split_ifs
  · exact h.finish
  · exact Honest.finish (s := { s with delayExit := s.delayExit - 1 }) h
  · simp only [VerdictInv, hpc]
    exact h

theorem fresh_countdown (h : Fresh s.trace) (hpc : s.pc = .lingering ∨ s.pc = .expiring) {next : State → State}
    (hnext : ∀ t : State, t.trace = s.trace → (next t).VerdictInv) : (s.countdown next).VerdictInv := by
  unfold State.countdown
  dsimp only
  split_ifs
  · exact (honest_of_fresh h).finish
  · exact hnext _ rfl
  · rcases hpc with hpc | hpc
    · simpa only [VerdictInv, hpc] using h
    · simpa only [VerdictInv, hpc] using h

theorem fresh_afterPoll (h : Fresh s.trace) : s.afterPoll.VerdictInv := by
  unfold afterPoll
  by_cases hend : s.wpsStatus = 99 ∨ s.wpsStatus = 10 ∨ s.wpsStatus = 11 ∨ s.wpsStatus = 12 ∨ s.wpsStatus = 13
  · rw [if_pos hend]
    exact h
  rw [if_neg hend]
  split_ifs with h3
  · exact ⟨show 1 ≤ 60 by decide, Or.inl ⟨h3, h⟩⟩
  · exact h
  · exact (honest_of_fresh h).finish

theorem fresh_pollContent (h : Fresh s.trace) (hpc : s.pc = .polling) (content : List UInt8) :
    (s.pollContent content).VerdictInv := by
  unfold pollContent
  dsimp only
  cases readCode content with
  | none => simpa only [VerdictInv, hpc] using h
  | some code =>
    have happ : Fresh (s.trace ++ [.copied code]) := h.append ⟨by simp, by simp, by simp⟩
    dsimp only
    split_ifs
    · exact fresh_afterPoll happ
    · simpa only [VerdictInv, expose, hpc] using happ

theorem fresh_poll (h : Fresh s.trace) (hpc : s.pc = .polling) (file : File) : (s.poll file).VerdictInv := by
  cases file with
  | missing =>
    unfold poll
    dsimp only
    split_ifs
    · exact fresh_afterPoll h
    · simpa only [VerdictInv, hpc] using h
  | unopened =>
    rw [poll, if_neg (show ¬0 + 1 ≥ 5 by decide)]
    simpa only [VerdictInv, hpc] using h
  | content c => exact fresh_pollContent h hpc c

theorem fresh_exposeLastCode (h : Fresh s.trace) : Fresh s.exposeLastCode.trace := by
  have hown {code : ℤ} (h14 : 14 ≠ code) (h99 : 99 ≠ code) : Fresh (s.trace ++ [.own code]) :=
    h.append ⟨by simp [h14], by simp [h99], by simp⟩
  unfold exposeLastCode
  split_ifs
  · exact hown (by decide) (by decide)
  · exact hown (by decide) (by decide)
  · exact hown (by decide) (by decide)
  · exact h

theorem fresh_lastCodeFound (h : Fresh s.trace) (content : List UInt8) : (s.lastCodeFound content).VerdictInv := by
  have htrace : (s.takeLastCode content).trace = s.trace := by
    unfold takeLastCode
    cases readCode content <;> rfl
  rw [← htrace] at h
  unfold lastCodeFound
  dsimp only
  split_ifs
  · exact fresh_exposeLastCode h
  · exact Honest.finish (honest_of_fresh h)

theorem fresh_readLastCode (h : Fresh s.trace) (file : File) : (s.readLastCode file).VerdictInv := by
  cases file with
  | missing =>
    unfold readLastCode
    dsimp only
    split_ifs
    · exact Honest.finish (honest_of_fresh h)
    · exact h
  | unopened => exact Honest.finish (honest_of_fresh h)
  | content c => exact fresh_lastCodeFound (s := { s with retry := 0 }) h c

theorem VerdictInv.connect (h : s.VerdictInv) (hpc : s.pc = .connecting) {proc : Option (List UInt8)}
    (hkeep : s.Keeps (.wireless proc)) : (s.connect proc).VerdictInv := by
  have hhonest := h.honest
  simp only [VerdictInv, hpc] at h
  obtain ⟨hdelay, h⟩ := h
  unfold State.connect State.countdown
  by_cases hsig : s.gotSignal = true
  · rw [if_pos hsig]
    exact hhonest.finish
  rw [if_neg hsig]
  rcases h with ⟨h3, hf⟩ | ⟨h99, hmem, hno⟩
  · rw [if_pos h3]
    cases getStationLinkStatus proc with
    | none => exact hhonest
    | some up =>
      cases up with
      | true =>
        have hmem : Observation.own 99 ∈ s.trace ++ [.linkCheck true] ++ [.own 99] := by simp
        have hno : Observation.own 14 ∉ s.trace ++ [.linkCheck true] ++ [.own 99] := by simp [hf.noVerdict]
        simp only [State.connected, expose, ↓reduceIte, if_neg hsig, Nat.reduceSub, Nat.reduceEqDiff, VerdictInv, hpc]
        exact ⟨by decide, Or.inr ⟨trivial, hmem, hno⟩⟩
      | false =>
        have happ : Fresh (s.trace ++ [.linkCheck false]) := hf.append ⟨by simp, by simp, by simp⟩
        simp only [expose, Bool.false_eq_true, ↓reduceIte, if_neg hsig]
        split_ifs with hzero
        · -- the wait is over, and the link was down at every check
          intro _
          simp [connectFailed, expose, hf.down, hf.noConnected]
        · simp only [VerdictInv, hpc]
          exact ⟨by omega, Or.inl ⟨h3, happ⟩⟩
  · rw [if_neg (by omega : ¬s.wpsStatus = 3), if_neg hsig]
    have hlong : s.delayExit - 1 ≠ 0 := by
      intro hone
      exact hkeep hpc (Bool.eq_false_of_not_eq_true hsig) (by omega) h99
    dsimp only
    rw [if_neg hlong]
    simp only [VerdictInv, hpc]
    exact ⟨by omega, Or.inr ⟨h99, hmem, hno⟩⟩

theorem VerdictInv.fresh (h : s.VerdictInv) {pc : Pc} (hpc : s.pc = pc)
    (hne : pc ≠ .connecting ∧ pc ≠ .failing ∧ pc ≠ .exited ∧ pc ≠ .crashed) : Fresh s.trace := by
  unfold VerdictInv at h
  rw [hpc] at h
  cases pc with
  | connecting | failing | exited | crashed => simp at hne
  | _ => exact h

theorem VerdictInv.step (h : s.VerdictInv) {e : Event} (hs : s.Step e s') (hkeep : s.Keeps e) : s'.VerdictInv := by
  cases hs with
  | signal => exact h
  | found hpc | absent hpc | again hpc | searched hpc => exact h.fresh hpc (by simp)
  | timeout hpc => exact honest_of_fresh (h.fresh hpc (by simp))
  | stopped hpc | pollStopped hpc | searchStopped hpc => exact Honest.finish (honest_of_fresh (h.fresh hpc (by simp)))
  | polled hpc => exact fresh_poll (h.fresh hpc (by simp)) hpc _
  | lingered hpc =>
    have hf := h.fresh hpc (by simp)
    apply fresh_countdown hf (Or.inl hpc)
    intro t ht
    exact Honest.finish (honest_of_fresh (ht ▸ hf))
  | connected hpc => exact h.connect hpc hkeep
  | failed hpc => exact h.honest.countdown hpc
  | read hpc => exact fresh_readLastCode (h.fresh hpc (by simp)) _
  | expired hpc =>
    have hf := h.fresh hpc (by simp)
    apply fresh_countdown hf (Or.inr hpc)
    intro t ht
    exact Honest.finish (honest_of_fresh (s := { t with fptr := .null }) (ht ▸ hf))

theorem Honest.keeps (h : s.VerdictInv) {e : Event} (hs : s.step e = some s') (hh : s'.Honest) : s.Keeps e := by
  cases e with
  | wireless proc =>
    intro hpc hsig hdelay h99
    simp only [VerdictInv, hpc, h99] at h
    have hmem : Observation.own 99 ∈ s.trace := (h.2.resolve_left (by simp)).2.1
    have hs' : s' = connectFailed { s with delayExit := 0 } := by
      simpa [State.step, hpc, State.connect, hsig, h99, State.countdown, hdelay] using hs.symm
    subst hs'
    exact (hh (by simp [connectFailed, expose])).2 (by simp [connectFailed, expose, hmem])
  | signal | stat | tick | status => trivial

theorem started_verdictInv (fptr : Fptr) : (started fptr).VerdictInv :=
  show Fresh [] from ⟨List.not_mem_nil, List.not_mem_nil, List.not_mem_nil⟩

end State

theorem verdict_honest_iff (fptr : Fptr) (es : List Event) :
    (∀ pre s, pre <+: es → exec State.step (.started fptr) pre = some s → s.Honest) ↔
      ∀ pre e s s', pre ++ [e] <+: es → exec State.step (.started fptr) pre = some s → s.step e = some s' →
        s.Keeps e := by
  apply exec_safe_iff (State.started_verdictInv fptr) fun s h => h.honest
  intro s e s' h hs
  exact ⟨h.step (.of_step hs), fun hh => hh.keeps h hs⟩

def wirelessUp : List UInt8 := text "wlan0: 0003 100 -50 -256 0 0 0 0 0 0"

def connectedRun : List Event :=
  [.stat true, .status (.content (text "status=3"))] ++ List.replicate 60 (.wireless (some wirelessUp))

theorem connected_then_failed : ∃ s, exec State.step (.started .null) connectedRun = some s ∧
    s.trace = [.copied 3, .linkCheck true, .own 99, .own 14] ∧ ¬s.Honest := by
  refine ⟨⟨.failing, false, 0, 14, 0, 60, .null, false, true, [.copied 3, .linkCheck true, .own 99, .own 14]⟩,
    by decide +kernel, rfl, fun h => ?_⟩
  exact absurd (h (by decide)).2 (by decide)

end Wap610n.Wps
