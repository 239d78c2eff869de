import Wap610n.Burn.VerifyEnds

namespace Wap610n.Burn

open Transition

namespace State

variable {size : ℕ} {s s' : State} {io : Io}

def Within (size : ℕ) (s : State) : Prop :=
  (s.thread.pc = .write → s.thread.locWrite + s.writeSize ≤ size) ∧
    (s.thread.pc = .read → s.thread.locVerify + s.thread.numLeft ≤ size)

def StartsInside (size : ℕ) (s : State) (io : Io) : Prop :=
  s.thread.pc = .openWrite → io = .fopen true → 0 < s.thread.numLeft → s.thread.locWrite < size

def Counts (size : ℕ) (s : State) : Prop :=
  s.params.imageSize = size ∧
    match s.thread.pc with
    | .openWrite => (s.thread.locWrite + s.thread.numLeft = size ∨ size ≤ s.thread.locWrite) ∧
      s.params.precentComplete ≠ 100
    | .write | .closeChunk | .reopenChunk => s.thread.locWrite + s.thread.numLeft = size
    | .closeEnd => size ≤ s.thread.locWrite
    | .openVerify => size ≤ s.thread.locWrite ∧ s.params.precentComplete = 0 ∧
      s.thread.locVerify = 0 ∧ s.thread.numLeft = size
    | .read => size ≤ s.thread.locWrite ∧ s.params.precentComplete ≠ 100 ∧
      s.thread.locVerify + s.thread.numLeft = size ∧ s.thread.verifiedOk = true
    | .closeVerify => size ≤ s.thread.locWrite ∧ (s.thread.verifiedOk = false → s.params.precentComplete ≠ 100)
    | _ => True

theorem precent_ne {loc : ℕ} (h : loc < size) : precent loc size ≠ 100 := by
  have hlt : loc * 100 / size < 100 := (Nat.div_lt_iff_lt_mul (by omega)).mpr (by omega)
  unfold precent
  omega

theorem comparedUpTo_precent_ne (himage : s.params.imageSize = size) (hp : s.params.precentComplete ≠ 100) {m : ℕ}
    (hlt : s.thread.locVerify + m < size) (ok : Bool) : (s.comparedUpTo m ok).params.precentComplete ≠ 100 := by
  simp only [comparedUpTo]
  split_ifs
  · exact hp
  · rw [himage]
    exact precent_ne hlt

theorem failed_ne : (-1 : ℤ) ≠ 100 := by decide

theorem Counts.finish (h : s.params.imageSize = size) : s.finish.Counts size := by
  unfold State.finish
  dsimp only
  split_ifs
  · exact ⟨h, trivial⟩
  · exact ⟨h, trivial⟩
  · exact ⟨h, trivial⟩

section Write

variable (himage : s.params.imageSize = size)
  (hcount : s.thread.locWrite + s.thread.numLeft = size ∨ size ≤ s.thread.locWrite)
include himage hcount

theorem Counts.attempt (hp : s.params.precentComplete ≠ 100) : s.attempt.Counts size := by
  unfold State.attempt
  split_ifs
  · exact ⟨himage, hcount, hp⟩
  · exact Counts.finish himage

theorem Counts.retry (hp : s.params.precentComplete ≠ 100) : s.retry.Counts size := by
  apply Counts.attempt
  · exact himage
  · exact hcount
  · exact hp

theorem Counts.afterWrite (hdone : s.params.precentComplete = 100 → size ≤ s.thread.locWrite) :
    s.afterWrite.Counts size := by
  unfold State.afterWrite
  split_ifs with hp
  · exact ⟨himage, hdone hp, rfl, rfl, himage⟩
  · exact Counts.retry himage hcount hp

theorem Counts.afterLoop : s.afterLoop.Counts size := by
  unfold State.afterLoop
  split_ifs with h0
  · refine ⟨himage, ?_⟩
    simp only [goto]
    omega
  · apply Counts.afterWrite
    · exact himage
    · exact hcount
    · exact fun hp => absurd hp failed_ne

theorem Counts.writeLoop (hleft : 0 < s.thread.numLeft → s.thread.locWrite + s.thread.numLeft = size) :
    s.writeLoop.Counts size := by
  unfold State.writeLoop
  split_ifs with h0
  · exact ⟨himage, hleft h0⟩
  · exact Counts.afterLoop himage hcount

end Write

theorem Counts.written (himage : s.params.imageSize = size)
    (hcount : s.thread.locWrite + s.thread.numLeft = size) {n : ℕ} (hn : n ≤ s.thread.numLeft) :
    (s.written n).Counts size := by
  unfold State.written
  dsimp only
  split_ifs
  · apply Counts.afterLoop
    · exact himage
    · exact Or.inl hcount
  · refine ⟨himage, ?_⟩
    dsimp only
    omega
  · apply Counts.writeLoop
    · exact himage
    · left
      dsimp only
      omega
    · intro _
      dsimp only
      omega

theorem writeSize_le (s : State) : s.writeSize ≤ s.thread.numLeft := by
  unfold writeSize
  split_ifs <;> omega

theorem Counts.compared (h : s.Counts size) (hpc : s.thread.pc = .read) {content : ℕ → UInt8} {n pos : ℕ}
    (r : State) (hr : r = compare content (Bytes.slice s.flash pos (min n s.thread.numLeft))
      { s with thread.fp := .opened (pos + n) }) :
    (verifyLoop { r with thread.numLeft := r.thread.numLeft - min n s.thread.numLeft }).Counts size := by
  obtain ⟨himage, hcount⟩ := h
  simp only [hpc] at hcount
  obtain ⟨hloc, hp, hleft, hok⟩ := hcount
  obtain ⟨m, hm, -, -, heq⟩ := compare_spec content (Bytes.slice s.flash pos (min n s.thread.numLeft))
    { s with thread.fp := .opened (pos + n) } hok
  rw [Bytes.slice_length] at hm heq
  rw [hr, heq, verifyLoop]
  split_ifs with hgo
  · obtain ⟨h0, hall⟩ := hgo
    simp only [comparedUpTo, decide_eq_true_eq] at h0 hall
    refine ⟨himage, hloc, comparedUpTo_precent_ne himage hp (by omega) true, ?_, ?_⟩
    · simp only [goto, comparedUpTo]
      omega
    · simpa only [goto, comparedUpTo, decide_eq_true_eq] using hall
  · refine ⟨himage, hloc, fun hdiffer => comparedUpTo_precent_ne himage hp ?_ false⟩
    simp only [goto, comparedUpTo, decide_eq_false_iff_not] at hdiffer
    omega

theorem Counts.step (h : s.Counts size) (hs : s.Step io s') (hin : s.StartsInside size io) : s'.Counts size := by
  obtain ⟨himage, hcount⟩ := h
  cases hs with
  | start hpc | headerOpened hpc | headerUnopened hpc | headerRead hpc | headerShort hpc | appendOpened hpc
  | appendUnopened hpc | writeCrashed hpc | endCrashed hpc | compareCrashed hpc => exact ⟨himage, trivial⟩
  | trailerWritten hpc =>
    apply Counts.attempt
    · exact himage
    · left
      dsimp only
      omega
    · exact (by decide : (0 : ℤ) ≠ 100)
  | writeOpened hpc =>
    simp only [hpc] at hcount
    apply Counts.writeLoop
    · exact himage
    · exact hcount.1
    · -- after a whole write numLeft is what the verification had left; such a start is excluded
      intro h0
      have hlt := hin hpc rfl h0
      have hor := hcount.1
      dsimp only
      omega
  | writeUnopened hpc =>
    simp only [hpc] at hcount
    apply Counts.afterWrite
    · exact himage
    · exact hcount.1
    · exact fun hp => absurd hp failed_ne
  | wrote hpc hn =>
    simp only [hpc] at hcount
    apply Counts.written
    · exact himage
    · exact hcount
    · exact hn.trans s.writeSize_le
  | chunkClosed hpc =>
    simp only [hpc] at hcount
    exact ⟨himage, hcount⟩
  | chunkUnclosed hpc | unreopened hpc =>
    simp only [hpc] at hcount
    apply Counts.afterLoop
    · exact himage
    · exact Or.inl hcount
  | reopened hpc =>
    simp only [hpc] at hcount
    apply Counts.writeLoop
    · exact himage
    · exact Or.inl hcount
    · exact fun _ => hcount
  | endClosed hpc | endUnclosed hpc =>
    simp only [hpc] at hcount
    apply Counts.afterWrite
    · exact himage
    · exact Or.inr hcount
    · exact fun _ => hcount
  | verifyOpened hpc =>
    simp only [hpc] at hcount
    obtain ⟨hloc, hp, hverify, hleft⟩ := hcount
    unfold verifyLoop
    split_ifs
    · refine ⟨himage, hloc, ?_, ?_, rfl⟩
      · simp [goto, hp]
      · simp only [goto]
        omega
    · exact ⟨himage, hloc, fun hok => absurd hok (by simp [goto])⟩
  | verifyUnopened hpc =>
    simp only [hpc] at hcount
    apply Counts.retry
    · exact himage
    · exact Or.inr hcount.1
    · simp [hcount.2.1]
  | compared hpc hc hfp hr => exact Counts.compared ⟨himage, hcount⟩ hpc _ hr
  | verified hpc hv => exact Counts.finish himage
  | differed hpc hv =>
    simp only [hpc] at hcount
    apply Counts.retry
    · exact himage
    · exact Or.inr hcount.1
    · exact hcount.2 hv

theorem Counts.within (h : s.Counts size) : s.Within size := by
  refine ⟨fun hpc => ?_, fun hpc => ?_⟩
  · obtain ⟨-, hcount⟩ := h
    simp only [hpc] at hcount
    have := s.writeSize_le
    omega
  · obtain ⟨-, hcount⟩ := h
    simp only [hpc] at hcount
    exact hcount.2.2.1.le

theorem startsInside_of_within (hs : s.step io = some s') (h : s'.Within size) : s.StartsInside size io := by
  rintro hpc rfl hleft
  simp only [step, hpc, writeLoop, if_pos hleft, Option.some.injEq] at hs
  subst hs
  have hin := h.1 rfl
  have hpos : 0 < s.writeSize := by
    unfold writeSize fileSingleWrite
    split_ifs <;> omega
  have hsize : s.thread.locWrite + s.writeSize ≤ size := hin
  omega

theorem within_iff {params : BurnParams} {flash : ℕ → UInt8} (es : List Io) :
    (∀ pre s, pre <+: es → exec step (.started params flash) pre = some s → s.Within params.imageSize) ↔
      ∀ pre io s s', pre ++ [io] <+: es → exec step (.started params flash) pre = some s →
        s.step io = some s' → s.StartsInside params.imageSize io := by
  have hstart : (started params flash).Counts params.imageSize := ⟨rfl, trivial⟩
  apply exec_safe_iff hstart
  · intro s h
    exact h.within
  · intro s io s' h hs
    exact ⟨h.step (.of_step hs), startsInside_of_within hs⟩

end State

end Wap610n.Burn
