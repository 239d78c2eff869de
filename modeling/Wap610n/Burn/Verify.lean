import Wap610n.Burn.Machine

namespace Wap610n.Burn

open Bytes Transition

namespace State

variable {content : ℕ → UInt8} {size : ℕ} {s s' : State}

structure Unverified (content : ℕ → UInt8) (size : ℕ) (s : State) : Prop where
  fileContent : s.params.fileContent = some content
  imageSize : s.params.imageSize = size
  verifiedOk : s.thread.verifiedOk = false

structure Compared (content : ℕ → UInt8) (size : ℕ) (s : State) : Prop where
  fileContent : s.params.fileContent = some content
  imageSize : s.params.imageSize = size
  left : s.thread.verifiedOk = true → s.thread.locVerify + s.thread.numLeft = size
  agrees : s.thread.verifiedOk = true → ∀ i < s.thread.locVerify, s.flash i = content i

def VerifyInv (content : ℕ → UInt8) (size : ℕ) (s : State) : Prop :=
  match s.thread.pc with
  | .ended => s.params.burnState = .done → ∀ i < size, s.flash i = content i
  | .crashed => True
  | .openVerify => Unverified content size s ∧ s.thread.locVerify = 0 ∧ s.thread.numLeft = size
  | .read => Compared content size s ∧ s.thread.fp = .opened s.thread.locVerify
  | .closeVerify => Compared content size s ∧ (s.thread.verifiedOk = true → s.thread.numLeft = 0)
  | _ => Unverified content size s

theorem Unverified.finish (h : s.Unverified content size) : s.finish.VerifyInv content size := by
  simp only [State.finish, h.verifiedOk, Bool.false_eq_true, ↓reduceIte]
  by_cases hfp : s.thread.fp = .null
  · simp [VerifyInv, goto, fail, setState, hfp]
  · simp [VerifyInv, goto, fail, setState, hfp]

theorem Unverified.attempt (h : s.Unverified content size) : s.attempt.VerifyInv content size := by
  unfold State.attempt
  split_ifs
  · exact ⟨h.fileContent, h.imageSize, h.verifiedOk⟩
  · exact h.finish

theorem Unverified.retry (h : s.Unverified content size) : s.retry.VerifyInv content size :=
  Unverified.attempt ⟨h.fileContent, h.imageSize, h.verifiedOk⟩

theorem Unverified.afterWrite (h : s.Unverified content size) : s.afterWrite.VerifyInv content size := by
  unfold State.afterWrite
  split_ifs
  · exact ⟨⟨h.fileContent, h.imageSize, h.verifiedOk⟩, rfl, h.imageSize⟩
  · exact h.retry

theorem Unverified.afterLoop (h : s.Unverified content size) : s.afterLoop.VerifyInv content size := by
  unfold State.afterLoop
  split_ifs
  · exact ⟨h.fileContent, h.imageSize, h.verifiedOk⟩
  · exact Unverified.afterWrite ⟨h.fileContent, h.imageSize, h.verifiedOk⟩

theorem Unverified.writeLoop (h : s.Unverified content size) : s.writeLoop.VerifyInv content size := by
  unfold State.writeLoop
  split_ifs
  · exact ⟨h.fileContent, h.imageSize, h.verifiedOk⟩
  · exact h.afterLoop

theorem Unverified.written (h : s.Unverified content size) (n : ℕ) :
    (s.written n).VerifyInv content size := by
  unfold State.written
  dsimp only
  split_ifs
  · exact Unverified.afterLoop ⟨h.fileContent, h.imageSize, h.verifiedOk⟩
  · exact ⟨h.fileContent, h.imageSize, h.verifiedOk⟩
  · exact Unverified.writeLoop ⟨h.fileContent, h.imageSize, h.verifiedOk⟩

theorem Compared.verifyLoop (h : s.Compared content size)
    (hfp : s.thread.verifiedOk = true → 0 < s.thread.numLeft → s.thread.fp = .opened s.thread.locVerify) :
    s.verifyLoop.VerifyInv content size := by
  unfold State.verifyLoop
  split_ifs with hl
  · exact ⟨⟨h.fileContent, h.imageSize, h.left, h.agrees⟩, hfp hl.2 hl.1⟩
  · refine ⟨⟨h.fileContent, h.imageSize, h.left, h.agrees⟩, fun hv => ?_⟩
    by_contra h0
    exact hl ⟨Nat.pos_of_ne_zero h0, hv⟩

theorem compare_ok {content : ℕ → UInt8} {verBuff : List UInt8} {s : State}
    (h : (compare content verBuff s).thread.verifiedOk = true) :
    s.thread.verifiedOk = true ∧
      (compare content verBuff s).thread.locVerify = s.thread.locVerify + verBuff.length ∧
      ∀ i < verBuff.length, verBuff.getD i 0 = content (s.thread.locVerify + i) := by
  induction verBuff generalizing s with
  | nil => exact ⟨h, rfl, fun i hi => absurd hi (Nat.not_lt_zero i)⟩
  | cons b verBuff ih =>
    unfold compare at h ⊢
    split_ifs at h ⊢ with hb
    obtain ⟨hv, hl, ha⟩ := ih h
    refine ⟨hv, by rw [hl, List.length_cons]; dsimp only; omega, fun i hi => ?_⟩
    cases i with
    | zero => exact not_not.mp hb
    | succ i =>
      rw [List.getD_cons_succ, ha i (by simpa using hi)]
      congr 1
      dsimp only
      omega

theorem Compared.read (h : s.Compared content size) {pos n : ℕ} (hpos : pos = s.thread.locVerify)
    (r : State) (hr : r = compare content (slice s.flash pos (min n s.thread.numLeft))
      { s with thread.fp := .opened (pos + n) }) :
    (State.verifyLoop { r with thread.numLeft := r.thread.numLeft - min n s.thread.numLeft }).VerifyInv
      content size := by
  subst hpos
  obtain ⟨loc, precent, ok, heq⟩ := compare_eq content
    (slice s.flash s.thread.locVerify (min n s.thread.numLeft))
    { s with thread.fp := .opened (s.thread.locVerify + n) }
  have hok (hv : r.thread.verifiedOk = true) :
      s.thread.verifiedOk = true ∧
        r.thread.locVerify = s.thread.locVerify + min n s.thread.numLeft ∧
        ∀ i < min n s.thread.numLeft, s.flash (s.thread.locVerify + i) = content (s.thread.locVerify + i) := by
    rw [hr] at hv
    obtain ⟨hs, hl, ha⟩ := compare_ok hv
    rw [slice_length] at hl ha
    refine ⟨hs, by rw [hr, hl], fun i hi => ?_⟩
    exact (slice_getD hi).symm.trans (ha i hi)
  rw [hr.trans heq] at hok ⊢
  apply Compared.verifyLoop
  · refine ⟨h.fileContent, h.imageSize, fun hv => ?_, fun hv i hi => ?_⟩
    · obtain ⟨hs, hl, -⟩ := hok hv
      have := h.left hs
      dsimp only at hl ⊢
      omega
    · obtain ⟨hs, hl, ha⟩ := hok hv
      dsimp only at hi hl ⊢
      by_cases hlt : i < s.thread.locVerify
      · exact h.agrees hs i hlt
      · have := ha (i - s.thread.locVerify) (by omega)
        rwa [Nat.add_sub_cancel' (by omega)] at this
  · intro hv h0
    have hl := (hok hv).2.1
    dsimp only at h0 hl ⊢
    rw [hl, Nat.min_eq_left (by omega)]

theorem VerifyInv.unverified (h : s.VerifyInv content size) {pc : BurnPc} (hpc : s.thread.pc = pc)
    (hw : pc ≠ .ended ∧ pc ≠ .crashed ∧ pc ≠ .read ∧ pc ≠ .closeVerify) : s.Unverified content size := by
  unfold VerifyInv at h
  rw [hpc] at h
  cases pc with
  | ended | crashed | read | closeVerify => simp at hw
  | openVerify => exact h.1
  | _ => exact h

theorem VerifyInv.step {io : Io} (h : s.VerifyInv content size) (hs : s.Step io s') :
    s'.VerifyInv content size := by
  have failed (t : State) : (t.fail.goto .ended).VerifyInv content size := fun hd => nomatch hd
  cases hs with
  | start hpc | headerOpened hpc | headerRead hpc | appendOpened hpc | chunkClosed hpc =>
    have hu := h.unverified hpc (by simp)
    exact ⟨hu.fileContent, hu.imageSize, hu.verifiedOk⟩
  | headerUnopened | headerShort | appendUnopened => exact failed s
  | writeCrashed | endCrashed | compareCrashed => trivial
  | trailerWritten hpc =>
    have hu := h.unverified hpc (by simp)
    apply Unverified.attempt
    exact ⟨hu.fileContent, hu.imageSize, hu.verifiedOk⟩
  | writeOpened hpc | reopened hpc =>
    have hu := h.unverified hpc (by simp)
    apply Unverified.writeLoop
    exact ⟨hu.fileContent, hu.imageSize, hu.verifiedOk⟩
  | writeUnopened hpc | endClosed hpc | endUnclosed hpc =>
    have hu := h.unverified hpc (by simp)
    apply Unverified.afterWrite
    exact ⟨hu.fileContent, hu.imageSize, hu.verifiedOk⟩
  | wrote hpc =>
    have hu := h.unverified hpc (by simp)
    apply Unverified.written
    exact ⟨hu.fileContent, hu.imageSize, hu.verifiedOk⟩
  | chunkUnclosed hpc | unreopened hpc =>
    have hu := h.unverified hpc (by simp)
    apply Unverified.afterLoop
    exact ⟨hu.fileContent, hu.imageSize, hu.verifiedOk⟩
  | verifyOpened hpc =>
    simp only [VerifyInv, hpc] at h
    obtain ⟨hu, hl, hn⟩ := h
    apply Compared.verifyLoop
    · refine ⟨hu.fileContent, hu.imageSize, fun _ => ?_, fun _ i hi => ?_⟩
      · dsimp only
        omega
      · dsimp only at hi
        omega
    · intro _ _
      dsimp only
      rw [hl]
  | verifyUnopened hpc =>
    have hu := h.unverified hpc (by simp)
    apply Unverified.retry
    exact ⟨hu.fileContent, hu.imageSize, hu.verifiedOk⟩
  | compared hpc hc hfp hr =>
    simp only [VerifyInv, hpc] at h
    rw [h.1.fileContent] at hc
    rw [h.2] at hfp
    cases hc
    exact h.1.read (Stream.opened.inj hfp).symm _ hr
  | verified hpc hv =>
    simp only [VerifyInv, hpc] at h
    obtain ⟨hc, hn⟩ := h
    have hleft := hc.left hv
    simp only [State.finish, hv, ↓reduceIte]
    intro _ i hi
    exact hc.agrees hv i (by rw [hn hv] at hleft; omega)
  | differed hpc hv =>
    simp only [VerifyInv, hpc] at h
    apply Unverified.retry
    exact ⟨h.1.fileContent, h.1.imageSize, hv⟩

theorem VerifyInv.of_run {params : BurnParams} (hc : params.fileContent = some content) {flash : ℕ → UInt8}
    (hrun : Run State.step (fun _ _ => True) (.started params flash) s) : s.VerifyInv content params.imageSize := by
  apply hrun.invariant
  · exact ⟨hc, rfl, rfl⟩
  · intro s io s' h _ hs
    exact h.step (.of_step hs)

end State

theorem burn_done_verified {params : BurnParams} {content : ℕ → UInt8} (hc : params.fileContent = some content)
    {flash : ℕ → UInt8} {s : State} (hrun : Run State.step (fun _ _ => True) (.started params flash) s)
    (hend : s.thread.pc = .ended) (hdone : s.params.burnState = .done) :
    ∀ i < params.imageSize, s.flash i = content i := by
  have hinv := State.VerifyInv.of_run hc hrun
  simp only [State.VerifyInv, hend] at hinv
  exact hinv hdone

def threeBytes : BurnParams := ⟨.idle, 0, some fun i => UInt8.ofNat (7 + i), 3, 3⟩

def threeByteRun : List Io :=
  let image : ℕ → UInt8 := fun i => UInt8.ofNat (7 + i)
  [.none, .fopen true, .fread 32, .fopen true, .fwrite 16 fun _ => 0xff, .fopen true, .fwrite 2 fun _ => 0xff,
    .fwrite 1 fun _ => 0xff, .fclose true image, .fopen true, .fread 2, .fread 1, .fclose true image]

theorem burn_done_verified_threeBytes :
    ∃ s, exec State.step (.started threeBytes fun _ => 0) threeByteRun = some s ∧
      s.thread.pc = .ended ∧ s.params.burnState = .done ∧ ∀ i < 3, s.flash i = UInt8.ofNat (7 + i) := by
  have hc : threeBytes.fileContent = some fun i => UInt8.ofNat (7 + i) := rfl
  obtain ⟨s, hs, hend, hdone⟩ : ∃ s, exec State.step (.started threeBytes fun _ => 0) threeByteRun = some s ∧
    s.thread.pc = .ended ∧ s.params.burnState = .done := ⟨_, rfl, rfl, rfl⟩
  exact ⟨s, hs, hend, hdone, burn_done_verified hc (Run.exec (fun _ _ => trivial) .refl hs) hend hdone⟩

end Wap610n.Burn
