import Wap610n.Burn.Resume

namespace Wap610n.Burn

open Bytes Transition

namespace State

variable {content : ℕ → UInt8} {size : ℕ} {s : State}

theorem step_ended (hpc : s.thread.pc = .ended ∨ s.thread.pc = .crashed) (io : Io) : s.step io = none := by
  rcases hpc with hpc | hpc <;> cases io <;> simp [step, hpc]

theorem finish_pc (s : State) : s.finish.thread.pc = .ended ∨ s.finish.thread.pc = .crashed := by
  unfold finish
  dsimp only
  split_ifs
  · exact Or.inl rfl
  · exact Or.inr rfl
  · exact Or.inl rfl

theorem finish_not_recovers (hok : s.thread.verifiedOk = false) : ¬s.finish.Recovers content size := by
  intro h
  have hdone := (h.inevitable.of_stuck (step_ended s.finish_pc)).2.1
  simp [finish, hok, goto, fail, setState] at hdone

theorem recovers_closeVerify (hpc : s.thread.pc = .closeVerify) : s.Recovers content size ↔
    Recovers content size (if s.thread.verifiedOk = true then finish { s with thread.fp := .closed }
      else retry { s with thread.fp := .closed }) := by
  apply recovers_fclose hpc (by simp)
  · simp only [step, hpc]
    split_ifs <;> rfl
  · intro io hio
    cases io <;> simp [step, hpc] at hio ⊢

theorem recovers_verified (hpc : s.thread.pc = .closeVerify) (hok : s.thread.verifiedOk = true)
    (hflash : ∀ i < size, s.flash i = content i) : s.Recovers content size := by
  rw [recovers_closeVerify hpc, if_pos hok]
  apply Secured.of_stuck
  · rcases finish_pc { s with thread.fp := .closed } with h | h
    · exact within_of_pc h (by simp) (by simp)
    · exact within_of_pc h (by simp) (by simp)
  · simpa [Burnt, finish, hok, goto, setState] using hflash
  · exact step_ended (finish_pc _)

/-! ### An attempt that starts past the image -/

theorem openWrite_not_recovers (hpc : s.thread.pc = .openWrite) (hloc : size ≤ s.thread.locWrite)
    (hp : s.params.precentComplete ≠ 100)
    (hretry : ¬(retry { s with thread.pc := .closeEnd, thread.fp := .closed }).Recovers content size) :
    ¬s.Recovers content size := by
  intro h
  have hstep : s.step (.fopen true) = some (writeLoop { s with thread.fp := .opened 0 }) := by
    simp only [step, hpc]
  rw [recovers_openWrite hpc] at h
  by_cases h0 : 0 < s.thread.numLeft
  · -- the first write would read past the image
    have hin := startsInside_of_within hstep (h.safe _ .refl) hpc rfl h0
    omega
  · rw [writeLoop, if_neg h0, afterLoop, if_pos (Nat.eq_zero_of_not_pos h0), recovers_closeEnd rfl (by simp [goto]),
      afterWrite, if_neg (by exact hp)] at h
    exact hretry h

theorem retry_not_recovers (hok : s.thread.verifiedOk = false) (hloc : size ≤ s.thread.locWrite)
    (hp : s.params.precentComplete ≠ 100) : ¬s.retry.Recovers content size := by
  induction hk : (s.params.retryCount - s.thread.retryCount).toNat generalizing s with
  | zero =>
    rw [retry, attempt, if_neg (by dsimp only; omega)]
    exact finish_not_recovers hok
  | succ k ih =>
    rw [retry, attempt]
    split_ifs
    · apply openWrite_not_recovers
      · rfl
      · exact hloc
      · exact hp
      · apply ih
        · exact hok
        · exact hloc
        · exact hp
        · simp only [goto]
          omega
    · exact finish_not_recovers hok

/-! ### The verification of an attempt -/

theorem Reading.recovers (h : s.Reading content) (hcount : s.thread.locVerify + s.thread.numLeft = size)
    (hflash : ∀ i < size, s.flash i = content i) : s.Recovers content size := by
  induction hk : s.thread.numLeft using Nat.strong_induction_on generalizing s with
  | _ k ih =>
    apply Secured.next
    · exact ⟨fun hpc => absurd (h.pc.symm.trans hpc) (by simp), fun _ => hcount.le⟩
    · obtain ⟨m, -, -, -, hstep⟩ := h.step (show 1 ≤ 1024 by decide)
      exact ⟨.fread 1, _, Nat.one_pos, hstep⟩
    · intro io t hgood ht
      cases io with
      | fread n =>
        have hn : n ≤ 1024 := by
          by_contra hgt
          simp [State.step, h.pc, hgt] at ht
        obtain ⟨m, hm, -, hdiffer, hstep⟩ := h.step hn
        have hall : m = min n s.thread.numLeft := by
          by_contra hne
          exact hdiffer (by omega) (hflash _ (by omega))
        rw [hstep, decide_eq_true hall, verifyLoop] at ht
        split_ifs at ht with hgo
        · cases ht
          simp only [readUpTo] at hgo
          have hpos : 0 < n := hgood
          obtain rfl : m = n := by omega
          apply ih (s.thread.numLeft - min m s.thread.numLeft) (by omega) h.more _ hflash rfl
          simp only [goto, readUpTo, comparedUpTo]
          omega
        · cases ht
          exact recovers_verified rfl rfl hflash
      | _ => simp [State.step, h.pc] at ht

theorem Reading.agrees (h : s.Reading content) (hcount : s.thread.locVerify + s.thread.numLeft = size)
    (himage : s.params.imageSize = size) (hloc : size ≤ s.thread.locWrite) (hp : s.params.precentComplete ≠ 100)
    (hrec : s.Recovers content size) : ∀ i, s.thread.locVerify ≤ i → i < size → s.flash i = content i := by
  induction hk : s.thread.numLeft using Nat.strong_induction_on generalizing s with
  | _ k ih =>
    intro i hge hlt
    obtain ⟨m, hm, hagree, -, hstep⟩ := h.step (le_refl 1024)
    have hgood : s.Succeeds (.fread 1024) := (by decide : 0 < 1024)
    have hrec' : Recovers content size _ := hrec.after (not_burnt h.pc (by simp)) hgood hstep
    by_cases hin : i < s.thread.locVerify + m
    · have := hagree (i - s.thread.locVerify) (by omega)
      rwa [Nat.add_sub_cancel' hge] at this
    · by_cases hall : m = min 1024 s.thread.numLeft
      · rw [decide_eq_true hall, verifyLoop, if_pos ⟨by simp only [readUpTo]; omega, rfl⟩] at hrec'
        obtain rfl : m = 1024 := by omega
        apply ih (s.thread.numLeft - min 1024 s.thread.numLeft) (by omega) h.more _ himage hloc _ hrec' rfl i _ hlt
        · simp only [goto, readUpTo, comparedUpTo]
          omega
        · exact comparedUpTo_precent_ne himage hp (by omega) true
        · simp only [goto, readUpTo, comparedUpTo]
          omega
      · rw [decide_eq_false hall, verifyLoop, if_neg (by simp [readUpTo, comparedUpTo]), recovers_closeVerify rfl,
          if_neg (by simp [goto, readUpTo, comparedUpTo])] at hrec'
        exact absurd hrec' (retry_not_recovers rfl hloc (comparedUpTo_precent_ne himage hp (by omega) false))

theorem Filled.recovers_iff (h : s.Filled content size) (hpos : 0 < size) :
    s.Recovers content size ↔ ∀ i < size, s.flash i = content i := by
  have hleft := h.numLeft
  have hloc := h.locVerify
  rw [recovers_openVerify h.pc, verifyLoop, if_pos ⟨by dsimp only; omega, rfl⟩]
  have hr := Reading.opened h.fileContent hloc
  constructor
  · intro hrec i hi
    apply hr.agrees _ h.imageSize h.locWrite _ hrec i _ hi
    · simp only [goto]
      omega
    · simp [goto, h.precent]
    · simp only [goto]
      omega
  · intro hflash
    apply hr.recovers _ hflash
    simp only [goto]
    omega

def Resumable (content : ℕ → UInt8) (size : ℕ) (s : State) : Prop :=
  s.thread.locWrite < size ∧
    (∀ i < min s.thread.numLeft fileSingleWrite, content (s.thread.locWrite + i) = content i) ∧
    ∀ i, min s.thread.numLeft fileSingleWrite ≤ i →
      i < s.thread.locWrite + min s.thread.numLeft fileSingleWrite → s.flash i = content i

theorem resumed_eq_iff (hcount : s.thread.locWrite + s.thread.numLeft = size) :
    (∀ i < size, s.resumed content i = content i) ↔
      (∀ i < min s.thread.numLeft fileSingleWrite, content (s.thread.locWrite + i) = content i) ∧
        ∀ i, min s.thread.numLeft fileSingleWrite ≤ i →
          i < s.thread.locWrite + min s.thread.numLeft fileSingleWrite → s.flash i = content i := by
  unfold resumed
  generalize hfirst : min s.thread.numLeft fileSingleWrite = first
  have hle : first ≤ s.thread.numLeft := by omega
  have hfront (i : ℕ) (hi : i < first) : store (store s.flash 0 (slice content s.thread.locWrite first))
      (s.thread.locWrite + first) (slice content (s.thread.locWrite + first) (s.thread.numLeft - first)) i =
      content (s.thread.locWrite + i) := by
    rw [store_out (by omega), ← Nat.zero_add i, store_in (by simpa using hi), slice_getD hi, Nat.zero_add]
  have hmiddle (i : ℕ) (hge : first ≤ i) (hlt : i < s.thread.locWrite + first) :
      store (store s.flash 0 (slice content s.thread.locWrite first)) (s.thread.locWrite + first)
        (slice content (s.thread.locWrite + first) (s.thread.numLeft - first)) i = s.flash i := by
    rw [store_out (by omega), store_out (by rw [slice_length]; omega)]
  constructor
  · intro h
    refine ⟨fun i hi => ?_, fun i hge hlt => ?_⟩
    · rw [← h i (by omega), hfront i hi]
    · rw [← h i (by omega), hmiddle i hge hlt]
  · rintro ⟨hrepeat, hkept⟩ i hi
    by_cases hlt : i < first
    · rw [hfront i hlt, hrepeat i hlt]
    · by_cases hmid : i < s.thread.locWrite + first
      · rw [hmiddle i (by omega) hmid, hkept i (by omega) hmid]
      · obtain ⟨j, rfl⟩ := Nat.exists_eq_add_of_le (not_lt.mp hmid)
        have hj : j < s.thread.numLeft - first := by omega
        rw [store_in (by simpa using hj), slice_getD hj]

theorem recovers_iff (h : s.Unverified content size) (hpc : s.thread.pc = .openWrite) (hc : s.Counts size) :
    s.Recovers content size ↔ s.Resumable content size := by
  obtain ⟨himage, hcount⟩ := hc
  simp only [hpc] at hcount
  obtain ⟨hcount, hp⟩ := hcount
  by_cases hloc : s.thread.locWrite < size
  · have hcount : s.thread.locWrite + s.thread.numLeft = size := by omega
    have hleft : 0 < s.thread.numLeft := by omega
    rw [recovers_openWrite hpc, writeLoop, if_pos hleft]
    have hw : (goto { s with thread.fp := .opened 0 } .write).Writing content size :=
      ⟨⟨h.fileContent, h.imageSize, h.verifiedOk⟩, rfl, hleft, hcount⟩
    obtain ⟨t, hiff, ht, hflash⟩ := hw.rewound rfl
    rw [hiff, ht.recovers_iff (by omega), hflash, Resumable, and_iff_right hloc]
    exact resumed_eq_iff hcount
  · apply iff_of_false
    · apply openWrite_not_recovers hpc (not_lt.mp hloc) hp
      exact retry_not_recovers h.verifiedOk (not_lt.mp hloc) hp
    · exact fun hr => hloc hr.1

end State

theorem burn_recovers_iff {params : BurnParams} {content : ℕ → UInt8} (hc : params.fileContent = some content)
    {flash : ℕ → UInt8} {es : List Io} {s : State} (hs : exec State.step (.started params flash) es = some s)
    (hpc : s.thread.pc = .openWrite) :
    (∀ pre t, pre <+: es → exec State.step (.started params flash) pre = some t → t.Within params.imageSize) ∧
        s.Recovers content params.imageSize ↔
      (∀ pre io t t', pre ++ [io] <+: es → exec State.step (.started params flash) pre = some t →
        t.step io = some t' → t.StartsInside params.imageSize io) ∧ s.Resumable content params.imageSize := by
  have hinv := State.VerifyInv.of_run hc (Run.exec (fun _ _ => trivial) .refl hs)
  rw [State.within_iff]
  apply and_congr_right
  intro hin
  have hcounts : (State.started params flash).Counts params.imageSize := ⟨rfl, trivial⟩
  apply State.recovers_iff (hinv.unverified hpc (by simp)) hpc
  apply exec_inv hcounts (fun _ _ _ h hs hok => h.step (.of_step hs) hok) _ hs
  intro pre io t t' hpre ht _ hstep
  exact hin pre io t t' hpre ht hstep

def pairContent (i : ℕ) : UInt8 := if i = 0 then 7 else 8

def pairImage (retryCount : ℤ) : BurnParams := ⟨.idle, 0, some pairContent, 2, retryCount⟩

def unopenedRun : List Io :=
  [.none, .fopen true, .fread 32, .fopen true, .fwrite 16 fun _ => 0xff, .fopen false]

theorem burn_recovers_unopened : ∃ s, exec State.step (.started (pairImage 2) fun _ => 0) unopenedRun = some s ∧
    s.thread.pc = .openWrite ∧ s.thread.retryCount = 1 ∧ s.Recovers pairContent 2 := by
  obtain ⟨s, hs, hpc, hretry, hloc, hleft⟩ : ∃ s,
      exec State.step (.started (pairImage 2) fun _ => 0) unopenedRun = some s ∧
      s.thread.pc = .openWrite ∧ s.thread.retryCount = 1 ∧ s.thread.locWrite = 0 ∧ s.thread.numLeft = 2 :=
    ⟨_, rfl, rfl, rfl, rfl, rfl⟩
  refine ⟨s, hs, hpc, hretry, ((burn_recovers_iff (show (pairImage 2).fileContent = _ from rfl) hs hpc).mpr
    ⟨fun pre io t t' hpre ht _ hopen hio => ?_, ?_⟩).2⟩
  · have hlen : (pre ++ [io]).length ≤ 6 := hpre.length_le
    rw [List.length_append, List.length_singleton] at hlen
    replace hlen : pre.length ≤ 5 := Nat.le_of_succ_le_succ hlen
    have hpre' : pre = unopenedRun.take pre.length :=
      List.prefix_iff_eq_take.mp ((List.prefix_append pre [io]).trans hpre)
    rw [hpre'] at ht
    -- only the last call was made at the start of an attempt, and that one failed
    interval_cases hk : pre.length
    all_goals
      cases ht
      cases hopen
    exact fun _ => Nat.two_pos
  · refine ⟨hloc ▸ Nat.two_pos, fun i _ => by rw [hloc, Nat.zero_add], fun i hge hlt => ?_⟩
    omega

def partialRun : List Io :=
  [.none, .fopen true, .fread 32, .fopen true, .fwrite 16 fun _ => 0xff, .fopen true, .fwrite 1 fun _ => 7,
    .fwrite 0 fun _ => 7]

def laterAttempt : List Io :=
  [.fopen true, .fwrite 1 fun i => if i = 0 then 8 else 7, .fclose true fun i => if i = 0 then 8 else 7,
    .fopen true, .fread 1, .fclose true fun i => if i = 0 then 8 else 7]

theorem partial_write_not_recovered :
    (∃ s, exec State.step (.started (pairImage 2) fun _ => 0) partialRun = some s ∧ s.thread.pc = .openWrite ∧
      s.thread.retryCount = 1 ∧ ¬s.Recovers pairContent 2) ∧
    (∃ s, exec State.step (.started (pairImage 2) fun _ => 0) (partialRun ++ laterAttempt) = some s ∧
      s.thread.pc = .ended ∧ s.params.burnState = .error) ∧
    ∃ s, exec State.step (.started (pairImage 3) fun _ => 0) (partialRun ++ laterAttempt ++ [.fopen true]) = some s ∧
      s.thread.pc = .write ∧ s.thread.locWrite = 2 ∧ ¬s.Within 2 := by
  refine ⟨?_, ⟨_, rfl, rfl, rfl⟩, ⟨_, rfl, rfl, rfl, fun h => absurd (h.1 rfl) (by decide)⟩⟩
  obtain ⟨s, hs, hpc, hretry, hu, hcounts, hloc, hleft⟩ :
      ∃ s, exec State.step (.started (pairImage 2) fun _ => 0) partialRun = some s ∧ s.thread.pc = .openWrite ∧
        s.thread.retryCount = 1 ∧ s.Unverified pairContent 2 ∧ s.Counts 2 ∧ s.thread.locWrite = 1 ∧
        s.thread.numLeft = 1 :=
    ⟨_, rfl, rfl, rfl, ⟨rfl, rfl, rfl⟩, ⟨rfl, Or.inl rfl, State.failed_ne⟩, rfl, rfl⟩
  refine ⟨s, hs, hpc, hretry, fun h => ?_⟩
  have hrepeat := ((State.recovers_iff hu hpc hcounts).mp h).2.1
  rw [hloc, hleft] at hrepeat
  exact absurd (hrepeat 0 (by decide)) (by decide)

end Wap610n.Burn
