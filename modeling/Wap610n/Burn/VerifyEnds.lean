import Mathlib.Algebra.BigOperators.Group.Finset.Piecewise
import Wap610n.Burn.Verify

namespace Wap610n.Burn

open Bytes Finset Transition

namespace State

variable {content : ℕ → UInt8} {size : ℕ} {s : State}

def comparedUpTo (s : State) (m : ℕ) (ok : Bool) : State := { s with
  params.precentComplete :=
    if m = 0 then s.params.precentComplete else precent (s.thread.locVerify + m) s.params.imageSize
  thread.locVerify := s.thread.locVerify + m
  thread.verifiedOk := ok }

theorem compare_spec (content : ℕ → UInt8) (verBuff : List UInt8) (s : State)
    (hok : s.thread.verifiedOk = true) :
    ∃ m ≤ verBuff.length, (∀ i < m, verBuff.getD i 0 = content (s.thread.locVerify + i)) ∧
      (m < verBuff.length → verBuff.getD m 0 ≠ content (s.thread.locVerify + m)) ∧
      compare content verBuff s = s.comparedUpTo m (decide (m = verBuff.length)) := by
  induction verBuff generalizing s with
  | nil =>
    refine ⟨0, le_rfl, fun i hi => absurd hi (Nat.not_lt_zero i), fun h => absurd h (lt_irrefl 0), ?_⟩
    simp [compare, comparedUpTo, ← hok]
  | cons b verBuff ih =>
    unfold compare
    split_ifs with hb
    · exact ⟨0, Nat.zero_le _, fun i hi => absurd hi (Nat.not_lt_zero i), fun _ => hb, by simp [comparedUpTo]⟩
    · obtain ⟨m, hm, hagree, hdiffer, heq⟩ := ih { s with
        thread.locVerify := s.thread.locVerify + 1
        params.precentComplete := precent (s.thread.locVerify + 1) s.params.imageSize } hok
      dsimp only at hagree hdiffer
      refine ⟨m + 1, by simpa using hm, fun i hi => ?_, fun hlt => ?_, ?_⟩
      · cases i with
        | zero => exact not_not.mp hb
        | succ i =>
          rw [List.getD_cons_succ, hagree i (by omega), Nat.add_right_comm, Nat.add_assoc]
      · rw [List.getD_cons_succ, Nat.add_comm m 1, ← Nat.add_assoc]
        exact hdiffer (by simpa using hlt)
      · rw [heq]
        by_cases h0 : m = 0
        · subst h0
          simp [comparedUpTo, eq_comm]
        · simp [comparedUpTo, h0, Nat.add_assoc, Nat.add_comm 1 m]

structure Reading (content : ℕ → UInt8) (s : State) : Prop where
  pc : s.thread.pc = .read
  fileContent : s.params.fileContent = some content
  fp : s.thread.fp = .opened s.thread.locVerify
  verifiedOk : s.thread.verifiedOk = true

def readUpTo (s : State) (n m : ℕ) (ok : Bool) : State := { s.comparedUpTo m ok with
  thread.fp := .opened (s.thread.locVerify + n)
  thread.numLeft := s.thread.numLeft - min n s.thread.numLeft }

theorem Reading.step (h : s.Reading content) {n : ℕ} (hn : n ≤ 1024) :
    ∃ m ≤ min n s.thread.numLeft,
      (∀ i < m, s.flash (s.thread.locVerify + i) = content (s.thread.locVerify + i)) ∧
      (m < min n s.thread.numLeft → s.flash (s.thread.locVerify + m) ≠ content (s.thread.locVerify + m)) ∧
      s.step (.fread n) = some (s.readUpTo n m (decide (m = min n s.thread.numLeft))).verifyLoop := by
  obtain ⟨m, hm, hagree, hdiffer, heq⟩ := compare_spec content
    (slice s.flash s.thread.locVerify (min n s.thread.numLeft))
    { s with thread.fp := .opened (s.thread.locVerify + n) } h.verifiedOk
  rw [slice_length] at hm hdiffer heq
  refine ⟨m, hm, fun i hi => ?_, fun hlt => ?_, ?_⟩
  · rw [← hagree i hi, slice_getD (by omega)]
  · have := hdiffer hlt
    rwa [slice_getD hlt] at this
  · simp only [State.step, h.pc, h.fileContent, h.fp, if_neg (not_lt.mpr hn)]
    rw [← h.pc, heq]
    rfl

theorem Reading.opened (hc : s.params.fileContent = some content) (hloc : s.thread.locVerify = 0) :
    (goto { s with thread.fp := .opened 0, thread.verifiedOk := true } .read).Reading content :=
  ⟨rfl, hc, by simp only [goto, hloc], rfl⟩

theorem Reading.more (h : s.Reading content) {n : ℕ} : ((s.readUpTo n n true).goto .read).Reading content :=
  ⟨rfl, h.fileContent, rfl, rfl⟩

theorem Reading.goesOn (h : s.Reading content) {n : ℕ} (hn : n ≤ 1024) (hlt : n < s.thread.numLeft)
    (hagree : ∀ i < n, s.flash (s.thread.locVerify + i) = content (s.thread.locVerify + i)) :
    ∃ t, s.step (.fread n) = some t ∧ t.Reading content ∧ t.thread.locVerify = s.thread.locVerify + n ∧
      t.thread.numLeft = s.thread.numLeft - n ∧ t.flash = s.flash := by
  obtain ⟨m, hm, -, hdiffer, hstep⟩ := h.step hn
  rw [Nat.min_eq_left hlt.le] at hm hdiffer hstep
  have hmn : m = n := by
    by_contra hne
    have hlt : m < n := by omega
    exact hdiffer hlt (hagree m hlt)
  subst hmn
  rw [decide_eq_true rfl, verifyLoop, if_pos ⟨by simp only [readUpTo]; omega, rfl⟩] at hstep
  refine ⟨_, hstep, h.more, rfl, ?_, rfl⟩
  simp only [goto, readUpTo]
  omega

theorem Reading.stops (h : s.Reading content) {n : ℕ} (hn : n ≤ 1024)
    (hstop : s.thread.numLeft ≤ n ∨
      ∃ i < n, s.flash (s.thread.locVerify + i) ≠ content (s.thread.locVerify + i)) :
    ∃ t, s.step (.fread n) = some t ∧ t.thread.pc = .closeVerify := by
  obtain ⟨m, hm, hagree, -, hstep⟩ := h.step hn
  have hend : ¬(0 < (s.readUpTo n m (decide (m = min n s.thread.numLeft))).thread.numLeft ∧
      (s.readUpTo n m (decide (m = min n s.thread.numLeft))).thread.verifiedOk = true) := by
    rintro ⟨hleft, hok⟩
    simp only [readUpTo, comparedUpTo, decide_eq_true_eq] at hleft hok
    rcases hstop with hle | ⟨i, hi, hne⟩
    · omega
    · exact hne (hagree i (by omega))
  rw [verifyLoop, if_neg hend] at hstep
  exact ⟨_, hstep, rfl⟩

def freads (reads : ℕ → ℕ) (k : ℕ) : List Io := (List.range k).map fun i => .fread (reads i)

theorem exec_freads_succ {reads : ℕ → ℕ} {k : ℕ} {t : State} (ht : exec State.step s (freads reads k) = some t) :
    exec State.step s (freads reads (k + 1)) = t.step (.fread (reads k)) := by
  rw [freads, List.range_succ, List.map_append, List.map_singleton]
  exact exec_snoc ht

theorem Reading.freads (h : s.Reading content) {reads : ℕ → ℕ} (hreads : ∀ k, reads k ≤ 1024) {k : ℕ}
    (hlt : ∑ i ∈ range k, reads i < s.thread.numLeft)
    (hagree : ∀ i < ∑ i ∈ range k, reads i,
      s.flash (s.thread.locVerify + i) = content (s.thread.locVerify + i)) :
    ∃ t, exec State.step s (freads reads k) = some t ∧ t.Reading content ∧
      t.thread.locVerify = s.thread.locVerify + ∑ i ∈ range k, reads i ∧
      t.thread.numLeft = s.thread.numLeft - ∑ i ∈ range k, reads i ∧ t.flash = s.flash := by
  induction k with
  | zero => exact ⟨s, rfl, h, rfl, rfl, rfl⟩
  | succ k ih =>
    rw [sum_range_succ] at hlt hagree ⊢
    obtain ⟨t, ht, hr, hloc, hleft, hflash⟩ := ih (by omega) fun i hi => hagree i (by omega)
    obtain ⟨u, hu, hr', hloc', hleft', hflash'⟩ := hr.goesOn (hreads k) (by omega) fun i hi => by
      rw [hflash, hloc, Nat.add_assoc]
      exact hagree _ (by omega)
    exact ⟨u, (exec_freads_succ ht).trans hu, hr', by omega, by omega, hflash'.trans hflash⟩

theorem Reading.freads_end_iff (h : s.Reading content) {reads : ℕ → ℕ} (hreads : ∀ k, reads k ≤ 1024)
    (hpos : 0 < s.thread.numLeft) :
    (∃ k t, exec State.step s (State.freads reads k) = some t ∧ t.thread.pc ≠ .read) ↔
      ∃ k, s.thread.numLeft ≤ ∑ i ∈ range k, reads i ∨
        ∃ i < ∑ i ∈ range k, reads i, s.flash (s.thread.locVerify + i) ≠ content (s.thread.locVerify + i) := by
  constructor
  · rintro ⟨k, t, ht, hpc⟩
    by_contra hnone
    push Not at hnone
    obtain ⟨u, hu, hr, -⟩ := h.freads hreads (hnone k).1 (hnone k).2
    rw [ht] at hu
    cases hu
    exact hpc hr.pc
  · intro hex
    classical
    -- the read that ends the loop is the first one that completes the image or shows a difference
    obtain ⟨hk, hbefore⟩ := And.intro (Nat.find_spec hex) fun j => Nat.find_min (m := j) hex
    cases hfind : Nat.find hex with
    | zero =>
      rw [hfind, sum_range_zero] at hk
      rcases hk with hle | ⟨i, hi, -⟩ <;> omega
    | succ k =>
      have hnot := hbefore k (by omega)
      rw [hfind, sum_range_succ] at hk
      push Not at hnot
      obtain ⟨t, ht, hr, hloc, hleft, hflash⟩ := h.freads hreads hnot.1 hnot.2
      obtain ⟨u, hu, hpc⟩ := hr.stops (hreads k) <| by
        rw [hflash, hloc, hleft]
        rcases hk with hle | ⟨i, hi, hne⟩
        · left
          omega
        · right
          have hge : ∑ i ∈ range k, reads i ≤ i := by
            by_contra hlt
            exact hne (hnot.2 i (by omega))
          refine ⟨i - ∑ i ∈ range k, reads i, by omega, ?_⟩
          rwa [Nat.add_assoc, Nat.add_sub_cancel' hge]
      exact ⟨k + 1, u, (exec_freads_succ ht).trans hu, by simp [hpc]⟩

end State

theorem verify_ends_iff {params : BurnParams} {content : ℕ → UInt8} (hc : params.fileContent = some content)
    {flash : ℕ → UInt8} {es : List Io} {s : State} (hs : exec State.step (.started params flash) es = some s)
    (hpc : s.thread.pc = .openVerify) {reads : ℕ → ℕ} (hreads : ∀ k, reads k ≤ 1024) :
    (∃ k t, exec State.step s (.fopen true :: State.freads reads k) = some t ∧ t.thread.pc ≠ .read) ↔
      ∃ k, params.imageSize ≤ ∑ i ∈ range k, reads i ∨
        ∃ i < ∑ i ∈ range k, reads i, s.flash i ≠ content i := by
  have hinv := State.VerifyInv.of_run hc (Run.exec (fun _ _ => trivial) .refl hs)
  simp only [State.VerifyInv, hpc] at hinv
  obtain ⟨hu, hloc, hleft⟩ := hinv
  have hopen (es : List Io) : exec State.step s (.fopen true :: es) =
      exec State.step (State.verifyLoop { s with thread.fp := .opened 0, thread.verifiedOk := true }) es := by
    simp only [exec, State.step, hpc, Option.bind_some]
  simp only [hopen]
  by_cases h0 : params.imageSize = 0
  · refine iff_of_true ⟨0, _, rfl, ?_⟩ ⟨0, Or.inl (by omega)⟩
    simp [State.verifyLoop, State.goto, hleft, h0]
  · rw [State.verifyLoop, if_pos ⟨by dsimp only; omega, rfl⟩]
    have hiff := (State.Reading.opened hu.fileContent hloc).freads_end_iff hreads (by simp only [State.goto, hleft]; omega)
    simpa only [State.goto, hloc, hleft, Nat.zero_add] using hiff

def twoBytes : BurnParams := ⟨.idle, 0, some fun _ => 7, 2, 3⟩

def twoBytesWritten : List Io :=
  [.none, .fopen true, .fread 32, .fopen true, .fwrite 16 fun _ => 0xff, .fopen true, .fwrite 2 fun _ => 7,
    .fclose true fun _ => 7]

theorem verify_ends_twoBytes : ∃ s, exec State.step (.started twoBytes fun _ => 0) twoBytesWritten = some s ∧
    s.thread.pc = .openVerify ∧
    ∃ k t, exec State.step s (.fopen true :: State.freads (fun _ => 2) k) = some t ∧ t.thread.pc ≠ .read := by
  obtain ⟨s, hs, hpc⟩ : ∃ s, exec State.step (.started twoBytes fun _ => 0) twoBytesWritten = some s ∧
    s.thread.pc = .openVerify := ⟨_, rfl, rfl⟩
  refine ⟨s, hs, hpc, ?_⟩
  rw [verify_ends_iff (show twoBytes.fileContent = some fun _ => 7 from rfl) hs hpc (fun _ => by decide)]
  exact ⟨1, Or.inl (by decide)⟩

def oneByteRead (k : ℕ) : ℕ := if k = 0 then 1 else 0

theorem verify_never_ends : ∃ s, exec State.step (.started twoBytes fun _ => 0) twoBytesWritten = some s ∧
    s.thread.pc = .openVerify ∧
    ∀ k, ∃ t, exec State.step s (.fopen true :: State.freads oneByteRead k) = some t ∧ t.thread.pc = .read := by
  obtain ⟨s, hs, hpc, r, hopen, hr, hleft, hflash⟩ :
      ∃ s, exec State.step (.started twoBytes fun _ => 0) twoBytesWritten = some s ∧ s.thread.pc = .openVerify ∧
        ∃ r, s.step (.fopen true) = some r ∧ r.Reading (fun _ => 7) ∧ r.thread.numLeft = 2 ∧ ∀ i, r.flash i = 7 :=
    ⟨_, rfl, rfl, _, rfl, ⟨rfl, rfl, rfl, rfl⟩, rfl, fun _ => rfl⟩
  refine ⟨s, hs, hpc, fun k => ?_⟩
  have hsum : ∑ i ∈ range k, oneByteRead i ≤ 1 := by
    simp only [oneByteRead, sum_ite_eq']
    split_ifs <;> decide
  have hreads : ∀ k, oneByteRead k ≤ 1024 := by
    intro k
    unfold oneByteRead
    split_ifs <;> decide
  have hlt : ∑ i ∈ range k, oneByteRead i < r.thread.numLeft := by omega
  obtain ⟨t, ht, hr', -⟩ := hr.freads hreads hlt fun _ _ => hflash _
  refine ⟨t, ?_, hr'.pc⟩
  rw [exec, hopen, Option.bind_some, ht]

end Wap610n.Burn
