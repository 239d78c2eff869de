import Wap610n.Burn.Retry

namespace Wap610n.Burn

open Bytes Transition

namespace State

variable {content : ℕ → UInt8} {size : ℕ} {s s' : State} {io : Io}

def stored (s : State) : ℕ → UInt8 :=
  match s.params.fileContent, s.thread.fp with
  | some content, .opened pos => store s.flash pos (slice content s.thread.locWrite s.writeSize)
  | _, _ => s.flash

def Succeeds (s : State) : Io → Prop
  | .none => True
  | .fopen ok => ok = true
  | .fread n => 0 < n
  | .fwrite n flash => n = s.writeSize ∧ flash = s.stored
  | .fclose ok flash => ok = true ∧ flash = s.flash

def Burnt (content : ℕ → UInt8) (size : ℕ) (s : State) : Prop :=
  s.thread.pc = .ended ∧ s.params.burnState = .done ∧ ∀ i < size, s.flash i = content i

def Recovers (content : ℕ → UInt8) (size : ℕ) (s : State) : Prop :=
  Secured step Succeeds (Burnt content size) (Within size) s

theorem not_burnt {pc : BurnPc} (hpc : s.thread.pc = pc) (hne : pc ≠ .ended) : ¬s.Burnt content size :=
  fun h => hne (hpc.symm.trans h.1)

theorem within_of_pc {pc : BurnPc} (hpc : s.thread.pc = pc) (hw : pc ≠ .write) (hr : pc ≠ .read) :
    s.Within size :=
  ⟨fun h => absurd (hpc.symm.trans h) hw, fun h => absurd (hpc.symm.trans h) hr⟩

/-! ### One successful call -/

theorem recovers_call {pc : BurnPc} (hpc : s.thread.pc = pc) (hpcs : pc ≠ .ended ∧ pc ≠ .write ∧ pc ≠ .read)
    (hok : s.Succeeds io) (hs : s.step io = some s') (honly : ∀ io', s.Succeeds io' → s.step io' ≠ none → io' = io) :
    s.Recovers content size ↔ s'.Recovers content size := by
  refine (secured_iff_of_step (not_burnt hpc hpcs.1) hok hs ?_).trans
    (and_iff_right (within_of_pc hpc hpcs.2.1 hpcs.2.2))
  intro io' t hok' ht
  obtain rfl := honly io' hok' (by simp [ht])
  exact Option.some.inj (ht.symm.trans hs)

theorem recovers_fopen {pc : BurnPc} (hpc : s.thread.pc = pc) (hpcs : pc ≠ .ended ∧ pc ≠ .write ∧ pc ≠ .read)
    (hs : s.step (.fopen true) = some s') (honly : ∀ io, s.step io ≠ none → ∃ ok, io = .fopen ok) :
    s.Recovers content size ↔ s'.Recovers content size := by
  apply recovers_call hpc hpcs (show s.Succeeds (.fopen true) from rfl) hs
  intro io hok hio
  obtain ⟨ok, rfl⟩ := honly io hio
  rw [show ok = true from hok]

theorem recovers_fclose {pc : BurnPc} (hpc : s.thread.pc = pc) (hpcs : pc ≠ .ended ∧ pc ≠ .write ∧ pc ≠ .read)
    (hs : s.step (.fclose true s.flash) = some s')
    (honly : ∀ io, s.step io ≠ none → ∃ ok flash, io = .fclose ok flash) :
    s.Recovers content size ↔ s'.Recovers content size := by
  apply recovers_call hpc hpcs (show s.Succeeds (.fclose true s.flash) from ⟨rfl, rfl⟩) hs
  intro io hok hio
  obtain ⟨ok, flash, rfl⟩ := honly io hio
  obtain ⟨rfl, rfl⟩ := hok
  rfl

theorem recovers_openWrite (hpc : s.thread.pc = .openWrite) :
    s.Recovers content size ↔ (writeLoop { s with thread.fp := .opened 0 }).Recovers content size := by
  apply recovers_fopen hpc (by simp)
  · simp only [step, hpc]
  · intro io hio
    cases io <;> simp [step, hpc] at hio ⊢

theorem recovers_write (hpc : s.thread.pc = .write) (hc : s.params.fileContent = some content) {pos : ℕ}
    (hfp : s.thread.fp = .opened pos) :
    s.Recovers content size ↔ s.thread.locWrite + s.writeSize ≤ size ∧
      (written { s with
        flash := store s.flash pos (slice content s.thread.locWrite s.writeSize)
        thread.fp := .opened (pos + s.writeSize) } s.writeSize).Recovers content size := by
  have hstored : s.stored = store s.flash pos (slice content s.thread.locWrite s.writeSize) := by
    simp only [stored, hc, hfp]
  have hwithin : s.Within size ↔ s.thread.locWrite + s.writeSize ≤ size := by simp [Within, hpc]
  rw [← hwithin]
  refine secured_iff_of_step (not_burnt hpc (by simp)) (e := .fwrite s.writeSize s.stored) ⟨rfl, rfl⟩ ?_
    fun io t hok ht => ?_
  · simp [step, hpc, hc, hfp, hstored]
  · cases io with
    | fwrite n flash =>
      obtain ⟨rfl, rfl⟩ := hok
      simpa [step, hpc, hc, hfp, hstored, eq_comm] using ht
    | _ => simp [step, hpc] at ht

theorem recovers_closeChunk (hpc : s.thread.pc = .closeChunk) : s.Recovers content size ↔
    (writeLoop { s with thread.pc := .reopenChunk, thread.fp := .opened s.thread.locWrite }).Recovers
      content size := by
  have hclose : s.step (.fclose true s.flash) = some { s with thread.fp := .null, thread.pc := .reopenChunk } := by
    simp only [step, hpc]
  rw [recovers_fclose hpc (by simp) hclose]
  · apply recovers_fopen (Eq.refl BurnPc.reopenChunk) (by simp) rfl
    intro io hio
    cases io <;> simp [step] at hio ⊢
  · intro io hio
    cases io <;> simp [step, hpc] at hio ⊢

theorem recovers_closeEnd (hpc : s.thread.pc = .closeEnd) (hfp : s.thread.fp ≠ .null) :
    s.Recovers content size ↔ (afterWrite { s with thread.fp := .closed }).Recovers content size := by
  apply recovers_fclose hpc (by simp)
  · simp only [step, hpc, if_neg hfp, ↓reduceIte]
  · intro io hio
    cases io <;> simp [step, hpc] at hio ⊢

theorem recovers_openVerify (hpc : s.thread.pc = .openVerify) : s.Recovers content size ↔
    (verifyLoop { s with thread.fp := .opened 0, thread.verifiedOk := true }).Recovers content size := by
  apply recovers_fopen hpc (by simp)
  · simp only [step, hpc]
  · intro io hio
    cases io <;> simp [step, hpc] at hio ⊢

/-! ### The writing of a whole attempt -/

structure Writing (content : ℕ → UInt8) (size : ℕ) (s : State) : Prop extends Unverified content size s where
  pc : s.thread.pc = .write
  left : 0 < s.thread.numLeft
  count : s.thread.locWrite + s.thread.numLeft = size

structure Filled (content : ℕ → UInt8) (size : ℕ) (s : State) : Prop extends Unverified content size s where
  pc : s.thread.pc = .openVerify
  locVerify : s.thread.locVerify = 0
  numLeft : s.thread.numLeft = size
  locWrite : size ≤ s.thread.locWrite
  precent : s.params.precentComplete = 0

theorem precent_self (h : 0 < size) : precent size size = 100 := by
  rw [precent, Nat.mul_div_cancel_left 100 h]
  rfl

theorem Writing.chunk (h : s.Writing content size) {pos : ℕ} (hfp : s.thread.fp = .opened pos)
    (hlong : fileSingleWrite < s.thread.numLeft) :
    ∃ t : State, (s.Recovers content size ↔ t.Recovers content size) ∧ t.Writing content size ∧
      t.thread.fp = .opened t.thread.locWrite ∧ t.thread.locWrite = s.thread.locWrite + fileSingleWrite ∧
      t.thread.numLeft = s.thread.numLeft - fileSingleWrite ∧
      t.flash = store s.flash pos (slice content s.thread.locWrite fileSingleWrite) := by
  have hsize : s.writeSize = fileSingleWrite := if_pos hlong
  have hcount := h.count
  rw [recovers_write h.pc h.fileContent hfp, hsize, and_iff_right (by omega), written, if_neg (by decide),
    if_pos (Nat.le_add_left _ _), recovers_closeChunk rfl, writeLoop,
    if_pos (Nat.sub_pos_of_lt hlong)]
  refine ⟨_, Iff.rfl, ⟨⟨h.fileContent, h.imageSize, h.verifiedOk⟩, rfl, Nat.sub_pos_of_lt hlong, ?_⟩,
    rfl, rfl, rfl, rfl⟩
  simp only [goto]
  omega

theorem Unverified.closeEnd (h : s.Unverified content size) (hpc : s.thread.pc = .closeEnd)
    (hfp : s.thread.fp ≠ .null) (hp : s.params.precentComplete = 100) (hloc : size ≤ s.thread.locWrite) :
    ∃ t : State, (s.Recovers content size ↔ t.Recovers content size) ∧ t.Filled content size ∧
      t.flash = s.flash := by
  rw [recovers_closeEnd hpc hfp, State.afterWrite, if_pos hp]
  exact ⟨_, Iff.rfl, ⟨⟨h.fileContent, h.imageSize, h.verifiedOk⟩, rfl, rfl, h.imageSize, hloc, rfl⟩, rfl⟩

theorem Writing.last (h : s.Writing content size) {pos : ℕ} (hfp : s.thread.fp = .opened pos)
    (hshort : ¬fileSingleWrite < s.thread.numLeft) :
    ∃ t : State, (s.Recovers content size ↔ t.Recovers content size) ∧ t.Filled content size ∧
      t.flash = store s.flash pos (slice content s.thread.locWrite s.thread.numLeft) := by
  have hsize : s.writeSize = s.thread.numLeft := if_neg hshort
  have hcount := h.count
  have hleft := h.left
  have hp : precent (s.thread.locWrite + s.thread.numLeft) s.params.imageSize = 100 := by
    rw [h.imageSize, hcount]
    exact precent_self (by omega)
  rw [recovers_write h.pc h.fileContent hfp, hsize, and_iff_right hcount.le, written, if_neg hleft.ne']
  dsimp only
  split_ifs with hchunk
  · rw [recovers_closeChunk rfl, writeLoop, if_neg (by simp), afterLoop, if_pos (by simp)]
    apply Unverified.closeEnd
    · exact ⟨h.fileContent, h.imageSize, h.verifiedOk⟩
    · rfl
    · simp [goto]
    · exact hp
    · exact hcount.ge
  · rw [writeLoop, if_neg (by simp), afterLoop, if_pos (by simp)]
    apply Unverified.closeEnd
    · exact ⟨h.fileContent, h.imageSize, h.verifiedOk⟩
    · rfl
    · simp [goto]
    · exact hp
    · exact hcount.ge

theorem Writing.aligned (h : s.Writing content size) (hfp : s.thread.fp = .opened s.thread.locWrite) :
    ∃ t : State, (s.Recovers content size ↔ t.Recovers content size) ∧ t.Filled content size ∧
      t.flash = store s.flash s.thread.locWrite (slice content s.thread.locWrite s.thread.numLeft) := by
  induction hn : s.thread.numLeft using Nat.strong_induction_on generalizing s with
  | _ n ih =>
    by_cases hlong : fileSingleWrite < s.thread.numLeft
    · obtain ⟨t, hiff, ht, htfp, hloc, hleft, hflash⟩ := h.chunk hfp hlong
      have hlt : t.thread.numLeft < n := by
        have : 0 < fileSingleWrite := by decide
        omega
      obtain ⟨u, hiff', hu, huflash⟩ := ih _ hlt ht htfp rfl
      refine ⟨u, hiff.trans hiff', hu, ?_⟩
      have hstore := store_append s.flash s.thread.locWrite (slice content s.thread.locWrite fileSingleWrite)
        (slice content (s.thread.locWrite + fileSingleWrite) (n - fileSingleWrite))
      rw [slice_length, ← slice_add, Nat.add_sub_cancel' (by omega)] at hstore
      rw [huflash, hflash, hloc, hleft, hn, hstore]
    · subst hn
      exact h.last hfp hlong

def resumed (s : State) (content : ℕ → UInt8) : ℕ → UInt8 :=
  let first := min s.thread.numLeft fileSingleWrite
  store (store s.flash 0 (slice content s.thread.locWrite first)) (s.thread.locWrite + first)
    (slice content (s.thread.locWrite + first) (s.thread.numLeft - first))

theorem Writing.rewound (h : s.Writing content size) (hfp : s.thread.fp = .opened 0) :
    ∃ t : State, (s.Recovers content size ↔ t.Recovers content size) ∧ t.Filled content size ∧
      t.flash = s.resumed content := by
  by_cases hlong : fileSingleWrite < s.thread.numLeft
  · obtain ⟨t, hiff, ht, htfp, hloc, hleft, hflash⟩ := h.chunk hfp hlong
    obtain ⟨u, hiff', hu, huflash⟩ := ht.aligned htfp
    refine ⟨u, hiff.trans hiff', hu, ?_⟩
    rw [huflash, hflash, hloc, hleft, resumed, Nat.min_eq_right hlong.le]
  · obtain ⟨t, hiff, ht, hflash⟩ := h.last hfp hlong
    refine ⟨t, hiff, ht, ?_⟩
    rw [hflash, resumed, Nat.min_eq_left (not_lt.mp hlong), Nat.sub_self]
    exact (store_nil _ _).symm

end State

end Wap610n.Burn
