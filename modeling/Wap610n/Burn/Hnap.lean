import Mathlib.Data.List.Range
import Wap610n.Image.Validate

namespace Wap610n.Burn.Hnap

open Bytes Image

def fileSingleWrite : ℕ := 65536

def maxRetryBurnTimes : ℕ := 3

structure Prologue where
  opened : Bool
  numRead : ℕ
  reopened : Bool
  flash : ℕ → UInt8

/-- The calls of one attempt. A `fwrite` beyond the end of `writes` returns zero, and `flash` is what an
attempt that fails with the file open leaves on the device. -/
structure Attempt where
  opened : Bool
  writes : List ℕ
  closed : Bool
  flash : ℕ → UInt8

structure Progress where
  locWrite : ℕ
  numLeft : ℕ
  precentComplete : ℤ
  opened : Bool
  pos : ℕ
  flash : ℕ → UInt8

def precent (locWrite dataSize : ℕ) : ℤ := (Int.bmod (locWrite * 100) (2 ^ 32)).tdiv dataSize

def writeLoop (data : ℕ → UInt8) (dataSize : ℕ) : List ℕ → Progress → Progress
  | [], s => if 0 < s.numLeft then { s with precentComplete := -1 } else s
  | w :: writes, s =>
    if 0 < s.numLeft then
      let size := if s.numLeft > fileSingleWrite then fileSingleWrite else s.numLeft
      let numWrite := min w size
      if numWrite = 0 then { s with precentComplete := -1 }
      else writeLoop data dataSize writes { s with
        locWrite := s.locWrite + numWrite
        numLeft := s.numLeft - numWrite
        precentComplete := precent (s.locWrite + numWrite) dataSize
        pos := s.pos + numWrite
        flash := store s.flash s.pos (slice data s.locWrite numWrite) }
    else s

def attempt (data : ℕ → UInt8) (dataSize : ℕ) (a : Attempt) (s : Progress) : Progress :=
  if a.opened then
    let s := writeLoop data dataSize a.writes { s with opened := true, pos := 0 }
    if s.numLeft = 0 ∧ a.closed = true then s else { s with precentComplete := -1, flash := a.flash }
  else { s with opened := false, precentComplete := -1 }

/-- With no attempt left the error text takes `ferror(fp)`; `none` is the fault when `fp` is `NULL`. -/
def retryLoop (data : ℕ → UInt8) (dataSize : ℕ) : List Attempt → Progress → Option ℤ × (ℕ → UInt8)
  | [], s => (if s.opened then some (-1) else none, s.flash)
  | a :: attempts, s =>
    let s := attempt data dataSize a s
    if s.precentComplete = 100 then (some 0, s.flash) else retryLoop data dataSize attempts s

def hnapBurnAndVerifyImage (data : ℕ → UInt8) (dataSize : ℕ) (flash : ℕ → UInt8) (p : Prologue)
    (attempts : ℕ → Attempt) : Option ℤ × (ℕ → UInt8) :=
  if p.opened = false ∨ p.numRead ≠ 32 ∨ p.reopened = false then (some (-1), flash)
  else retryLoop data dataSize ((List.range maxRetryBurnTimes).map attempts) {
    locWrite := 0
    numLeft := dataSize
    precentComplete := 0
    opened := false
    pos := 0
    flash := p.flash }

def accepted : ℕ → List ℕ → ℕ
  | _, [] => 0
  | left, w :: writes =>
    let n := min w (min left fileSingleWrite)
    if n = 0 then 0 else n + accepted (left - n) writes

theorem accepted_zero (writes : List ℕ) : accepted 0 writes = 0 := by
  cases writes with
  | nil => rfl
  | cons w writes => simp [accepted]

structure Looped (data : ℕ → UInt8) (dataSize k : ℕ) (s r : Progress) : Prop where
  le : k ≤ s.numLeft
  locWrite : r.locWrite = s.locWrite + k
  numLeft : r.numLeft = s.numLeft - k
  flash : r.flash = store s.flash s.pos (slice data s.locWrite k)
  opened : r.opened = s.opened
  complete : k = s.numLeft →
    r.precentComplete = if k = 0 then s.precentComplete else precent (s.locWrite + k) dataSize

theorem writeLoop_spec (data : ℕ → UInt8) (dataSize : ℕ) (writes : List ℕ) (s : Progress) :
    Looped data dataSize (accepted s.numLeft writes) s (writeLoop data dataSize writes s) := by
  induction writes generalizing s with
  | nil =>
    unfold writeLoop accepted
    split_ifs with h
    · exact ⟨Nat.zero_le _, rfl, rfl, (store_nil _ _).symm, rfl, fun h0 => by omega⟩
    · exact ⟨Nat.zero_le _, rfl, rfl, (store_nil _ _).symm, rfl, fun _ => rfl⟩
  | cons w writes ih =>
    have hsize : (if s.numLeft > fileSingleWrite then fileSingleWrite else s.numLeft) =
        min s.numLeft fileSingleWrite := by
      split_ifs <;> omega
    unfold writeLoop accepted
    dsimp only
    rw [hsize]
    generalize hn : min w (min s.numLeft fileSingleWrite) = n
    have hle : n ≤ s.numLeft := by omega
    by_cases h0 : 0 < s.numLeft
    swap
    · rw [if_neg h0, if_pos (by omega)]
      exact ⟨Nat.zero_le _, rfl, rfl, (store_nil _ _).symm, rfl, fun _ => rfl⟩
    rw [if_pos h0]
    by_cases hz : n = 0
    · rw [if_pos hz, if_pos hz]
      exact ⟨Nat.zero_le _, rfl, rfl, (store_nil _ _).symm, rfl, fun h => by omega⟩
    rw [if_neg hz, if_neg hz]
    obtain ⟨hk, hl, hleft, hf, ho, hc⟩ := ih { s with
      locWrite := s.locWrite + n
      numLeft := s.numLeft - n
      precentComplete := precent (s.locWrite + n) dataSize
      pos := s.pos + n
      flash := store s.flash s.pos (slice data s.locWrite n) }
    dsimp only at hk hl hleft hf hc
    refine ⟨by omega, by omega, by omega, ?_, ho, fun h => ?_⟩
    · have happ := store_append s.flash s.pos (slice data s.locWrite n)
        (slice data (s.locWrite + n) (accepted (s.numLeft - n) writes))
      rw [slice_length, ← slice_add] at happ
      exact hf.trans happ
    · rw [hc (by omega), if_neg (by omega : ¬n + accepted (s.numLeft - n) writes = 0)]
      split_ifs with h'
      · rw [h', Nat.add_zero]
      · rw [Nat.add_assoc]

theorem precent_full {n : ℕ} (h0 : 0 < n) : precent n n = 100 ↔ n * 100 < 2 ^ 31 := by
  have hb := Int.bmod_lt (x := (n * 100 : ℤ)) (m := 2 ^ 32) (by omega)
  unfold precent
  constructor
  · intro h
    by_contra hge
    have hdiv := Int.mul_tdiv_add_tmod (Int.bmod (n * 100) (2 ^ 32)) n
    have hlo := Int.lt_tmod_of_pos (Int.bmod (n * 100) (2 ^ 32)) (b := n) (by omega)
    rw [h] at hdiv
    have hnn := Int.tmod_nonneg n (show 0 ≤ Int.bmod (n * 100) (2 ^ 32) by omega)
    omega
  · intro h
    rw [Int.bmod_eq_of_le (by omega) (by omega)]
    exact Int.mul_tdiv_cancel_left _ (by omega)

structure Completes (dataSize loc : ℕ) (a : Attempt) : Prop where
  opened : a.opened = true
  closed : a.closed = true
  rest : loc < dataSize
  accepts : accepted (dataSize - loc) a.writes = dataSize - loc
  noOverflow : dataSize * 100 < 2 ^ 31

def resumeAt (dataSize : ℕ) : ℕ → List Attempt → ℕ
  | loc, [] => loc
  | loc, a :: failed =>
    resumeAt dataSize (if a.opened then loc + accepted (dataSize - loc) a.writes else loc) failed

def leftOn : (ℕ → UInt8) → List Attempt → ℕ → UInt8
  | flash, [] => flash
  | flash, a :: failed => leftOn (if a.opened then a.flash else flash) failed

structure Lands (data : ℕ → UInt8) (dataSize loc : ℕ) (flash : ℕ → UInt8) : Prop where
  overlap : ∀ i < dataSize - loc, data (loc + i) = data i
  tail : ∀ i < dataSize, dataSize - loc ≤ i → flash i = data i

theorem lands_iff (data : ℕ → UInt8) (dataSize loc : ℕ) (flash : ℕ → UInt8) :
    (∀ i < dataSize, store flash 0 (slice data loc (dataSize - loc)) i = data i) ↔
      Lands data dataSize loc flash := by
  have hin {i : ℕ} (hi : i < dataSize - loc) :
      store flash 0 (slice data loc (dataSize - loc)) i = data (loc + i) := by
    have := store_in (m := flash) (p := 0) (show i < (slice data loc (dataSize - loc)).length by simpa)
    rwa [Nat.zero_add, slice_getD hi] at this
  have hout {i : ℕ} (hi : dataSize - loc ≤ i) :
      store flash 0 (slice data loc (dataSize - loc)) i = flash i := by
    apply store_out
    rw [slice_length]
    omega
  constructor
  · intro h
    refine ⟨fun i hi => ?_, fun i hi hl => ?_⟩
    · rw [← hin hi, h i (by omega)]
    · rw [← hout hl, h i hi]
  · intro h i hi
    by_cases hl : i < dataSize - loc
    · rw [hin hl, h.overlap i hl]
    · rw [hout (not_lt.mp hl), h.tail i hi (not_lt.mp hl)]

structure Pending (dataSize : ℕ) (s : Progress) : Prop where
  total : s.locWrite + s.numLeft = dataSize
  unfinished : s.precentComplete ≠ 100

theorem attempt_spec (data : ℕ → UInt8) {dataSize : ℕ} {s : Progress} (h : Pending dataSize s) (a : Attempt) :
    (Completes dataSize s.locWrite a ∧ (attempt data dataSize a s).precentComplete = 100 ∧
      (attempt data dataSize a s).flash = store s.flash 0 (slice data s.locWrite (dataSize - s.locWrite))) ∨
    (¬Completes dataSize s.locWrite a ∧ Pending dataSize (attempt data dataSize a s) ∧
      (attempt data dataSize a s).locWrite =
        (if a.opened then s.locWrite + accepted (dataSize - s.locWrite) a.writes else s.locWrite) ∧
      (s.locWrite < dataSize → dataSize * 100 < 2 ^ 31 →
        (attempt data dataSize a s).flash = if a.opened then a.flash else s.flash)) := by
  have htotal := h.total
  have hleft : dataSize - s.locWrite = s.numLeft := by omega
  unfold attempt
  by_cases ho : a.opened = true
  swap
  · rw [if_neg ho, if_neg ho, if_neg ho]
    exact Or.inr ⟨fun hc => ho hc.opened, ⟨htotal, by simp⟩, rfl, fun _ _ => rfl⟩
  rw [if_pos ho, if_pos ho, if_pos ho]
  obtain ⟨hle, hl, hn, hf, -, hc⟩ := writeLoop_spec data dataSize a.writes { s with opened := true, pos := 0 }
  dsimp only at hle hl hn hf hc ⊢
  rw [hleft]
  by_cases hdone : (writeLoop data dataSize a.writes { s with opened := true, pos := 0 }).numLeft = 0 ∧
      a.closed = true
  swap
  · rw [if_neg hdone]
    refine Or.inr ⟨fun hcmp => hdone ⟨?_, hcmp.closed⟩, ⟨?_, by simp⟩, hl, fun _ _ => rfl⟩
    · have := hcmp.accepts
      rw [hleft] at this
      omega
    · dsimp only
      omega
  rw [if_pos hdone]
  have hall : accepted s.numLeft a.writes = s.numLeft := by omega
  rw [hall] at hl hf hc
  have hpc := hc rfl
  by_cases hz : s.numLeft = 0
  · rw [if_pos hz] at hpc
    refine Or.inr ⟨fun hcmp => ?_, ⟨by omega, by rw [hpc]; exact h.unfinished⟩, by rw [hl, hall], fun hlt => ?_⟩
    · have := hcmp.rest
      omega
    · omega
  · rw [if_neg hz, htotal] at hpc
    by_cases hov : dataSize * 100 < 2 ^ 31
    · refine Or.inl ⟨⟨ho, hdone.2, by omega, by rw [hleft, hall], hov⟩, ?_, hf⟩
      rw [hpc, (precent_full (by omega)).mpr hov]
    · refine Or.inr ⟨fun hcmp => hov hcmp.noOverflow, ⟨by omega, ?_⟩, by rw [hl, hall], fun _ h' => absurd h' hov⟩
      rw [hpc]
      intro hfull
      exact hov ((precent_full (by omega)).mp hfull)

theorem resumeAt_full (dataSize : ℕ) (failed : List Attempt) : resumeAt dataSize dataSize failed = dataSize := by
  induction failed with
  | nil => rfl
  | cons a failed ih => rw [resumeAt, Nat.sub_self, accepted_zero, Nat.add_zero, ite_self, ih]

def Resumable (data : ℕ → UInt8) (dataSize loc : ℕ) (flash : ℕ → UInt8) (attempts : List Attempt) : Prop :=
  ∀ failed a rest, attempts = failed ++ a :: rest → Completes dataSize (resumeAt dataSize loc failed) a →
    Lands data dataSize (resumeAt dataSize loc failed) (leftOn flash failed)

theorem resumable_completes {data : ℕ → UInt8} {dataSize loc : ℕ} {flash : ℕ → UInt8} {a : Attempt}
    {attempts : List Attempt} (hc : Completes dataSize loc a) :
    Resumable data dataSize loc flash (a :: attempts) ↔ Lands data dataSize loc flash := by
  constructor
  · intro h
    exact h [] a attempts rfl hc
  · intro h failed b rest heq hb
    cases failed with
    | nil => exact h
    | cons b' failed =>
      -- nothing is left for a later attempt
      cases List.cons.inj heq |>.1
      have hrest := hb.rest
      rw [resumeAt, if_pos hc.opened, hc.accepts, Nat.add_sub_cancel' hc.rest.le, resumeAt_full] at hrest
      exact absurd hrest (lt_irrefl _)

theorem resumable_fails {data : ℕ → UInt8} {dataSize loc loc' : ℕ} {flash flash' : ℕ → UInt8} {a : Attempt}
    {attempts : List Attempt} (hle : loc ≤ dataSize) (hc : ¬Completes dataSize loc a)
    (hl : loc' = if a.opened then loc + accepted (dataSize - loc) a.writes else loc)
    (hf : loc < dataSize → dataSize * 100 < 2 ^ 31 → flash' = if a.opened then a.flash else flash) :
    Resumable data dataSize loc flash (a :: attempts) ↔ Resumable data dataSize loc' flash' attempts := by
  have hflash {failed : List Attempt} {b : Attempt} (hb : Completes dataSize (resumeAt dataSize loc' failed) b) :
      leftOn flash (a :: failed) = leftOn flash' failed := by
    have hlt : loc < dataSize := by
      apply lt_of_le_of_ne hle
      rintro rfl
      rw [Nat.sub_self, accepted_zero, Nat.add_zero, ite_self] at hl
      rw [hl, resumeAt_full] at hb
      exact absurd hb.rest (lt_irrefl _)
    rw [leftOn, hf hlt hb.noOverflow]
  subst hl
  constructor
  · intro h failed b rest heq hb
    have := h (a :: failed) b rest (by rw [heq, List.cons_append]) hb
    rwa [hflash hb] at this
  · intro h failed b rest heq hb
    cases failed with
    | nil =>
      cases List.cons.inj heq |>.1
      exact absurd hb hc
    | cons b' failed =>
      obtain ⟨rfl, htail⟩ := List.cons.inj heq
      rw [hflash hb]
      exact h failed b rest htail hb

theorem retryLoop_exact_iff {data : ℕ → UInt8} {dataSize : ℕ} (attempts : List Attempt) {s : Progress}
    (h : Pending dataSize s) :
    ((retryLoop data dataSize attempts s).1 = some 0 →
      ∀ i < dataSize, (retryLoop data dataSize attempts s).2 i = data i) ↔
      Resumable data dataSize s.locWrite s.flash attempts := by
  induction attempts generalizing s with
  | nil =>
    refine ⟨fun _ failed a rest heq => ?_, fun _ hret => ?_⟩
    · exact absurd heq (by simp)
    · unfold retryLoop at hret
      split_ifs at hret
      exact absurd hret (by simp)
  | cons a attempts ih =>
    unfold retryLoop
    dsimp only
    rcases attempt_spec data h a with ⟨hc, hpc, hf⟩ | ⟨hc, hp, hl, hf⟩
    · rw [if_pos hpc, resumable_completes hc, ← lands_iff, hf]
      exact ⟨fun hr => hr rfl, fun hr _ => hr⟩
    · rw [if_neg hp.unfinished, ih hp, resumable_fails (by have := h.total; omega) hc hl hf]

theorem hnap_burn_exact_iff (data : ℕ → UInt8) (dataSize : ℕ) (flash : ℕ → UInt8) (p : Prologue)
    (attempts : ℕ → Attempt) :
    ((hnapBurnAndVerifyImage data dataSize flash p attempts).1 = some 0 →
      ∀ i < dataSize, (hnapBurnAndVerifyImage data dataSize flash p attempts).2 i = data i) ↔
      (p.opened = true → p.numRead = 32 → p.reopened = true →
        Resumable data dataSize 0 p.flash ((List.range maxRetryBurnTimes).map attempts)) := by
  unfold hnapBurnAndVerifyImage
  by_cases hp : p.opened = false ∨ p.numRead ≠ 32 ∨ p.reopened = false
  · rw [if_pos hp]
    refine ⟨fun _ h1 h2 h3 => ?_, fun _ hret => absurd hret (by simp)⟩
    rcases hp with hp | hp | hp
    · exact absurd (h1.symm.trans hp) (by simp)
    · exact absurd h2 hp
    · exact absurd (h3.symm.trans hp) (by simp)
  · rw [if_neg hp, retryLoop_exact_iff _ ⟨Nat.zero_add _, by simp⟩]
    simp only [not_or, Bool.not_eq_false, not_not] at hp
    exact ⟨fun hr _ _ _ => hr, fun hr => hr hp.1 hp.2.1 hp.2.2⟩

def interrupted (r : ℕ) : Attempt :=
  if r = 0 then ⟨true, [32], true, fun _ => 0xff⟩ else ⟨true, [16], true, fun _ => 0xff⟩

theorem hnap_burn_misplaces_image : ¬∀ (mtdDeviceID : BitVec 32) (image : List UInt8) (flash : ℕ → UInt8)
    (p : Prologue) (attempts : ℕ → Attempt),
    hnapValidateImage mtdDeviceID image image.length = some 0 →
    (hnapBurnAndVerifyImage (byteAt image) image.length flash p attempts).1 = some 0 →
    ∀ i < image.length,
      (hnapBurnAndVerifyImage (byteAt image) image.length flash p attempts).2 i = byteAt image i := by
  intro h
  have hfirst := h 0x11#32 emptyImage (fun _ => 0xff) ⟨true, 32, true, fun _ => 0xff⟩ interrupted (by decide)
    (by decide) 0 (by decide)
  exact absurd hfirst (by decide)

end Wap610n.Burn.Hnap
