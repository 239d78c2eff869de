import Mathlib.Algebra.Group.Nat.Defs
import Mathlib.Data.Nat.Find
import Mathlib.Data.Nat.Notation

/-!
Masks of leading ones, and the two parts of a word at such a mask; single bits of a register.
-/

namespace Wap610n.Mask

variable {w : ℕ}

def leadingOnes (w k : ℕ) : BitVec w := BitVec.allOnes w <<< (w - k)

theorem getLsbD_leadingOnes (k i : ℕ) : (leadingOnes w k).getLsbD i = (decide (i < w) && decide (w - k ≤ i)) := by
  rw [leadingOnes, BitVec.getLsbD_shiftLeft, BitVec.getLsbD_allOnes]
  by_cases hi : i < w
  · rw [decide_eq_true hi, decide_eq_true (show i - (w - k) < w by omega), Bool.true_and, Bool.and_true, ← decide_not]
    exact decide_eq_decide.mpr Nat.not_lt
  · simp [hi]

def Upward (x : BitVec w) : Prop := ∀ i j, i < j → j < w → x.getLsbD i = true → x.getLsbD j = true

theorem neg_and_self_iff {x : BitVec w} : -x &&& x = -x ↔ Upward x := by
  constructor
  · intro h i j hij hj hi
    by_contra hbit
    -- above its lowest one, the negation has the complement of each bit
    have hneg : (-x).getLsbD j = true := by
      rw [BitVec.getLsbD_neg, Bool.eq_false_iff.mpr hbit, decide_eq_true hj, decide_eq_true ⟨i, hij, hi⟩]
      rfl
    rw [← h, BitVec.getLsbD_and, Bool.and_eq_true] at hneg
    exact hbit hneg.2
  · intro h
    apply BitVec.eq_of_getLsbD_eq
    intro j hj
    cases hbit : x.getLsbD j with
    | true => simp [hbit]
    | false =>
      have hlow : ¬∃ i < j, x.getLsbD i = true := by
        rintro ⟨i, hij, hi⟩
        exact absurd (h i j hij hj hi) (Bool.eq_false_iff.mp hbit)
      rw [BitVec.getLsbD_and, BitVec.getLsbD_neg, hbit, decide_eq_false hlow, Bool.and_false, Bool.and_false]
      rfl

theorem upward_leadingOnes (k : ℕ) : Upward (leadingOnes w k) := by
  intro i j hij hj hi
  rw [getLsbD_leadingOnes, Bool.and_eq_true, decide_eq_true_eq, decide_eq_true_eq] at hi ⊢
  exact ⟨hj, Nat.le_trans hi.2 (Nat.le_of_lt hij)⟩

theorem Upward.exists_leadingOnes {x : BitVec w} (h : Upward x) (hx : x ≠ 0#w) :
    ∃ k, 1 ≤ k ∧ k ≤ w ∧ x = leadingOnes w k := by
  have hset : ∃ i, x.getLsbD i = true := by
    by_contra hnone
    apply hx
    apply BitVec.eq_of_getLsbD_eq
    intro i hi
    rw [BitVec.getLsbD_zero, Bool.eq_false_iff]
    exact fun hbit => hnone ⟨i, hbit⟩
  have hfirst := Nat.find_spec hset
  have hbound : Nat.find hset < w := BitVec.lt_of_getLsbD hfirst
  refine ⟨w - Nat.find hset, by omega, by omega, BitVec.eq_of_getLsbD_eq fun i hi => ?_⟩
  rw [getLsbD_leadingOnes, Nat.sub_sub_self (Nat.le_of_lt hbound), decide_eq_true hi, Bool.true_and]
  rcases Nat.lt_trichotomy i (Nat.find hset) with hlt | heq | hgt
  · rw [Bool.eq_false_iff.mpr (Nat.find_min hset hlt), decide_eq_false (by omega)]
  · rw [heq, hfirst, decide_eq_true (Nat.le_refl _)]
  · rw [h _ i hgt hi hfirst, decide_eq_true (Nat.le_of_lt hgt)]

theorem and_eq_self_iff {x m : BitVec w} : x &&& m = x ↔ x &&& ~~~m = 0#w := by
  have hsplit : x &&& m ||| x &&& ~~~m = x := by
    apply BitVec.eq_of_getLsbD_eq
    intro i hi
    rw [BitVec.getLsbD_or, BitVec.getLsbD_and, BitVec.getLsbD_and, BitVec.getLsbD_not, decide_eq_true hi, Bool.true_and]
    cases x.getLsbD i <;> cases m.getLsbD i <;> rfl
  constructor
  · intro h
    rw [← h, BitVec.and_assoc, BitVec.and_not_self]
    exact BitVec.and_zero
  · intro h
    rwa [h, BitVec.or_zero] at hsplit

theorem or_and_self_right (x m : BitVec w) : (x ||| m) &&& m = m := by
  apply BitVec.eq_of_getLsbD_eq
  intro i _
  rw [BitVec.getLsbD_and, BitVec.getLsbD_or]
  cases x.getLsbD i <;> cases m.getLsbD i <;> rfl

theorem or_and_of_disjoint {x f g : BitVec w} (h : f &&& g = 0#w) : (x ||| f) &&& g = x &&& g := by
  apply BitVec.eq_of_getLsbD_eq
  intro i _
  have hbit := congrArg (fun y => y.getLsbD i) h
  simp only [BitVec.getLsbD_and, BitVec.getLsbD_zero] at hbit
  rw [BitVec.getLsbD_and, BitVec.getLsbD_or, BitVec.getLsbD_and, Bool.and_or_distrib_right, hbit, Bool.or_false]

theorem not_leadingOnes (k : ℕ) : (~~~leadingOnes w k).toNat = 2 ^ (w - k) - 1 := by
  have hle : 2 ^ (w - k) ≤ 2 ^ w := Nat.pow_le_pow_right (by decide) (Nat.sub_le w k)
  have hpos : 0 < 2 ^ (w - k) := Nat.two_pow_pos _
  have heq : ~~~leadingOnes w k = BitVec.ofNat w (2 ^ (w - k) - 1) := by
    apply BitVec.eq_of_getLsbD_eq
    intro i hi
    rw [BitVec.getLsbD_not, getLsbD_leadingOnes, BitVec.getLsbD_ofNat, Nat.testBit_two_pow_sub_one]
    rw [decide_eq_true hi, Bool.true_and, Bool.true_and, Bool.true_and, ← decide_not]
    exact decide_eq_decide.mpr Nat.not_le
  rw [heq, BitVec.toNat_ofNat, Nat.mod_eq_of_lt (by omega)]

theorem and_not_leadingOnes (x : BitVec w) (k : ℕ) : (x &&& ~~~leadingOnes w k).toNat = x.toNat % 2 ^ (w - k) := by
  rw [BitVec.toNat_and, not_leadingOnes, Nat.and_two_pow_sub_one_eq_mod]

theorem and_leadingOnes (x : BitVec w) (k : ℕ) :
    (x &&& leadingOnes w k).toNat = x.toNat / 2 ^ (w - k) * 2 ^ (w - k) := by
  have heq : x &&& leadingOnes w k = x >>> (w - k) <<< (w - k) := by
    apply BitVec.eq_of_getLsbD_eq
    intro i hi
    rw [BitVec.getLsbD_and, getLsbD_leadingOnes, BitVec.getLsbD_shiftLeft, BitVec.getLsbD_ushiftRight]
    by_cases hk : w - k ≤ i
    · simp [hi, hk, Nat.add_sub_cancel' hk]
    · simp [hk, Nat.not_le.mp hk]
  have hlt : x.toNat / 2 ^ (w - k) * 2 ^ (w - k) < 2 ^ w := Nat.lt_of_le_of_lt (Nat.div_mul_le_self _ _) x.isLt
  rw [heq, BitVec.toNat_shiftLeft, BitVec.toNat_ushiftRight, Nat.shiftRight_eq_div_pow, Nat.shiftLeft_eq,
    Nat.mod_eq_of_lt hlt]

theorem or_not_leadingOnes (x : BitVec w) (k : ℕ) :
    (x ||| ~~~leadingOnes w k).toNat = x.toNat / 2 ^ (w - k) * 2 ^ (w - k) + (2 ^ (w - k) - 1) := by
  have hsplit : x ||| ~~~leadingOnes w k = (x &&& leadingOnes w k) ||| ~~~leadingOnes w k := by
    apply BitVec.eq_of_getLsbD_eq
    intro i hi
    rw [BitVec.getLsbD_or, BitVec.getLsbD_or, BitVec.getLsbD_and, BitVec.getLsbD_not, decide_eq_true hi, Bool.true_and]
    cases x.getLsbD i <;> cases (leadingOnes w k).getLsbD i <;> rfl
  have hlow : 2 ^ (w - k) - 1 < 2 ^ (w - k) := Nat.sub_lt (Nat.two_pow_pos _) Nat.one_pos
  rw [hsplit, BitVec.toNat_or, and_leadingOnes, not_leadingOnes, ← Nat.shiftLeft_eq,
    ← Nat.shiftLeft_add_eq_or_of_lt hlow, Nat.shiftLeft_eq]

theorem block_le (x : BitVec w) {k : ℕ} (hk : k ≤ w) :
    x.toNat / 2 ^ (w - k) * 2 ^ (w - k) + 2 ^ (w - k) ≤ 2 ^ w := by
  have hpow : 2 ^ w = 2 ^ k * 2 ^ (w - k) := by rw [← Nat.pow_add, Nat.add_sub_cancel' hk]
  have hlt : x.toNat / 2 ^ (w - k) < 2 ^ k := Nat.div_lt_of_lt_mul (Nat.mul_comm _ _ ▸ hpow ▸ x.isLt)
  rw [← Nat.succ_mul, hpow]
  exact Nat.mul_le_mul_right _ hlt

def setBit (x : BitVec w) (k : ℕ) : BitVec w := x ||| 1#w <<< k

def clearBit (x : BitVec w) (k : ℕ) : BitVec w := x &&& ~~~(1#w <<< k)

def writeBit (x : BitVec w) (k : ℕ) (data : BitVec w) : BitVec w := clearBit x k ||| data <<< k

theorem getLsbD_one_shiftLeft {k : ℕ} (hk : k < w) (i : ℕ) : (1#w <<< k).getLsbD i = decide (i = k) := by
  rw [BitVec.getLsbD_shiftLeft, BitVec.getLsbD_one]
  rcases Nat.lt_trichotomy i k with hlt | rfl | hgt
  · simp [hlt, Nat.ne_of_lt hlt]
  · simp [hk, Nat.zero_lt_of_lt hk]
  · simp [Nat.ne_of_gt hgt, Nat.sub_ne_zero_of_lt hgt]

theorem getLsbD_setBit (x : BitVec w) {k : ℕ} (hk : k < w) (i : ℕ) :
    (setBit x k).getLsbD i = if i = k then true else x.getLsbD i := by
  rw [setBit, BitVec.getLsbD_or, getLsbD_one_shiftLeft hk]
  split_ifs with h
  · simp [h]
  · simp [h]

theorem getLsbD_clearBit (x : BitVec w) {k : ℕ} (hk : k < w) (i : ℕ) :
    (clearBit x k).getLsbD i = if i = k then false else x.getLsbD i := by
  rw [clearBit, BitVec.getLsbD_and, BitVec.getLsbD_not, getLsbD_one_shiftLeft hk]
  split_ifs with h
  · simp [h]
  · have hlt : x.getLsbD i = true → i < w := BitVec.lt_of_getLsbD
    cases hbit : x.getLsbD i with
    | false => rfl
    | true => simp [h, hlt hbit]

theorem getLsbD_writeBit_zero (x : BitVec w) {k : ℕ} (hk : k < w) (i : ℕ) :
    (writeBit x k 0#w).getLsbD i = if i = k then false else x.getLsbD i := by
  rw [writeBit, BitVec.zero_shiftLeft, BitVec.or_zero, getLsbD_clearBit x hk]

theorem getLsbD_writeBit_one (x : BitVec w) {k : ℕ} (hk : k < w) (i : ℕ) :
    (writeBit x k 1#w).getLsbD i = if i = k then true else x.getLsbD i := by
  rw [writeBit, BitVec.getLsbD_or, getLsbD_clearBit x hk, getLsbD_one_shiftLeft hk]
  split_ifs with h
  · simp [h]
  · simp [h]

end Wap610n.Mask
