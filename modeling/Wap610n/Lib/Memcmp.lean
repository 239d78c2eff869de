import Mathlib.Algebra.Group.Nat.Defs
import Mathlib.Data.List.Basic
import Mathlib.Order.Compare

namespace Wap610n.Bytes

def memcmp : List UInt8 → List UInt8 → Ordering
  | a :: s, b :: t => if a < b then .lt else if b < a then .gt else memcmp s t
  | _, _ => .eq

def beValue : List UInt8 → ℕ
  | [] => 0
  | c :: s => c.toNat * 256 ^ s.length + beValue s

theorem beValue_lt (s : List UInt8) : beValue s < 256 ^ s.length := by
  induction s with
  | nil => exact Nat.one_pos
  | cons c s ih =>
    have hc : c.toNat + 1 ≤ 256 := c.toNat_lt
    calc beValue (c :: s) < c.toNat * 256 ^ s.length + 256 ^ s.length := Nat.add_lt_add_left ih _
      _ = (c.toNat + 1) * 256 ^ s.length := (Nat.succ_mul _ _).symm
      _ ≤ 256 * 256 ^ s.length := Nat.mul_le_mul_right _ hc
      _ = 256 ^ (c :: s).length := by rw [List.length_cons, Nat.pow_succ, Nat.mul_comm]

theorem beValue_cons_lt {a b : UInt8} {s t : List UInt8} (hl : s.length = t.length) (h : a < b) :
    beValue (a :: s) < beValue (b :: t) := by
  have hab : a.toNat + 1 ≤ b.toNat := UInt8.lt_iff_toNat_lt.mp h
  calc beValue (a :: s) < a.toNat * 256 ^ s.length + 256 ^ s.length := Nat.add_lt_add_left (beValue_lt s) _
    _ = (a.toNat + 1) * 256 ^ s.length := (Nat.succ_mul _ _).symm
    _ ≤ b.toNat * 256 ^ s.length := Nat.mul_le_mul_right _ hab
    _ ≤ beValue (b :: t) := by rw [hl]; exact Nat.le_add_right _ _

theorem memcmp_eq_compare {s t : List UInt8} (hl : s.length = t.length) :
    memcmp s t = compare (beValue s) (beValue t) := by
  induction s generalizing t with
  | nil =>
    obtain rfl := List.length_eq_zero_iff.mp hl.symm
    rfl
  | cons a s ih =>
    cases t with
    | nil => exact absurd hl (by simp)
    | cons b t =>
      have hl' : s.length = t.length := Nat.succ_inj.mp hl
      rw [memcmp]
      split_ifs with hab hba
      · exact (Nat.compare_eq_lt.mpr (beValue_cons_lt hl' hab)).symm
      · exact (Nat.compare_eq_gt.mpr (beValue_cons_lt hl'.symm hba)).symm
      · obtain rfl : a = b := UInt8.le_antisymm (UInt8.not_lt.mp hba) (UInt8.not_lt.mp hab)
        simp only [ih hl', beValue, hl', Nat.compare_eq_ite_lt, Nat.add_lt_add_iff_left]

theorem memcmp_eq_iff {s t : List UInt8} (hl : s.length = t.length) : memcmp s t = .eq ↔ s = t := by
  induction s generalizing t with
  | nil =>
    obtain rfl := List.length_eq_zero_iff.mp hl.symm
    simp [memcmp]
  | cons a s ih =>
    cases t with
    | nil => exact absurd hl (by simp)
    | cons b t =>
      have hl' : s.length = t.length := Nat.succ_inj.mp hl
      rw [memcmp, List.cons.injEq]
      split_ifs with hab hba
      · simp [UInt8.ne_of_lt hab]
      · simp [(UInt8.ne_of_lt hba).symm]
      · obtain rfl : a = b := UInt8.le_antisymm (UInt8.not_lt.mp hba) (UInt8.not_lt.mp hab)
        simp [ih hl']

end Wap610n.Bytes
