import Mathlib.Data.Nat.ModEq
import Mathlib.Tactic.Common

/-!
A ring of `n` slots that is filled and emptied in order. Slot `k % n` belongs to the entry with number `k`;
the entries from `first` up to `last` are in the ring.
-/

namespace Wap610n.RingBuffer

variable {n first last i : ℕ}

def advance (n i : ℕ) : ℕ := if i = n - 1 then 0 else i + 1

theorem advance_mod (hn : 0 < n) (k : ℕ) : advance n (k % n) = (k + 1) % n := by
  have hlt := Nat.mod_lt k hn
  unfold advance
  split_ifs with h
  · rw [Nat.add_mod, h]
    rcases Nat.eq_or_lt_of_le (Nat.succ_le_of_lt hn) with rfl | h1
    · rfl
    · rw [Nat.mod_eq_of_lt h1, Nat.sub_add_cancel hn, Nat.mod_self]
  · rw [Nat.add_mod, Nat.mod_eq_of_lt (show 1 < n by omega), Nat.mod_eq_of_lt (show k % n + 1 < n by omega)]

theorem eq_of_mod_eq {a b : ℕ} (hle : a ≤ b) (hlt : b < a + n) (h : a % n = b % n) : a = b := by
  have hdvd : n ∣ b - a := (Nat.modEq_iff_dvd' hle).mp h
  by_contra hne
  have := Nat.le_of_dvd (by omega) hdvd
  omega

def Filled (n first last i : ℕ) : Prop := ∃ k, first ≤ k ∧ k < last ∧ k % n = i

theorem not_filled_self : ¬Filled n first first i := by
  rintro ⟨k, hk, hlt, -⟩
  omega

theorem filled_last (hle : first ≤ last) (hcap : last ≤ first + n) (hn : 0 < n) :
    Filled n first last (last % n) ↔ last = first + n := by
  constructor
  · rintro ⟨k, hk, hlt, heq⟩
    by_contra hne
    exact absurd (eq_of_mod_eq hlt.le (by omega) heq) (by omega)
  · rintro rfl
    exact ⟨first, le_rfl, by omega, by rw [Nat.add_mod_right]⟩

theorem filled_first : Filled n first last (first % n) ↔ first < last := by
  constructor
  · rintro ⟨k, hk, hlt, -⟩
    omega
  · intro h
    exact ⟨first, le_rfl, h, rfl⟩

theorem filled_push (hle : first ≤ last) : Filled n first (last + 1) i ↔ last % n = i ∨ Filled n first last i := by
  constructor
  · rintro ⟨k, hk, hlt, heq⟩
    rcases Nat.lt_succ_iff_lt_or_eq.mp hlt with hlt | rfl
    · exact Or.inr ⟨k, hk, hlt, heq⟩
    · exact Or.inl heq
  · rintro (heq | ⟨k, hk, hlt, heq⟩)
    · exact ⟨last, hle, Nat.lt_succ_self last, heq⟩
    · exact ⟨k, hk, by omega, heq⟩

theorem filled_pop (hcap : last ≤ first + n) :
    Filled n (first + 1) last i ↔ Filled n first last i ∧ first % n ≠ i := by
  constructor
  · rintro ⟨k, hk, hlt, heq⟩
    refine ⟨⟨k, by omega, hlt, heq⟩, fun h => ?_⟩
    exact absurd (eq_of_mod_eq (by omega) (by omega) (h.trans heq.symm)) (show first ≠ k by omega)
  · rintro ⟨⟨k, hk, hlt, heq⟩, hne⟩
    refine ⟨k, Nat.succ_le_of_lt (lt_of_le_of_ne hk fun h => hne (h ▸ heq)), hlt, heq⟩

end Wap610n.RingBuffer
