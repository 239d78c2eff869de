import Mathlib.Data.List.DropRight
import Mathlib.Data.List.TakeWhile

/-!
Scans of an object by offset. The outer `none` is a read outside of the object, the inner one a search without result.
-/

namespace Wap610n.Pointer

variable {α : Type}

def skipFrom (b : α → Bool) : List α → ℕ → Option ℕ
  | [], _ => none
  | d :: s, p => if b d then skipFrom b s (p + 1) else some p

def trimTo (b : α → Bool) (stop : Option ℕ) (mem : List α) : ℕ → Option ℕ
  | 0 => if stop = some 0 then some 0 else none
  | e + 1 =>
    if stop = some (e + 1) then some (e + 1)
    else mem[e]?.bind fun c => if b c then trimTo b stop mem e else some (e + 1)

def copyOut (mem : List α) (s e : ℕ) : Option (List α) :=
  if s ≤ e ∧ e ≤ mem.length then some ((mem.take e).drop s) else none

theorem rdropWhile_ne_nil {b : α → Bool} {s v : List α} {c : α} (h : s.dropWhile b = c :: v) :
    (c :: v).rdropWhile b ≠ [] := by
  intro hnil
  have hfirst := List.head_dropWhile_not b (l := s) (by rw [h]; exact List.cons_ne_nil _ _)
  simp only [h, List.head_cons] at hfirst
  rw [List.rdropWhile_eq_nil_iff.mp hnil c List.mem_cons_self] at hfirst
  exact absurd hfirst (by decide)

theorem skipFrom_append {b : α → Bool} {z : α} (hz : b z = false) (s r : List α) (p : ℕ) :
    skipFrom b (s ++ z :: r) p = some (p + (s.takeWhile b).length) := by
  induction s generalizing p with
  | nil => rw [List.nil_append, skipFrom, hz, if_neg Bool.false_ne_true, List.takeWhile_nil, List.length_nil, Nat.add_zero]
  | cons d s ih =>
    rw [List.cons_append, skipFrom]
    cases hd : b d
    · rw [if_neg Bool.false_ne_true, List.takeWhile_cons_of_neg (by simp [hd]), List.length_nil, Nat.add_zero]
    · rw [if_pos rfl, ih, List.takeWhile_cons_of_pos hd, List.length_cons, Nat.add_right_comm, Nat.add_assoc]

theorem trimTo_append {b : α → Bool} {stop : Option ℕ} {x v : List α}
    (h : stop = some x.length ∨ stop = none ∧ v.rdropWhile b ≠ []) (r : List α) :
    trimTo b stop (x ++ v ++ r) (x.length + v.length) = some (x.length + (v.rdropWhile b).length) := by
  induction v using List.reverseRecOn generalizing r with
  | nil =>
    rcases h with rfl | ⟨-, hne⟩
    · rw [List.rdropWhile_nil, List.length_nil, Nat.add_zero]
      cases hx : x.length with
      | zero => rw [trimTo, if_pos rfl]
      | succ n => rw [trimTo, if_pos rfl]
    · exact absurd rfl hne
  | append_singleton v c ih =>
    have hstop : stop ≠ some (x.length + v.length + 1) := by
      rcases h with rfl | ⟨rfl, -⟩
      · intro heq
        injection heq with heq
        omega
      · exact Option.some_ne_none _ ∘ Eq.symm
    have hread : (x ++ (v ++ [c]) ++ r)[x.length + v.length]? = some c := by
      rw [← List.length_append, ← List.append_assoc, List.append_assoc (x ++ v),
        List.getElem?_append_right (Nat.le_refl _), Nat.sub_self]
      rfl
    rw [List.length_append, List.length_singleton, ← Nat.add_assoc, trimTo, if_neg hstop, hread, Option.bind_some]
    by_cases hc : b c
    · rw [List.rdropWhile_concat_pos _ _ _ hc] at h ⊢
      rw [if_pos hc, ← List.append_assoc, List.append_assoc (x ++ v)]
      exact ih h _
    · rw [if_neg hc, List.rdropWhile_concat_neg _ _ _ hc, List.length_append, List.length_singleton, Nat.add_assoc]

theorem copyOut_append (x v r : List α) : copyOut (x ++ v ++ r) x.length (x.length + v.length) = some v := by
  have hfits : x.length ≤ x.length + v.length ∧ x.length + v.length ≤ (x ++ v ++ r).length := by
    simp only [List.length_append]
    omega
  rw [copyOut, if_pos hfits, ← List.length_append, List.take_left, List.drop_left]

variable [DecidableEq α]

def findFrom (z c : α) : List α → ℕ → Option (Option ℕ)
  | [], _ => none
  | d :: s, p => if d = c then some (some p) else if d = z then some none else findFrom z c s (p + 1)

def findLastFrom (z c : α) : Option ℕ → List α → ℕ → Option (Option ℕ)
  | _, [], _ => none
  | last, d :: s, p =>
    if d = z then some (if d = c then some p else last)
    else findLastFrom z c (if d = c then some p else last) s (p + 1)

theorem findFrom_append {z c : α} {a : List α} (hz : z ∉ a) (hc : c ∉ a) (r : List α) (p : ℕ) :
    findFrom z c (a ++ c :: r) p = some (some (p + a.length)) := by
  induction a generalizing p with
  | nil => rw [List.nil_append, findFrom, if_pos rfl, List.length_nil, Nat.add_zero]
  | cons d a ih =>
    rw [List.mem_cons, not_or] at hz hc
    rw [List.cons_append, findFrom, if_neg (Ne.symm hc.1), if_neg (Ne.symm hz.1), ih hz.2 hc.2, List.length_cons,
      Nat.add_right_comm, Nat.add_assoc]

theorem findLastFrom_end {z : α} {a : List α} (hz : z ∉ a) (r : List α) (last : Option ℕ) (p : ℕ) :
    findLastFrom z z last (a ++ z :: r) p = some (some (p + a.length)) := by
  induction a generalizing last p with
  | nil => rw [List.nil_append, findLastFrom, if_pos rfl, if_pos rfl, List.length_nil, Nat.add_zero]
  | cons d a ih =>
    rw [List.mem_cons, not_or] at hz
    rw [List.cons_append, findLastFrom, if_neg (Ne.symm hz.1), ih hz.2, List.length_cons, Nat.add_right_comm,
      Nat.add_assoc]

end Wap610n.Pointer
