import Mathlib.Algebra.Order.BigOperators.Group.List
import Wap610n.Web.Decode
import Wap610n.Web.Multipart

namespace Wap610n.Web

open CString Search

def values (k : List UInt8) (ps : List (List UInt8 × List UInt8)) : List (List UInt8) :=
  (ps.filter fun p => p.1 = k).map Prod.snd

def setValue (old : Option (List UInt8)) (value : List UInt8) : Option (List UInt8) :=
  match old with
  | some valCheck => some (fmtAlloc 256 (valCheck ++ 32 :: value))
  | none => some value

theorem values_cons (k : List UInt8) (p : List UInt8 × List UInt8) (ps : List (List UInt8 × List UInt8)) :
    values k (p :: ps) = if p.1 = k then p.2 :: values k ps else values k ps := by
  rw [values, List.filter_cons]
  split_ifs with h₁ h₂ h₂
  · rfl
  · exact absurd (of_decide_eq_true h₁) h₂
  · exact absurd (decide_eq_true h₂) h₁
  · rfl

theorem setKeyword_self (vars : Vars) {p : List UInt8 × List UInt8} (hp : p.1 ≠ []) :
    setKeyword vars p p.1 = setValue (vars p.1) p.2 := by
  rw [setKeyword, if_neg hp]
  cases vars p.1 with
  | none => exact if_pos rfl
  | some valCheck => exact if_pos rfl

theorem setKeyword_of_ne (vars : Vars) {p : List UInt8 × List UInt8} {k : List UInt8} (hk : p.1 ≠ k) :
    setKeyword vars p k = vars k := by
  rw [setKeyword]
  split_ifs
  · rfl
  · cases vars p.1 with
    | none => exact if_neg (Ne.symm hk)
    | some valCheck => exact if_neg (Ne.symm hk)

theorem foldl_setKeyword (vars : Vars) (ps : List (List UInt8 × List UInt8)) {k : List UInt8} (hk : k ≠ []) :
    ps.foldl setKeyword vars k = (values k ps).foldl setValue (vars k) := by
  induction ps generalizing vars with
  | nil => rfl
  | cons p ps ih =>
    rw [List.foldl_cons, ih, values_cons]
    split_ifs with h
    · obtain rfl := h
      rw [setKeyword_self vars hk, List.foldl_cons]
    · rw [setKeyword_of_ne vars h]

theorem foldl_setKeyword_nil (vars : Vars) (ps : List (List UInt8 × List UInt8)) :
    ps.foldl setKeyword vars [] = vars [] := by
  induction ps generalizing vars with
  | nil => rfl
  | cons p ps ih =>
    rw [List.foldl_cons, ih]
    by_cases h : p.1 = []
    · rw [setKeyword, if_pos h]
    · exact setKeyword_of_ne vars h

theorem putChar_length_le (n : ℕ) (buf : StrBuf) (c : UInt8) :
    (buf.putChar n c).s.length ≤ buf.s.length + 1 := by
  unfold StrBuf.putChar
  split_ifs
  · exact Nat.le_succ _
  · rw [List.length_append, List.length_singleton]
  · rw [List.length_append, List.length_singleton]

theorem foldl_putChar_length_le (n : ℕ) (buf : StrBuf) (l : List UInt8) :
    (l.foldl (StrBuf.putChar n) buf).s.length ≤ buf.s.length + l.length := by
  induction l generalizing buf with
  | nil => exact Nat.le_refl _
  | cons c l ih =>
    have hrest := ih (buf.putChar n c)
    have hput := putChar_length_le n buf c
    rw [List.foldl_cons, List.length_cons]
    omega

theorem fmtAlloc_length_le (n : ℕ) (l : List UInt8) : (fmtAlloc n l).length ≤ l.length := by
  have h := foldl_putChar_length_le n ⟨[], 0⟩ l
  rwa [List.length_nil, Nat.zero_add] at h

theorem foldl_setValue_length {old v : List UInt8} {ws : List (List UInt8)}
    (h : ws.foldl setValue (some old) = some v) :
    v.length ≤ old.length + (ws.map fun w => w.length + 1).sum := by
  induction ws generalizing old with
  | nil =>
    obtain rfl := Option.some.inj h
    exact Nat.le_refl _
  | cons w ws ih =>
    have hrest := ih h
    have hfmt := fmtAlloc_length_le 256 (old ++ 32 :: w)
    rw [List.length_append, List.length_cons] at hfmt
    rw [List.map_cons, List.sum_cons]
    omega

def weight (ps : List (List UInt8 × List UInt8)) : ℕ := (ps.map fun p => p.1.length + p.2.length).sum

theorem weight_cons (p : List UInt8 × List UInt8) (ps : List (List UInt8 × List UInt8)) :
    weight (p :: ps) = p.1.length + p.2.length + weight ps := by
  rw [weight, List.map_cons, List.sum_cons, weight]

theorem weight_append (a b : List (List UInt8 × List UInt8)) : weight (a ++ b) = weight a + weight b := by
  rw [weight, List.map_append, List.sum_append, weight, weight]

theorem weight_filter (q : List UInt8 × List UInt8 → Bool) (ps : List (List UInt8 × List UInt8)) :
    weight ps = weight (ps.filter q) + weight (ps.filter fun p => !q p) := by
  induction ps with
  | nil => rfl
  | cons p ps ih =>
    rw [weight_cons, ih, List.filter_cons, List.filter_cons]
    cases q p with
    | true =>
      rw [if_pos rfl, if_neg (by decide), weight_cons]
      omega
    | false =>
      rw [if_neg (by decide), if_pos (by decide), weight_cons]
      omega

theorem values_length_le {k : List UInt8} (hk : k ≠ []) (ps : List (List UInt8 × List UInt8)) :
    ((values k ps).map fun w => w.length + 1).sum ≤ weight (ps.filter fun p => p.1 = k) := by
  have hpos := List.length_pos_iff.mpr hk
  rw [values, List.map_map, weight]
  apply List.sum_le_sum
  intro p hp
  obtain rfl := of_decide_eq_true (List.mem_filter.mp hp).2
  rw [Function.comp_apply]
  omega

theorem length_le_weight {k v : List UInt8} {ps : List (List UInt8 × List UInt8)} (hk : k ≠ [])
    (h : (values k ps).foldl setValue none = some v) :
    k.length + v.length ≤ weight (ps.filter fun p => p.1 = k) := by
  induction ps with
  | nil => cases h
  | cons p ps ih =>
    rw [values_cons] at h
    rw [List.filter_cons]
    split_ifs at h with hp
    · rw [if_pos (decide_eq_true hp), weight_cons, hp]
      have hfirst := foldl_setValue_length h
      have hrest := values_length_le hk ps
      omega
    · rw [if_neg (by rwa [decide_eq_true_iff])]
      exact ih h

theorem sum_weight_filter_le {ks : List (List UInt8)} (hd : ks.Nodup) (ps : List (List UInt8 × List UInt8)) :
    (ks.map fun k => weight (ps.filter fun p => p.1 = k)).sum ≤ weight ps := by
  induction ks generalizing ps with
  | nil => exact Nat.zero_le _
  | cons k ks ih =>
    obtain ⟨hk, hd⟩ := List.nodup_cons.mp hd
    have hsplit := weight_filter (fun p => p.1 = k) ps
    have hrest := ih hd (ps.filter fun p => !decide (p.1 = k))
    have heq : (ks.map fun m => weight ((ps.filter fun p => !decide (p.1 = k)).filter fun p => p.1 = m)) =
        ks.map fun m => weight (ps.filter fun p => p.1 = m) := by
      apply List.map_congr_left
      intro m hm
      rw [List.filter_filter]
      congr 1
      apply List.filter_congr
      intro p _
      by_cases h : p.1 = m
      · have hne : p.1 ≠ k := fun h' => hk (h' ▸ h ▸ hm)
        simp [h, h ▸ hne]
      · simp [h]
    rw [heq] at hrest
    rw [List.map_cons, List.sum_cons]
    omega

end Wap610n.Web
