import Mathlib.Data.List.Nodup
import Mathlib.Data.List.Perm.Basic
import Wap610n.Lib.RingBuffer

/-!
A ring of `n` slots in which each new entry replaces the one `n` entries before it.
-/

namespace Wap610n.RingBuffer

variable {α : Type} {n : ℕ} {slot : ℕ → Option α} {entries : List α}

structure Window (n : ℕ) (slot : ℕ → Option α) (entries : List α) : Prop where
  recent : ∀ k a, entries[k]? = some a → entries.length ≤ k + n → slot (k % n) = some a
  vacant : ∀ i, entries.length ≤ i ∨ n ≤ i → slot i = none

def window (n : ℕ) (entries : List α) : List α := entries.drop (entries.length - n)

theorem window_nil (h : ∀ i, slot i = none) : Window n slot [] where
  recent k a hk := by simp at hk
  vacant i _ := h i

theorem mem_window {a : α} : a ∈ window n entries ↔ ∃ k, entries[k]? = some a ∧ entries.length ≤ k + n := by
  unfold window
  constructor
  · intro h
    obtain ⟨j, hj⟩ := List.getElem?_of_mem h
    rw [List.getElem?_drop] at hj
    exact ⟨_, hj, by omega⟩
  · rintro ⟨k, hk, hle⟩
    have hdrop : (entries.drop (entries.length - n))[k - (entries.length - n)]? = some a := by
      rw [List.getElem?_drop, ← hk]
      congr 1
      omega
    exact List.mem_of_getElem? hdrop

theorem Window.push (h : Window n slot entries) (hn : 0 < n) (a : α) :
    Window n (Function.update slot (entries.length % n) (some a)) (entries ++ [a]) where
  recent k b hk hle := by
    rw [List.length_append, List.length_singleton] at hle
    rcases Nat.lt_trichotomy k entries.length with hlt | rfl | hgt
    · rw [List.getElem?_append_left hlt] at hk
      have hne : k % n ≠ entries.length % n := by
        intro heq
        exact absurd (eq_of_mod_eq hlt.le (by omega) heq) hlt.ne
      rw [Function.update_of_ne hne]
      exact h.recent k b hk (by omega)
    · rw [List.getElem?_concat_length] at hk
      rw [Function.update_self, hk]
    · rw [List.getElem?_eq_none (by rw [List.length_append, List.length_singleton]; omega)] at hk
      cases hk
  vacant i hi := by
    rw [List.length_append, List.length_singleton] at hi
    have hmod := Nat.mod_lt entries.length hn
    have hmodle := Nat.mod_le entries.length n
    rw [Function.update_of_ne (by omega)]
    exact h.vacant i (by omega)

theorem Window.next (h : Window n slot entries) (hn : 0 < n) :
    slot (entries.length % n) = if n ≤ entries.length then entries[entries.length - n]? else none := by
  split_ifs with hfull
  · have hlt : entries.length - n < entries.length := by omega
    rw [List.getElem?_eq_getElem hlt, ← h.recent _ _ (List.getElem?_eq_getElem hlt) (by omega)]
    congr 1
    exact (Nat.mod_eq_sub_mod hfull)
  · rw [Nat.mod_eq_of_lt (Nat.lt_of_not_le hfull)]
    exact h.vacant _ (Or.inl le_rfl)

theorem Window.window_push (h : Window n slot entries) (hn : 0 < n) (a : α) :
    window n entries ++ [a] = (slot (entries.length % n)).toList ++ window n (entries ++ [a]) := by
  have hlen : (entries ++ [a]).length = entries.length + 1 := List.length_append
  rw [h.next hn, window, window, hlen]
  split_ifs with hfull
  · have hlt : entries.length - n < entries.length := by omega
    rw [List.getElem?_eq_getElem hlt, Option.toList_some, List.drop_eq_getElem_cons hlt,
      Nat.sub_add_comm hfull, List.drop_append_of_le_length (by omega), List.cons_append]
    rfl
  · have hbefore : entries.length - n = 0 := by omega
    have hafter : entries.length + 1 - n = 0 := by omega
    rw [hbefore, hafter]
    rfl

theorem Window.take_push (h : Window n slot entries) (hn : 0 < n) (a : α) :
    (entries ++ [a]).take (entries.length + 1 - n) =
      entries.take (entries.length - n) ++ (slot (entries.length % n)).toList := by
  rw [h.next hn, List.take_append_of_le_length (by omega)]
  split_ifs with hfull
  · rw [Nat.sub_add_comm hfull, List.take_add_one]
  · have hbefore : entries.length - n = 0 := by omega
    have hafter : entries.length + 1 - n = 0 := by omega
    rw [hbefore, hafter]
    rfl

theorem Window.entry (h : Window n slot entries) {i : ℕ} {a : α} (hi : slot i = some a) :
    i < n ∧ ∃ k, k % n = i ∧ entries[k]? = some a ∧ entries.length ≤ k + n := by
  have hlt : i < entries.length ∧ i < n := by
    by_contra hnot
    rw [h.vacant i (by omega)] at hi
    cases hi
  refine ⟨hlt.2, i + n * ((entries.length - 1 - i) / n), ?_, ?_⟩
  · rw [Nat.add_mul_mod_self_left, Nat.mod_eq_of_lt hlt.2]
  have hdiv := Nat.div_add_mod (entries.length - 1 - i) n
  have hmod := Nat.mod_lt (entries.length - 1 - i) (show 0 < n by omega)
  have hk : i + n * ((entries.length - 1 - i) / n) < entries.length := by omega
  have hle : entries.length ≤ i + n * ((entries.length - 1 - i) / n) + n := by omega
  refine ⟨?_, hle⟩
  have hrecent := h.recent _ _ (List.getElem?_eq_getElem hk) hle
  rw [Nat.add_mul_mod_self_left, Nat.mod_eq_of_lt hlt.2, hi] at hrecent
  rw [List.getElem?_eq_getElem hk, ← hrecent]

theorem Window.slots_nodup (h : Window n slot entries) (hnodup : (window n entries).Nodup) :
    ((List.range n).filterMap slot).Nodup := by
  apply List.Nodup.filterMap _ List.nodup_range
  intro i j a hi hj
  obtain ⟨-, k, rfl, hk, hlek⟩ := h.entry hi
  obtain ⟨-, l, rfl, hl, hlel⟩ := h.entry hj
  have hkw : (window n entries)[k - (entries.length - n)]? = some a := by
    rw [window, List.getElem?_drop, ← hk]
    congr 1
    omega
  have hlw : (window n entries)[l - (entries.length - n)]? = some a := by
    rw [window, List.getElem?_drop, ← hl]
    congr 1
    omega
  have heq := (List.getElem?_inj (List.getElem?_eq_some_iff.mp hkw).1 hnodup).mp (hkw.trans hlw.symm)
  congr 1
  omega

theorem Window.slots_perm (h : Window n slot entries) (hn : 0 < n) (hnodup : (window n entries).Nodup) :
    ((List.range n).filterMap slot).Perm (window n entries) := by
  apply (List.perm_ext_iff_of_nodup (h.slots_nodup hnodup) hnodup).mpr
  intro a
  rw [List.mem_filterMap, mem_window]
  constructor
  · rintro ⟨i, -, hi⟩
    obtain ⟨-, k, -, hk, hle⟩ := h.entry hi
    exact ⟨k, hk, hle⟩
  · rintro ⟨k, hk, hle⟩
    exact ⟨k % n, List.mem_range.mpr (Nat.mod_lt k hn), h.recent k a hk hle⟩

end Wap610n.RingBuffer
