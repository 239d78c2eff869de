import Mathlib.Algebra.BigOperators.Group.List.Basic
import Mathlib.Algebra.GroupWithZero.Nat
import Mathlib.Data.List.Basic
import Mathlib.Data.List.Infix

/-!
Search in memory that is read up to a terminator `z`, and the parts of a text between delimiters.
-/

namespace Wap610n.Search

variable {α : Type}

theorem infix_of_append_cons {n x y : List α} {c : α} (hc : c ∉ n) (h : n <:+: x ++ c :: y) :
    n <:+: x ∨ n <:+: y := by
  rcases List.infix_append_iff_ne_nil.mp h with h | h | ⟨l₁, l₂, -, hne, rfl, -, hp⟩
  · exact Or.inl h
  · rcases List.infix_cons_iff.mp h with hp | hi
    · rcases List.prefix_cons_iff.mp hp with rfl | ⟨t, rfl, -⟩
      · exact Or.inr List.nil_infix
      · exact absurd List.mem_cons_self hc
    · exact Or.inr hi
  · rcases List.prefix_cons_iff.mp hp with rfl | ⟨t, rfl, -⟩
    · exact absurd rfl hne
    · exact absurd (List.mem_append_right _ List.mem_cons_self) hc

theorem suffix_of_infix_concat {n x y : List α} {c : α} (hx : c ∉ x) (hy : c ∉ y)
    (h : n ++ [c] <:+: x ++ c :: y) : n <:+ x := by
  obtain ⟨s, t, heq⟩ := h
  rw [← List.append_assoc, List.append_assoc, List.singleton_append] at heq
  exact ⟨s, ((List.append_cons_inj_of_notMem hx hy).mp heq.symm).1.symm⟩

theorem not_prefix_of_first {n y x : List α} {c : α} (hno : ¬ n <:+: c :: x ++ n.dropLast) :
    ¬ n <+: c :: x ++ (n ++ y) := by
  intro hp
  apply hno
  have hq : c :: x ++ n.dropLast <+: c :: x ++ (n ++ y) := by
    rw [List.prefix_append_right_inj]
    exact (List.dropLast_prefix n).trans (List.prefix_append n y)
  apply (List.prefix_of_prefix_length_le hp hq ?_).isInfix
  rw [List.length_append, List.length_dropLast, List.length_cons]
  omega

theorem not_infix_cons {n x t : List α} {c : α} (hp : n <+: t) (hno : ¬n <:+: x ++ n.dropLast)
    (hc : ¬n <+: c :: (x ++ t)) : ¬n <:+: c :: x ++ n.dropLast := by
  rw [List.cons_append, List.infix_cons_iff, not_or]
  refine ⟨fun h => hc (h.trans ?_), hno⟩
  rw [List.cons_prefix_cons, List.prefix_append_right_inj]
  exact ⟨rfl, (List.dropLast_prefix n).trans hp⟩

theorem not_infix_dropLast {n : List α} (hn : n ≠ []) : ¬n <:+: [] ++ n.dropLast := by
  intro h
  have hlen := h.length_le
  have hpos := List.length_pos_iff.mpr hn
  rw [List.nil_append, List.length_dropLast] at hlen
  omega

theorem filterMap_range_getElem? {l : List α} {n : ℕ} (h : l.length ≤ n) :
    (List.range n).filterMap (fun i => l[i]?) = l := by
  induction l generalizing n with
  | nil => simp
  | cons a l ih =>
    obtain ⟨n, rfl⟩ : ∃ m, n = m + 1 := ⟨n - 1, by rw [List.length_cons] at h; omega⟩
    rw [List.range_succ_eq_map, List.filterMap_cons, List.filterMap_map]
    exact congrArg (a :: ·) (ih (Nat.le_of_succ_le_succ h))

theorem filterMap_eq_iff {β : Type} {f g : α → Option β} {l : List α} (h : ∀ a ∈ l, f a = none ∨ f a = g a) :
    l.filterMap f = l.filterMap g ↔ ∀ a ∈ l, f a = g a := by
  refine ⟨?_, List.filterMap_congr⟩
  have hle : ∀ l : List α, (∀ a ∈ l, f a = none ∨ f a = g a) → (l.filterMap f).length ≤ (l.filterMap g).length := by
    intro l
    induction l with
    | nil => exact fun _ => Nat.le_refl _
    | cons a l ih =>
      intro h
      rw [List.forall_mem_cons] at h
      have hl := ih h.2
      rw [List.filterMap_cons, List.filterMap_cons]
      rcases h.1 with hnone | hsame
      · rw [hnone]
        cases g a with
        | none => exact hl
        | some b => exact hl.trans (Nat.le_succ _)
      · rw [hsame]
        cases g a with
        | none => exact hl
        | some b => exact Nat.succ_le_succ hl
  induction l with
  | nil => exact fun _ _ ha => absurd ha List.not_mem_nil
  | cons a l ih =>
    rw [List.forall_mem_cons] at h
    rw [List.filterMap_cons, List.filterMap_cons, List.forall_mem_cons]
    intro heq
    cases hg : g a with
    | none =>
      have hf : f a = none := h.1.elim id fun hsame => hsame.trans hg
      rw [hg, hf] at heq
      exact ⟨hf, ih h.2 heq⟩
    | some b =>
      rcases h.1 with hnone | hsame
      · rw [hg, hnone] at heq
        have hlen := congrArg List.length heq
        have := hle l h.2
        dsimp only [List.length_cons] at hlen
        omega
      · rw [hg] at hsame
        rw [hg, hsame] at heq
        exact ⟨hsame, ih h.2 (List.cons.inj heq).2⟩

variable [DecidableEq α]

def find (z : α) (needle : List α) : List α → Option (List α)
  | [] => none
  | c :: s => if c = z then none else if needle <+: c :: s then some (c :: s) else find z needle s

def findChar (z d : α) : List α → Option (List α)
  | [] => none
  | c :: s => if c = d then some (c :: s) else if c = z then none else findChar z d s

theorem find_start {z : α} {n s : List α} (hn : n ≠ []) (hz : z ∉ n) (hp : n <+: s) : find z n s = some s := by
  obtain ⟨c, n, rfl⟩ := List.exists_cons_of_ne_nil hn
  obtain ⟨t, rfl⟩ := hp
  have hc : c ≠ z := fun h => hz (h ▸ List.mem_cons_self)
  rw [List.cons_append, find, if_neg hc, ← List.cons_append, if_pos (List.prefix_append _ _)]

theorem find_first {z : α} {n x y : List α} (hn : n ≠ []) (hzx : z ∉ x) (hzn : z ∉ n)
    (hno : ¬ n <:+: x ++ n.dropLast) : find z n (x ++ (n ++ y)) = some (n ++ y) := by
  induction x with
  | nil => exact find_start hn hzn (List.prefix_append n y)
  | cons c x ih =>
    have hc : c ≠ z := fun h => hzx (h ▸ List.mem_cons_self)
    rw [List.cons_append, find, if_neg hc, ← List.cons_append, if_neg (not_prefix_of_first hno)]
    apply ih
    · exact fun h => hzx (List.mem_cons_of_mem c h)
    · exact fun h => hno (List.infix_cons h)

theorem find_eq_none {z : α} {n s : List α} (h : ¬ n <:+: s) : find z n s = none := by
  induction s with
  | nil => rfl
  | cons c s ih =>
    rw [find, if_neg (fun hp : n <+: c :: s => h hp.isInfix), ih fun hi => h (List.infix_cons hi), ite_self]

theorem find_some {z : α} {n s t : List α} (h : find z n s = some t) :
    ∃ a, s = a ++ t ∧ z ∉ a ∧ n <+: t ∧ (n ≠ [] → ¬n <:+: a ++ n.dropLast) := by
  induction s with
  | nil => cases h
  | cons c s ih =>
    rw [find] at h
    split_ifs at h with hc hp
    · obtain rfl := Option.some.inj h
      exact ⟨[], rfl, List.not_mem_nil, hp, not_infix_dropLast⟩
    · obtain ⟨a, rfl, ha, ht, hno⟩ := ih h
      refine ⟨c :: a, rfl, ?_, ht, fun hn => not_infix_cons ht (hno hn) hp⟩
      rw [List.mem_cons, not_or]
      exact ⟨Ne.symm hc, ha⟩

theorem prefix_takeWhile {z : α} {n s : List α} (hz : z ∉ n) : n <+: s.takeWhile (fun c => c ≠ z) ↔ n <+: s := by
  refine ⟨fun h => h.trans (List.takeWhile_prefix _), ?_⟩
  rintro ⟨t, rfl⟩
  have hall : ∀ c ∈ n, decide (c ≠ z) = true := fun c hc => decide_eq_true fun heq => hz (heq ▸ hc)
  rw [List.takeWhile_append_of_pos hall]
  exact List.prefix_append _ _

theorem find_eq_none_iff {z : α} {n s : List α} (hn : n ≠ []) (hz : z ∉ n) :
    find z n s = none ↔ ¬n <:+: s.takeWhile fun c => c ≠ z := by
  induction s with
  | nil => simp [find, hn]
  | cons c s ih =>
    rw [find]
    by_cases hc : c = z
    · simp [hc, hn]
    have hkeep : (c :: s).takeWhile (fun c => c ≠ z) = c :: s.takeWhile fun c => c ≠ z :=
      List.takeWhile_cons_of_pos (by simpa using hc)
    have hfirst : n <+: c :: (s.takeWhile fun c => c ≠ z) ↔ n <+: c :: s := by rw [← hkeep, prefix_takeWhile hz]
    rw [if_neg hc, hkeep, List.infix_cons_iff, not_or, hfirst, ← ih]
    split_ifs with hp
    · simp [hp]
    · simp [hp]

theorem find_none_suffix {z : α} {n a s : List α} (hz : z ∉ a) (h : find z n (a ++ s) = none) : find z n s = none := by
  induction a with
  | nil => exact h
  | cons c a ih =>
    rw [List.mem_cons, not_or] at hz
    rw [List.cons_append, find, if_neg (Ne.symm hz.1)] at h
    split_ifs at h
    exact ih hz.2 h

theorem findChar_some {z d : α} {s t : List α} (h : findChar z d s = some t) :
    ∃ a r, s = a ++ d :: r ∧ t = d :: r ∧ z ∉ a ∧ d ∉ a := by
  induction s with
  | nil => cases h
  | cons c s ih =>
    rw [findChar] at h
    split_ifs at h with hc hz
    · obtain rfl := hc
      exact ⟨[], s, rfl, (Option.some.inj h).symm, List.not_mem_nil, List.not_mem_nil⟩
    · obtain ⟨a, r, rfl, rfl, ha, hd⟩ := ih h
      refine ⟨c :: a, r, rfl, rfl, ?_⟩
      rw [List.mem_cons, List.mem_cons, not_or, not_or]
      exact ⟨⟨Ne.symm hz, ha⟩, Ne.symm hc, hd⟩

theorem findChar_append {z d : α} {a r : List α} (hd : d ∉ a) (hz : z ∉ a) :
    findChar z d (a ++ d :: r) = some (d :: r) := by
  induction a with
  | nil => rw [List.nil_append, findChar, if_pos rfl]
  | cons c a ih =>
    rw [List.mem_cons, not_or] at hd hz
    rw [List.cons_append, findChar, if_neg (Ne.symm hd.1), if_neg (Ne.symm hz.1), ih hd.2 hz.2]

theorem findChar_closed {z d : α} {s : List α} (h : d ∉ s) (hd : d ≠ z) (r : List α) :
    findChar z d (s ++ z :: r) = none := by
  induction s with
  | nil => rw [List.nil_append, findChar, if_neg (Ne.symm hd), if_pos rfl]
  | cons c s ih =>
    rw [List.mem_cons, not_or] at h
    rw [List.cons_append, findChar, if_neg (Ne.symm h.1), ih h.2, ite_self]

theorem findChar_eq_none {z d : α} {s : List α} (h : d ∉ s) : findChar z d s = none := by
  induction s with
  | nil => rfl
  | cons c s ih =>
    rw [List.mem_cons, not_or] at h
    rw [findChar, if_neg (Ne.symm h.1), ih h.2, ite_self]

theorem findChar_eq_none_iff {z d : α} {s : List α} (hd : d ≠ z) :
    findChar z d s = none ↔ d ∉ s.takeWhile fun c => c ≠ z := by
  induction s with
  | nil => simp [findChar]
  | cons c s ih =>
    rw [findChar]
    by_cases hc : c = d
    · rw [if_pos hc, List.takeWhile_cons_of_pos (by simpa [hc] using hd)]
      simp [hc]
    rw [if_neg hc]
    by_cases hz : c = z
    · simp [hz]
    · rw [if_neg hz, ih, List.takeWhile_cons_of_pos (by simpa using hz), List.mem_cons, not_or]
      exact ⟨fun h => ⟨Ne.symm hc, h⟩, And.right⟩

/-- The non-empty parts of a text between delimiters; `cur` is the part of the first one read so far. -/
def tokens (d : α) : List α → List α → List (List α)
  | cur, [] => if cur = [] then [] else [cur]
  | cur, c :: s =>
    if c = d then if cur = [] then tokens d [] s else cur :: tokens d [] s
    else tokens d (cur ++ [c]) s

theorem tokens_append (d : α) (cur a b : List α) :
    tokens d cur (a ++ d :: b) = tokens d cur a ++ tokens d [] b := by
  induction a generalizing cur with
  | nil =>
    rw [List.nil_append, tokens.eq_2, if_pos rfl, tokens.eq_1]
    split_ifs
    · rfl
    · rfl
  | cons c a ih =>
    rw [List.cons_append, tokens, tokens]
    split_ifs
    · rw [ih]
    · rw [ih, List.cons_append]
    · rw [ih]

theorem tokens_of_notMem {d : α} {cur s : List α} (h : d ∉ s) (hne : cur ++ s ≠ []) :
    tokens d cur s = [cur ++ s] := by
  induction s generalizing cur with
  | nil =>
    rw [List.append_nil] at hne ⊢
    rw [tokens, if_neg hne]
  | cons c s ih =>
    rw [List.mem_cons, not_or] at h
    rw [tokens, if_neg (Ne.symm h.1), ih h.2, List.append_assoc, List.singleton_append]
    rwa [List.append_assoc, List.singleton_append]

theorem tokens_length (d : α) (cur s : List α) :
    ((tokens d cur s).map List.length).sum + s.count d = cur.length + s.length := by
  induction s generalizing cur with
  | nil =>
    rw [tokens]
    split_ifs with h
    · rw [h]
      rfl
    · rw [List.map_singleton, List.sum_singleton, List.count_nil, List.length_nil]
  | cons c s ih =>
    rw [tokens]
    split_ifs with hc h
    · have := ih []
      rw [hc, h, List.count_cons_self, List.length_cons]
      omega
    · have := ih []
      rw [hc, List.map_cons, List.sum_cons, List.count_cons_self, List.length_cons]
      rw [List.length_nil] at this
      omega
    · have := ih (cur ++ [c])
      rw [List.count_cons_of_ne hc, List.length_cons]
      rw [List.length_append, List.length_singleton] at this
      omega

theorem exists_token_mem {d e : α} {cur s : List α} (hde : e ≠ d) (h : e ∈ cur ++ s) :
    ∃ t ∈ tokens d cur s, e ∈ t := by
  induction s generalizing cur with
  | nil =>
    rw [List.append_nil] at h
    rw [tokens, if_neg (List.ne_nil_of_mem h)]
    exact ⟨cur, List.mem_singleton_self cur, h⟩
  | cons c s ih =>
    rw [tokens]
    split_ifs with hc hcur
    · rw [hcur, List.nil_append, hc, List.mem_cons] at h
      exact ih (h.resolve_left hde)
    · rcases List.mem_append.mp h with h | h
      · exact ⟨cur, List.mem_cons_self, h⟩
      · rw [hc, List.mem_cons] at h
        obtain ⟨t, ht, he⟩ := @ih [] (h.resolve_left hde)
        exact ⟨t, List.mem_cons_of_mem cur ht, he⟩
    · apply ih
      rwa [List.append_assoc, List.singleton_append]

end Wap610n.Search
