import Mathlib.Data.List.DropRight
import Wap610n.Lib.CString
import Wap610n.Lib.Search

/-!
Commands of Tcl on strings, and the lines of the files that its scripts read and write.
-/

namespace Wap610n.Tcl

open CString Search

def isTrimmed (c : UInt8) : Bool := c = 32 ∨ c = 9 ∨ c = 10 ∨ c = 13

def trim (s : List UInt8) : List UInt8 := (s.dropWhile isTrimmed).rdropWhile isTrimmed

def split (s : List UInt8) : List (List UInt8) := if s = [] then [] else s.splitOn 10

/-- A string ends at its first NUL, so that what is behind one in a block that is read is not appended. -/
def appendResult (blocks : List (List UInt8)) : List UInt8 := blocks.flatMap (upTo 0)

def blocks (size : ℕ) : ℕ → List UInt8 → List (List UInt8)
  | 0, _ => []
  | n + 1, s => s.take size :: blocks size n (s.drop size)

def read (file : List UInt8) : List UInt8 := appendResult (blocks 4096 file.length file)

/-- The result of `exec` is the output without a newline at its end. -/
def execOutput (s : List UInt8) : List UInt8 := if s.getLast? = some 10 then s.dropLast else s

def puts (lines : List (List UInt8)) : List UInt8 := lines.flatMap fun line => line ++ [10]

/-- A match of `([^c]*)c(.*)` is the whole text. -/
def cutFirst (c : UInt8) (s : List UInt8) : Option (List UInt8 × List UInt8) :=
  if c ∈ s then some (upTo c s, s.drop ((upTo c s).length + 1)) else none

/-- A match of `(.*)sep(.*)`: the first group takes as much as it can. -/
def cutLast (sep : List UInt8) : List UInt8 → Option (List UInt8 × List UInt8)
  | [] => if sep = [] then some ([], []) else none
  | c :: s =>
    match cutLast sep s with
    | some (a, b) => some (c :: a, b)
    | none => if sep <+: c :: s then some ([], (c :: s).drop sep.length) else none

section Blocks

theorem notMem_appendResult (blocks : List (List UInt8)) : 0 ∉ appendResult blocks := by
  rw [appendResult, List.mem_flatMap]
  rintro ⟨block, -, hmem⟩
  simpa using List.mem_takeWhile_imp hmem

theorem appendResult_eq {blocks : List (List UInt8)} (h : 0 ∉ blocks.flatten) :
    appendResult blocks = blocks.flatten := by
  induction blocks with
  | nil => rfl
  | cons block blocks ih =>
    rw [List.flatten_cons, List.mem_append, not_or] at h
    rw [appendResult, List.flatMap_cons, upTo_of_notMem h.1, List.flatten_cons]
    exact congrArg _ (ih h.2)

theorem flatten_blocks {size n : ℕ} {s : List UInt8} (hsize : 0 < size) (h : s.length ≤ n) :
    (blocks size n s).flatten = s := by
  induction n generalizing s with
  | zero => exact (List.eq_nil_of_length_eq_zero (Nat.le_zero.mp h)).symm
  | succ n ih =>
    rw [blocks, List.flatten_cons, ih, List.take_append_drop]
    rw [List.length_drop]
    omega

theorem read_eq {s : List UInt8} (h : 0 ∉ s) : read s = s := by
  have hflatten : (blocks 4096 s.length s).flatten = s := flatten_blocks (by decide) (Nat.le_refl _)
  rw [read, appendResult_eq (by rwa [hflatten]), hflatten]

end Blocks

section Trim

variable {s : List UInt8}

theorem trim_subset (s : List UInt8) : trim s ⊆ s := fun _ h =>
  (List.dropWhile_suffix _).subset ((List.rdropWhile_prefix _ _).subset h)

theorem trim_trim (s : List UInt8) : trim (trim s) = trim s := by
  have hfront : (trim s).dropWhile isTrimmed = trim s := by
    cases ht : trim s with
    | nil => rfl
    | cons c t =>
      obtain ⟨r, hr⟩ : trim s <+: s.dropWhile isTrimmed := List.rdropWhile_prefix _ _
      have hne : s.dropWhile isTrimmed ≠ [] := by
        rw [← hr, ht]
        exact List.cons_ne_nil _ _
      have hhead := List.head_dropWhile_not isTrimmed hne
      have hc : (s.dropWhile isTrimmed).head hne = c := by
        simp only [← hr, ht, List.cons_append, List.head_cons]
      rw [hc] at hhead
      rw [List.dropWhile_cons_of_neg (by simp [hhead])]
  conv_lhs => rw [trim, hfront]
  rw [trim, List.rdropWhile_idempotent]

theorem mem_trim {c : UInt8} (hc : c ∈ s) (hkept : isTrimmed c = false) : c ∈ trim s := by
  rw [← List.takeWhile_append_dropWhile (p := isTrimmed) (l := s), List.mem_append] at hc
  rcases hc with hfront | hrest
  · exact absurd (List.mem_takeWhile_imp hfront) (by simp [hkept])
  · rw [← List.rdropWhile_append_rtakeWhile (p := isTrimmed) (l := s.dropWhile isTrimmed), List.mem_append] at hrest
    rcases hrest with hmid | hback
    · exact hmid
    · exact absurd (List.mem_rtakeWhile_imp hback) (by simp [hkept])

end Trim

section Lines

theorem subset_of_mem_splitOn {d : UInt8} {s l : List UInt8} (h : l ∈ s.splitOn d) : l ⊆ s ∧ d ∉ l := by
  induction s generalizing l with
  | nil =>
    rw [List.splitOn_nil, List.mem_singleton] at h
    rw [h]
    exact ⟨List.Subset.refl _, List.not_mem_nil⟩
  | cons c s ih =>
    have hrest : ∀ {l}, l ∈ s.splitOn d → l ⊆ c :: s ∧ d ∉ l := fun hl =>
      ⟨fun _ hx => List.mem_cons_of_mem _ ((ih hl).1 hx), (ih hl).2⟩
    rw [List.splitOn_cons_eq_if_modifyHead] at h
    split_ifs at h with hc
    · rcases List.mem_cons.mp h with rfl | h
      · exact ⟨List.nil_subset _, List.not_mem_nil⟩
      · exact hrest h
    · cases hs : s.splitOn d with
      | nil => exact absurd hs (List.splitOn_ne_nil d s)
      | cons first rest =>
        rw [hs] at ih hrest h
        rcases List.mem_cons.mp h with rfl | h
        · obtain ⟨hsub, hnot⟩ := ih List.mem_cons_self
          refine ⟨List.cons_subset_cons c hsub, ?_⟩
          rw [List.mem_cons, not_or]
          exact ⟨fun heq => hc (by rw [heq]; exact beq_self_eq_true c), hnot⟩
        · exact hrest (List.mem_cons_of_mem _ h)

theorem notMem_of_mem_splitOn {d : UInt8} {s l : List UInt8} (h : l ∈ s.splitOn d) : d ∉ l :=
  (subset_of_mem_splitOn h).2

theorem puts_append (a b : List (List UInt8)) : puts (a ++ b) = puts a ++ puts b := List.flatMap_append

theorem notMem_puts {c : UInt8} (hc : c ≠ 10) {lines : List (List UInt8)} (h : ∀ line ∈ lines, c ∉ line) :
    c ∉ puts lines := by
  rw [puts, List.mem_flatMap]
  rintro ⟨line, hline, hmem⟩
  rcases List.mem_append.mp hmem with hmem | hmem
  · exact h line hline hmem
  · exact hc (List.mem_singleton.mp hmem)

theorem splitOn_puts {lines : List (List UInt8)} (h : ∀ line ∈ lines, 10 ∉ line) :
    (puts lines).splitOn 10 = lines ++ [[]] := by
  induction lines with
  | nil => rfl
  | cons line lines ih =>
    rw [List.forall_mem_cons] at h
    have hputs : puts (line :: lines) = line ++ 10 :: puts lines := by
      rw [puts, List.flatMap_cons, List.append_assoc, List.singleton_append, puts]
    rw [hputs, List.splitOn_append_cons_self_of_not_mem h.1, ih h.2, List.cons_append]

theorem puts_inj {a b : List (List UInt8)} (ha : ∀ line ∈ a, 10 ∉ line) (hb : ∀ line ∈ b, 10 ∉ line)
    (h : puts a = puts b) : a = b := by
  have hsplit := congrArg (List.splitOn 10) h
  rwa [splitOn_puts ha, splitOn_puts hb, List.append_left_inj] at hsplit

theorem split_puts {lines : List (List UInt8)} (h : ∀ line ∈ lines, 10 ∉ line) (hne : lines ≠ []) :
    split (puts lines) = lines ++ [[]] := by
  obtain ⟨line, lines, rfl⟩ := List.exists_cons_of_ne_nil hne
  rw [split, if_neg, splitOn_puts h]
  rw [puts, List.flatMap_cons]
  simp

theorem splitOn_split (s : List UInt8) : ∃ k, s.splitOn 10 = split s ++ List.replicate k [] := by
  unfold split
  split_ifs with hs
  · exact ⟨1, by rw [hs]; rfl⟩
  · exact ⟨0, (List.append_nil _).symm⟩

theorem splitOn_execOutput (s : List UInt8) : ∃ k, s.splitOn 10 = split (execOutput s) ++ List.replicate k [] := by
  unfold execOutput
  split_ifs with hlast
  · obtain ⟨t, rfl⟩ : ∃ t, s = t ++ [10] := (List.getLast?_eq_some_iff.mp hlast)
    obtain ⟨k, hk⟩ := splitOn_split t
    refine ⟨k + 1, ?_⟩
    rw [List.splitOn_append_cons_self, List.splitOn_nil, List.dropLast_concat, hk, List.append_assoc,
      List.replicate_succ']
  · exact splitOn_split s

end Lines

section Cut

variable {s a b : List UInt8}

theorem cutFirst_eq_some {c : UInt8} : cutFirst c s = some (a, b) ↔ c ∉ a ∧ s = a ++ c :: b := by
  have hdrop : ∀ a b : List UInt8, (a ++ c :: b).drop (a.length + 1) = b := fun a b => List.drop_length_add_append 1
  unfold cutFirst
  constructor
  · intro h
    split_ifs at h with hc
    obtain ⟨r, hnot, hr⟩ := eq_upTo_append hc
    obtain ⟨rfl, rfl⟩ := Prod.mk.inj (Option.some.inj h)
    refine ⟨hnot, ?_⟩
    conv_rhs => rw [hr, upTo_append_cons hnot, hdrop]
    exact hr
  · rintro ⟨hnot, rfl⟩
    rw [if_pos (List.mem_append_right _ List.mem_cons_self), upTo_append_cons hnot, hdrop]

theorem cutFirst_eq_none {c : UInt8} : cutFirst c s = none ↔ c ∉ s := by
  unfold cutFirst
  split_ifs with hc
  · simp [hc]
  · simp [hc]

variable {sep : List UInt8} (hsep : sep ≠ [])

include hsep

theorem cutLast_eq_none (h : cutLast sep s = none) : ¬sep <:+: s := by
  induction s with
  | nil =>
    rw [List.infix_nil]
    exact hsep
  | cons c s ih =>
    rw [cutLast] at h
    cases hs : cutLast sep s with
    | some p =>
      rw [hs] at h
      cases h
    | none =>
      rw [hs] at h
      dsimp only at h
      split_ifs at h with hp
      rw [List.infix_cons_iff, not_or]
      exact ⟨hp, ih hs⟩

theorem cutLast_eq_some (h : cutLast sep s = some (a, b)) : s = a ++ (sep ++ b) ∧ ¬sep <:+: (sep ++ b).tail := by
  induction s generalizing a with
  | nil =>
    rw [cutLast, if_neg hsep] at h
    cases h
  | cons c s ih =>
    rw [cutLast] at h
    cases hs : cutLast sep s with
    | some p =>
      obtain ⟨a', b'⟩ := p
      rw [hs] at h
      obtain ⟨rfl, rfl⟩ := Prod.mk.inj (Option.some.inj h)
      obtain ⟨heq, hlast⟩ := ih hs
      exact ⟨by rw [heq, List.cons_append], hlast⟩
    | none =>
      rw [hs] at h
      dsimp only at h
      split_ifs at h with hp
      obtain ⟨rfl, rfl⟩ := Prod.mk.inj (Option.some.inj h)
      obtain ⟨t, ht⟩ := hp
      rw [← ht, List.drop_left, List.nil_append]
      refine ⟨rfl, ?_⟩
      rw [ht, List.tail_cons]
      exact cutLast_eq_none hsep hs

end Cut

end Wap610n.Tcl
