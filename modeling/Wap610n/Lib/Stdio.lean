import Wap610n.Lib.CString

/-!
Reading a text with `fgets` and `sscanf`.
-/

namespace Wap610n.Stdio

open CString

/-- What the calls of `fgets` with a buffer of `size` bytes return, `cur` being the start of the first line. -/
def linesFrom (size : ℕ) : List UInt8 → List UInt8 → List (List UInt8)
  | cur, [] => if cur = [] then [] else [cur]
  | cur, c :: s =>
    if c = 10 ∨ cur.length + 2 = size then (cur ++ [c]) :: linesFrom size [] s else linesFrom size (cur ++ [c]) s

def lines (size : ℕ) (s : List UInt8) : List (List UInt8) := linesFrom size [] s

theorem linesFrom_line {size : ℕ} {cur line : List UInt8} (hline : 10 ∉ line)
    (hlen : cur.length + line.length + 1 < size) (rest : List UInt8) :
    linesFrom size cur (line ++ 10 :: rest) = (cur ++ line ++ [10]) :: linesFrom size [] rest := by
  induction line generalizing cur with
  | nil => rw [List.nil_append, linesFrom, if_pos (Or.inl rfl), List.append_nil]
  | cons c line ih =>
    rw [List.mem_cons, not_or] at hline
    rw [List.length_cons] at hlen
    have hmore : ¬ (c = 10 ∨ cur.length + 2 = size) := fun h => h.elim (Ne.symm hline.1) (by omega)
    have hcur : (cur ++ [c]).length = cur.length + 1 := List.length_append
    rw [List.cons_append, linesFrom, if_neg hmore, ih hline.2 (by omega), List.append_assoc cur, List.singleton_append]

theorem lines_flatMap {size : ℕ} {ls : List (List UInt8)} (h : ∀ line ∈ ls, 10 ∉ line ∧ line.length + 1 < size) :
    lines size (ls.flatMap (· ++ [10])) = ls.map (· ++ [10]) := by
  induction ls with
  | nil => rfl
  | cons line ls ih =>
    rw [List.forall_mem_cons] at h
    have hlen : ([] : List UInt8).length + line.length + 1 < size := by
      rw [List.length_nil]
      omega
    rw [lines, List.flatMap_cons, List.append_assoc, List.singleton_append, linesFrom_line h.1.1 hlen, List.map_cons,
      List.nil_append]
    exact congrArg _ (ih h.2)

theorem head?_linesFrom {size : ℕ} {cur line : List UInt8} (hline : 10 ∉ line) (hcur : cur.length + 2 ≤ size)
    (rest : List UInt8) : (linesFrom size cur (line ++ 10 :: rest)).head? =
      some (cur ++ (line ++ [10]).take (size - 1 - cur.length)) := by
  induction line generalizing cur with
  | nil =>
    rw [List.nil_append, linesFrom, if_pos (Or.inl rfl), List.nil_append,
      List.take_of_length_le (by rw [List.length_singleton]; omega)]
    rfl
  | cons c line ih =>
    rw [List.mem_cons, not_or] at hline
    obtain ⟨k, hk⟩ : ∃ k, size - 1 - cur.length = k + 1 := ⟨size - 2 - cur.length, by omega⟩
    rw [List.cons_append, List.cons_append, linesFrom, hk, List.take_succ_cons]
    split_ifs with hstop
    · have hlast : k = 0 := by
        rcases hstop with heq | heq
        · exact absurd heq.symm hline.1
        · omega
      rw [hlast, List.take_zero]
      rfl
    · have hlen : (cur ++ [c]).length = cur.length + 1 := List.length_append
      have hmore : cur.length + 2 ≠ size := fun heq => hstop (Or.inr heq)
      have hrest : size - 1 - (cur.length + 1) = k := by omega
      rw [ih hline.2 (by omega), hlen, hrest, List.append_assoc, List.singleton_append]

theorem head?_lines {size : ℕ} {line : List UInt8} (hline : 10 ∉ line) (hsize : 2 ≤ size) (rest : List UInt8) :
    (lines size (line ++ 10 :: rest)).head? = some ((line ++ [10]).take (size - 1)) :=
  head?_linesFrom hline (show ([] : List UInt8).length + 2 ≤ size by rwa [List.length_nil, Nat.zero_add]) rest

/-- What a buffer holds in the turns of `while (!feof(f)) fgets(buff, size, f)`. A last line that is closed leaves the
end of the file unseen, and one more turn has it again. `none` when nothing is ever read into the buffer. -/
def feofReads (size : ℕ) (s : List UInt8) : Option (List (List UInt8)) :=
  (lines size s).getLast?.map fun last =>
    if last.getLast? = some 10 ∨ last.length + 1 = size then lines size s ++ [last] else lines size s

inductive Conv
  | word (size : ℕ)
  | int
deriving DecidableEq, Repr

inductive Value
  | word (w : List UInt8)
  | int (n : ℤ)
deriving DecidableEq, Repr

def nextWord (s : List UInt8) : List UInt8 := (s.dropWhile isSpace).takeWhile fun c => !isSpace c

def afterWord (s : List UInt8) : List UInt8 := (s.dropWhile isSpace).dropWhile fun c => !isSpace c

def isDigit (c : UInt8) : Bool := 48 ≤ c ∧ c ≤ 57

def unsigned : List UInt8 → List UInt8
  | 43 :: s => s
  | 45 :: s => s
  | s => s

def scanInt (s : List UInt8) : Option (ℤ × List UInt8) :=
  let digits := unsigned (s.dropWhile isSpace)
  if digits.head?.any isDigit then some (atoi s, digits.dropWhile isDigit) else none

/-- The values that are stored; `none` is a word that does not fit its buffer. -/
def sscanf : List Conv → List UInt8 → Option (List Value)
  | [], _ => some []
  | .word size :: fmt, s =>
    if nextWord s = [] then some []
    else if size ≤ (nextWord s).length then none
    else (sscanf fmt (afterWord s)).map (Value.word (nextWord s) :: ·)
  | .int :: fmt, s =>
    match scanInt s with
    | none => some []
    | some (n, s) => (sscanf fmt s).map (Value.int n :: ·)

def fields : ℕ → List UInt8 → List (List UInt8)
  | 0, _ => []
  | n + 1, s => if nextWord s = [] then [] else nextWord s :: fields n (afterWord s)

theorem ne_nil_of_mem_fields {n : ℕ} {s w : List UInt8} (h : w ∈ fields n s) : w ≠ [] := by
  induction n generalizing s with
  | zero => exact absurd h List.not_mem_nil
  | succ n ih =>
    rw [fields] at h
    split_ifs at h with hempty
    · exact absurd h List.not_mem_nil
    · rcases List.mem_cons.mp h with rfl | h
      · exact hempty
      · exact ih h

def Fit (sizes : List ℕ) (s : List UInt8) : Prop := ∀ p ∈ (fields sizes.length s).zip sizes, p.1.length < p.2

instance (sizes : List ℕ) (s : List UInt8) : Decidable (Fit sizes s) := inferInstanceAs (Decidable (∀ p ∈ _, _))

theorem fit_cons {size : ℕ} {sizes : List ℕ} {s : List UInt8} (h : nextWord s ≠ []) :
    Fit (size :: sizes) s ↔ (nextWord s).length < size ∧ Fit sizes (afterWord s) := by
  unfold Fit
  rw [List.length_cons, fields, if_neg h, List.zip_cons_cons, List.forall_mem_cons]

theorem sscanf_words (sizes : List ℕ) (s : List UInt8) :
    sscanf (sizes.map Conv.word) s =
      if Fit sizes s then some ((fields sizes.length s).map Value.word) else none := by
  induction sizes generalizing s with
  | nil => rfl
  | cons size sizes ih =>
    rw [List.map_cons, sscanf, List.length_cons, fields]
    by_cases hempty : nextWord s = []
    · have hfit : Fit (size :: sizes) s := by
        unfold Fit
        rw [List.length_cons, fields, if_pos hempty]
        exact fun p hp => absurd hp List.not_mem_nil
      rw [if_pos hempty, if_pos hempty, if_pos hfit]
      rfl
    rw [if_neg hempty, if_neg hempty, ih]
    by_cases hsize : size ≤ (nextWord s).length
    · rw [if_pos hsize, if_neg fun h => absurd ((fit_cons hempty).mp h).1 (Nat.not_lt_of_le hsize)]
    rw [if_neg hsize]
    by_cases hrest : Fit sizes (afterWord s)
    · rw [if_pos hrest, if_pos ((fit_cons hempty).mpr ⟨Nat.lt_of_not_le hsize, hrest⟩)]
      rfl
    · rw [if_neg hrest, if_neg fun h => hrest ((fit_cons hempty).mp h).2]
      rfl

def IsWord (w : List UInt8) : Prop := w ≠ [] ∧ ∀ c ∈ w, isSpace c = false

def IsBlank (b : List UInt8) : Prop := b ≠ [] ∧ ∀ c ∈ b, isSpace c = true

theorem dropWhile_blank {b : List UInt8} (hb : ∀ c ∈ b, isSpace c = true) (s : List UInt8) :
    (b ++ s).dropWhile isSpace = s.dropWhile isSpace := by
  rw [List.dropWhile_append, if_pos]
  rw [List.isEmpty_iff]
  exact List.dropWhile_eq_nil_iff.mpr hb

theorem dropWhile_word {w : List UInt8} (hw : IsWord w) (s : List UInt8) : (w ++ s).dropWhile isSpace = w ++ s := by
  obtain ⟨c, w, rfl⟩ := List.exists_cons_of_ne_nil hw.1
  rw [List.cons_append, List.dropWhile_cons, if_neg]
  rw [hw.2 c List.mem_cons_self]
  exact Bool.false_ne_true

theorem word_then_blank {w b : List UInt8} (hw : IsWord w) (hb : IsBlank b) (s : List UInt8) :
    nextWord (w ++ (b ++ s)) = w ∧ afterWord (w ++ (b ++ s)) = b ++ s := by
  obtain ⟨c, b, rfl⟩ := List.exists_cons_of_ne_nil hb.1
  have hall : ∀ d ∈ w, (!isSpace d) = true := fun d hd => by rw [hw.2 d hd]; rfl
  have hstop : ¬(!isSpace c) = true := by
    rw [hb.2 c List.mem_cons_self]
    exact Bool.false_ne_true
  unfold nextWord afterWord
  rw [dropWhile_word hw, List.takeWhile_append_of_pos hall, List.dropWhile_append_of_pos hall, List.cons_append,
    List.takeWhile_cons, if_neg hstop, List.dropWhile_cons, if_neg hstop, List.append_nil]
  exact ⟨rfl, rfl⟩

theorem sscanf_blank {b : List UInt8} (hb : ∀ c ∈ b, isSpace c = true) (sizes : List ℕ) (s : List UInt8) :
    sscanf (sizes.map Conv.word) (b ++ s) = sscanf (sizes.map Conv.word) s := by
  cases sizes with
  | nil => rfl
  | cons size sizes =>
    rw [List.map_cons, sscanf, sscanf, nextWord, nextWord, afterWord, afterWord, dropWhile_blank hb]

structure Column where
  size : ℕ
  word : List UInt8
  blank : List UInt8

def Column.Separate (col : Column) : Prop := IsWord col.word ∧ IsBlank col.blank

theorem sscanf_columns {cols : List Column} (h : ∀ col ∈ cols, col.Separate) :
    sscanf (cols.map fun col => Conv.word col.size) (cols.flatMap fun col => col.word ++ col.blank) =
      if ∀ col ∈ cols, col.word.length < col.size then some (cols.map fun col => Value.word col.word) else none := by
  induction cols with
  | nil => rfl
  | cons col cols ih =>
    obtain ⟨⟨hw, hb⟩, hcols⟩ := List.forall_mem_cons.mp h
    obtain ⟨hnext, hafter⟩ := word_then_blank hw hb (cols.flatMap fun col => col.word ++ col.blank)
    have hblank := sscanf_blank hb.2 (cols.map Column.size) (cols.flatMap fun col => col.word ++ col.blank)
    rw [List.map_map] at hblank
    rw [List.map_cons, List.flatMap_cons, List.append_assoc, sscanf, hnext, hafter, if_neg hw.1]
    by_cases hfit : col.size ≤ col.word.length
    · rw [if_pos hfit, if_neg]
      intro hall
      exact absurd (hall col List.mem_cons_self) (Nat.not_lt_of_le hfit)
    · rw [if_neg hfit]
      refine (congrArg _ (hblank.trans (ih hcols))).trans ?_
      simp only [List.forall_mem_cons, Nat.lt_of_not_le hfit, true_and]
      split_ifs <;> rfl

def storeWord (values : List Value) (i : ℕ) (old : Option (List UInt8)) : Option (List UInt8) :=
  match values[i]? with
  | some (.word w) => some w
  | _ => old

theorem storeWord_words (ws : List (List UInt8)) (i : ℕ) (old : Option (List UInt8)) :
    storeWord (ws.map Value.word) i old = ws[i]?.or old := by
  rw [storeWord, List.getElem?_map]
  cases ws[i]? with
  | none => rfl
  | some w => rfl

theorem linesFrom_ne_nil {size : ℕ} {cur s : List UInt8} (h : cur ++ s ≠ []) : linesFrom size cur s ≠ [] := by
  induction s generalizing cur with
  | nil =>
    rw [List.append_nil] at h
    rw [linesFrom, if_neg h]
    exact List.cons_ne_nil _ _
  | cons c s ih =>
    rw [linesFrom]
    split_ifs
    · exact List.cons_ne_nil _ _
    · apply ih
      simp

theorem feofReads_nil (size : ℕ) : feofReads size [] = none := rfl

theorem filter_feofReads (size : ℕ) {s : List UInt8} (h : s ≠ []) (p : List UInt8 → Bool) :
    ∃ reads, feofReads size s = some reads ∧
      (reads.filter p = (lines size s).filter p ∨ ∃ init last, (lines size s).filter p = init ++ [last] ∧
        reads.filter p = init ++ [last, last]) := by
  have hlines : lines size s ≠ [] := linesFrom_ne_nil h
  obtain ⟨init, last, hinit⟩ := (List.eq_nil_or_concat _).resolve_left hlines
  rw [List.concat_eq_append] at hinit
  refine ⟨_, by rw [feofReads, hinit, List.getLast?_concat, Option.map_some], ?_⟩
  rw [hinit]
  split_ifs
  · cases hlast : p last with
    | true => exact Or.inr ⟨init.filter p, last, by simp [hlast], by simp [hlast]⟩
    | false => exact Or.inl (by simp [hlast])
  · exact Or.inl rfl

end Wap610n.Stdio
