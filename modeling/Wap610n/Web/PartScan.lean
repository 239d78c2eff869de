import Wap610n.Web.Multipart

namespace Wap610n.Web

open Bytes CString Search

theorem xmemCompare_eq {n mem : List UInt8} {size : ℕ} (hsize : n.length ≤ size) (hmem : n.length ≤ mem.length) :
    xmemCompare n mem size = some (decide (n <+: mem)) := by
  induction n generalizing mem size with
  | nil => simp [xmemCompare]
  | cons c n ih =>
    obtain ⟨d, mem, rfl⟩ := List.exists_cons_of_length_pos (Nat.lt_of_lt_of_le (Nat.succ_pos _) hmem)
    obtain ⟨size, rfl⟩ := Nat.exists_eq_add_of_lt (Nat.lt_of_lt_of_le (Nat.succ_pos n.length) hsize)
    rw [Nat.zero_add, xmemCompare]
    rw [List.length_cons] at hsize hmem
    rw [List.length_cons] at hmem
    split_ifs with h
    · simp [List.cons_prefix_cons, Ne.symm h]
    · rw [not_not] at h
      rw [ih (by omega) (by omega)]
      simp [List.cons_prefix_cons, h]

theorem xmemstrFrom_first {c : UInt8} {n x y : List UInt8} {size : ℕ} (hsize : x.length + (n.length + 1) ≤ size)
    (hno : ¬ c :: n <:+: x ++ (c :: n).dropLast) : xmemstrFrom c n (x ++ (c :: n ++ y)) size = some (c :: n ++ y) := by
  induction x generalizing size with
  | nil =>
    obtain ⟨size, rfl⟩ := Nat.exists_eq_add_of_lt (Nat.lt_of_lt_of_le (Nat.succ_pos _) hsize)
    rw [List.length_nil] at hsize
    rw [List.nil_append, List.cons_append, Nat.zero_add, xmemstrFrom, if_pos rfl,
      xmemCompare_eq (by omega) (by simp), decide_eq_true (List.prefix_append n y)]
  | cons d x ih =>
    rw [List.length_cons] at hsize
    obtain ⟨size, rfl⟩ := Nat.exists_eq_add_of_lt (Nat.lt_of_lt_of_le (Nat.succ_pos _) hsize)
    have hnot := @not_prefix_of_first _ (c :: n) y x d hno
    have hrest : xmemstrFrom c n (x ++ (c :: n ++ y)) size = some (c :: n ++ y) :=
      ih (by omega) fun h => hno (List.infix_cons h)
    rw [List.cons_append, Nat.zero_add, xmemstrFrom]
    split_ifs with hd
    · obtain rfl := hd
      have hfalse : ¬ n <+: x ++ (d :: n ++ y) := fun h => hnot (List.cons_prefix_cons.mpr ⟨rfl, h⟩)
      rw [xmemCompare_eq (by omega) (by simp; omega), decide_eq_false hfalse]
      exact hrest
    · exact hrest

theorem xmemstr_first {n x y : List UInt8} {size : ℕ} (hn : n ≠ []) (hsize : x.length + n.length ≤ size)
    (hno : ¬ n <:+: x ++ n.dropLast) : xmemstr (x ++ (n ++ y)) n size = some (n ++ y) := by
  obtain ⟨c, n, rfl⟩ := List.exists_cons_of_ne_nil hn
  exact xmemstrFrom_first hsize hno

theorem endOfHeader_append {a s : List UInt8} (hnul : 0 ∉ a) (hline : 10 ∉ a) :
    endOfHeader (a ++ s) = endOfHeader s := by
  induction a with
  | nil => rfl
  | cons c a ih =>
    rw [List.mem_cons, not_or] at hnul hline
    rw [List.cons_append, endOfHeader, if_neg (Ne.symm hnul.1), if_neg (Ne.symm hline.1), ih hnul.2 hline.2]

theorem endOfHeader_blank (body : List UInt8) : endOfHeader (10 :: 13 :: 10 :: body) = some body := rfl

theorem endOfHeader_line {c : UInt8} {s : List UInt8} (hlf : c ≠ 10) (hcr : c ≠ 13) :
    endOfHeader (10 :: c :: s) = endOfHeader (c :: s) := by
  have hnone : afterBlankLine (c :: s) = none := by
    unfold afterBlankLine
    split
    · rename_i heq
      exact absurd (List.cons.inj heq).1 hlf
    · rename_i heq
      exact absurd (List.cons.inj heq).1 hcr
    · rfl
  rw [endOfHeader.eq_2 10, if_neg (by decide), if_pos rfl, hnone]

theorem clip_take {l : List UInt8} : l.take (clip maxLine l.length) = l.take 1023 := by
  rw [clip, maxLine]
  split_ifs with h
  · rw [Int.toNat_natCast, List.take_length, List.take_of_length_le (by omega)]
  · rfl

theorem take_line (line tail : List UInt8) : (line ++ 10 :: tail).take
    (clip maxLine ((line ++ 10 :: tail).length - (10 :: tail).length)) = line.take 1023 := by
  have hlen : (((line ++ 10 :: tail).length : ℤ) - (10 :: tail).length) = line.length := by
    rw [List.length_append]
    omega
  rw [hlen, List.take_append_of_le_length, clip_take]
  rw [clip]
  split_ifs with h
  · exact Nat.le_refl _
  · omega

/-- The two dashes stand in front of the boundary in the body, and `websParseRequest` stores them with it. -/
def delimiter (boundary : List UInt8) : List UInt8 := text "--" ++ boundary

structure BoundaryOk (boundary : List UInt8) : Prop where
  nul : 0 ∉ boundary
  lf : 10 ∉ boundary
  cr : 13 ∉ boundary

variable {boundary : List UInt8}

theorem delimiter_ne_nil : delimiter boundary ≠ [] := List.cons_ne_nil _ _

theorem notMem_delimiter {c : UInt8} (hc : c ≠ 45) (h : c ∉ boundary) : c ∉ delimiter boundary := by
  rintro (_ | ⟨_, _ | ⟨_, hmem⟩⟩)
  · exact hc rfl
  · exact hc rfl
  · exact h hmem

theorem delimiter_not_in (hb : BoundaryOk boundary) {content : List UInt8}
    (h : ¬ delimiter boundary <:+: content) :
    ¬ delimiter boundary <:+: content ++ [13, 10] ++ (delimiter boundary).dropLast := by
  intro hi
  rw [List.append_assoc, List.cons_append] at hi
  rcases infix_of_append_cons (notMem_delimiter (by decide) hb.cr) hi with hi | hi
  · exact h hi
  · rcases @infix_of_append_cons _ _ [] _ _ (notMem_delimiter (by decide) hb.lf) hi with hi | hi
    · exact delimiter_ne_nil (List.infix_nil.mp hi)
    · have hlen := hi.length_le
      rw [List.append_eq, List.nil_append, List.length_dropLast] at hlen
      have hpos := List.length_pos_iff.mpr (@delimiter_ne_nil boundary)
      omega

theorem gstrchr_line {a s : List UInt8} (hnul : 0 ∉ a) (hlf : 10 ∉ a) : gstrchr 10 (a ++ 10 :: s) = some (10 :: s) :=
  findChar_append hlf hnul

theorem gstrchr_boundary (hb : BoundaryOk boundary) {tail : List UInt8} (hnul : 0 ∉ tail) (hlf : 10 ∉ tail)
    (s : List UInt8) : gstrchr 10 (delimiter boundary ++ (tail ++ 10 :: s)) = some (10 :: s) := by
  rw [← List.append_assoc]
  apply gstrchr_line
  · rw [List.mem_append, not_or]
    exact ⟨notMem_delimiter (by decide) hb.nul, hnul⟩
  · rw [List.mem_append, not_or]
    exact ⟨notMem_delimiter (by decide) hb.lf, hlf⟩

theorem gstrchr_delimiter (hb : BoundaryOk boundary) (s : List UInt8) :
    gstrchr 10 (delimiter boundary ++ 13 :: 10 :: s) = some (10 :: s) :=
  gstrchr_boundary hb (show 0 ∉ [13] by decide) (by decide) s

theorem xmemstr_content (hb : BoundaryOk boundary) {content rest : List UInt8} {size : ℕ}
    (h : ¬ delimiter boundary <:+: content) (hsize : content.length + 2 + (delimiter boundary).length ≤ size) :
    xmemstr (content ++ 13 :: 10 :: (delimiter boundary ++ rest)) (delimiter boundary) size =
      some (delimiter boundary ++ rest) := by
  have hsplit : content ++ 13 :: 10 :: (delimiter boundary ++ rest) =
      (content ++ [13, 10]) ++ (delimiter boundary ++ rest) := by
    rw [List.append_assoc, List.cons_append, List.singleton_append]
  rw [hsplit]
  apply xmemstr_first delimiter_ne_nil ?_ (delimiter_not_in hb h)
  rwa [List.length_append]

theorem scanPart_part (hb : BoundaryOk boundary) {line header content rest : List UInt8} {lenHeap : ℕ} (s : Scan)
    (hnul : 0 ∉ line) (hlf : 10 ∉ line) (hdisp : text "Content-Disposition" <+: line)
    (hheader : endOfHeader (line ++ 10 :: (header ++ (content ++ 13 :: 10 :: (delimiter boundary ++ rest)))) =
      some (content ++ 13 :: 10 :: (delimiter boundary ++ rest)))
    (hcontent : ¬ delimiter boundary <:+: content) (hheap : lenHeap ≤ rest.length) :
    scanPart (delimiter boundary) lenHeap s (delimiter boundary ++ 13 :: 10 :: (line ++ 10 :: (header ++
        (content ++ 13 :: 10 :: (delimiter boundary ++ rest))))) =
      storePart s (line.take 1023) (content ++ 13 :: 10 :: (delimiter boundary ++ rest))
        (delimiter boundary ++ rest) := by
  have hfound : gstrstr (text "Content-Disposition")
      (line ++ 10 :: (header ++ (content ++ 13 :: 10 :: (delimiter boundary ++ rest)))) =
        some (line ++ 10 :: (header ++ (content ++ 13 :: 10 :: (delimiter boundary ++ rest)))) :=
    find_start (by decide) (by decide) (hdisp.trans (List.prefix_append _ _))
  rw [scanPart, gstrchr_delimiter hb]
  simp only [List.drop_one, List.tail_cons]
  rw [hfound]
  dsimp only
  rw [gstrchr_line hnul hlf]
  dsimp only
  rw [hheader, take_line]
  dsimp only
  rw [xmemstr_content hb hcontent]
  rw [List.length_append, List.length_cons, List.length_cons, List.length_append]
  omega

end Wap610n.Web
