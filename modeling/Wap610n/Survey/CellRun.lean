import Wap610n.Survey.LineStep

namespace Wap610n.Survey

open Bytes CString

theorem Cell.address_plain (c : Cell) : 0 ∉ c.address ∧ 32 ∉ c.address := by
  refine ⟨fun h => ?_, fun h => ?_⟩
  · exact absurd (c.address_ok 0 h) (by decide)
  · exact absurd (c.address_ok 32 h) (by decide)

theorem skipBlanks_of_notMem {s : List UInt8} (h : 32 ∉ s) : skipBlanks s = s := by
  cases s with
  | nil => rfl
  | cons c s => exact List.dropWhile_cons_of_neg fun hc => h (of_decide_eq_true hc ▸ List.mem_cons_self)

theorem cellAddress_head (c : Cell) : cellAddress (c.head ++ [10]) = some c.address := by
  have hplain := c.plain _ List.mem_cons_self
  obtain ⟨hnul, hblank⟩ := c.address_plain
  have hpre : 65 ∉ text "          Cell " ++ (c.label ++ text " - ") := by
    rw [List.mem_append, List.mem_append, not_or, not_or]
    exact ⟨by decide, fun h => absurd (c.label_ok 65 h) (by decide), by decide⟩
  have hsplit : c.head ++ [10] = text "          Cell " ++ (c.label ++ text " - ") ++
      (text "Address" ++ 58 :: 32 :: (c.address ++ [10])) := by
    simp only [CellText.head, List.append_assoc, List.cons_append]
    rfl
  have hvalue : skipBlanks (32 :: (c.address ++ [10])) = c.address ++ [10] := by
    change skipBlanks (c.address ++ [10]) = _
    rw [skipBlanks_line, skipBlanks_of_notMem hblank]
  have hroom : (c.head ++ [10]).length - (c.address ++ [10]).length + 17 ≤ 1024 := by
    have := hplain.short
    rw [List.length_append, List.length_append, c.address_length, List.length_singleton]
    omega
  have hcolon : (58 : UInt8) ∉ text "Address" := by decide
  rw [cellAddress, hsplit, show text "Address" = 65 :: text "ddress" from rfl, strstr_append_notMem hpre, strstr_start,
    ← show text "Address" = 65 :: text "ddress" from rfl, ← hsplit]
  dsimp only
  rw [strchr_append_cons hcolon, Option.bind_some, List.drop_one, List.tail_cons, hvalue, if_pos hroom,
    List.take_left' c.address_length, upTo_of_notMem hnul]

theorem CellText.head_infix (c : CellText) : text "Cell" <:+: c.head :=
  ⟨text "          ", 32 :: (c.label ++ (text " - Address" ++ 58 :: 32 :: c.address)), rfl⟩

section Run

variable {s : ApScan}

theorem lineStep_head (c : Cell) :
    lineStep s (c.head ++ [10]) =
      (if s.firstAP then some s else closeAp s).map fun s =>
        { s with ap := { Ap.cleared with address := c.address }, firstAP := false, i := s.i + 1 } := by
  have hcell : has "Cell" (c.head ++ [10]) = true := (has_line (by decide) _).mpr c.head_infix
  rw [lineStep, upTo_line (c.plain _ List.mem_cons_self), if_pos hcell, cellStep, cellAddress_head]
  cases (if s.firstAP then some s else closeAp s) <;> rfl

theorem lineStep_essid (c : Cell) (hlen : c.quotedEssid.length < 128) (hcell : ¬ text "Cell" <:+: c.essidLine) :
    lineStep s (c.essidLine ++ [10]) = some { s with ap := { s.ap with essid := c.quotedEssid } } := by
  have hplain : PlainLine c.essidLine :=
    c.plain _ (List.mem_cons_of_mem _ (List.mem_append_right _ List.mem_cons_self))
  have hname : 58 ∉ List.replicate c.indent 32 ++ text "ESSID" := by
    rw [List.mem_append, not_or]
    refine ⟨fun h => ?_, by decide⟩
    cases (List.mem_replicate.mp h).2
  have htag : skipBlanks (List.replicate c.indent 32 ++ text "ESSID") = text "ESSID" := by
    rw [skipBlanks, List.dropWhile_append_of_pos fun d hd => decide_eq_true (List.mem_replicate.mp hd).2]
    rfl
  rw [CellText.essidLine, lineStep_colon hplain hname hcell, if_pos htag]
  exact if_pos hlen

theorem attributes_run {as : List Attribute} (hplain : ∀ a ∈ as, PlainLine a.line) (hvalid : ∀ a ∈ as, a.Valid)
    (hcell : ∀ a ∈ as, ¬ text "Cell" <:+: a.line) :
    (as.map fun a => a.line ++ [10]).foldlM lineStep s =
      if as.all Attribute.narrow then
        some { s with ap := as.foldl Attribute.setAp s.ap, levels := as.foldl Attribute.setLevels s.levels }
      else none := by
  induction as generalizing s with
  | nil => rfl
  | cons a as ih =>
    rw [List.forall_mem_cons] at hplain hvalid hcell
    rw [List.map_cons, List.foldlM_cons, lineStep_attribute hplain.1 hvalid.1 hcell.1, List.all_cons]
    cases a.narrow with
    | true => exact ih hplain.2 hvalid.2 hcell.2
    | false => rfl

theorem foldl_setLevels (as : List Attribute) (old : Option Levels) :
    as.foldl Attribute.setLevels old = (as.foldl Attribute.setLevels none).or old := by
  induction as generalizing old with
  | nil => rfl
  | cons a as ih =>
    rw [List.foldl_cons, List.foldl_cons, ih, ih (a.setLevels none), Option.or_assoc]
    cases a <;> rfl

def CellText.narrow (c : CellText) : Bool := c.attributes.all Attribute.narrow

theorem attributeLines_run (c : Cell) (hlen : c.quotedEssid.length < 128)
    (hcell : ∀ line ∈ c.attributeLines, ¬ text "Cell" <:+: line) (h : s.ap = { Ap.cleared with address := c.address }) :
    (c.attributeLines.map (· ++ [10])).foldlM lineStep s =
      if c.narrow then some { s with ap := c.ap, levels := c.levels.or s.levels } else none := by
  have hplain : ∀ line ∈ c.attributeLines, PlainLine line := fun line hl => c.plain line (List.mem_cons_of_mem _ hl)
  have hvalid := c.attributes_ok
  rw [CellText.attributes, List.forall_mem_append] at hvalid
  rw [CellText.attributeLines, List.forall_mem_append, List.forall_mem_cons, List.forall_mem_map, List.forall_mem_map]
    at hcell hplain
  have hbefore : (c.before.map ((· ++ [10]) ∘ Attribute.line)).foldlM lineStep s = _ :=
    attributes_run hplain.1 hvalid.1 hcell.1
  have hafter : ∀ s, (c.after.map ((· ++ [10]) ∘ Attribute.line)).foldlM lineStep s = _ :=
    fun s => attributes_run hplain.2.2 hvalid.2 hcell.2.2
  rw [CellText.attributeLines, List.map_append, List.map_cons, List.map_map, List.map_map, List.foldlM_append,
    hbefore, CellText.narrow, CellText.attributes, List.all_append]
  cases c.before.all Attribute.narrow with
  | false => rfl
  | true =>
    change List.foldlM lineStep _ (_ :: _) = _
    rw [List.foldlM_cons, lineStep_essid c hlen hcell.2.1]
    change List.foldlM lineStep _ (c.after.map _) = _
    rw [hafter, Bool.true_and, CellText.ap, CellText.levels, ← foldl_setLevels, CellText.attributes, List.foldl_append,
      h]

theorem cell_run (c : Cell) (hlen : c.quotedEssid.length < 128)
    (hcell : ∀ line ∈ c.attributeLines, ¬ text "Cell" <:+: line) :
    ((c.head :: c.attributeLines).map (· ++ [10])).foldlM lineStep s =
      (if s.firstAP then some s else closeAp s).bind fun s =>
        if c.narrow then
          some { s with ap := c.ap, levels := c.levels.or s.levels, firstAP := false, i := s.i + 1 }
        else none := by
  rw [List.map_cons, List.foldlM_cons, lineStep_head]
  cases (if s.firstAP then some s else closeAp s) with
  | none => rfl
  | some s => exact attributeLines_run c hlen hcell rfl

end Run

end Wap610n.Survey
