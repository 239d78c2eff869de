import Wap610n.Web.FormScan
import Wap610n.Web.Turn

namespace Wap610n.Web

open Bytes CString Search

/-- The memory behind the data does not keep the loop of `extractUploadedFileContent` at the last delimiter. -/
def Quiet (heap : List UInt8) : Prop :=
  gstrstr (text "Content-Disposition") heap = none ∨ (gstrchr 10 heap).isSome

variable {boundary : List UInt8}

theorem gstrchr_closing (hb : BoundaryOk boundary) (heap : List UInt8) :
    gstrchr 10 (closing boundary ++ heap) = some (10 :: heap) := by
  have hend : text "--\r\n" = [45, 45, 13, 10] := by decide
  rw [closing, hend, List.append_assoc]
  exact gstrchr_boundary hb (show 0 ∉ [45, 45, 13] by decide) (by decide) heap

theorem xmemstr_zero {s : List UInt8} : xmemstr s (delimiter boundary) 0 = none := by
  cases s with
  | nil => rfl
  | cons c s => rfl

theorem scanPart_closing (hb : BoundaryOk boundary) (s : Scan) (heap : List UInt8) :
    scanPart (delimiter boundary) heap.length s (closing boundary ++ heap) =
      if gstrstr (text "Content-Disposition") heap = none then { s with endPart := some heap }
      else if (gstrchr 10 heap).isSome then { s with endPart := none } else s := by
  rw [scanPart, gstrchr_closing hb]
  simp only [List.drop_one, List.tail_cons]
  cases gstrstr (text "Content-Disposition") heap with
  | none => rfl
  | some _ =>
    dsimp only
    rw [if_neg (Option.some_ne_none _)]
    cases gstrchr 10 heap with
    | none => rfl
    | some endLine =>
      dsimp only
      rw [Option.isSome_some, if_pos rfl]
      cases hbody : endOfHeader heap with
      | none => rfl
      | some body =>
        dsimp only
        rw [Nat.sub_eq_zero_of_le ((endOfHeader_suffix hbody).length_le), xmemstr_zero]

theorem scanParts_closing (hb : BoundaryOk boundary) {heap : List UInt8} {fuel : ℕ} (hfuel : heap.length < fuel)
    (u : Extracted) (first : Bool) (h : Quiet heap) :
    scanParts (delimiter boundary) heap.length fuel ⟨u, some (closing boundary ++ heap), first⟩ = some u := by
  obtain ⟨fuel, rfl⟩ := Nat.exists_eq_add_of_lt hfuel
  have hsplit : closing boundary ++ heap = delimiter boundary ++ (text "--\r\n" ++ heap) := List.append_assoc _ _ _
  rw [scanParts_succ hb _ _ (congrArg some hsplit), ← hsplit, scanPart_closing hb]
  split_ifs with hnone hline
  · exact scanParts_quiet (Nat.le_add_right _ _) u first hnone
  · exact scanParts_none _ _ _ u first
  · exact absurd (h.resolve_left hnone) hline

theorem scanParts_stuck (hb : BoundaryOk boundary) {heap : List UInt8} (fuel : ℕ) (u : Extracted) (first : Bool)
    (h : ¬ Quiet heap) :
    scanParts (delimiter boundary) heap.length fuel ⟨u, some (closing boundary ++ heap), first⟩ = none := by
  obtain ⟨hsome, hline⟩ := not_or.mp h
  have hsplit : closing boundary ++ heap = delimiter boundary ++ (text "--\r\n" ++ heap) := List.append_assoc _ _ _
  induction fuel with
  | zero =>
    have hfound : gstrstr (delimiter boundary) (delimiter boundary ++ (text "--\r\n" ++ heap)) =
        some (delimiter boundary ++ (text "--\r\n" ++ heap)) :=
      find_start delimiter_ne_nil (notMem_delimiter (by decide) hb.nul) (List.prefix_append _ _)
    rw [scanParts, Option.bind_some, hsplit, hfound]
  | succ fuel ih =>
    rw [scanParts_succ hb _ _ (congrArg some hsplit), ← hsplit, scanPart_closing hb, if_neg hsome, if_neg hline]
    exact ih

end Wap610n.Web
