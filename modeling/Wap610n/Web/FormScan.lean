import Wap610n.Web.Form

namespace Wap610n.Web

open Bytes CString Search

structure Form where
  boundary : List UInt8
  boundary_ok : BoundaryOk boundary
  before : List (TextField boundary)
  file : Option (FilePart boundary)
  after : List (TextField boundary)
  distinct : ((before ++ after).map fun f => f.name).Nodup

def fieldParts {boundary : List UInt8} (fs : List (TextField boundary)) : List UInt8 := fs.flatMap TextField.part

def fileParts {boundary : List UInt8} (file : Option (FilePart boundary)) : List UInt8 := file.elim [] FilePart.part

def Form.body (form : Form) : List UInt8 :=
  fieldParts form.before ++ (fileParts form.file ++ (fieldParts form.after ++ closing form.boundary))

def addFields {boundary : List UInt8} (query : List UInt8) (fs : List (TextField boundary)) : List UInt8 :=
  fs.foldl (fun query f => appendName query f.nameStr) query

variable {boundary : List UInt8}

theorem TextField.scanPart (hb : BoundaryOk boundary) (f : TextField boundary) (s : Scan) {rest : List UInt8}
    {lenHeap : ℕ} (hheap : lenHeap ≤ rest.length) :
    Web.scanPart (delimiter boundary) lenHeap s (f.part ++ (delimiter boundary ++ rest)) =
      { s with endPart := some (delimiter boundary ++ rest), query := appendName s.query f.nameStr } := by
  have hnul : 0 ∉ f.line := by
    rw [Field.line, List.mem_append, List.mem_append, not_or, not_or]
    exact ⟨by decide, fun h => (f.name_ok 0 h).1 rfl, by decide⟩
  have hlf : 10 ∉ f.line := by
    rw [Field.line, List.mem_append, List.mem_append, not_or, not_or]
    exact ⟨by decide, fun h => (f.name_ok 10 h).2.2.2 rfl, by decide⟩
  have hdisp : text "Content-Disposition" <+: f.line :=
    (by decide : text "Content-Disposition" <+: disposition).trans (List.prefix_append _ _)
  rw [TextField.part, partWith_append, scanPart_part hb s hnul hlf hdisp ?_ f.value_boundary hheap,
    storePart_field f.name_ok f.value_nul f.short]
  rw [endOfHeader_append hnul hlf]
  exact endOfHeader_blank _

theorem FilePart.endOfHeader_contentType (f : FilePart boundary) (body : List UInt8) :
    endOfHeader (10 :: (text "Content-Type: " ++ (f.contentType ++ text "\r\n\r\n") ++ body)) = some body := by
  have hfirst : text "Content-Type: " = 67 :: text "ontent-Type: " := by decide
  have hend : text "\r\n\r\n" = [13, 10, 13, 10] := by decide
  have hsplit : 10 :: (text "Content-Type: " ++ (f.contentType ++ text "\r\n\r\n") ++ body) =
      10 :: 67 :: ((text "ontent-Type: " ++ (f.contentType ++ [13])) ++ 10 :: 13 :: 10 :: body) := by
    rw [hfirst, hend]
    simp only [List.cons_append, List.append_assoc, List.nil_append]
  rw [hsplit, endOfHeader_line (by decide) (by decide), ← List.cons_append, endOfHeader_append, endOfHeader_blank]
  · simp only [List.mem_cons, List.mem_append, not_or]
    exact ⟨by decide, by decide, fun h => (f.contentType_ok 0 h).1 rfl, by decide, List.not_mem_nil⟩
  · simp only [List.mem_cons, List.mem_append, not_or]
    exact ⟨by decide, by decide, fun h => (f.contentType_ok 10 h).2 rfl, by decide, List.not_mem_nil⟩

theorem FilePart.scanPart (hb : BoundaryOk boundary) (f : FilePart boundary) (hname : f.name.length ≤ 972) {s : Scan}
    (hs : s.firstUploadFile = false) {rest : List UInt8} {lenHeap : ℕ} (hheap : lenHeap ≤ rest.length) :
    Web.scanPart (delimiter boundary) lenHeap s (f.part ++ (delimiter boundary ++ rest)) =
      ⟨⟨appendName s.query f.nameStr, f.content ++ 13 :: 10 :: (delimiter boundary ++ rest), f.content.length⟩,
        some (delimiter boundary ++ rest), true⟩ := by
  have hnul : 0 ∉ f.line := by
    simp only [FilePart.line, List.mem_append, not_or]
    exact ⟨by decide, fun h => (f.name_ok 0 h).1 rfl, by decide, fun h => (f.fileName_ok 0 h).1 rfl, by decide⟩
  have hlf : 10 ∉ f.line := by
    simp only [FilePart.line, List.mem_append, not_or]
    exact ⟨by decide, fun h => (f.name_ok 10 h).2.2.2 rfl, by decide, fun h => (f.fileName_ok 10 h).2.2 rfl, by decide⟩
  have hdisp : text "Content-Disposition" <+: f.line :=
    (by decide : text "Content-Disposition" <+: disposition).trans (List.prefix_append _ _)
  rw [FilePart.part, partWith_append, scanPart_part hb s hnul hlf hdisp ?_ f.content_boundary hheap,
    storePart_file hname hs]
  rw [endOfHeader_append hnul hlf]
  exact f.endOfHeader_contentType _

theorem part_length_pos (line header content : List UInt8) : 0 < (partWith boundary line header content).length := by
  rw [partWith, List.length_append, List.length_cons]
  omega

theorem fieldParts_cons (f : TextField boundary) (fs : List (TextField boundary)) :
    fieldParts (f :: fs) = f.part ++ fieldParts fs := rfl

theorem length_le_fieldParts (fs : List (TextField boundary)) : fs.length ≤ (fieldParts fs).length := by
  induction fs with
  | nil => rfl
  | cons f fs ih =>
    have hpos : 0 < f.part.length := part_length_pos _ _ _
    rw [fieldParts_cons, List.length_append, List.length_cons]
    omega

theorem fieldParts_delimiter (fs : List (TextField boundary)) (rest : List UInt8) :
    ∃ r, fieldParts fs ++ (delimiter boundary ++ rest) = delimiter boundary ++ r ∧ rest.length ≤ r.length := by
  cases fs with
  | nil => exact ⟨rest, rfl, Nat.le_refl _⟩
  | cons f fs =>
    rw [fieldParts_cons, List.append_assoc, TextField.part, partWith_append]
    refine ⟨_, rfl, ?_⟩
    simp only [List.length_cons, List.length_append]
    omega

theorem fileParts_delimiter (file : Option (FilePart boundary)) (rest : List UInt8) :
    ∃ r, fileParts file ++ (delimiter boundary ++ rest) = delimiter boundary ++ r ∧ rest.length ≤ r.length := by
  cases file with
  | none => exact ⟨rest, rfl, Nat.le_refl _⟩
  | some f =>
    rw [fileParts, Option.elim_some, FilePart.part, partWith_append]
    refine ⟨_, rfl, ?_⟩
    simp only [List.length_cons, List.length_append]
    omega

theorem scanParts_succ (hb : BoundaryOk boundary) (lenHeap fuel : ℕ) {s : Scan} {r : List UInt8}
    (h : s.endPart = some (delimiter boundary ++ r)) :
    scanParts (delimiter boundary) lenHeap (fuel + 1) s =
      scanParts (delimiter boundary) lenHeap fuel
        (scanPart (delimiter boundary) lenHeap s (delimiter boundary ++ r)) := by
  have hfound : gstrstr (delimiter boundary) (delimiter boundary ++ r) = some (delimiter boundary ++ r) :=
    find_start delimiter_ne_nil (notMem_delimiter (by decide) hb.nul) (List.prefix_append _ _)
  rw [scanParts, h, Option.bind_some, hfound]

theorem scanParts_fields (hb : BoundaryOk boundary) (fs : List (TextField boundary)) {rest : List UInt8} {lenHeap : ℕ}
    (hheap : lenHeap ≤ rest.length) (fuel : ℕ) (u : Extracted) (first : Bool) :
    scanParts (delimiter boundary) lenHeap (fuel + fs.length)
        ⟨u, some (fieldParts fs ++ (delimiter boundary ++ rest)), first⟩ =
      scanParts (delimiter boundary) lenHeap fuel
        ⟨{ u with query := addFields u.query fs }, some (delimiter boundary ++ rest), first⟩ := by
  induction fs generalizing u with
  | nil => rfl
  | cons f fs ih =>
    obtain ⟨r, hr, hlen⟩ := fieldParts_delimiter fs rest
    obtain ⟨r', hr', -⟩ := fieldParts_delimiter (f :: fs) rest
    rw [List.length_cons, ← Nat.add_assoc, scanParts_succ hb lenHeap _ (congrArg some hr'), ← hr', fieldParts_cons,
      List.append_assoc, hr, f.scanPart hb _ (hheap.trans hlen), ← hr]
    exact ih _

def Extracted.withFile (u : Extracted) (file : Option (FilePart boundary)) (rest : List UInt8) : Extracted :=
  match file with
  | none => u
  | some f => ⟨appendName u.query f.nameStr, f.content ++ 13 :: 10 :: rest, f.content.length⟩

theorem scanParts_file (hb : BoundaryOk boundary) {file : Option (FilePart boundary)}
    (hname : ∀ f ∈ file, f.name.length ≤ 972) {rest : List UInt8} {lenHeap : ℕ} (hheap : lenHeap ≤ rest.length)
    (fuel : ℕ) (u : Extracted) :
    scanParts (delimiter boundary) lenHeap (fuel + file.toList.length)
        ⟨u, some (fileParts file ++ (delimiter boundary ++ rest)), false⟩ =
      scanParts (delimiter boundary) lenHeap fuel
        ⟨u.withFile file (delimiter boundary ++ rest), some (delimiter boundary ++ rest), file.isSome⟩ := by
  cases file with
  | none => rfl
  | some f =>
    obtain ⟨r', hr', -⟩ := fileParts_delimiter (some f) rest
    rw [Option.toList_some, List.length_singleton, scanParts_succ hb lenHeap _ (congrArg some hr'), ← hr', fileParts,
      Option.elim_some, f.scanPart hb (hname f rfl) rfl hheap]
    rfl

end Wap610n.Web
