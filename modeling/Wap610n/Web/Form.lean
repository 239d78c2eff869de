import Wap610n.Web.FieldVars
import Wap610n.Web.PartScan

namespace Wap610n.Web

open Bytes CString Search

def disposition : List UInt8 := text "Content-Disposition: form-data; name=\""

structure TextField (boundary : List UInt8) extends Field where
  name_ok : ∀ c ∈ name, c ≠ 0 ∧ c ≠ 34 ∧ c ≠ 61 ∧ c ≠ 10
  value_nul : 0 ∉ value
  value_boundary : ¬ delimiter boundary <:+: value
  short : name.length + value.length < 1000

structure FilePart (boundary : List UInt8) where
  name : List UInt8
  fileName : List UInt8
  contentType : List UInt8
  content : List UInt8
  name_ok : ∀ c ∈ name, c ≠ 0 ∧ c ≠ 34 ∧ c ≠ 61 ∧ c ≠ 10
  fileName_ok : ∀ c ∈ fileName, c ≠ 0 ∧ c ≠ 34 ∧ c ≠ 10
  contentType_ok : ∀ c ∈ contentType, c ≠ 0 ∧ c ≠ 10
  content_boundary : ¬ delimiter boundary <:+: content

variable {boundary : List UInt8}

def Field.line (f : Field) : List UInt8 := disposition ++ (f.name ++ [34, 13])

def FilePart.line (f : FilePart boundary) : List UInt8 :=
  disposition ++ (f.name ++ (text "\"; filename=\"" ++ (f.fileName ++ [34, 13])))

def partWith (boundary line header content : List UInt8) : List UInt8 :=
  delimiter boundary ++ 13 :: 10 :: (line ++ 10 :: (header ++ (content ++ [13, 10])))

def TextField.part (f : TextField boundary) : List UInt8 := partWith boundary f.line [13, 10] f.value

def FilePart.part (f : FilePart boundary) : List UInt8 :=
  partWith boundary f.line (text "Content-Type: " ++ (f.contentType ++ text "\r\n\r\n")) f.content

def closing (boundary : List UInt8) : List UInt8 := delimiter boundary ++ text "--\r\n"

theorem partWith_append (line header content rest : List UInt8) :
    partWith boundary line header content ++ rest =
      delimiter boundary ++ 13 :: 10 :: (line ++ 10 :: (header ++ (content ++ 13 :: 10 :: rest))) := by
  simp only [partWith, List.append_assoc, List.cons_append, List.nil_append]

section Quoted

variable {name r : List UInt8} {n : ℕ}

theorem take_quoted (h : name.length < n) : (name ++ 34 :: r).take n = name ++ 34 :: r.take (n - name.length - 1) := by
  rw [List.take_append, List.take_of_length_le h.le]
  obtain ⟨k, hk⟩ := Nat.exists_eq_add_of_lt h
  rw [hk, show name.length + k + 1 - name.length = k + 1 by omega, List.take_succ_cons, Nat.add_sub_cancel]

theorem gstrchr_quoted (hname : ∀ c ∈ name, c ≠ 0 ∧ c ≠ 34) (h : name.length < n) :
    gstrchr 34 ((name ++ 34 :: r).take n) = some (34 :: r.take (n - name.length - 1)) := by
  rw [take_quoted h]
  apply findChar_append
  · exact fun hc => (hname 34 hc).2 rfl
  · exact fun hc => (hname 0 hc).1 rfl

theorem gstrchr_cut (hname : ∀ c ∈ name, c ≠ 0 ∧ c ≠ 34) (h : n ≤ name.length) :
    gstrchr 34 ((name ++ 34 :: r).take n) = none := by
  rw [List.take_append_of_le_length h]
  apply findChar_eq_none
  exact fun hc => (hname 34 (List.mem_of_mem_take hc)).2 rfl

theorem quoted_length (h : name.length < n) :
    (((name ++ 34 :: r).take n).length : ℤ) - (34 :: r.take (n - name.length - 1)).length = name.length := by
  rw [take_quoted h, List.length_append]
  omega

theorem take_clip_quoted (h : name.length < n) (hn : n ≤ 1023) :
    ((name ++ 34 :: r).take n).take (clip maxLine name.length) = name := by
  rw [clip, maxLine, if_pos (by omega), Int.toNat_natCast, take_quoted h, List.take_left]

end Quoted

theorem clip_of_lt {size : ℤ} {n : ℕ} (h : n < size) : clip size n = n := by
  rw [clip, if_pos h, Int.toNat_natCast]

def Field.shown (f : Field) : List UInt8 := (f.name ++ [34, 13]).take 985

theorem parameterText_field {f : Field} (hname : ∀ c ∈ f.name, c ≠ 0 ∧ c ≠ 34) (hvalue : 0 ∉ f.value)
    (hshort : f.name.length + f.value.length < 1000) (s : List UInt8) :
    parameterText (text "form-data; name=" ++ 34 :: f.shown) (f.value ++ s) f.value.length = f.nameStr := by
  have hdrop : (text "form-data; name=" ++ 34 :: f.shown).drop 17 = f.shown := rfl
  rw [parameterText, hdrop, Field.nameStr, Field.shown]
  by_cases hle : f.name.length ≤ longestName
  · have hlt : f.name.length < 985 := Nat.lt_succ_of_le hle
    rw [gstrchr_quoted hname hlt]
    dsimp only
    rw [quoted_length hlt, take_clip_quoted hlt (by decide)]
    by_cases hne : f.name = []
    · rw [if_neg (by simp [hne]), if_neg (by simp [hne])]
    · have hpos := List.length_pos_iff.mpr hne
      have hval : (upTo 0 (f.value ++ s)).take (clip (maxLine - (f.name ++ text "=").length) f.value.length) =
          f.value := by
        rw [clip_of_lt, upTo_append hvalue, List.take_left]
        rw [List.length_append, show (text "=").length = 1 from rfl, maxLine]
        omega
      have hkept : f.name ≠ [] ∧ f.name.length ≤ longestName := ⟨hne, hle⟩
      rw [if_pos (Int.natCast_pos.mpr hpos), if_pos hkept, hval]
      split_ifs with hv
      · rw [List.append_assoc]
        rfl
      · rw [List.eq_nil_of_length_eq_zero (by omega : f.value.length = 0)]
        rfl
  · have hcut : 985 ≤ f.name.length := Nat.lt_of_not_le hle
    rw [gstrchr_cut hname hcut, if_neg fun h => hle h.2]

theorem disposition_append (s : List UInt8) :
    disposition ++ s = text "Content-Disposition: form-data; name" ++ 61 :: 34 :: s := by
  have hsplit : disposition = text "Content-Disposition: form-data; name" ++ [61, 34] := by decide
  rw [hsplit, List.append_assoc, List.cons_append, List.singleton_append]

theorem filename_not_in {s : List UInt8} (h : 61 ∉ s) : ¬ text "filename=" <:+: disposition ++ s := by
  have hneedle : text "filename=" = text "filename" ++ [61] := by decide
  have hs : 61 ∉ 34 :: s := by
    rw [List.mem_cons, not_or]
    exact ⟨by decide, h⟩
  rw [disposition_append, hneedle]
  intro hi
  exact absurd (suffix_of_infix_concat (by decide) hs hi) (by decide)

theorem storePart_field {f : Field} (hname : ∀ c ∈ f.name, c ≠ 0 ∧ c ≠ 34 ∧ c ≠ 61 ∧ c ≠ 10) (hvalue : 0 ∉ f.value)
    (hshort : f.name.length + f.value.length < 1000) (s : Scan) (rest : List UInt8) :
    storePart s (f.line.take 1023) (f.value ++ 13 :: 10 :: rest) rest =
      { s with endPart := some rest, query := appendName s.query f.nameStr } := by
  have hbuf : f.line.take 1023 = disposition ++ f.shown := by
    rw [Field.line, List.take_append]
    rfl
  have hno : gstrstr (text "filename=") (f.line.take 1023) = none := by
    rw [hbuf]
    apply find_eq_none
    apply filename_not_in
    intro hmem
    rcases List.mem_append.mp (List.mem_of_mem_take hmem) with h | h
    · exact (hname 61 h).2.2.1 rfl
    · exact absurd h (by decide)
  have hyes : gstrstr (text "form-data; name=") (f.line.take 1023) =
      some (text "form-data; name=" ++ 34 :: f.shown) := by
    have hsplit : disposition ++ f.shown =
        text "Content-Disposition: " ++ (text "form-data; name=" ++ 34 :: f.shown) := by
      have hclosed : disposition = text "Content-Disposition: " ++ (text "form-data; name=" ++ [34]) := by decide
      rw [hclosed, List.append_assoc, List.append_assoc, List.singleton_append]
    rw [hbuf, hsplit]
    exact find_first (by decide) (by decide) (by decide) (by decide)
  have hlen : (((f.value ++ 13 :: 10 :: rest).length : ℤ) - rest.length - 2) = f.value.length := by
    rw [List.length_append, List.length_cons, List.length_cons]
    omega
  rw [storePart, hno, hyes]
  dsimp only
  rw [hlen, parameterText_field (fun c hc => ⟨(hname c hc).1, (hname c hc).2.1⟩) hvalue hshort]

def FilePart.shown (f : FilePart boundary) : List UInt8 := (f.fileName ++ [34, 13]).take (972 - f.name.length)

def FilePart.nameStr (f : FilePart boundary) : List UInt8 :=
  if f.fileName ≠ [] ∧ f.name.length + f.fileName.length ≤ 971 then text "filename=" ++ f.fileName else []

theorem uploadedName_file (f : FilePart boundary) : uploadedName (text "filename=" ++ 34 :: f.shown) = f.nameStr := by
  have hdrop : (text "filename=" ++ 34 :: f.shown).drop 10 = f.shown := rfl
  have hname : ∀ c ∈ f.fileName, c ≠ 0 ∧ c ≠ 34 := fun c hc => ⟨(f.fileName_ok c hc).1, (f.fileName_ok c hc).2.1⟩
  rw [uploadedName, hdrop, FilePart.nameStr, FilePart.shown]
  by_cases hle : f.name.length + f.fileName.length ≤ 971
  · have hlt : f.fileName.length < 972 - f.name.length := by omega
    rw [gstrchr_quoted hname hlt]
    dsimp only
    rw [quoted_length hlt, take_clip_quoted hlt (by omega)]
    by_cases hne : f.fileName = []
    · rw [if_neg (by simp [hne]), if_neg (by simp [hne])]
    · rw [if_pos (Int.natCast_pos.mpr (List.length_pos_iff.mpr hne)), if_pos ⟨hne, hle⟩]
  · rw [gstrchr_cut hname (by omega), if_neg fun h => hle h.2]

theorem FilePart.line_take {f : FilePart boundary} (h : f.name.length ≤ 972) :
    f.line.take 1023 = (disposition ++ (f.name ++ text "\"; ")) ++ (text "filename=" ++ 34 :: f.shown) := by
  have hquote : text "\"; filename=\"" = text "\"; " ++ (text "filename=" ++ [34]) := by decide
  have hlen : (text "\"; filename=\"").length = 13 := by decide
  have hdisp : disposition.length = 38 := by decide
  rw [FilePart.line, List.take_append, List.take_append, List.take_append, hdisp, hlen, FilePart.shown,
    List.take_of_length_le (by rw [hdisp]; decide), List.take_of_length_le (by omega),
    List.take_of_length_le (by rw [hlen]; omega), hquote,
    show 1023 - 38 - f.name.length - 13 = 972 - f.name.length by omega]
  simp only [List.append_assoc, List.singleton_append]

theorem storePart_file {f : FilePart boundary} (h : f.name.length ≤ 972) {s : Scan} (hs : s.firstUploadFile = false)
    (rest : List UInt8) :
    storePart s (f.line.take 1023) (f.content ++ 13 :: 10 :: rest) rest =
      ⟨⟨appendName s.query f.nameStr, f.content ++ 13 :: 10 :: rest, f.content.length⟩, some rest, true⟩ := by
  have hdash : (text "filename=").dropLast = text "filename" := by decide
  have hnul : 0 ∉ disposition ++ (f.name ++ text "\"; ") := by
    rw [List.mem_append, List.mem_append, not_or, not_or]
    exact ⟨by decide, fun hmem => (f.name_ok 0 hmem).1 rfl, by decide⟩
  have heq : 61 ∉ f.name ++ text "\"; " ++ text "filename" := by
    rw [List.mem_append, List.mem_append, not_or, not_or]
    exact ⟨⟨fun hmem => (f.name_ok 61 hmem).2.2.1 rfl, by decide⟩, by decide⟩
  have hyes : gstrstr (text "filename=") (f.line.take 1023) = some (text "filename=" ++ 34 :: f.shown) := by
    rw [FilePart.line_take h]
    apply find_first (by decide) hnul (by decide)
    rw [hdash, List.append_assoc]
    exact filename_not_in heq
  have hlen : (((f.content ++ 13 :: 10 :: rest).length : ℤ) - rest.length - 2) = f.content.length := by
    rw [List.length_append, List.length_cons, List.length_cons]
    omega
  rw [storePart, hyes]
  dsimp only
  rw [hs, if_neg Bool.false_ne_true, hlen, uploadedName_file]

end Wap610n.Web
