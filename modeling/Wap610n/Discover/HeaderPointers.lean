import Wap610n.Discover.Header
import Wap610n.Lib.Pointer

/-!
`dd_extract_header_value` with its pointers into the line. The memory is the line with its NUL and nothing else, and
`malloc` succeeds.
-/

namespace Wap610n.Discover

open Bytes CString

structure Extracted where
  hvPair : List UInt8
  header : List UInt8
  value : List UInt8
deriving DecidableEq

namespace Line

open Pointer

def copyField (mem : List UInt8) (sPtr ePtr : ℕ) : Option (List UInt8) :=
  (copyOut mem sPtr ePtr).map fun bytes => writeAt (List.replicate (ePtr - sPtr + 1) 0) 0 bytes

/-- A null pointer from `strchr` is read at once, just before it or just behind it. -/
def extractHeader (hvPair : List UInt8) : Option (List UInt8) := do
  let colon ← (findFrom 0 58 hvPair 0).join
  let ePtr ← trimTo isBlank (some 0) hvPair colon
  if ePtr = 0 then some [0] else copyField hvPair 0 ePtr

/-- The line after it, which loses its trailing blanks, and the value. -/
def extractValue (hvPair : List UInt8) (delimiter : UInt8) : Option (List UInt8 × List UInt8) := do
  let delim ← (findFrom 0 delimiter hvPair 0).join
  let sPtr ← skipFrom isBlank (hvPair.drop (delim + 1)) (delim + 1)
  let c ← hvPair[sPtr]?
  if c ≠ 0 then
    let terminator ← (findLastFrom 0 0 none hvPair 0).join
    let ePtr ← trimTo isBlank none hvPair terminator
    let value ← copyField (hvPair.set ePtr 0) sPtr ePtr
    some (hvPair.set ePtr 0, value)
  else some (hvPair, [0])

def ddExtractHeaderValue (hvPair : List UInt8) (delimiter : UInt8) : Option Extracted := do
  let header ← extractHeader hvPair
  let (hvPair, value) ← extractValue hvPair delimiter
  some ⟨hvPair, header, value⟩

theorem copyField_append (x v r : List UInt8) :
    copyField (x ++ v ++ r) x.length (x.length + v.length) = some (v ++ [0]) := by
  rw [copyField, copyOut_append, Option.map_some, Nat.add_sub_cancel_left]
  simp [writeAt, List.replicate_add]

theorem extractHeader_eq {name : List UInt8} (hname : 58 ∉ name) (h0 : 0 ∉ name) (r : List UInt8) :
    extractHeader (name ++ 58 :: r) = some (name.rdropWhile isBlank ++ [0]) := by
  have hcolon : findFrom 0 58 (name ++ 58 :: r) 0 = some (some name.length) := by
    rw [findFrom_append h0 hname, Nat.zero_add]
  have htrim : trimTo isBlank (some 0) (name ++ 58 :: r) name.length = some (name.rdropWhile isBlank).length := by
    have h := trimTo_append (b := isBlank) (x := []) (v := name) (Or.inl rfl) (58 :: r)
    rwa [List.nil_append, List.length_nil, Nat.zero_add, Nat.zero_add] at h
  rw [extractHeader, hcolon]
  dsimp only [Option.join_some, Option.bind_eq_bind, Option.bind_some]
  rw [htrim, Option.bind_some]
  split_ifs with hempty
  · rw [List.length_eq_zero_iff.mp hempty]
    rfl
  · have h := copyField_append [] (name.rdropWhile isBlank) (name.rtakeWhile isBlank ++ 58 :: r)
    rwa [List.nil_append, List.length_nil, Nat.zero_add, ← List.append_assoc, List.rdropWhile_append_rtakeWhile] at h

theorem copyField_set {x v : List UInt8} (h0 : 0 ∉ x ++ v) (hv : v.rdropWhile isBlank ≠ []) :
    ∃ ePtr, findLastFrom 0 0 none (x ++ v ++ [0]) 0 = some (some (x.length + v.length)) ∧
      trimTo isBlank none (x ++ v ++ [0]) (x.length + v.length) = some ePtr ∧
      copyField ((x ++ v ++ [0]).set ePtr 0) x.length ePtr = some (v.rdropWhile isBlank ++ [0]) := by
  refine ⟨_, ?_, trimTo_append (Or.inr ⟨rfl, hv⟩) _, ?_⟩
  · rw [findLastFrom_end h0, Nat.zero_add, List.length_append]
  · have hmem : x ++ v ++ [0] = x ++ v.rdropWhile isBlank ++ (v.rtakeWhile isBlank ++ [0]) := by
      rw [List.append_assoc x (v.rdropWhile isBlank), ← List.append_assoc (v.rdropWhile isBlank),
        List.rdropWhile_append_rtakeWhile, List.append_assoc]
    rw [hmem, ← List.length_append, List.set_append_right _ _ (Nat.le_refl _), Nat.sub_self, List.length_append]
    exact copyField_append _ _ _

theorem extractValue_eq {name rest : List UInt8} (hname : 58 ∉ name) (h0 : 0 ∉ name ++ 58 :: rest) :
    ∃ after, extractValue (name ++ 58 :: rest ++ [0]) 58 =
      some (after, (rest.dropWhile isBlank).rdropWhile isBlank ++ [0]) := by
  have hz : 0 ∉ name ∧ 0 ∉ rest := by
    rw [List.mem_append, not_or, List.mem_cons, not_or] at h0
    exact ⟨h0.1, h0.2.2⟩
  have hdelim : findFrom 0 58 (name ++ 58 :: rest ++ [0]) 0 = some (some name.length) := by
    rw [List.append_assoc, List.cons_append, findFrom_append hz.1 hname, Nat.zero_add]
  have hdrop : (name ++ 58 :: rest ++ [0]).drop (name.length + 1) = rest ++ [0] := by
    rw [List.append_assoc]
    exact List.drop_length_add_append 1
  have hparts : name ++ 58 :: rest = name ++ 58 :: rest.takeWhile isBlank ++ rest.dropWhile isBlank := by
    rw [List.append_assoc, List.cons_append, List.takeWhile_append_dropWhile]
  have hlead : name.length + 1 + (rest.takeWhile isBlank).length = (name ++ 58 :: rest.takeWhile isBlank).length := by
    rw [List.length_append, List.length_cons]
    omega
  have hsPtr : (name ++ 58 :: rest ++ [0])[(name ++ 58 :: rest.takeWhile isBlank).length]? =
      (rest.dropWhile isBlank ++ [0])[0]? := by
    rw [hparts, List.append_assoc, List.getElem?_append_right (Nat.le_refl _), Nat.sub_self]
  rw [extractValue, hdelim]
  dsimp only [Option.join_some, Option.bind_eq_bind, Option.bind_some]
  rw [hdrop, skipFrom_append (by decide), hlead]
  dsimp only [Option.bind_some]
  rw [hsPtr]
  cases hv : rest.dropWhile isBlank with
  | nil => exact ⟨_, rfl⟩
  | cons c v =>
    have hc : c ≠ 0 := fun h => hz.2 ((List.dropWhile_suffix _).subset (by rw [hv, h]; exact List.mem_cons_self))
    rw [hv] at hparts
    rw [hparts] at h0 ⊢
    obtain ⟨ePtr, hend, htrim, hcopy⟩ := copyField_set h0 (rdropWhile_ne_nil hv)
    rw [List.cons_append, List.getElem?_cons_zero, Option.bind_some, if_pos hc, hend]
    dsimp only [Option.join_some, Option.bind_some]
    rw [htrim]
    dsimp only [Option.bind_some]
    rw [hcopy]
    exact ⟨_, rfl⟩

theorem ddExtractHeaderValue_eq {name rest : List UInt8} (hname : 58 ∉ name) (h0 : 0 ∉ name ++ 58 :: rest) :
    ∃ after, ddExtractHeaderValue (name ++ 58 :: rest ++ [0]) 58 =
      some ⟨after, name.rdropWhile isBlank ++ [0], (rest.dropWhile isBlank).rdropWhile isBlank ++ [0]⟩ := by
  obtain ⟨after, hvalue⟩ := extractValue_eq hname h0
  have hheader := extractHeader_eq hname (fun h => h0 (List.mem_append_left _ h)) (rest ++ [0])
  rw [← List.cons_append, ← List.append_assoc] at hheader
  refine ⟨after, ?_⟩
  rw [ddExtractHeaderValue, hheader, hvalue]
  rfl

theorem ddExtractHeaderValue_text {line : List UInt8} (h0 : 0 ∉ line) (hcolon : 58 ∈ line) :
    ∃ after, ddExtractHeaderValue (line ++ [0]) 58 =
      some ⟨after, (Discover.ddExtractHeaderValue line).1 ++ [0], (Discover.ddExtractHeaderValue line).2 ++ [0]⟩ := by
  obtain ⟨rest, hname, hline⟩ := eq_upTo_append hcolon
  have hrest : line.drop ((upTo 58 line).length + 1) = rest := by
    conv_lhs => rw [hline, upTo_append_cons hname]
    exact List.drop_length_add_append 1
  have h := ddExtractHeaderValue_eq hname (hline ▸ h0)
  rwa [← hline, ← hrest] at h

end Line

theorem ddExtractHeaderValue_trimmed (line : List UInt8) (h0 : 0 ∉ line) (hcolon : 58 ∈ line) :
    ∃ name rest after, line = name ++ 58 :: rest ∧ 58 ∉ name ∧
      Line.ddExtractHeaderValue (line ++ [0]) 58 =
        some ⟨after, name.rdropWhile isBlank ++ [0], (rest.dropWhile isBlank).rdropWhile isBlank ++ [0]⟩ := by
  obtain ⟨rest, hname, hline⟩ := eq_upTo_append hcolon
  obtain ⟨after, heq⟩ := Line.ddExtractHeaderValue_eq hname (hline ▸ h0)
  rw [← hline] at heq
  exact ⟨_, rest, after, hline, hname, heq⟩

theorem ddExtractHeaderValue_blanks :
    Line.ddExtractHeaderValue ([65, 32, 58, 9, 66, 32] ++ [0]) 58 =
      some ⟨[65, 32, 58, 9, 66, 0, 0], [65, 0], [66, 0]⟩ ∧
    ∃ name rest after, [65, 32, 58, 9, 66, 32] = name ++ 58 :: rest ∧ 58 ∉ name ∧
      Line.ddExtractHeaderValue ([65, 32, 58, 9, 66, 32] ++ [0]) 58 =
        some ⟨after, name.rdropWhile isBlank ++ [0], (rest.dropWhile isBlank).rdropWhile isBlank ++ [0]⟩ :=
  ⟨by decide, ddExtractHeaderValue_trimmed [65, 32, 58, 9, 66, 32] (by decide) (by decide)⟩

example : Line.ddExtractHeaderValue [32, 58, 9, 0] 58 = some ⟨[32, 58, 9, 0], [0], [0]⟩ := by decide

end Wap610n.Discover
