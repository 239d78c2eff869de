import Wap610n.Lib.CString
import Wap610n.Lib.Search

/-!
`hnap_getNthValueSafe`. A pointer into the value is the memory from there on, with the NUL that ends the string.
-/

namespace Wap610n.Lan

open CString Search

def fieldLoop (delimit : UInt8) : ℕ → ℤ → List UInt8 → Option (List UInt8) → ℤ × List UInt8 × Option (List UInt8)
  | 0, i, begin, stop => (i, begin, stop)
  | _ + 1, i, begin, none => (i, begin, none)
  | n + 1, i, _, some stop => fieldLoop delimit n (i + 1) (stop.drop 1) (findChar 0 delimit (stop.drop 1))

/-- `none` is a copy of negative length or one that leaves the buffer. -/
def storeField (begin : List UInt8) (length : ℕ) (result : List UInt8) (len : ℤ) :
    Option (ℤ × Option (List UInt8)) :=
  let resultLen : ℤ := if len - 1 < length then len - 1 else length
  if resultLen < 0 ∨ result.length ≤ resultLen then none
  else some (0, some (begin.take resultLen.toNat ++ 0 :: result.drop (resultLen.toNat + 1)))

def hnapGetNthValueSafe (index : ℤ) (value : Option (List UInt8)) (delimit : UInt8) (result : Option (List UInt8))
    (len : ℤ) : Option (ℤ × Option (List UInt8)) :=
  match value, result with
  | some value, some result =>
    if len = 0 then some (-1, some result)
    else
      match fieldLoop delimit index.toNat 0 value (findChar 0 delimit value) with
      | (i, begin, none) =>
        if i = index then storeField begin (upTo 0 begin).length result len else some (-1, some result)
      | (_, begin, some stop) => storeField begin (begin.length - stop.length) result len
  | _, _ => some (-1, result)

def nthValue (index : ℤ) (value : List UInt8) (delimit : UInt8) (result : List UInt8) (len : ℤ) :
    Option (List UInt8) :=
  match hnapGetNthValueSafe index (some value) delimit (some result) len with
  | some (0, some stored) => some (upTo 0 stored)
  | _ => none

variable {d : UInt8} {s : List UInt8}

theorem splitOn_upTo (h : d ∈ s) :
    ∃ r, d ∉ upTo d s ∧ s = upTo d s ++ d :: r ∧ s.splitOn d = upTo d s :: r.splitOn d := by
  obtain ⟨r, hnot, hr⟩ := eq_upTo_append h
  refine ⟨r, hnot, hr, ?_⟩
  conv_lhs => rw [hr]
  exact List.splitOn_append_cons_self_of_not_mem hnot r

theorem splitOn_zero (d : UInt8) (s : List UInt8) : (s.splitOn d)[0]? = some (upTo d s) := by
  by_cases hmem : d ∈ s
  · obtain ⟨r, -, -, hsplit⟩ := splitOn_upTo hmem
    rw [hsplit]
    rfl
  · rw [List.splitOn_eq_singleton hmem, upTo_of_notMem hmem]
    rfl

section Fields

variable (hd : d ≠ 0) (rest : List UInt8)

include hd

theorem fieldLoop_eq (h0 : 0 ∉ s) (n : ℕ) (i : ℤ) :
    (∃ t, t <:+ s ∧ (s.splitOn d)[n]? = some (upTo d t) ∧
      fieldLoop d n i (s ++ 0 :: rest) (findChar 0 d (s ++ 0 :: rest)) =
        (i + n, t ++ 0 :: rest, findChar 0 d (t ++ 0 :: rest))) ∨
    ((s.splitOn d)[n]? = none ∧ ∃ k < n, ∃ t,
      fieldLoop d n i (s ++ 0 :: rest) (findChar 0 d (s ++ 0 :: rest)) = (i + k, t, none)) := by
  induction n generalizing s i with
  | zero =>
    refine Or.inl ⟨s, List.suffix_refl s, splitOn_zero d s, ?_⟩
    rw [fieldLoop, Int.ofNat_zero, Int.add_zero]
  | succ n ih =>
    by_cases hmem : d ∈ s
    · obtain ⟨r, hnot, hr, hsplit⟩ := splitOn_upTo hmem
      have hz : 0 ∉ upTo d s ∧ 0 ∉ r := by
        rw [hr, List.mem_append, not_or, List.mem_cons, not_or] at h0
        exact ⟨h0.1, h0.2.2⟩
      have hfind : findChar 0 d (s ++ 0 :: rest) = some (d :: (r ++ 0 :: rest)) := by
        conv_lhs => rw [hr, List.append_assoc, List.cons_append]
        exact findChar_append hnot hz.1
      have hcast : i + 1 + n = i + (n + 1 : ℕ) := by
        push_cast
        omega
      rw [hsplit, List.getElem?_cons_succ, hfind, fieldLoop, List.drop_one, List.tail_cons]
      rcases ih hz.2 (i + 1) with ⟨t, ht, hfield, hloop⟩ | ⟨hfield, k, hk, t, hloop⟩
      · refine Or.inl ⟨t, ?_, hfield, by rw [hloop, hcast]⟩
        rw [hr]
        exact ht.trans ((List.suffix_cons d r).trans (List.suffix_append _ _))
      · refine Or.inr ⟨hfield, k + 1, Nat.succ_lt_succ hk, t, ?_⟩
        rw [hloop]
        congr 1
        push_cast
        omega
    · refine Or.inr ⟨?_, 0, Nat.succ_pos n, s ++ 0 :: rest, ?_⟩
      · rw [List.splitOn_eq_singleton hmem]
        rfl
      · rw [findChar_closed hmem hd rest, fieldLoop, Int.ofNat_zero, Int.add_zero]

theorem field_of_rest (h0 : 0 ∉ s) {result : List UInt8} {len : ℤ} {index : ℕ} :
    (match ((index : ℤ), s ++ 0 :: rest, findChar 0 d (s ++ 0 :: rest)) with
      | (i, begin, none) =>
        if i = index then storeField begin (upTo 0 begin).length result len else some (-1, some result)
      | (_, begin, some stop) => storeField begin (begin.length - stop.length) result len) =
      storeField (s ++ 0 :: rest) (upTo d s).length result len := by
  by_cases hmem : d ∈ s
  · obtain ⟨r, hnot, hr, -⟩ := splitOn_upTo hmem
    have hz : 0 ∉ upTo d s := fun h => h0 (hr ▸ List.mem_append_left _ h)
    have hfind : findChar 0 d (s ++ 0 :: rest) = some (d :: (r ++ 0 :: rest)) := by
      conv_lhs => rw [hr, List.append_assoc, List.cons_append]
      exact findChar_append hnot hz
    have hlen : (s ++ 0 :: rest).length - (d :: (r ++ 0 :: rest)).length = (upTo d s).length := by
      have := congrArg List.length hr
      simp only [List.length_append, List.length_cons] at this ⊢
      omega
    rw [hfind]
    dsimp only
    rw [hlen]
  · rw [findChar_closed hmem hd rest, upTo_of_notMem hmem]
    dsimp only
    rw [if_pos rfl, upTo_append_cons h0]

end Fields

theorem storeField_eq {f tail result : List UInt8} {len : ℤ} (hlen : 1 ≤ len) (hroom : len ≤ result.length) :
    storeField (f ++ tail) f.length result len =
      some (0, some (f.take (len - 1).toNat ++ 0 :: result.drop ((f.take (len - 1).toNat).length + 1))) := by
  have hcopy : (if len - 1 < f.length then len - 1 else (f.length : ℤ)) = (f.take (len - 1).toNat).length := by
    rw [List.length_take]
    split_ifs <;> omega
  have hshort : (f.take (len - 1).toNat).length ≤ (len - 1).toNat := List.length_take_le _ _
  have hle : (f.take (len - 1).toNat).length ≤ f.length := List.length_take_le' _ _
  have htext : f.take (f.take (len - 1).toNat).length = f.take (len - 1).toNat := by
    rw [List.length_take, ← List.take_take, List.take_length]
  unfold storeField
  dsimp only
  rw [hcopy, if_neg (by omega), Int.toNat_natCast, List.take_append_of_le_length hle, htext]

section Call

variable {value result : List UInt8} {len : ℤ} (h0 : 0 ∉ value) (hd : d ≠ 0) (rest : List UInt8) (hlen : 1 ≤ len)
  (hroom : len ≤ result.length)

include h0 hd hlen hroom

theorem hnapGetNthValueSafe_eq (i : ℕ) :
    hnapGetNthValueSafe i (some (value ++ 0 :: rest)) d (some result) len =
      match (value.splitOn d)[i]? with
      | some field =>
        some (0, some (field.take (len - 1).toNat ++ 0 :: result.drop ((field.take (len - 1).toNat).length + 1)))
      | none => some (-1, some result) := by
  unfold hnapGetNthValueSafe
  dsimp only
  rw [if_neg (by omega), Int.toNat_natCast]
  rcases fieldLoop_eq hd rest h0 i 0 with ⟨t, ht, hfield, hloop⟩ | ⟨hfield, k, hk, t, hloop⟩
  · have hz : 0 ∉ t := fun h => h0 (ht.subset h)
    rw [hloop, hfield, Int.zero_add, field_of_rest hd rest hz]
    obtain ⟨tail, htail⟩ : ∃ tail, t ++ 0 :: rest = upTo d t ++ tail :=
      ((List.takeWhile_prefix _).trans (List.prefix_append t _)).imp fun _ h => h.symm
    rw [htail]
    exact storeField_eq hlen hroom
  · rw [hloop, hfield]
    dsimp only
    rw [if_neg (by omega)]

theorem nthValue_eq (hlong : value.length < len) (i : ℕ) :
    nthValue i (value ++ 0 :: rest) d result len = (value.splitOn d)[i]? := by
  unfold nthValue
  rw [hnapGetNthValueSafe_eq h0 hd rest hlen hroom]
  rcases fieldLoop_eq hd rest h0 i 0 with ⟨t, ht, hfield, -⟩ | ⟨hfield, -⟩
  · have hz : 0 ∉ upTo d t := fun h => h0 (ht.subset ((List.takeWhile_prefix _).subset h))
    have hfits : (upTo d t).length ≤ (len - 1).toNat := by
      have := (upTo_length_le d t).trans ht.length_le
      omega
    rw [hfield]
    dsimp only
    rw [List.take_of_length_le hfits]
    exact congrArg some (upTo_append_cons hz)
  · rw [hfield]
    rfl

end Call

theorem hnapGetNthValueSafe_fields (value : List UInt8) (delimit : UInt8) (rest result : List UInt8) (len : ℤ)
    (h0 : 0 ∉ value) (hd : delimit ≠ 0) (hlen : 1 ≤ len) (hroom : len ≤ result.length) :
    (∀ i : ℕ, hnapGetNthValueSafe i (some (value ++ 0 :: rest)) delimit (some result) len =
      match (value.splitOn delimit)[i]? with
      | some field =>
        some (0, some (field.take (len - 1).toNat ++ 0 :: result.drop ((field.take (len - 1).toNat).length + 1)))
      | none => some (-1, some result)) ∧
    (value.length < len → ∀ n ≥ (value.splitOn delimit).length,
      [delimit].intercalate ((List.range n).filterMap fun i : ℕ => nthValue i (value ++ 0 :: rest) delimit result len) =
        value) := by
  refine ⟨hnapGetNthValueSafe_eq h0 hd rest hlen hroom, ?_⟩
  intro hlong n hn
  have hfields : ∀ i ∈ List.range n,
      nthValue i (value ++ 0 :: rest) delimit result len = (value.splitOn delimit)[i]? := by
    intro i _
    exact nthValue_eq h0 hd rest hlen hroom hlong i
  rw [List.filterMap_congr hfields, filterMap_range_getElem? hn]
  exact List.intercalate_splitOn delimit

theorem hnapGetNthValueSafe_empty_fields :
    ([65, 44, 44, 66] : List UInt8).splitOn 44 = [[65], [], [66]] ∧
    (∀ i : ℕ, hnapGetNthValueSafe i (some ([65, 44, 44, 66] ++ [0])) 44 (some [7, 7, 7, 7, 7]) 5 =
      match (([65, 44, 44, 66] : List UInt8).splitOn 44)[i]? with
      | some field => some (0, some (field.take 4 ++ 0 :: [7, 7, 7, 7, 7].drop ((field.take 4).length + 1)))
      | none => some (-1, some [7, 7, 7, 7, 7])) ∧
    [44].intercalate ((List.range 3).filterMap fun i : ℕ => nthValue i ([65, 44, 44, 66] ++ [0]) 44 [7, 7, 7, 7, 7] 5) =
      [65, 44, 44, 66] := by
  have h := hnapGetNthValueSafe_fields [65, 44, 44, 66] 44 [] [7, 7, 7, 7, 7] 5 (by decide) (by decide) (by decide)
    (by decide)
  exact ⟨by decide, h.1, h.2 (by decide) 3 (by decide)⟩

end Wap610n.Lan
