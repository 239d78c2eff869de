import Wap610n.Lib.Search
import Wap610n.Survey.Listing

namespace Wap610n.Survey

open Bytes CString Search

theorem has_iff {needle : String} {s : List UInt8} : has needle s = true ↔ text needle <:+: s := strstr_isSome

theorem has_line {needle : String} (hneedle : 10 ∉ text needle) (line : List UInt8) :
    has needle (line ++ [10]) = true ↔ text needle <:+: line := by
  rw [has_iff]
  refine ⟨fun h => ?_, fun h => h.trans (List.prefix_append line [10]).isInfix⟩
  rcases infix_of_append_cons hneedle h with h | h
  · exact h
  · exact (List.infix_nil.mp h) ▸ List.nil_infix

theorem upTo_line {line : List UInt8} (h : PlainLine line) : upTo 0 (line ++ [10]) = line ++ [10] := by
  apply upTo_of_notMem
  rw [List.mem_append, List.mem_singleton, not_or]
  exact ⟨h.nul, by decide⟩

theorem skipBlanks_line (s : List UInt8) : skipBlanks (s ++ [10]) = skipBlanks s ++ [10] := by
  induction s with
  | nil => rfl
  | cons c s ih =>
    rw [skipBlanks, skipBlanks, List.cons_append, List.dropWhile_cons, List.dropWhile_cons]
    split_ifs
    · exact ih
    · rfl

theorem notMem_skipBlanks {c : UInt8} {s : List UInt8} (h : c ∉ s) : c ∉ skipBlanks s :=
  fun hc => h ((List.dropWhile_suffix _).subset hc)

section Lines

variable {s : ApScan}

theorem lineStep_tagged {line colon : List UInt8} (hplain : PlainLine line) (hcell : ¬ text "Cell" <:+: line)
    (hcolon : strchr 58 (line ++ [10]) = some colon) :
    lineStep s (line ++ [10]) = tagStep s (line ++ [10]) colon := by
  rw [lineStep, upTo_line hplain, if_neg fun h => hcell ((has_line (by decide) _).mp h), hcolon]

theorem lineStep_untagged {line : List UInt8} (hplain : PlainLine line) (hcell : ¬ text "Cell" <:+: line)
    (hcolon : 58 ∉ line) :
    lineStep s (line ++ [10]) =
      if has "Quality" (line ++ [10]) then
        (readLevels (line ++ [10])).map fun levels => { s with levels := some levels }
      else some s := by
  have hnone : strchr 58 (line ++ [10]) = none := by
    rw [strchr_eq_none, List.mem_append, List.mem_singleton, not_or]
    exact ⟨hcolon, by decide⟩
  rw [lineStep, upTo_line hplain, if_neg fun h => hcell ((has_line (by decide) _).mp h), hnone]

theorem lineStep_colon {name value : List UInt8} (hplain : PlainLine (name ++ 58 :: value)) (hname : 58 ∉ name)
    (hcell : ¬ text "Cell" <:+: name ++ 58 :: value) :
    lineStep s (name ++ 58 :: value ++ [10]) =
      if skipBlanks name = text "ESSID" then
        if (skipBlanks value).length < 128 then some { s with ap := { s.ap with essid := skipBlanks value } } else none
      else some { s with ap := setTag s.ap (skipBlanks name) (skipBlanks value) } := by
  have hassoc : name ++ 58 :: value ++ [10] = name ++ 58 :: (value ++ [10]) := List.append_assoc _ _ _
  have hcolon : strchr 58 (name ++ 58 :: value ++ [10]) = some (58 :: (value ++ [10])) := by
    rw [hassoc, strchr_append_cons hname]
  have hend : 10 ∉ skipBlanks value := by
    apply notMem_skipBlanks
    exact fun h => hplain.lineEnd (List.mem_append_right _ (List.mem_cons_of_mem _ h))
  rw [lineStep_tagged hplain hcell hcolon, hassoc, tagStep, tagOf, upTo_append_cons hname]
  dsimp only
  rw [List.drop_one, List.tail_cons, skipBlanks_line, strchr_append_cons hend, Option.bind_some,
    upTo_append_cons hend]

theorem lineStep_note {line : List UInt8} (hplain : PlainLine line) (hcolon : 58 ∉ line)
    (hquality : ¬ text "Quality" <:+: line) (hcell : ¬ text "Cell" <:+: line) :
    lineStep s (line ++ [10]) = some s := by
  rw [lineStep_untagged hplain hcell hcolon, if_neg fun h => hquality ((has_line (by decide) _).mp h)]

theorem copyLevel_value (name : String) {d : UInt8} {n value : List UInt8} (hname : text name = d :: n)
    (pre : List UInt8) (hpre : d ∉ pre) (hequals : 61 ∉ d :: n) (hvalue : 32 ∉ value) (rest : List UInt8) :
    copyLevel name (pre ++ (text name ++ 61 :: (value ++ 32 :: rest))) =
      if value.length < 5 then some (value, 32 :: rest) else none := by
  have htake : (value ++ 32 :: rest).take ((value ++ 32 :: rest).length - (32 :: rest).length) = value := by
    rw [List.length_append, Nat.add_sub_cancel, List.take_left]
  rw [copyLevel, hname, strstr_append_notMem hpre, strstr_start, Option.bind_some, strchr_append_cons hequals,
    Option.bind_some, List.drop_one, List.tail_cons, strchr_append_cons hvalue, Option.bind_some]
  dsimp only
  rw [htake]

theorem readLevels_line {l : Levels} (hquality : 32 ∉ l.quality) (hsignal : 32 ∉ l.signal) (hnoise : 32 ∉ l.noise)
    (indent : ℕ) (rest : List UInt8) :
    readLevels (List.replicate indent 32 ++ l.line rest) =
      if l.quality.length < 5 ∧ l.signal.length < 5 ∧ l.noise.length < 5 then some l else none := by
  have hindent : (81 : UInt8) ∉ List.replicate indent 32 := fun h => by cases (List.mem_replicate.mp h).2
  have hfirst := copyLevel_value "Quality" rfl _ hindent (by decide) hquality
  have hsecond := copyLevel_value "Signal level" rfl [32, 32] (by decide) (by decide) hsignal
  have hthird := copyLevel_value "Noise level" rfl (text " dBm  ") (by decide) (by decide) hnoise
  rw [readLevels, Levels.line, hfirst]
  by_cases hq : l.quality.length < 5
  · rw [if_pos hq, Option.bind_some]
    dsimp only
    rw [show ∀ r, (32 :: 32 :: r : List UInt8) = [32, 32] ++ r from fun _ => rfl, hsecond]
    by_cases hs : l.signal.length < 5
    · rw [if_pos hs, Option.bind_some]
      dsimp only
      rw [show ∀ r, 32 :: (text "dBm  " ++ r) = text " dBm  " ++ r from fun _ => rfl, hthird]
      by_cases hn : l.noise.length < 5
      · rw [if_pos hn, if_pos ⟨hq, hs, hn⟩, Option.map_some]
      · rw [if_neg hn, if_neg fun h => hn h.2.2, Option.map_none]
    · rw [if_neg hs, if_neg fun h => hs h.2.1, Option.bind_none]
  · rw [if_neg hq, if_neg fun h => hq h.1, Option.bind_none]

theorem notMem_levels {l : Levels} (hquality : 58 ∉ l.quality) (hsignal : 58 ∉ l.signal) (hnoise : 58 ∉ l.noise)
    (indent : ℕ) : 58 ∉ (Attribute.levels indent l).line := by
  have hparts : ∀ p ∈ ["Quality", "Signal level", "dBm  ", "Noise level", "dBm"], (58 : UInt8) ∉ text p := by decide
  simp only [List.forall_mem_cons] at hparts
  simp [Attribute.line, Levels.line, hparts, hquality, hsignal, hnoise]

theorem lineStep_levels {l : Levels} {indent : ℕ} (hplain : PlainLine (Attribute.levels indent l).line)
    (hvalid : (Attribute.levels indent l).Valid) (hcell : ¬ text "Cell" <:+: (Attribute.levels indent l).line) :
    lineStep s ((Attribute.levels indent l).line ++ [10]) =
      if l.quality.length < 5 ∧ l.signal.length < 5 ∧ l.noise.length < 5 then some { s with levels := some l }
      else none := by
  obtain ⟨⟨-, hq, hq'⟩, ⟨-, hs, hs'⟩, -, hn, hn'⟩ := hvalid
  have hyes : has "Quality" ((Attribute.levels indent l).line ++ [10]) = true := by
    rw [has_line (by decide)]
    exact ⟨List.replicate indent 32, _, List.append_assoc _ _ _⟩
  have hline : (Attribute.levels indent l).line ++ [10] = List.replicate indent 32 ++ l.line [10] := by
    simp only [Attribute.line, Levels.line, List.append_assoc, List.cons_append, List.nil_append]
  rw [lineStep_untagged hplain hcell (notMem_levels hq' hs' hn' indent), if_pos hyes, hline, readLevels_line hq hs hn]
  split_ifs <;> rfl

theorem lineStep_attribute {a : Attribute} (hplain : PlainLine a.line) (hvalid : a.Valid)
    (hcell : ¬ text "Cell" <:+: a.line) :
    lineStep s (a.line ++ [10]) =
      if a.narrow then some { s with ap := a.setAp s.ap, levels := a.setLevels s.levels } else none := by
  cases a with
  | tag name value =>
    rw [Attribute.line, lineStep_colon hplain hvalid.1 hcell, if_neg hvalid.2]
    rfl
  | levels indent l =>
    rw [lineStep_levels hplain hvalid hcell, Attribute.narrow]
    simp only [decide_eq_true_eq]
    rfl
  | note line => exact lineStep_note hplain hvalid.1 hvalid.2 hcell

end Lines

end Wap610n.Survey
