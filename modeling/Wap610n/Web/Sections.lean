import Wap610n.Web.PartScan
import Wap610n.Web.Turn

/-!
A body divided at its boundaries, as the loop over its parts sees it.
-/

namespace Wap610n.Web

open Bytes CString Search

def OneBlank (header : List UInt8) : Prop := ¬[10, 10] <:+: header ++ [10] ∧ ¬[10, 13, 10] <:+: header ++ [10]

structure Section where
  first : List UInt8
  header : List UInt8
  blank : List UInt8
  content : List UInt8

namespace Section

def bytes (p : Section) : List UInt8 := p.first ++ 10 :: (p.header ++ 10 :: (p.blank ++ p.content))

def line (p : Section) : List UInt8 := upTo 10 p.header

def NamesFile (p : Section) : Prop := text "filename=" <:+: p.line.take 1023

instance (p : Section) : Decidable p.NamesFile := inferInstanceAs (Decidable (_ <:+: _))

/-- The part begins with the boundary, and the next one stands first in what is behind its header. What announces it may
stand anywhere behind the boundary's line, up to a NUL. -/
structure Delimited (boundary : List UInt8) (p : Section) (rest : List UInt8) : Prop where
  start : boundary <+: p.bytes ++ rest
  first : 0 ∉ p.first ∧ 10 ∉ p.first
  announced : text "Content-Disposition" <:+: upTo 0 (p.header ++ 10 :: (p.blank ++ (p.content ++ rest)))
  header : 0 ∉ p.header ∧ OneBlank p.header
  blank : p.blank = [10] ∨ p.blank = [13, 10]
  content : ¬boundary <:+: p.content ++ boundary.dropLast

end Section

inductive Parts (boundary : List UInt8) : List UInt8 → List Section → List UInt8 → Prop
  | last {t : List UInt8} (h : boundary <+: t) : Parts boundary t [] t
  | part {p : Section} {ps : List Section} {rest last : List UInt8} (hp : p.Delimited boundary rest)
    (h : Parts boundary rest ps last) : Parts boundary (p.bytes ++ rest) (p :: ps) last

def Divides (boundary data : List UInt8) (ps : List Section) (last : List UInt8) : Prop :=
  ∃ lead t, data = lead ++ t ∧ 0 ∉ lead ∧ ¬boundary <:+: lead ++ boundary.dropLast ∧ Parts boundary t ps last

def Unended (t : List UInt8) : Prop :=
  ∃ first rest, t = first ++ 10 :: rest ∧ 0 ∉ first ∧ 10 ∉ first ∧ 10 ∉ upTo 0 rest ∧
    text "Content-Disposition" <:+: upTo 0 rest

theorem gstrchr_eq_some {s t : List UInt8} :
    gstrchr 10 s = some t ↔ ∃ a r, s = a ++ 10 :: r ∧ t = 10 :: r ∧ 0 ∉ a ∧ 10 ∉ a := by
  constructor
  · exact findChar_some
  · rintro ⟨a, r, rfl, rfl, hnul, hlf⟩
    exact findChar_append hlf hnul

theorem gstrchr_eq_none {s : List UInt8} : gstrchr 10 s = none ↔ 10 ∉ upTo 0 s := findChar_eq_none_iff (by decide)

theorem disposition_eq_none {s : List UInt8} :
    gstrstr (text "Content-Disposition") s = none ↔ ¬text "Content-Disposition" <:+: upTo 0 s :=
  find_eq_none_iff (by decide) (by decide)

theorem afterBlankLine_eq_some {s body : List UInt8} :
    afterBlankLine s = some body ↔ ∃ blank, (blank = [10] ∨ blank = [13, 10]) ∧ s = blank ++ body := by
  constructor
  · intro h
    unfold afterBlankLine at h
    split at h
    · obtain rfl := Option.some.inj h
      exact ⟨[10], Or.inl rfl, rfl⟩
    · obtain rfl := Option.some.inj h
      exact ⟨[13, 10], Or.inr rfl, rfl⟩
    · cases h
  · rintro ⟨blank, rfl | rfl, rfl⟩
    · rfl
    · rfl

theorem oneBlank_nil : OneBlank [] := by
  constructor
  · decide
  · decide

theorem oneBlank_cons {c : UInt8} {header : List UInt8} :
    OneBlank (c :: header) ↔ (c = 10 → ¬[10] <+: header ++ [10] ∧ ¬[13, 10] <+: header ++ [10]) ∧ OneBlank header := by
  simp only [OneBlank, List.cons_append, List.infix_cons_iff, List.cons_prefix_cons, @eq_comm _ 10 c]
  tauto

theorem afterBlankLine_eq_none {s : List UInt8} : afterBlankLine s = none ↔ ¬[10] <+: s ∧ ¬[13, 10] <+: s := by
  rw [← not_or, ← not_iff_not, not_not, ← ne_eq, Option.ne_none_iff_exists']
  simp only [afterBlankLine_eq_some]
  constructor
  · rintro ⟨body, blank, rfl | rfl, rfl⟩
    · exact Or.inl (List.prefix_append _ _)
    · exact Or.inr (List.prefix_append _ _)
  · rintro (⟨body, rfl⟩ | ⟨body, rfl⟩)
    · exact ⟨body, _, Or.inl rfl, rfl⟩
    · exact ⟨body, _, Or.inr rfl, rfl⟩

theorem prefix_header (header x : List UInt8) : ([10] <+: header ++ 10 :: x ↔ [10] <+: header ++ [10]) ∧
    ([13, 10] <+: header ++ 10 :: x ↔ [13, 10] <+: header ++ [10]) := by
  rcases header with _ | ⟨c, _ | ⟨d, header⟩⟩
  · simp
  · simp
  · simp

theorem endOfHeader_eq_some {s body : List UInt8} :
    endOfHeader s = some body ↔ ∃ header blank, s = header ++ 10 :: (blank ++ body) ∧ (blank = [10] ∨ blank = [13, 10]) ∧
      0 ∉ header ∧ OneBlank header := by
  induction s with
  | nil => simp [endOfHeader]
  | cons c s ih =>
    rw [endOfHeader]
    constructor
    · intro h
      split_ifs at h with hnul hlf
      · subst hlf
        cases hblank : afterBlankLine s with
        | some r =>
          rw [hblank] at h
          obtain ⟨blank, hkind, rfl⟩ := afterBlankLine_eq_some.mp hblank
          obtain rfl := Option.some.inj h
          exact ⟨[], blank, rfl, hkind, List.not_mem_nil, oneBlank_nil⟩
        | none =>
          rw [hblank] at h
          obtain ⟨header, blank, rfl, hkind, h0, hone⟩ := ih.mp h
          refine ⟨10 :: header, blank, rfl, hkind, by simpa using h0, oneBlank_cons.mpr ⟨fun _ => ?_, hone⟩⟩
          have hno := afterBlankLine_eq_none.mp hblank
          rwa [(prefix_header _ _).1, (prefix_header _ _).2] at hno
      · obtain ⟨header, blank, rfl, hkind, h0, hone⟩ := ih.mp h
        refine ⟨c :: header, blank, rfl, hkind, ?_, oneBlank_cons.mpr ⟨fun heq => absurd heq hlf, hone⟩⟩
        rw [List.mem_cons, not_or]
        exact ⟨Ne.symm hnul, h0⟩
    · rintro ⟨header, blank, heq, hkind, h0, hone⟩
      cases header with
      | nil =>
        obtain ⟨rfl, rfl⟩ := List.cons.inj heq
        rw [if_neg (by decide), if_pos rfl, afterBlankLine_eq_some.mpr ⟨blank, hkind, rfl⟩]
      | cons d header =>
        rw [List.cons_append] at heq
        obtain ⟨rfl, rfl⟩ := List.cons.inj heq
        rw [List.mem_cons, not_or] at h0
        obtain ⟨hfirst, hone⟩ := oneBlank_cons.mp hone
        have hrest := ih.mpr ⟨header, blank, rfl, hkind, h0.2, hone⟩
        rw [if_neg (Ne.symm h0.1)]
        split_ifs with hlf
        · have hno := hfirst hlf
          rw [← (prefix_header header (blank ++ body)).1, ← (prefix_header header (blank ++ body)).2] at hno
          rw [afterBlankLine_eq_none.mpr hno]
          exact hrest
        · exact hrest

theorem xmemCompare_some {n m : List UInt8} {same : Bool} (h : xmemCompare n m m.length = some same) :
    same = true ↔ n <+: m := by
  induction n generalizing m with
  | nil =>
    rw [xmemCompare] at h
    obtain rfl := Option.some.inj h
    simp
  | cons c n ih =>
    cases m with
    | nil => cases h
    | cons d m =>
      rw [List.length_cons, xmemCompare] at h
      rw [List.cons_prefix_cons]
      split_ifs at h with hdc
      · obtain rfl := Option.some.inj h
        simp [Ne.symm hdc]
      · rw [ih h]
        simp [not_not.mp hdc]

theorem xmemstrFrom_some {c : UInt8} {n m e : List UInt8} (h : xmemstrFrom c n m m.length = some e) :
    ∃ x, m = x ++ e ∧ c :: n <+: e ∧ ¬c :: n <:+: x ++ (c :: n).dropLast := by
  have hskip : ∀ (d : UInt8) (m : List UInt8), ¬c :: n <+: d :: m →
      (∃ x, m = x ++ e ∧ c :: n <+: e ∧ ¬c :: n <:+: x ++ (c :: n).dropLast) →
      ∃ x, d :: m = x ++ e ∧ c :: n <+: e ∧ ¬c :: n <:+: x ++ (c :: n).dropLast := by
    rintro d _ hd ⟨x, rfl, hp, hno⟩
    exact ⟨d :: x, rfl, hp, not_infix_cons hp hno hd⟩
  induction m with
  | nil => cases h
  | cons d m ih =>
    rw [List.length_cons, xmemstrFrom] at h
    split_ifs at h with hdc
    · cases hcmp : xmemCompare n m m.length with
      | none =>
        rw [hcmp] at h
        cases h
      | some same =>
        rw [hcmp] at h
        have hsame := xmemCompare_some hcmp
        cases same with
        | true =>
          obtain rfl := Option.some.inj h
          refine ⟨[], rfl, ?_, not_infix_dropLast (List.cons_ne_nil _ _)⟩
          rw [hdc, List.cons_prefix_cons]
          exact ⟨rfl, hsame.mp rfl⟩
        | false =>
          apply hskip d m _ (ih h)
          rw [List.cons_prefix_cons]
          exact fun hp => absurd (hsame.mpr hp.2) Bool.false_ne_true
    · apply hskip d m _ (ih h)
      rw [List.cons_prefix_cons]
      exact fun hp => hdc hp.1.symm

theorem xmemstr_eq_some {m n e : List UInt8} (hn : n ≠ []) :
    xmemstr m n m.length = some e ↔ ∃ x, m = x ++ e ∧ n <+: e ∧ ¬n <:+: x ++ n.dropLast := by
  constructor
  · intro h
    obtain ⟨c, n, rfl⟩ := List.exists_cons_of_ne_nil hn
    exact xmemstrFrom_some h
  · rintro ⟨x, rfl, ⟨y, rfl⟩, hno⟩
    apply xmemstr_first hn _ hno
    rw [List.length_append, List.length_append]
    omega

section Turn

variable {boundary t : List UInt8}

theorem turnOf_again_iff : turnOf boundary 0 t = .again ↔ Unended t := by
  unfold turnOf Unended
  constructor
  · intro h
    split at h
    · cases h
    · next line hline =>
      obtain ⟨first, rest, rfl, rfl, hnul, hlf⟩ := gstrchr_eq_some.mp hline
      rw [List.drop_one, List.tail_cons] at h
      refine ⟨first, rest, rfl, hnul, hlf, ?_⟩
      split at h
      · cases h
      · next hfound =>
        split at h
        · next hend =>
          refine ⟨gstrchr_eq_none.mp hend, ?_⟩
          by_contra hno
          rw [disposition_eq_none.mpr hno] at hfound
          cases hfound
        · repeat (split at h; cases h)
          cases h
  · rintro ⟨first, rest, rfl, hnul, hlf, hend, hdisp⟩
    rw [gstrchr_eq_some.mpr ⟨first, rest, rfl, rfl, hnul, hlf⟩]
    dsimp only
    rw [List.drop_one, List.tail_cons, gstrchr_eq_none.mpr hend]
    cases hfound : gstrstr (text "Content-Disposition") rest with
    | none => exact absurd hdisp (disposition_eq_none.mp hfound)
    | some _ => rfl

theorem line_of_header (header x : List UInt8) :
    ∃ r, header ++ 10 :: x = upTo 10 header ++ 10 :: r ∧ 10 ∉ upTo 10 header := by
  by_cases hlf : 10 ∈ header
  · obtain ⟨r, hnot, hr⟩ := eq_upTo_append hlf
    refine ⟨r ++ 10 :: x, ?_, hnot⟩
    conv_lhs => rw [hr]
    rw [List.append_assoc, List.cons_append]
  · rw [upTo_of_notMem hlf]
    exact ⟨x, rfl, hlf⟩

theorem turnOf_section {p : Section} {rest : List UInt8} (hn : boundary ≠ []) (hp : p.Delimited boundary rest)
    (hrest : boundary <+: rest) :
    turnOf boundary 0 (p.bytes ++ rest) = .part (p.line.take 1023) (p.content ++ rest) rest := by
  have hsplit : p.bytes ++ rest = p.first ++ 10 :: (p.header ++ 10 :: (p.blank ++ (p.content ++ rest))) := by
    simp only [Section.bytes, List.append_assoc, List.cons_append]
  have hheader : endOfHeader (p.header ++ 10 :: (p.blank ++ (p.content ++ rest))) = some (p.content ++ rest) :=
    endOfHeader_eq_some.mpr ⟨p.header, p.blank, rfl, hp.blank, hp.header⟩
  have hfound : xmemstr (p.content ++ rest) boundary (p.content ++ rest).length = some rest :=
    (xmemstr_eq_some hn).mpr ⟨p.content, rfl, hrest, hp.content⟩
  obtain ⟨tail, htail, hline⟩ := line_of_header p.header (p.blank ++ (p.content ++ rest))
  have hnul : 0 ∉ upTo 10 p.header := fun h => hp.header.1 ((List.takeWhile_prefix _).subset h)
  unfold turnOf
  rw [hsplit, gstrchr_eq_some.mpr ⟨p.first, _, rfl, rfl, hp.first⟩]
  dsimp only
  rw [List.drop_one, List.tail_cons]
  cases hdisp : gstrstr (text "Content-Disposition") (p.header ++ 10 :: (p.blank ++ (p.content ++ rest))) with
  | none => exact absurd hp.announced (disposition_eq_none.mp hdisp)
  | some _ =>
    dsimp only
    rw [gstrchr_eq_some.mpr ⟨_, tail, htail, rfl, hnul, hline⟩]
    dsimp only
    rw [hheader]
    dsimp only
    rw [Nat.sub_zero, hfound]
    dsimp only
    rw [htail, take_line]
    rfl

theorem section_of_turnOf {buf body endPart : List UInt8} (hn : boundary ≠ []) (hstart : boundary <+: t)
    (h : turnOf boundary 0 t = .part buf body endPart) :
    ∃ p : Section, t = p.bytes ++ endPart ∧ p.Delimited boundary endPart ∧ boundary <+: endPart := by
  unfold turnOf at h
  split at h
  · cases h
  next line hline =>
  obtain ⟨first, rest, rfl, rfl, hnul, hlf⟩ := gstrchr_eq_some.mp hline
  rw [List.drop_one, List.tail_cons] at h
  split at h
  · cases h
  next found hdisp =>
  split at h
  · cases h
  split at h
  · cases h
  next content hheader =>
  split at h
  · cases h
  next e hfound =>
  obtain ⟨-, -, rfl⟩ := Turn.part.inj h
  obtain ⟨header, blank, rfl, hblank, hhead⟩ := endOfHeader_eq_some.mp hheader
  rw [Nat.sub_zero] at hfound
  obtain ⟨content, rfl, he, hno⟩ := (xmemstr_eq_some hn).mp hfound
  have hannounced : text "Content-Disposition" <:+: upTo 0 (header ++ 10 :: (blank ++ (content ++ e))) := by
    by_contra hnot
    rw [disposition_eq_none.mpr hnot] at hdisp
    cases hdisp
  have hbytes : first ++ 10 :: (header ++ 10 :: (blank ++ (content ++ e))) =
      Section.bytes ⟨first, header, blank, content⟩ ++ e := by
    simp only [Section.bytes, List.append_assoc, List.cons_append]
  exact ⟨⟨first, header, blank, content⟩, hbytes, ⟨hbytes ▸ hstart, ⟨hnul, hlf⟩, hannounced, hhead, hblank, hno⟩, he⟩

end Turn

end Wap610n.Web
