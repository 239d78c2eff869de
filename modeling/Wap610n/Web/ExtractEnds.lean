import Wap610n.Web.Sections

namespace Wap610n.Web

open Bytes CString Search

section Scan

variable {boundary : List UInt8} {lenHeap : ℕ}

theorem scanParts_over {s : Scan} (fuel : ℕ) (h : s.endPart.bind (gstrstr boundary) = none) :
    scanParts boundary lenHeap fuel s = some s.toExtracted := by
  rw [scanParts, h]

theorem scanParts_turn {s : Scan} {part : List UInt8} (fuel : ℕ)
    (h : s.endPart.bind (gstrstr boundary) = some part) :
    scanParts boundary lenHeap (fuel + 1) s = scanParts boundary lenHeap fuel (scanPart boundary lenHeap s part) := by
  rw [scanParts, h]

theorem scanParts_again {s : Scan} {part : List UInt8} (fuel : ℕ)
    (h : s.endPart.bind (gstrstr boundary) = some part) (hagain : turnOf boundary lenHeap part = .again) :
    scanParts boundary lenHeap fuel s = none := by
  have hstay : scanPart boundary lenHeap s part = s := by rw [scanPart_eq, hagain]
  induction fuel with
  | zero => rw [scanParts, h]
  | succ fuel ih => rw [scanParts_turn fuel h, hstay, ih]

theorem scanPart_stored (part : List UInt8) {s : Scan} (hfirst : s.firstUploadFile = true) :
    (scanPart boundary lenHeap s part).fileContentLen = s.fileContentLen ∧
      (scanPart boundary lenHeap s part).firstUploadFile = true := by
  rw [scanPart_eq]
  cases turnOf boundary lenHeap part with
  | lost => exact ⟨rfl, hfirst⟩
  | next endPart => exact ⟨rfl, hfirst⟩
  | again => exact ⟨rfl, hfirst⟩
  | part buf body endPart => exact hfirst ▸ (storePart_frame body endPart (Or.inl hfirst)).2

theorem scanParts_stored {s : Scan} {u : Extracted} {fuel : ℕ} (hfirst : s.firstUploadFile = true)
    (h : scanParts boundary lenHeap fuel s = some u) : u.fileContentLen = s.fileContentLen := by
  induction fuel generalizing s with
  | zero =>
    cases hpart : s.endPart.bind (gstrstr boundary) with
    | none => rw [Option.some.inj ((scanParts_over 0 hpart).symm.trans h)]
    | some part =>
      rw [scanParts, hpart] at h
      cases h
  | succ fuel ih =>
    cases hpart : s.endPart.bind (gstrstr boundary) with
    | none => rw [Option.some.inj ((scanParts_over (fuel + 1) hpart).symm.trans h)]
    | some part =>
      rw [scanParts_turn fuel hpart] at h
      obtain ⟨hlen, hflag⟩ := @scanPart_stored boundary lenHeap part s hfirst
      exact (ih hflag h).trans hlen

end Scan

def ContentInside (data : List UInt8) (u : Extracted) : Prop :=
  0 ≤ u.fileContentLen ∧ u.fileContent <:+ data ∧ u.fileContentLen ≤ u.fileContent.length

def ContentRight (data : List UInt8) (u₀ u : Extracted) : Prop :=
  (u.fileContent = u₀.fileContent ∧ u.fileContentLen = u₀.fileContentLen) ∨ ContentInside data u

def ExtractRight (wp : Post) (data : List UInt8) : Prop :=
  ∃ wp', extractUploadedFileContent wp = some wp' ∧ ContentRight data wp.toExtracted wp'.toExtracted

def SoundParts (stored : Bool) (ps : List Section) (last : List UInt8) : Prop :=
  (stored = false → ∀ p ∈ ps.find? fun p => p.NamesFile, 2 ≤ p.content.length) ∧ ¬Unended last

section Sound

variable {boundary data t : List UInt8} {u₀ : Extracted}

theorem Parts.start {ps : List Section} {last : List UInt8} (h : Parts boundary t ps last) : boundary <+: t := by
  cases h with
  | last h => exact h
  | part hp h => exact hp.start

theorem Parts.of_turnOf {ps : List Section} {last : List UInt8} (hn : boundary ≠ []) (h : Parts boundary t ps last) :
    (ps = [] ∧ last = t) ∨ ∃ p ps' rest, ps = p :: ps' ∧ Parts boundary rest ps' last ∧
      turnOf boundary 0 t = .part (p.line.take 1023) (p.content ++ rest) rest := by
  cases h with
  | last h => exact Or.inl ⟨rfl, rfl⟩
  | part hp h => exact Or.inr ⟨_, _, _, rfl, h, turnOf_section hn hp h.start⟩

theorem Section.Delimited.namesFile {p : Section} {rest : List UInt8} (hp : p.Delimited boundary rest) :
    Web.NamesFile (p.line.take 1023) ↔ p.NamesFile := by
  have hnul : 0 ∉ p.line.take 1023 := fun h =>
    hp.header.1 ((List.takeWhile_prefix _).subset ((List.take_prefix _ _).subset h))
  have hnone := find_eq_none_iff (s := p.line.take 1023) (n := text "filename=") (z := 0) (by decide) (by decide)
  rw [show (p.line.take 1023).takeWhile (fun c => c ≠ 0) = p.line.take 1023 from upTo_of_notMem hnul] at hnone
  rw [Web.NamesFile, Section.NamesFile, Option.isSome_iff_ne_none, ne_eq, ← not_iff_not, not_not]
  exact hnone

theorem storePart_flag {p : Section} {rest : List UInt8} (hp : p.Delimited boundary rest) (s : Scan)
    (part endPart : List UInt8) : (storePart s (p.line.take 1023) part endPart).firstUploadFile =
      (s.firstUploadFile || decide p.NamesFile) := by
  by_cases hfirst : s.firstUploadFile = true
  · rw [(storePart_frame part endPart (Or.inl hfirst)).2.2, hfirst, Bool.true_or]
  by_cases hfile : p.NamesFile
  · rw [(storePart_firstFile part endPart (Bool.eq_false_of_not_eq_true hfirst) (hp.namesFile.mpr hfile)).2.2,
      decide_eq_true hfile, Bool.or_true]
  · rw [(storePart_frame part endPart (Or.inr (hp.namesFile.not.mpr hfile))).2.2, decide_eq_false hfile, Bool.or_false]

theorem storePart_right {s : Scan} {buf part endPart : List UInt8} (hpart : part <:+ data)
    (hlen : NamesFile buf → s.firstUploadFile = false → endPart.length + 2 ≤ part.length)
    (h : ContentRight data u₀ s.toExtracted) :
    ContentRight data u₀ (storePart s buf part endPart).toExtracted := by
  by_cases hstore : s.firstUploadFile = true ∨ ¬ NamesFile buf
  · obtain ⟨hcontent, hkept, -⟩ := storePart_frame part endPart hstore
    rw [ContentRight, ContentInside, hcontent, hkept]
    exact h
  · rw [not_or, not_not, Bool.not_eq_true] at hstore
    obtain ⟨hcontent, hstored, -⟩ := storePart_firstFile part endPart hstore.1 hstore.2
    have := hlen hstore.2 hstore.1
    right
    rw [ContentInside, hcontent, hstored]
    exact ⟨by omega, hpart, by omega⟩

theorem soundParts_nil {stored : Bool} {last : List UInt8} (h : ¬Unended last) : SoundParts stored [] last :=
  ⟨fun _ _ hp => absurd hp (by simp), h⟩

theorem soundParts_iff {p : Section} {rest : List UInt8} (hn : boundary ≠ []) (hp : p.Delimited boundary rest)
    (hrest : boundary <+: rest) (stored : Bool) :
    (∀ ps last, Parts boundary (p.bytes ++ rest) ps last → SoundParts stored ps last) ↔
      (stored = false → p.NamesFile → 2 ≤ p.content.length) ∧
      ∀ ps last, Parts boundary rest ps last → SoundParts (stored || decide p.NamesFile) ps last := by
  have hturn := turnOf_section hn hp hrest
  constructor
  · intro h
    constructor
    · intro hstored hfile
      exact (h _ _ (.part hp (.last hrest))).1 hstored p (List.find?_cons_of_pos (decide_eq_true hfile))
    · intro ps last hparts
      obtain ⟨hlen, hended⟩ := h _ _ (.part hp hparts)
      refine ⟨?_, hended⟩
      rw [Bool.or_eq_false_iff]
      rintro ⟨hstored, hfile⟩ q hq
      apply hlen hstored q
      rwa [List.find?_cons, hfile]
  · rintro ⟨hlen, h⟩ ps last hparts
    rcases hparts.of_turnOf hn with ⟨rfl, rfl⟩ | ⟨q, ps, rest', rfl, htail, hturn'⟩
    · refine soundParts_nil fun hunended => ?_
      have hagain : turnOf boundary 0 _ = .again := turnOf_again_iff.mpr hunended
      rw [hturn] at hagain
      cases hagain
    · -- the turn finds one part only
      obtain ⟨hline, hcontent, rfl⟩ := Turn.part.inj (hturn.symm.trans hturn')
      have hfile : decide q.NamesFile = decide p.NamesFile := by
        rw [decide_eq_decide, Section.NamesFile, Section.NamesFile, hline]
      obtain ⟨hfirst, hended⟩ := h ps last htail
      refine ⟨?_, hended⟩
      intro hstored r hr
      rw [hstored, Bool.false_or] at hfirst
      cases hnames : decide p.NamesFile with
      | true =>
        rw [List.find?_cons, hfile, hnames] at hr
        obtain rfl := Option.some.inj hr
        rw [← List.append_cancel_right hcontent]
        exact hlen hstored (of_decide_eq_true hnames)
      | false =>
        rw [List.find?_cons, hfile, hnames] at hr
        exact hfirst hnames r hr

/-- A body whose next turn finds no part has none, so only what the turn itself does can go wrong. -/
theorem soundParts_of_turnOf (hn : boundary ≠ []) (stored : Bool) (hagain : turnOf boundary 0 t ≠ .again)
    (hpart : ∀ buf body e, turnOf boundary 0 t ≠ .part buf body e) :
    ∀ ps last, Parts boundary t ps last → SoundParts stored ps last := by
  intro ps last hparts
  rcases hparts.of_turnOf hn with ⟨rfl, rfl⟩ | ⟨p, ps, rest, rfl, -, hturn⟩
  · exact soundParts_nil fun hunended => hagain (turnOf_again_iff.mpr hunended)
  · exact absurd hturn (hpart _ _ _)

theorem scanParts_short_file {s : Scan} {buf part endPart : List UInt8} {u : Extracted} {fuel : ℕ}
    (hu₀ : 0 ≤ u₀.fileContentLen) (hfirst : s.firstUploadFile = false) (hfile : NamesFile buf)
    (hshort : part.length < endPart.length + 2)
    (hu : scanParts boundary 0 fuel (storePart s buf part endPart) = some u) : ¬ContentRight data u₀ u := by
  obtain ⟨-, hstored, hdone⟩ := storePart_firstFile part endPart hfirst hfile
  have hlen := scanParts_stored hdone hu
  rw [hstored] at hlen
  rintro (⟨-, hkept⟩ | ⟨hinside, -⟩)
  · omega
  · omega

theorem scanParts_right_iff (hn : boundary ≠ []) (hnul : 0 ∉ boundary) (hu₀ : 0 ≤ u₀.fileContentLen) (fuel : ℕ)
    {s : Scan} (hpart : s.endPart.bind (gstrstr boundary) = some t) (hstart : boundary <+: t) (hdata : t <:+ data)
    (hfuel : t.length ≤ fuel) (h : ContentRight data u₀ s.toExtracted) :
    (∃ u, scanParts boundary 0 fuel s = some u ∧ ContentRight data u₀ u) ↔
      ∀ ps last, Parts boundary t ps last → SoundParts s.firstUploadFile ps last := by
  induction fuel generalizing s t with
  | zero =>
    rw [List.eq_nil_of_length_eq_zero (Nat.le_zero.mp hfuel)] at hstart
    exact absurd (List.prefix_nil.mp hstart) hn
  | succ fuel ih =>
    cases hturn : turnOf boundary 0 t with
    | lost =>
      have hsound := soundParts_of_turnOf hn s.firstUploadFile (t := t) (by simp [hturn]) (by simp [hturn])
      rw [scanParts_turn fuel hpart, scanPart_eq, hturn]
      exact iff_of_true ⟨_, scanParts_none boundary fuel 0 s.toExtracted s.firstUploadFile, h⟩ hsound
    | next endPart =>
      obtain ⟨hquiet, hless⟩ := turnOf_next hturn
      have hsound := soundParts_of_turnOf hn s.firstUploadFile (t := t) (by simp [hturn]) (by simp [hturn])
      rw [scanParts_turn fuel hpart, scanPart_eq, hturn]
      exact iff_of_true ⟨_, scanParts_quiet (by omega) s.toExtracted s.firstUploadFile hquiet, h⟩ hsound
    | again =>
      rw [scanParts_again (fuel + 1) hpart hturn]
      refine iff_of_false (fun hex => ?_) fun hall => ?_
      · obtain ⟨u, hu, -⟩ := hex
        cases hu
      · exact (hall [] t (.last hstart)).2 (turnOf_again_iff.mp hturn)
    | part buf body endPart =>
      obtain ⟨p, rfl, hp, hend⟩ := section_of_turnOf hn hstart hturn
      obtain ⟨rfl, rfl, -⟩ := Turn.part.inj ((turnOf_section hn hp hend).symm.trans hturn)
      rw [scanParts_turn fuel hpart, scanPart_eq, hturn, soundParts_iff hn hp hend]
      have hflag := storePart_flag hp s (p.content ++ endPart) endPart
      have hsuffix : p.content ++ endPart <:+ data := by
        refine List.IsSuffix.trans ⟨p.first ++ 10 :: (p.header ++ 10 :: p.blank), ?_⟩ hdata
        simp only [Section.bytes, List.append_assoc, List.cons_append]
      by_cases hlong : s.firstUploadFile = false → p.NamesFile → 2 ≤ p.content.length
      · have hroom : NamesFile (p.line.take 1023) → s.firstUploadFile = false →
            endPart.length + 2 ≤ (p.content ++ endPart).length := by
          intro hfile hfirst
          have := hlong hfirst (hp.namesFile.mp hfile)
          rw [List.length_append]
          omega
        have hnext : (storePart s (p.line.take 1023) (p.content ++ endPart) endPart).endPart.bind (gstrstr boundary) =
            some endPart := by
          rw [storePart_endPart]
          exact find_start hn hnul hend
        have hless : endPart.length ≤ fuel := by
          simp only [Section.bytes, List.length_append, List.length_cons] at hfuel
          omega
        rw [and_iff_right hlong, ← hflag]
        exact ih hnext hend ((List.suffix_append _ _).trans hsuffix) hless (storePart_right hsuffix hroom h)
      · refine iff_of_false ?_ fun hand => hlong hand.1
        rintro ⟨u, hu, hright⟩
        obtain ⟨hfirst, hshort⟩ := Classical.not_imp.mp hlong
        obtain ⟨hfile, hshort⟩ := Classical.not_imp.mp hshort
        have hless : (p.content ++ endPart).length < endPart.length + 2 := by
          rw [List.length_append]
          omega
        exact scanParts_short_file hu₀ hfirst (hp.namesFile.mpr hfile) hless hu hright

theorem gstrstr_of_divides {ps : List Section} {last : List UInt8} (hn : boundary ≠ []) (hnul : 0 ∉ boundary)
    (h : Divides boundary data ps last) : ∃ t, gstrstr boundary data = some t ∧ Parts boundary t ps last := by
  obtain ⟨lead, t, rfl, hlead, hno, hparts⟩ := h
  obtain ⟨y, rfl⟩ := hparts.start
  exact ⟨_, find_first hn hlead hnul hno, hparts⟩

theorem divides_iff_parts {ps : List Section} {last : List UInt8} (hn : boundary ≠ []) (hnul : 0 ∉ boundary)
    (hfind : gstrstr boundary data = some t) : Divides boundary data ps last ↔ Parts boundary t ps last := by
  constructor
  · intro hdiv
    obtain ⟨t', ht', hparts⟩ := gstrstr_of_divides hn hnul hdiv
    obtain rfl := Option.some.inj (ht'.symm.trans hfind)
    exact hparts
  · intro hparts
    obtain ⟨lead, hdata, hlead, -, hno⟩ := find_some hfind
    exact ⟨lead, t, hdata, hlead, hno hn, hparts⟩

theorem extractRight_iff_scanParts {wp : Post} (hboundary : wp.multiPartBoundary = some boundary)
    (hdata : wp.postData = some data) (hend : wp.heap = []) (hlen : ¬wp.fileContentLen < 0) :
    ExtractRight wp data ↔ ∃ u, scanParts boundary 0 data.length ⟨wp.toExtracted, some data, false⟩ = some u ∧
      ContentRight data wp.toExtracted u := by
  have hextract : extractUploadedFileContent wp =
      (scanParts boundary 0 data.length ⟨wp.toExtracted, some data, false⟩).map fun u =>
        { wp with toExtracted := u } := by
    have hmemory : wp.postData.map (· ++ wp.heap) = some data := by
      rw [hdata, hend, Option.map_some, List.append_nil]
    rw [extractUploadedFileContent, if_neg hlen, hboundary]
    dsimp only
    rw [hmemory, hend]
    rfl
  rw [ExtractRight, hextract]
  constructor
  · rintro ⟨wp', hwp, hright⟩
    obtain ⟨u, hu, rfl⟩ := Option.map_eq_some_iff.mp hwp
    exact ⟨u, hu, hright⟩
  · rintro ⟨u, hu, hright⟩
    exact ⟨_, by rw [hu, Option.map_some], hright⟩

end Sound

theorem extractUploadedFileContent_right_iff {wp : Post} {boundary data : List UInt8}
    (hboundary : wp.multiPartBoundary = some boundary) (hdata : wp.postData = some data) (hend : wp.heap = [])
    (hn : boundary ≠ []) (hnul : 0 ∉ boundary) :
    ExtractRight wp data ↔ (0 ≤ wp.fileContentLen → ∀ ps last, Divides boundary data ps last →
      (∀ p ∈ ps.find? fun p => p.NamesFile, 2 ≤ p.content.length) ∧ ¬Unended last) := by
  by_cases hlen : wp.fileContentLen < 0
  · refine iff_of_true ⟨wp, if_pos hlen, Or.inl ⟨rfl, rfl⟩⟩ fun h => absurd hlen (not_lt.mpr h)
  rw [extractRight_iff_scanParts hboundary hdata hend hlen, forall_prop_of_true (not_lt.mp hlen)]
  cases hfind : gstrstr boundary data with
  | none =>
    refine iff_of_true ⟨_, scanParts_over data.length hfind, Or.inl ⟨rfl, rfl⟩⟩ fun ps last hdiv => ?_
    obtain ⟨t, ht, -⟩ := gstrstr_of_divides hn hnul hdiv
    exact absurd (hfind.symm.trans ht) (by simp)
  | some t =>
    obtain ⟨lead, hlead, -, hstart, -⟩ := find_some hfind
    have hsuffix : t <:+ data := ⟨lead, hlead.symm⟩
    rw [scanParts_right_iff (s := ⟨wp.toExtracted, some data, false⟩) hn hnul (not_lt.mp hlen) data.length hfind hstart
      hsuffix hsuffix.length_le (Or.inl ⟨rfl, rfl⟩)]
    simp only [divides_iff_parts hn hnul hfind, SoundParts, forall_const]

def delimitedPost (data : List UInt8) : Post :=
  { websParseFirst [] (text "POST") (text "/upld") Credentials.empty with
    fileContent := []
    fileContentLen := 0
    protoVersion := text "HTTP/1.1"
    multipartForm := true
    multiPartBoundary := some (text "--b")
    postData := some data
    heap := [] }

def filePart (content : List UInt8) : List UInt8 :=
  text "--b\nContent-Disposition: form-data; name=\"f\"; filename=\"a\"\n\n" ++ content ++ text "--b"

def twoParts : List UInt8 :=
  text "--b\r\nContent-Disposition: form-data; name=\"t\"\r\n\r\nv\r\n" ++ filePart (0 :: text "x\r\n") ++ text "--\r\n"

theorem extract_two_parts : ExtractRight (delimitedPost twoParts) twoParts ∧
    ∀ ps last, Divides (text "--b") twoParts ps last →
      (∀ p ∈ ps.find? fun p => p.NamesFile, 2 ≤ p.content.length) ∧ ¬Unended last := by
  have hstored : (extractUploadedFileContent (delimitedPost twoParts)).map
      (fun wp => (wp.fileContent, wp.fileContentLen)) = some (0 :: text "x\r\n--b--\r\n", 2) := by decide +kernel
  have hright : ExtractRight (delimitedPost twoParts) twoParts := by
    obtain ⟨wp, hwp, heq⟩ := Option.map_eq_some_iff.mp hstored
    obtain ⟨hcontent, hlen⟩ := Prod.mk.inj heq
    refine ⟨wp, hwp, Or.inr ?_⟩
    change 0 ≤ wp.fileContentLen ∧ wp.fileContent <:+ _ ∧ wp.fileContentLen ≤ wp.fileContent.length
    rw [hcontent, hlen]
    decide +kernel
  have hright_iff := @extractUploadedFileContent_right_iff (delimitedPost twoParts) _ _ rfl rfl rfl (by decide) (by decide)
  exact ⟨hright, hright_iff.mp hright (by decide)⟩

theorem extract_endless_or_refused :
    (∀ fuel, scanParts (text "--b") 0 fuel
        ⟨(delimitedPost []).toExtracted, some (text "--b\nContent-Disposition"), false⟩ = none) ∧
      (extractUploadedFileContent (delimitedPost (filePart []))).map (fun wp => wp.fileContentLen) = some (-2) ∧
      (extractUploadedFileContent (delimitedPost (filePart (text "\n")))).map (fun wp => wp.fileContentLen) =
        some (-1) ∧
      ¬ ExtractRight (delimitedPost (text "--b\nContent-Disposition")) (text "--b\nContent-Disposition") := by
  refine ⟨fun fuel => ?_, by decide +kernel, by decide +kernel, ?_⟩
  · have hpart : (some (text "--b\nContent-Disposition")).bind (gstrstr (text "--b")) =
        some (text "--b\nContent-Disposition") := by decide +kernel
    exact scanParts_again fuel hpart rfl
  · rintro ⟨wp', h, -⟩
    cases h

end Wap610n.Web
