import Wap610n.Survey.CellRun

namespace Wap610n.Survey

open Bytes CString

theorem setTag_essid (ap : Ap) (tagName tagValue : List UInt8) : (setTag ap tagName tagValue).essid = ap.essid := by
  have hextra : (setExtra ap tagValue).essid = ap.essid := by
    unfold setExtra
    split_ifs <;> rfl
  have hwpa : ∀ n, (setWpaType ap n).essid = ap.essid := fun n => by
    unfold setWpaType
    split_ifs <;> rfl
  have hcipher : ∀ n, (setCipherType ap n).essid = ap.essid := fun n => by
    unfold setCipherType
    split_ifs <;> rfl
  have hauth : ∀ n, (setAuthType ap n).essid = ap.essid := fun n => by
    unfold setAuthType
    split_ifs <;> rfl
  unfold setTag
  split_ifs <;> first | rfl | exact hextra | exact hwpa _ | exact hcipher _ | exact hauth _

theorem foldl_setAp_essid (as : List Attribute) (ap : Ap) : (as.foldl Attribute.setAp ap).essid = ap.essid := by
  induction as generalizing ap with
  | nil => rfl
  | cons a as ih =>
    rw [List.foldl_cons, ih]
    cases a with
    | tag name value => exact setTag_essid ap _ _
    | levels indent l => rfl
    | note line => rfl

theorem CellText.ap_essid (c : CellText) : c.ap.essid = c.quotedEssid := by rw [CellText.ap, foldl_setAp_essid]

theorem CellText.quotedEssid_length (c : CellText) : c.quotedEssid.length = c.essid.length + 2 := by
  rw [CellText.quotedEssid, List.length_cons, List.length_append, List.length_singleton]

theorem apInfo_length (ap : Ap) (l : Levels) :
    (apInfo ap l).length =
      (apInfo ap ⟨[], [], []⟩).length + (l.quality.length + l.signal.length + l.noise.length) := by
  simp [apInfo, List.intercalate, List.intersperse]
  omega

theorem essid_length_le (ap : Ap) (l : Levels) : ap.essid.length + 17 ≤ (apInfo ap l).length := by
  simp [apInfo, List.intercalate, List.intersperse]
  omega

theorem foldl_setLevels_mem {as : List Attribute} {old : Option Levels} {l : Levels}
    (h : as.foldl Attribute.setLevels old = some l) : old = some l ∨ ∃ indent, .levels indent l ∈ as := by
  induction as generalizing old with
  | nil => exact Or.inl h
  | cons a as ih =>
    rcases ih h with h | ⟨indent, hmem⟩
    · cases a with
      | tag name value => exact Or.inl h
      | levels indent l' =>
        obtain rfl := Option.some.inj h
        exact Or.inr ⟨indent, List.mem_cons_self⟩
      | note line => exact Or.inl h
    · exact Or.inr ⟨indent, List.mem_cons_of_mem a hmem⟩

theorem Cell.levels_mem {c : Cell} {l : Levels} (h : c.levels = some l) : ∃ indent, .levels indent l ∈ c.attributes :=
  (foldl_setLevels_mem h).resolve_left (by simp)

theorem Cell.quality_pos {c : Cell} {l : Levels} (h : c.levels = some l) : 0 < l.quality.length := by
  obtain ⟨indent, hmem⟩ := c.levels_mem h
  exact List.length_pos_iff.mpr (c.attributes_ok _ hmem).1.1

theorem Cell.levels_isSome {c : Cell} : c.levels.isSome ↔ ∃ indent l, .levels indent l ∈ c.attributes := by
  constructor
  · intro h
    obtain ⟨l, hl⟩ := Option.isSome_iff_exists.mp h
    obtain ⟨indent, hmem⟩ := c.levels_mem hl
    exact ⟨indent, l, hmem⟩
  · rintro ⟨indent, l, hmem⟩
    obtain ⟨a, b, hab⟩ := List.append_of_mem hmem
    rw [CellText.levels, hab, List.foldl_append, List.foldl_cons, foldl_setLevels, Attribute.setLevels]
    cases List.foldl Attribute.setLevels none b <;> rfl

/-- What the pass writes for `c` and the cells below it when every line with the text `Cell` begins one and none is
hidden; `old` are the levels of the cells above. -/
def written (old : Option Levels) (c : Cell) : List Cell → Option (List UInt8)
  | [] => (c.levels.or old).bind fun l => if (apInfo c.ap l).length < 130 then some (apInfo c.ap l) else none
  | d :: cells =>
    (c.levels.or old).bind fun l =>
      if (apInfo c.ap l).length + 1 < 130 ∧ d.narrow then
        (written (some l) d cells).map fun r => apInfo c.ap l ++ 9 :: r
      else none

structure Within (c : Cell) (old : Option Levels) (s : ApScan) : Prop where
  ap : s.ap = c.ap
  levels : s.levels = c.levels.or old
  firstAP : s.firstAP = false
  i : s.i ≠ 0

section Pass

variable {c : Cell} {old : Option Levels} {s : ApScan}

theorem Within.essid (h : Within c old s) (hshown : c.essid ≠ []) :
    s.ap.essid ≠ noEssid ∧ 2 < s.ap.essid.length := by
  have hpos := List.length_pos_iff.mpr hshown
  have hlen : 2 < s.ap.essid.length := by
    rw [h.ap, c.ap_essid, c.quotedEssid_length]
    omega
  refine ⟨fun heq => ?_, hlen⟩
  rw [heq] at hlen
  exact absurd hlen (by decide)

theorem Within.closeAp (h : Within c old s) (hshown : c.essid ≠ []) :
    closeAp s = (c.levels.or old).bind fun l =>
      if (apInfo c.ap l).length + 1 < 130 then some { s with listBuf := s.listBuf ++ (apInfo c.ap l ++ [9]) }
      else none := by
  obtain ⟨hne, hlen⟩ := h.essid hshown
  simp only [Survey.closeAp, if_neg hne, if_pos hlen, tmpApInfo]
  rw [h.levels, h.ap]
  cases c.levels.or old with
  | none => rfl
  | some l =>
    rw [Option.bind_some, Option.bind_some, List.length_append, List.length_singleton]
    split_ifs <;> rfl

theorem Within.lastAp (h : Within c old s) (hshown : c.essid ≠ []) :
    lastAp s = (c.levels.or old).bind fun l =>
      if (apInfo c.ap l).length < 130 then some (s.numOfAp, s.listBuf ++ apInfo c.ap l) else none := by
  obtain ⟨hne, hlen⟩ := h.essid hshown
  simp only [Survey.lastAp, if_neg h.i, if_neg hne, if_pos hlen, tmpApInfo]
  rw [h.levels, h.ap]
  cases c.levels.or old with
  | none => rfl
  | some l =>
    rw [Option.bind_some, Option.bind_some, List.append_nil]
    split_ifs <;> rfl

theorem rest_run {cells : List Cell} (h : Within c old s) (hshown : ∀ d ∈ c :: cells, d.essid ≠ [])
    (hlen : ∀ d ∈ cells, d.quotedEssid.length < 128)
    (hcell : ∀ d ∈ cells, ∀ line ∈ d.attributeLines, ¬ text "Cell" <:+: line) :
    (((cellLines cells).map (· ++ [10])).foldlM lineStep s).bind Survey.lastAp =
      (written old c cells).map fun r => (s.numOfAp, s.listBuf ++ r) := by
  induction cells generalizing c old s with
  | nil =>
    change Survey.lastAp s = _
    rw [h.lastAp (hshown c List.mem_cons_self), written]
    cases c.levels.or old with
    | none => rfl
    | some l =>
      rw [Option.bind_some, Option.bind_some]
      split_ifs <;> rfl
  | cons d cells ih =>
    rw [List.forall_mem_cons] at hlen hcell hshown
    have hrun := cell_run (s := s) d hlen.1 hcell.1
    rw [h.firstAP, if_neg Bool.false_ne_true, h.closeAp hshown.1] at hrun
    rw [cellLines, List.flatMap_cons, List.map_append, List.foldlM_append, hrun, written]
    cases hlevels : c.levels.or old with
    | none => rfl
    | some l =>
      rw [Option.bind_some, Option.bind_some]
      by_cases hfit : (apInfo c.ap l).length + 1 < 130
      · rw [if_pos hfit, Option.bind_some]
        by_cases hnarrow : d.narrow = true
        · rw [if_pos hnarrow, if_pos ⟨hfit, hnarrow⟩]
          have hwithin : Within d (some l) { s with
              ap := d.ap, levels := d.levels.or s.levels, firstAP := false, i := s.i + 1,
              listBuf := s.listBuf ++ (apInfo c.ap l ++ [9]) } :=
            ⟨rfl, by rw [h.levels, hlevels], rfl, Nat.succ_ne_zero _⟩
          refine (ih hwithin hshown.2 hlen.2 hcell.2).trans ?_
          simp only [Option.map_map, Function.comp_def, List.append_assoc, List.singleton_append]
        · rw [if_neg hnarrow, if_neg fun hh => hnarrow hh.2]
          rfl
      · rw [if_neg hfit, if_neg fun hh => hfit hh.1]
        rfl

end Pass

end Wap610n.Survey
