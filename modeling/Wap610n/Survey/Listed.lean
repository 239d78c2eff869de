import Wap610n.Survey.Written

namespace Wap610n.Survey

open Bytes CString Stdio

def records (cells : List Cell) : List UInt8 := List.intercalate [9] (cells.map fun c => c.record)

def Fits : List Cell → Prop
  | [] => True
  | [c] => c.record.length < 130
  | c :: d :: cells => c.record.length + 1 < 130 ∧ Fits (d :: cells)

def shown (cells : List Cell) : List Cell := cells.filter fun c => c.essid ≠ []

def Listed (listing : Listing) (listBuf : List UInt8) : Prop :=
  hnapPrepareApList (some listing.content) listBuf =
    some (((shown listing.cells).length : ℤ),
      listBuf ++ (showNat (shown listing.cells).length ++ text ";" ++ records (shown listing.cells)))

structure CellText.Clear (c : CellText) : Prop where
  lines : ∀ line ∈ c.attributeLines, ¬ text "Cell" <:+: line
  essid : c.essid ≠ []
  levels : ∃ indent l, Attribute.levels indent l ∈ c.attributes
  narrow : ∀ a ∈ c.attributes, a.narrow = true

structure Listing.Clear (listing : Listing) : Prop where
  header : ¬ text "Cell" <:+: listing.header
  cells : ∀ c ∈ listing.cells, c.Clear

theorem records_cons (c d : Cell) (cells : List Cell) :
    records (c :: d :: cells) = c.record ++ 9 :: records (d :: cells) := rfl

theorem records_singleton (c : Cell) : records [c] = c.record := List.append_nil _

theorem Fits.head {c : Cell} {cells : List Cell} (h : Fits (c :: cells)) : c.record.length < 130 := by
  cases cells with
  | nil => exact h
  | cons d cells => exact Nat.lt_of_succ_lt h.1

theorem Fits.tail {c : Cell} {cells : List Cell} (h : Fits (c :: cells)) : Fits cells := by
  cases cells with
  | nil => trivial
  | cons d cells => exact h.2

theorem Fits.essid {cells : List Cell} (h : Fits cells) : ∀ c ∈ cells, c.quotedEssid.length < 128 := by
  induction cells with
  | nil => exact fun _ hc => absurd hc List.not_mem_nil
  | cons c cells ih =>
    refine List.forall_mem_cons.mpr ⟨?_, ih h.tail⟩
    have hle : c.quotedEssid.length + 17 ≤ c.record.length := c.ap_essid ▸ essid_length_le c.ap _
    have := h.head
    omega

theorem Cell.record_eq {c : Cell} {l : Levels} (h : c.levels = some l) : c.record = apInfo c.ap l := by
  rw [CellText.record, h, Option.getD_some]

theorem written_eq {old : Option Levels} {c : Cell} {cells : List Cell} (hfits : Fits (c :: cells))
    (hlevels : ∀ d ∈ c :: cells, d.levels.isSome) (hnarrow : ∀ d ∈ cells, d.narrow = true) :
    written old c cells = some (records (c :: cells)) := by
  induction cells generalizing c old with
  | nil =>
    obtain ⟨l, hl⟩ := Option.isSome_iff_exists.mp (hlevels c List.mem_cons_self)
    rw [written, hl, Option.some_or, Option.bind_some, ← c.record_eq hl, if_pos hfits.head, records_singleton]
  | cons d cells ih =>
    rw [List.forall_mem_cons] at hlevels hnarrow
    obtain ⟨l, hl⟩ := Option.isSome_iff_exists.mp hlevels.1
    rw [written, hl, Option.some_or, Option.bind_some, ← c.record_eq hl, if_pos ⟨hfits.1, hnarrow.1⟩,
      ih hfits.2 hlevels.2 hnarrow.2, Option.map_some, records_cons]

theorem record_le {old : Option Levels} (hold : ∀ l ∈ old, 0 < l.quality.length) {c : Cell} {l : Levels}
    (h : c.levels.or old = some l) :
    0 < l.quality.length ∧ c.record.length ≤ (apInfo c.ap l).length ∧
      ((apInfo c.ap l).length ≤ c.record.length → c.levels.isSome) := by
  cases hlevels : c.levels with
  | some own =>
    obtain rfl : own = l := by simpa [hlevels] using h
    exact ⟨c.quality_pos hlevels, (congrArg List.length (c.record_eq hlevels)).le, fun _ => rfl⟩
  | none =>
    rw [hlevels, Option.none_or] at h
    have hrecord : c.record = apInfo c.ap ⟨[], [], []⟩ := by rw [CellText.record, hlevels, Option.getD_none]
    have hpos := hold l h
    have hlen := apInfo_length c.ap l
    rw [hrecord]
    exact ⟨hpos, by omega, fun _ => by omega⟩

theorem written_length {old : Option Levels} (hold : ∀ l ∈ old, 0 < l.quality.length) {c : Cell} {cells : List Cell}
    {r : List UInt8} (h : written old c cells = some r) :
    (records (c :: cells)).length ≤ r.length ∧ (∀ d ∈ cells, d.narrow = true) ∧
      (r.length ≤ (records (c :: cells)).length → ∀ d ∈ c :: cells, d.levels.isSome) := by
  induction cells generalizing c old r with
  | nil =>
    rw [written] at h
    obtain ⟨l, hl, hr⟩ := Option.bind_eq_some_iff.mp h
    obtain ⟨-, hle, hsome⟩ := record_le hold hl
    split_ifs at hr
    obtain rfl := Option.some.inj hr
    rw [records_singleton]
    refine ⟨hle, fun _ hd => absurd hd List.not_mem_nil, fun hlen => ?_⟩
    exact List.forall_mem_singleton.mpr (hsome hlen)
  | cons d cells ih =>
    rw [written] at h
    obtain ⟨l, hl, hr⟩ := Option.bind_eq_some_iff.mp h
    obtain ⟨hpos, hle, hsome⟩ := record_le hold hl
    split_ifs at hr with hfit
    obtain ⟨r, hrest, rfl⟩ := Option.map_eq_some_iff.mp hr
    obtain ⟨hmore, hnarrow, hlevels⟩ := ih (fun l' hl' => Option.some.inj hl' ▸ hpos) hrest
    rw [records_cons, List.length_append, List.length_append, List.length_cons, List.length_cons]
    refine ⟨by omega, List.forall_mem_cons.mpr ⟨hfit.2, hnarrow⟩, fun hlen => ?_⟩
    exact List.forall_mem_cons.mpr ⟨hsome (by omega), hlevels (by omega)⟩

theorem written_eq_records_iff {c : Cell} {cells : List Cell} (hfits : Fits (c :: cells)) :
    written none c cells = some (records (c :: cells)) ↔
      (∀ d ∈ c :: cells, d.levels.isSome) ∧ ∀ d ∈ cells, d.narrow = true := by
  constructor
  · intro h
    obtain ⟨-, hnarrow, hlevels⟩ := written_length (fun _ hl => by cases hl) h
    exact ⟨hlevels le_rfl, hnarrow⟩
  · rintro ⟨hlevels, hnarrow⟩
    exact written_eq hfits hlevels hnarrow

end Wap610n.Survey
