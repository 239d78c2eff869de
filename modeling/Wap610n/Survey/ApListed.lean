import Wap610n.Survey.Count

namespace Wap610n.Survey

open Bytes CString Stdio

theorem Listing.countP_plain {listing : Listing} (hheader : ¬ text "Cell" <:+: listing.header)
    (hlines : ∀ c ∈ listing.cells, ∀ line ∈ c.attributeLines, ¬ text "Cell" <:+: line) :
    (listing.header :: cellLines listing.cells).countP (has "Cell") = listing.cells.length := by
  have hnone : (listing.cells.flatMap fun c => c.attributeLines).countP (has "Cell") = 0 := by
    rw [List.countP_eq_zero]
    intro line hline hcell
    obtain ⟨c, hc, hmem⟩ := List.mem_flatMap.mp hline
    exact hlines c hc line hmem (has_iff.mp hcell)
  rw [List.countP_cons_of_neg (fun h => hheader (has_iff.mp h)), countP_cellLines, hnone, Nat.add_zero]

theorem shown_eq {cells : List Cell} (h : ∀ c ∈ cells, c.essid ≠ []) : shown cells = cells := by
  rw [shown, List.filter_eq_self]
  intro c hc
  exact decide_eq_true (h c hc)

theorem pass_iff {cells : List Cell} (hfits : Fits cells) (hessid : ∀ c ∈ cells, c.essid ≠ [])
    (hlines : ∀ c ∈ cells, ∀ line ∈ c.attributeLines, ¬ text "Cell" <:+: line) (numOfAp : ℤ) (buf : List UInt8) :
    (((cellLines cells).map (· ++ [10])).foldlM lineStep ⟨Ap.cleared, none, true, 0, numOfAp, buf⟩).bind lastAp =
        some (numOfAp, buf ++ records cells) ↔
      ∀ c ∈ cells, c.levels.isSome ∧ c.narrow = true := by
  cases cells with
  | nil => exact iff_of_true (congrArg (fun b => some (numOfAp, b)) (List.append_nil buf).symm) (by simp)
  | cons c cells =>
    have hlen := hfits.essid
    rw [List.forall_mem_cons] at hlines hlen
    rw [cellLines, List.flatMap_cons, List.map_append, List.foldlM_append, cell_run c hlen.1 hlines.1]
    by_cases hnarrow : c.narrow = true
    · have hwithin : Within c none ⟨c.ap, c.levels.or none, false, 1, numOfAp, buf⟩ := ⟨rfl, rfl, rfl, one_ne_zero⟩
      have hrest := rest_run hwithin hessid hlen.2 hlines.2
      rw [if_pos rfl, Option.bind_some, if_pos hnarrow]
      refine (Eq.congr_left hrest).trans ?_
      constructor
      · intro h
        obtain ⟨r, hr, heq⟩ := Option.map_eq_some_iff.mp h
        obtain rfl := List.append_cancel_left (Prod.mk.inj heq).2
        obtain ⟨hlevels, hall⟩ := (written_eq_records_iff hfits).mp hr
        rw [List.forall_mem_cons] at hlevels
        exact List.forall_mem_cons.mpr ⟨⟨hlevels.1, hnarrow⟩, fun d hd => ⟨hlevels.2 d hd, hall d hd⟩⟩
      · intro h
        have hr := (written_eq_records_iff hfits).mpr
          ⟨fun d hd => (h d hd).1, fun d hd => (h d (List.mem_cons_of_mem c hd)).2⟩
        rw [hr, Option.map_some]
    · rw [if_pos rfl, Option.bind_some, if_neg hnarrow]
      refine iff_of_false (fun h => by cases h) fun h => hnarrow (h c List.mem_cons_self).2

def someLevels : Attribute := .levels 20 ⟨text "40", text "-60", text "-95"⟩

def cellText (essid : List UInt8) (after : List Attribute) : CellText :=
  ⟨text "01", text "00:11:22:33:44:55", [.tag (text "  Channel") (text "6")], 20, essid, after⟩

def netCell : Cell :=
  ⟨cellText (text "net") [someLevels], by decide +kernel, rfl, by decide +kernel, by decide +kernel, by decide +kernel⟩

def hiddenCell : Cell :=
  ⟨cellText [] [someLevels], by decide +kernel, rfl, by decide +kernel, by decide +kernel, by decide +kernel⟩

def bareCell : Cell :=
  ⟨cellText (text "bare") [], by decide +kernel, rfl, by decide +kernel, by decide +kernel, by decide +kernel⟩

def scanned (cells : List Cell) : Listing := ⟨text "wlan0     Scan completed :", by decide, cells⟩

theorem netCell_clear : netCell.Clear :=
  ⟨by decide +kernel, by decide, ⟨20, _, List.mem_append_right _ (List.mem_singleton.mpr rfl)⟩, by decide +kernel⟩

end Wap610n.Survey
