import Wap610n.Survey.Listed

namespace Wap610n.Survey

open Bytes CString Stdio

theorem closeAp_grows {s s' : ApScan} (h : closeAp s = some s') : s.listBuf <+: s'.listBuf := by
  obtain ⟨info, -, rfl⟩ := Option.map_eq_some_iff.mp h
  split_ifs
  · exact List.prefix_refl _
  · exact List.prefix_append _ _
  · exact List.prefix_refl _

theorem cellStep_grows {s s' : ApScan} {tmpBuf : List UInt8} (h : cellStep s tmpBuf = some s') :
    s.listBuf <+: s'.listBuf := by
  obtain ⟨u, hu, hs⟩ := Option.bind_eq_some_iff.mp h
  obtain ⟨address, -, rfl⟩ := Option.map_eq_some_iff.mp hs
  split_ifs at hu
  · exact Option.some.inj hu ▸ List.prefix_refl _
  · have hgrows : s.listBuf <+: u.listBuf := closeAp_grows hu
    exact hgrows

theorem tagStep_listBuf {s s' : ApScan} {tmpBuf colon : List UInt8} (h : tagStep s tmpBuf colon = some s') :
    s'.listBuf = s.listBuf := by
  obtain ⟨_, -, hs⟩ := Option.bind_eq_some_iff.mp h
  dsimp only at hs
  split_ifs at hs <;> exact Option.some.inj hs ▸ rfl

theorem lineStep_grows {s s' : ApScan} {line : List UInt8} (h : lineStep s line = some s') :
    s.listBuf <+: s'.listBuf := by
  rw [lineStep] at h
  split at h
  · exact cellStep_grows h
  · split at h
    · exact (tagStep_listBuf h) ▸ List.prefix_refl _
    · split_ifs at h
      · obtain ⟨levels, -, rfl⟩ := Option.map_eq_some_iff.mp h
        exact List.prefix_refl _
      · exact Option.some.inj h ▸ List.prefix_refl _

theorem run_grows {ls : List (List UInt8)} {s s' : ApScan} (h : ls.foldlM lineStep s = some s') :
    s.listBuf <+: s'.listBuf := by
  induction ls generalizing s with
  | nil => exact Option.some.inj h ▸ List.prefix_refl _
  | cons line ls ih =>
    rw [List.foldlM_cons] at h
    obtain ⟨u, hu, hrest⟩ := Option.bind_eq_some_iff.mp h
    exact (lineStep_grows hu).trans (ih hrest)

theorem lastAp_within {s : ApScan} {r : ℤ × List UInt8} (h : lastAp s = some r) : ∃ x, r.2 <+: s.listBuf ++ x := by
  rw [lastAp] at h
  split at h
  · exact ⟨[], Option.some.inj h ▸ List.prefix_append _ _⟩
  · obtain ⟨info, -, hr⟩ := Option.bind_eq_some_iff.mp h
    split_ifs at hr
    · obtain ⟨endPtr, -, rfl⟩ := Option.map_eq_some_iff.mp hr
      exact ⟨[], (List.take_prefix _ _).trans (List.prefix_append _ _)⟩
    · exact ⟨info, Option.some.inj hr ▸ List.prefix_refl _⟩
    · exact ⟨[], Option.some.inj hr ▸ List.prefix_append _ _⟩

theorem Listing.plain (listing : Listing) : ∀ line ∈ listing.header :: cellLines listing.cells, PlainLine line := by
  refine List.forall_mem_cons.mpr ⟨listing.header_plain, fun line hline => ?_⟩
  obtain ⟨c, -, hc⟩ := List.mem_flatMap.mp hline
  exact c.plain line hc

theorem Listing.lines_content (listing : Listing) :
    lines 1024 listing.content = (listing.header :: cellLines listing.cells).map (· ++ [10]) := by
  apply lines_flatMap
  intro line hline
  have hplain := listing.plain line hline
  have := hplain.short
  exact ⟨hplain.lineEnd, by omega⟩

theorem countCells_lines {ls : List (List UInt8)} (h : ∀ line ∈ ls, PlainLine line) :
    countCells (ls.map (· ++ [10])) = ls.countP (has "Cell") := by
  rw [countCells, List.countP_map]
  apply List.countP_congr
  intro line hline
  rw [Function.comp_apply, upTo_line (h line hline), has_line (by decide), has_iff]

theorem countP_cellLines (cells : List Cell) :
    (cellLines cells).countP (has "Cell") =
      cells.length + (cells.flatMap fun c => c.attributeLines).countP (has "Cell") := by
  induction cells with
  | nil => rfl
  | cons c cells ih =>
    have hhead : has "Cell" c.head = true := has_iff.mpr c.head_infix
    rw [cellLines] at ih ⊢
    rw [List.flatMap_cons, List.flatMap_cons, List.cons_append, List.countP_cons_of_pos hhead, List.countP_append,
      List.countP_append, ih, List.length_cons]
    omega

theorem count_of_listed {listing : Listing} {listBuf : List UInt8} (h : Listed listing listBuf) :
    (listing.header :: cellLines listing.cells).countP (has "Cell") = (shown listing.cells).length := by
  rw [Listed, hnapPrepareApList, listing.lines_content, countCells_lines listing.plain] at h
  obtain ⟨s, hrun, hlast⟩ := Option.bind_eq_some_iff.mp h
  obtain ⟨x, hx⟩ := lastAp_within hlast
  obtain ⟨y, hy⟩ := run_grows hrun
  rw [← hy] at hx
  simp only [List.append_assoc, List.prefix_append_right_inj] at hx
  obtain ⟨z, hz⟩ := hx
  have hread := congrArg (decimal 0) hz
  rw [List.append_assoc, decimal_showNat, decimal_showNat] at hread
  exact hread.symm

theorem plain_of_listed {listing : Listing} {listBuf : List UInt8} (h : Listed listing listBuf) :
    ¬ text "Cell" <:+: listing.header ∧
      ∀ c ∈ listing.cells, c.essid ≠ [] ∧ ∀ line ∈ c.attributeLines, ¬ text "Cell" <:+: line := by
  have hcount := count_of_listed h
  have hshown : (shown listing.cells).length ≤ listing.cells.length := List.length_filter_le _ _
  rw [List.countP_cons, countP_cellLines] at hcount
  have hnone : (listing.cells.flatMap fun c => c.attributeLines).countP (has "Cell") = 0 := by omega
  have hall : (shown listing.cells).length = listing.cells.length := by omega
  rw [List.countP_eq_zero] at hnone
  rw [shown, List.length_filter_eq_length_iff] at hall
  refine ⟨fun hheader => ?_, fun c hc => ⟨of_decide_eq_true (hall c hc), fun line hline hcell => ?_⟩⟩
  · rw [if_pos (has_iff.mpr hheader)] at hcount
    omega
  · exact hnone line (List.mem_flatMap.mpr ⟨c, hc, hline⟩) (has_iff.mpr hcell)

end Wap610n.Survey
