import Wap610n.Switch.LinkUtil

namespace Wap610n.Switch

open Bytes CString Stdio Inet Kernel

def defaultGw (config : List UInt8) : Option (List UInt8) := (awkValues (text "default_gw") config).head?

def gatewayAddress (config : List UInt8) : Option (BitVec 32) := (defaultGw config).bind inetAton

def Complete (e : ArpEntry) : Prop := e.ha ≠ List.replicate 6 0 ∧ e.flags ≠ 0

def LinkDetected (config : List UInt8) (entries : List ArpEntry) : Prop :=
  ∃ r, detectLayer3LinkByPackets config (arpSeqShow entries) = some r ∧
    (r = 1 ↔ ∃ a ∈ gatewayAddress config, ∃ e ∈ entries, e.primaryKey = a ∧ Complete e) ∧
    (r = -1 ↔ gatewayAddress config = none ∨ gatewayAddress config = some 0)

section Gateway

variable {config t : List UInt8}

theorem getClientGateway_absent (h : defaultGw config = none) : getClientGateway config = (0, text "0.0.0.0") := by
  have hnil : awkValues (text "default_gw") config = [] := List.head?_eq_none_iff.mp h
  rw [getClientGateway, getConfig, hnil]
  rfl

theorem getConfig_eq (h : defaultGw config = some t) (ht : ∀ c ∈ t, isAddressChar c = true) :
    getConfig (text "default_gw") config = (0, (t ++ [10]).take 511) := by
  obtain ⟨rest, hvalues⟩ := List.head?_eq_some_iff.mp h
  have hline : 10 ∉ t := fun hmem => absurd (ht 10 hmem) (by decide)
  have hnul : 0 ∉ (t ++ [10]).take 511 := by
    intro hmem
    rcases List.mem_append.mp (List.mem_of_mem_take hmem) with hmem | hmem
    · exact absurd (ht 0 hmem) (by decide)
    · exact absurd hmem (by decide)
  rw [getConfig, hvalues, List.flatMap_cons, List.append_assoc, List.singleton_append,
    head?_lines hline (by decide)]
  exact Prod.ext rfl (upTo_of_notMem hnul)

theorem getClientGateway_eq (h : defaultGw config = some t) (ht : ∀ c ∈ t, isAddressChar c = true) :
    getClientGateway config = if 15 ≤ t.length then (-1, []) else (0, t ++ [10]) := by
  have hlen : (t ++ [10]).length = t.length + 1 := List.length_append
  rw [getClientGateway, getConfig_eq h ht]
  dsimp only
  rw [List.length_take, hlen]
  by_cases hlong : 15 ≤ t.length
  · rw [if_pos (by omega), if_pos hlong]
  · rw [if_neg (by omega), if_pos (by omega), if_neg hlong, List.take_of_length_le (by omega)]

theorem detect_absent (h : defaultGw config = none) (arpTable : List UInt8) :
    detectLayer3LinkByPackets config arpTable = some (-1) := by
  rw [detectLayer3LinkByPackets, getClientGateway_absent h]
  rfl

theorem detect_eq (h : defaultGw config = some t) (ht : ∀ c ∈ t, isAddressChar c = true) (entries : List ArpEntry) :
    detectLayer3LinkByPackets config (arpSeqShow entries) =
      if 15 ≤ t.length then some (-1) else if ∀ e ∈ entries, e.dev.length < 8 then some 0 else none := by
  have hzero : t ++ [10] ≠ text "0.0.0.0" := by
    intro heq
    have hmem : (10 : UInt8) ∈ text "0.0.0.0" := heq ▸ List.mem_append_right t (List.mem_singleton_self 10)
    exact absurd hmem (by decide)
  rw [detectLayer3LinkByPackets, getClientGateway_eq h ht]
  by_cases hlong : 15 ≤ t.length
  · rw [if_pos hlong, if_pos hlong]
    rfl
  · rw [if_neg hlong, if_neg hlong]
    dsimp only
    rw [if_neg (by decide), if_neg hzero, checkGatewayInArptable, lines_arpSeqShow, arpLoop_newline]

theorem linkDetected_of_ne_one {entries : List ArpEntry} {a : BitVec 32} {r : ℤ}
    (hr : detectLayer3LinkByPackets config (arpSeqShow entries) = some r) (hne : r ≠ 1)
    (hg : gatewayAddress config = some a) :
    LinkDetected config entries ↔ (r = -1 ↔ a = 0) ∧ ∀ e ∈ entries, e.primaryKey = a → ¬Complete e := by
  have hzero : (some a = none ∨ some a = some 0) ↔ a = 0 := by simp
  unfold LinkDetected
  rw [hr, hg]
  constructor
  · rintro ⟨r', hr', hone, hminus⟩
    obtain rfl := Option.some.inj hr'
    refine ⟨hminus.trans hzero, ?_⟩
    intro e he hkey hcomplete
    exact hne (hone.mpr ⟨a, rfl, e, he, hkey, hcomplete⟩)
  · rintro ⟨hminus, hall⟩
    refine ⟨r, rfl, iff_of_false hne ?_, hminus.trans hzero.symm⟩
    rintro ⟨b, hb, e, he, hkey, hcomplete⟩
    obtain rfl := Option.some.inj hb
    exact hall e he hkey hcomplete

theorem not_linkDetected_empty (h : defaultGw config = some []) (entries : List ArpEntry) :
    ¬LinkDetected config entries := by
  have hg : gatewayAddress config = none := by
    rw [gatewayAddress, h]
    rfl
  have hdetect := detect_eq h (fun c hc => absurd hc List.not_mem_nil) entries
  rw [if_neg (by decide)] at hdetect
  rintro ⟨r, hr, -, hminus⟩
  rw [hdetect] at hr
  split_ifs at hr
  obtain rfl := Option.some.inj hr
  exact absurd (hminus.mpr (Or.inl hg)) (by decide)

theorem linkDetected_address (h : defaultGw config = some t) (ht : ∀ c ∈ t, isAddressChar c = true) {a : BitVec 32}
    (ha : inetAton t = some a) (entries : List ArpEntry) :
    LinkDetected config entries ↔ (a = 0 ↔ 15 ≤ t.length) ∧ (∀ e ∈ entries, e.primaryKey = a → ¬Complete e) ∧
      (t.length < 15 → ∀ e ∈ entries, e.dev.length < 8) := by
  have hg : gatewayAddress config = some a := by rw [gatewayAddress, h, Option.bind_some, ha]
  have hdetect := detect_eq h ht entries
  by_cases hlong : 15 ≤ t.length
  · rw [if_pos hlong] at hdetect
    rw [linkDetected_of_ne_one hdetect (by decide) hg, iff_true_left rfl, iff_true_right hlong]
    exact and_congr_right fun _ => (and_iff_left fun hshort => absurd hlong (Nat.not_le_of_lt hshort)).symm
  rw [if_neg hlong] at hdetect
  by_cases hfit : ∀ e ∈ entries, e.dev.length < 8
  · rw [if_pos hfit] at hdetect
    rw [linkDetected_of_ne_one hdetect (by decide) hg, iff_false_left (show (0 : ℤ) ≠ -1 by decide),
      iff_false_right hlong]
    exact and_congr_right fun _ => (and_iff_left fun _ => hfit).symm
  · rw [if_neg hfit] at hdetect
    refine iff_of_false ?_ fun hall => hfit (hall.2.2 (Nat.lt_of_not_le hlong))
    rintro ⟨r, hr, -⟩
    exact absurd (hdetect.symm.trans hr) (by simp)

theorem linkDetected_iff (hvalue : ∀ t, defaultGw config = some t →
      (∀ c ∈ t, isAddressChar c = true) ∧ (t ≠ [] → (inetAton t).isSome = true)) (entries : List ArpEntry) :
    LinkDetected config entries ↔ defaultGw config = none ∨
      ∃ t a, defaultGw config = some t ∧ inetAton t = some a ∧ (a = 0 ↔ 15 ≤ t.length) ∧
        (∀ e ∈ entries, e.primaryKey = a → ¬Complete e) ∧ (t.length < 15 → ∀ e ∈ entries, e.dev.length < 8) := by
  cases hgw : defaultGw config with
  | none =>
    have hg : gatewayAddress config = none := by rw [gatewayAddress, hgw, Option.bind_none]
    exact iff_of_true ⟨-1, detect_absent hgw _, by simp [hg], by simp [hg]⟩ (Or.inl rfl)
  | some t =>
    obtain ⟨ht, haton⟩ := hvalue t hgw
    cases ha : inetAton t with
    | none =>
      have hnil : t = [] := by
        by_contra hne
        exact absurd (haton hne) (by rw [ha]; decide)
      subst hnil
      refine iff_of_false (not_linkDetected_empty hgw entries) ?_
      rintro (hnone | ⟨t, a, hsome, haddr, -⟩)
      · cases hnone
      · obtain rfl := Option.some.inj hsome
        exact absurd (ha.symm.trans haddr) (by simp)
    | some a =>
      rw [linkDetected_address hgw ht ha]
      constructor
      · intro h
        exact Or.inr ⟨t, a, rfl, ha, h⟩
      · rintro (hnone | ⟨t', a', hsome, haddr, h⟩)
        · cases hnone
        · obtain rfl := Option.some.inj hsome
          obtain rfl := Option.some.inj (ha.symm.trans haddr)
          exact h

def arpEntry : ArpEntry where
  primaryKey := 0xc0a80101
  hatype := 1
  flags := 2
  ha := [0x00, 0x14, 0xd1, 0x40, 0x50, 0x60]
  dev := text "br0"
  ha_length := rfl
  dev_word := ⟨by decide, forall_mem_of_all (by decide)⟩
  dev_nul := by decide
  dev_length := by decide

theorem defaultGw_example : defaultGw (text "default_gw=192.168.1.1\n") = some (text "192.168.1.1") := by decide

def twoEntries : List ArpEntry := [{ arpEntry with primaryKey := 0xc0a80105 }, { arpEntry with flags := 0 }]

theorem linkDetected_two_entries :
    LinkDetected (text "default_gw=192.168.1.1\n") twoEntries ↔ defaultGw (text "default_gw=192.168.1.1\n") = none ∨
      ∃ t a, defaultGw (text "default_gw=192.168.1.1\n") = some t ∧ inetAton t = some a ∧ (a = 0 ↔ 15 ≤ t.length) ∧
        (∀ e ∈ twoEntries, e.primaryKey = a → ¬Complete e) ∧ (t.length < 15 → ∀ e ∈ twoEntries, e.dev.length < 8) := by
  apply linkDetected_iff
  intro t ht
  obtain rfl := Option.some.inj (defaultGw_example.symm.trans ht)
  exact ⟨forall_mem_of_all (by decide), fun _ => by decide⟩

theorem gateway_not_found :
    gatewayAddress (text "default_gw=192.168.1.1\n") = some arpEntry.primaryKey ∧ Complete arpEntry ∧
      detectLayer3LinkByPackets (text "default_gw=192.168.1.1\n") (arpSeqShow [arpEntry]) = some 0 ∧
      ¬LinkDetected (text "default_gw=192.168.1.1\n") [arpEntry] := by
  have haddress : gatewayAddress (text "default_gw=192.168.1.1\n") = some arpEntry.primaryKey := by
    rw [gatewayAddress, defaultGw_example]
    decide
  have hcomplete : Complete arpEntry := by
    unfold Complete
    decide
  have hdetect := detect_eq defaultGw_example (forall_mem_of_all (by decide)) [arpEntry]
  rw [if_neg (by decide), if_pos (by decide)] at hdetect
  refine ⟨haddress, hcomplete, hdetect, ?_⟩
  rw [linkDetected_of_ne_one hdetect (by decide) haddress]
  intro h
  exact h.2 arpEntry List.mem_cons_self rfl hcomplete

end Gateway

end Wap610n.Switch
