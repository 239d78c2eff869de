import Wap610n.Web.Bridge

namespace Wap610n.Web

open Bytes CString Stdio

section Interfaces

theorem wlsPortLoop_eq (portNum : ℤ) (reads : List (List UInt8)) :
    wlsPortLoop portNum reads = (((reads.filter fun buff => ¬Contains (text "bridge name") buff).findIdx? fun row =>
      Contains (text "wlan0") row).map fun i : ℕ => (i : ℤ) + portNum).getD (-1) := by
  induction reads generalizing portNum with
  | nil => rfl
  | cons buff reads ih =>
    rw [wlsPortLoop]
    by_cases hhead : Contains (text "bridge name") buff
    · rw [if_pos hhead, List.filter_cons_of_neg (by simpa using hhead)]
      exact ih portNum
    rw [if_neg hhead, List.filter_cons_of_pos (by simpa using hhead), List.findIdx?_cons]
    by_cases hwlan : Contains (text "wlan0") buff
    · simp [hwlan]
    · rw [if_neg hwlan, ih, if_neg (by simpa using hwlan), Option.map_map]
      congr 2
      funext i
      simp only [Function.comp_apply]
      omega

theorem findIdx?_twice (p : List UInt8 → Bool) (init : List (List UInt8)) (last : List UInt8) :
    (init ++ [last, last]).findIdx? p = (init ++ [last]).findIdx? p := by
  rw [List.findIdx?_append, List.findIdx?_append, List.findIdx?_cons, List.findIdx?_cons]
  cases hlast : p last with
  | true => rfl
  | false => simp

theorem find?_twice (p : List UInt8 → Bool) (init : List (List UInt8)) (last : List UInt8) :
    (init ++ [last, last]).find? p = (init ++ [last]).find? p := by
  rw [List.find?_append, List.find?_append, List.find?_cons, List.find?_cons]
  cases hlast : p last with
  | true => rfl
  | false => simp

theorem getWLSBridgePort_eq_some {l : Listings} {wls : ℤ} :
    getWLSBridgePort l.brctlShow = some wls ↔
      (∀ content ∈ l.brctlShow, content ≠ []) ∧ l.wlanPort.getD (-1) = wls := by
  unfold Listings.wlanPort
  cases l.brctlShow with
  | none => simp [getWLSBridgePort]
  | some content =>
    rw [getWLSBridgePort, Option.bind_some]
    by_cases hempty : content = []
    · simp [hempty, feofReads_nil]
    obtain ⟨reads, hreads, hrows⟩ := filter_feofReads 255 hempty fun buff => ¬Contains (text "bridge name") buff
    have hloop : wlsPortLoop 1 reads = (((rows "bridge name" content).findIdx? fun row =>
        Contains (text "wlan0") row).map fun i : ℕ => (i : ℤ) + 1).getD (-1) := by
      rw [wlsPortLoop_eq]
      rcases hrows with hsame | ⟨init, last, hrows, htwice⟩
      · rw [hsame, rows]
      · rw [htwice, findIdx?_twice, rows, hrows]
    simp [hreads, hloop, hempty]

end Interfaces

section Macs

variable {mac : List UInt8}

theorem macFits_nil : MacFits mac [] := by
  intro before row hinit
  simp at hinit

theorem macFits_cons {row : List UInt8} {table : List (List UInt8)} :
    MacFits mac (row :: table) ↔ Fit [20, 30] (upTo 0 row) ∧ (¬OfMac mac row → MacFits mac table) := by
  constructor
  · intro h
    refine ⟨h [] row (by simp) (by simp), ?_⟩
    intro hrow before r hinit hbefore
    apply h (row :: before) r (List.cons_prefix_cons.mpr ⟨rfl, hinit⟩)
    rw [List.forall_mem_cons]
    exact ⟨hrow, hbefore⟩
  · rintro ⟨hfit, hrest⟩ before r hinit hbefore
    cases before with
    | nil =>
      obtain ⟨rfl, -⟩ := List.cons_prefix_cons.mp hinit
      exact hfit
    | cons b before =>
      obtain ⟨rfl, htail⟩ := List.cons_prefix_cons.mp hinit
      rw [List.forall_mem_cons] at hbefore
      exact hrest hbefore.1 before r htail hbefore.2

theorem macPortLoop_cons {buff : List UInt8} (hhead : ¬Contains (text "port no mac addr") buff)
    (port macaddr : Option (List UInt8)) (reads : List (List UInt8)) :
    macPortLoop mac port macaddr (buff :: reads) =
      if Fit [20, 30] (upTo 0 buff) then
        ((macFields buff)[1]?.or macaddr).bind fun m =>
          if m ≠ [] ∧ m = mac then ((macFields buff)[0]?.or port).map atoi
          else macPortLoop mac ((macFields buff)[0]?.or port) ((macFields buff)[1]?.or macaddr) reads
      else none := by
  have hscan := sscanf_words [20, 30] (upTo 0 buff)
  rw [List.map_cons, List.map_singleton] at hscan
  rw [macPortLoop, if_neg hhead, hscan]
  split_ifs
  · rw [Option.bind_some]
    dsimp only
    rw [storeWord_words, storeWord_words]
    rfl
  · rfl

theorem macPortLoop_eq_some {port macaddr : Option (List UInt8)} (hstale : ∀ m ∈ macaddr, ¬(m ≠ [] ∧ m = mac))
    {reads : List (List UInt8)} {n : ℤ} :
    macPortLoop mac port macaddr reads = some n ↔
      MacFits mac (reads.filter fun buff => ¬Contains (text "port no mac addr") buff) ∧
      (macaddr = none → ∀ row ∈ (reads.filter fun buff => ¬Contains (text "port no mac addr") buff).head?,
        2 ≤ (macFields row).length) ∧
      (((reads.filter fun buff => ¬Contains (text "port no mac addr") buff).find? fun row => OfMac mac row).map
        fun row => atoi ((macFields row).headD [])).getD (-1) = n := by
  induction reads generalizing port macaddr with
  | nil => simp [macPortLoop, macFits_nil]
  | cons buff reads ih =>
    by_cases hhead : Contains (text "port no mac addr") buff
    · rw [macPortLoop, if_pos hhead, List.filter_cons_of_neg (by simpa using hhead)]
      exact ih hstale
    rw [macPortLoop_cons hhead, List.filter_cons_of_pos (by simpa using hhead), macFits_cons, List.head?_cons,
      List.find?_cons]
    by_cases hfit : Fit [20, 30] (upTo 0 buff)
    swap
    · simp [hfit]
    rw [if_pos hfit]
    cases hsecond : (macFields buff)[1]? with
    | some m =>
      have hlen : 2 ≤ (macFields buff).length := (List.getElem?_eq_some_iff.mp hsecond).1
      rw [Option.some_or, Option.bind_some]
      by_cases hmac : m = mac
      · have hne : m ≠ [] := ne_nil_of_mem_fields (List.mem_of_getElem? hsecond)
        have hof : OfMac mac buff := by rw [OfMac, hsecond, hmac]
        have hfirst : (macFields buff)[0]?.or port = some ((macFields buff).headD []) := by
          obtain ⟨w, ws, hws⟩ := List.exists_cons_of_length_pos (Nat.zero_lt_two.trans_le hlen)
          rw [hws]
          rfl
        rw [if_pos ⟨hne, hmac⟩, hfirst]
        simp [hfit, hof, hlen]
      · have hof : ¬OfMac mac buff := by
          rw [OfMac, hsecond]
          exact fun h => hmac (Option.some.inj h)
        have hnot : ∀ m' ∈ some m, ¬(m' ≠ [] ∧ m' = mac) := by
          rintro m' ⟨⟩ h
          exact hmac h.2
        rw [if_neg fun h => hmac h.2, ih hnot]
        simp [hfit, hof, hlen]
    | none =>
      have hof : ¬OfMac mac buff := by
        rw [OfMac, hsecond]
        exact (Option.some_ne_none _).symm
      cases macaddr with
      | none =>
        have hshort : ¬2 ≤ (macFields buff).length := by
          have := List.getElem?_eq_none_iff.mp hsecond
          omega
        simp [hshort]
      | some m =>
        rw [Option.none_or, Option.bind_some, if_neg (hstale m rfl), ih hstale]
        simp [hfit, hof]

theorem macFits_twice (init : List (List UInt8)) (last : List UInt8) :
    MacFits mac (init ++ [last, last]) ↔ MacFits mac (init ++ [last]) := by
  have hsplit : init ++ [last, last] = (init ++ [last]) ++ [last] := by simp
  rw [hsplit]
  constructor
  · intro h before row hinit
    exact h before row (hinit.trans (List.prefix_append _ _))
  · intro h before row hinit hbefore
    rcases List.prefix_concat_iff.mp hinit with heq | hinit
    · obtain ⟨rfl, hlast⟩ := List.append_inj' heq rfl
      obtain rfl := List.singleton_inj.mp hlast
      exact h init row (List.prefix_refl _) fun r hr => hbefore r (List.mem_append_left _ hr)
    · exact h before row hinit hbefore

theorem getBridgPortForMAC_eq_some {l : Listings} {n : ℤ} :
    getBridgPortForMAC l.brctlShowmacs mac = some n ↔
      (∀ content ∈ l.brctlShowmacs, content ≠ [] ∧ MacLegible mac (rows "port no mac addr" content)) ∧
      (l.macPort mac).getD (-1) = n := by
  unfold Listings.macPort
  cases l.brctlShowmacs with
  | none => simp [getBridgPortForMAC]
  | some content =>
    rw [getBridgPortForMAC, Option.bind_some]
    by_cases hempty : content = []
    · simp [hempty, feofReads_nil]
    obtain ⟨reads, hreads, hrows⟩ := filter_feofReads 255 hempty fun buff => ¬Contains (text "port no mac addr") buff
    have hnone : ∀ m ∈ (none : Option (List UInt8)), ¬(m ≠ [] ∧ m = mac) := fun _ hm => by cases hm
    rw [hreads, Option.bind_some, macPortLoop_eq_some hnone]
    simp only [Option.mem_some, forall_eq', forall_const, ne_eq, hempty, not_false_eq_true, true_and, MacLegible,
      and_assoc, rows]
    rcases hrows with hsame | ⟨init, last, hrows, htwice⟩
    · rw [hsame]
    · rw [htwice, hrows, find?_twice, macFits_twice]
      cases init <;> rfl

end Macs

section Arp

variable {ip : List UInt8}

theorem lastField_concat (i : ℕ) (table : List (List UInt8)) (row : List UInt8) :
    lastField i (table ++ [row]) = (arpFields row)[i]?.or (lastField i table) := by
  rw [lastField, List.reverse_concat, List.findSome?_cons, lastField]
  cases (arpFields row)[i]? <;> rfl

theorem lastField_eq_none {i : ℕ} {table : List (List UInt8)} :
    lastField i table = none ↔ ∀ row ∈ table, (arpFields row).length ≤ i := by
  rw [lastField, List.findSome?_eq_none_iff]
  simp only [List.mem_reverse, List.getElem?_eq_none_iff]

theorem leftMac_concat {row : List UInt8} (hrow : ¬OfAddress ip row) (table : List (List UInt8)) :
    leftMac ip (table ++ [row]) = leftMac ip table := by
  rw [leftMac, List.reverse_concat, List.dropWhile_cons_of_pos (by simpa using hrow), leftMac]

theorem leftMac_of_last {table : List (List UInt8)} (h : lastField 0 table = some ip) :
    leftMac ip table = (lastField 3 table).getD [] := by
  unfold lastField at h
  unfold leftMac lastField
  congr 1
  generalize table.reverse = upwards at h ⊢
  induction upwards with
  | nil => rfl
  | cons row upwards ih =>
    rw [List.findSome?_cons] at h
    cases hfirst : (arpFields row)[0]? with
    | some a =>
      rw [hfirst] at h
      have hof : OfAddress ip row := by rw [OfAddress, List.head?_eq_getElem?, hfirst, Option.some.inj h]
      rw [List.dropWhile_cons_of_neg (by simpa using hof)]
    | none =>
      rw [hfirst] at h
      have hempty : arpFields row = [] := by simpa using hfirst
      rw [List.dropWhile_cons_of_pos (by simp [OfAddress, hempty]), List.findSome?_cons, hempty]
      exact ih h

theorem arpLegible_nil : ArpLegible ip [] := by
  intro before row hinit
  simp at hinit

theorem arpLegible_concat {table : List (List UInt8)} {row : List UInt8} :
    ArpLegible ip (table ++ [row]) ↔ ArpLegible ip table ∧ Fit [30, 30, 30, 30] (upTo 0 row) ∧
      (table = [] → arpFields row ≠ []) ∧ (OfAddress ip row → ∃ r ∈ table ++ [row], 4 ≤ (arpFields r).length) := by
  constructor
  · intro h
    exact ⟨fun before r hinit => h before r (hinit.trans (List.prefix_append _ _)), h table row (List.prefix_refl _)⟩
  · rintro ⟨htable, hrow⟩ before r hinit
    rcases List.prefix_concat_iff.mp hinit with heq | hinit
    · obtain ⟨rfl, hlast⟩ := List.append_inj' heq rfl
      obtain rfl := List.singleton_inj.mp hlast
      exact hrow
    · exact htable before r hinit

theorem ArpLegible.ne_none {table : List (List UInt8)} (h : ArpLegible ip table) (hne : table ≠ []) :
    lastField 0 table ≠ none := by
  obtain ⟨row, table, rfl⟩ := List.exists_cons_of_ne_nil hne
  intro hnone
  have hfirst := (h [] row (by simp)).2.1 rfl
  have hlen := lastField_eq_none.mp hnone row List.mem_cons_self
  exact hfirst (List.eq_nil_of_length_eq_zero (Nat.le_zero.mp hlen))

theorem ArpLegible.mac_ne_none {table : List (List UInt8)} (h : ArpLegible ip table) (hip : lastField 0 table = some ip) :
    lastField 3 table ≠ none := by
  obtain ⟨row, hmem, hrow⟩ := List.exists_of_findSome?_eq_some hip
  obtain ⟨before, after, rfl⟩ := List.append_of_mem (List.mem_reverse.mp hmem)
  have hinit : before ++ [row] <+: before ++ row :: after := ⟨after, by simp⟩
  have hof : OfAddress ip row := by rw [OfAddress, List.head?_eq_getElem?, hrow]
  obtain ⟨r, hr, hlen⟩ := (h before row hinit).2.2 hof
  intro hnone
  have := lastField_eq_none.mp hnone r (hinit.subset hr)
  omega

structure ArpScan where
  ipaddr : Option (List UInt8)
  macaddr : Option (List UInt8)
  mac : List UInt8

def arpTurn (ip : List UInt8) (s : ArpScan) (row : List UInt8) : Option ArpScan :=
  if Fit [30, 30, 30, 30] (upTo 0 row) then
    let ipaddr := (arpFields row)[0]?.or s.ipaddr
    let macaddr := (arpFields row)[3]?.or s.macaddr
    ipaddr.bind fun a =>
      if a ≠ [] ∧ a = ip then macaddr.map fun m => ⟨ipaddr, macaddr, m⟩ else some ⟨ipaddr, macaddr, s.mac⟩
  else none

theorem arpLoop_eq (s : ArpScan) (reads : List (List UInt8)) :
    arpLoop ip s.ipaddr s.macaddr s.mac reads =
      ((reads.filter fun buff => ¬Contains (text "IP address") buff).foldlM (arpTurn ip) s).map ArpScan.mac := by
  induction reads generalizing s with
  | nil => rfl
  | cons buff reads ih =>
    rw [arpLoop]
    by_cases hhead : Contains (text "IP address") buff
    · rw [if_pos hhead, List.filter_cons_of_neg (by simpa using hhead)]
      exact ih s
    have hscan := sscanf_words [30, 30, 30, 30] (upTo 0 buff)
    simp only [List.map_cons, List.map_nil] at hscan
    rw [if_neg hhead, List.filter_cons_of_pos (by simpa using hhead), List.foldlM_cons, hscan, arpTurn]
    by_cases hfit : Fit [30, 30, 30, 30] (upTo 0 buff)
    swap
    · rw [if_neg hfit, if_neg hfit]
      rfl
    rw [if_pos hfit, if_pos hfit, Option.bind_some]
    dsimp only
    rw [storeWord_words, storeWord_words]
    change ((arpFields buff)[0]?.or s.ipaddr).bind (fun a => if a ≠ [] ∧ a = ip then
      ((arpFields buff)[3]?.or s.macaddr).bind fun m => arpLoop ip ((arpFields buff)[0]?.or s.ipaddr)
        ((arpFields buff)[3]?.or s.macaddr) m reads
      else arpLoop ip ((arpFields buff)[0]?.or s.ipaddr) ((arpFields buff)[3]?.or s.macaddr) s.mac reads) = _
    generalize (arpFields buff)[0]?.or s.ipaddr = ipaddr
    generalize (arpFields buff)[3]?.or s.macaddr = macaddr
    cases ipaddr with
    | none => rfl
    | some a =>
      rw [Option.bind_some, Option.bind_some]
      split_ifs
      · cases macaddr with
        | none => rfl
        | some m => exact ih ⟨some a, some m, m⟩
      · exact ih ⟨some a, macaddr, s.mac⟩

theorem ArpLegible.first_ne_none_iff {table : List (List UInt8)} (h : ArpLegible ip table) {row : List UInt8} :
    lastField 0 (table ++ [row]) ≠ none ↔ (table = [] → arpFields row ≠ []) := by
  constructor
  · rintro hne rfl hempty
    exact hne (lastField_eq_none.mpr (by simp [hempty]))
  · intro hrow hnone
    have hnil : table = [] := by
      by_contra hne
      rw [lastField_concat, Option.or_eq_none_iff] at hnone
      exact h.ne_none hne hnone.2
    have hlen := lastField_eq_none.mp hnone row (List.mem_append_right _ (List.mem_singleton_self row))
    exact hrow hnil (List.eq_nil_of_length_eq_zero (Nat.le_zero.mp hlen))

theorem ArpLegible.mac_ne_none_iff {table : List (List UInt8)} (h : ArpLegible ip table) {row : List UInt8}
    (hip : lastField 0 (table ++ [row]) = some ip) :
    lastField 3 (table ++ [row]) ≠ none ↔
      (OfAddress ip row → ∃ r ∈ table ++ [row], 4 ≤ (arpFields r).length) := by
  constructor
  · intro hne _
    obtain ⟨m, hmac⟩ := Option.ne_none_iff_exists'.mp hne
    obtain ⟨r, hr, hm⟩ := List.exists_of_findSome?_eq_some hmac
    exact ⟨r, List.mem_reverse.mp hr, (List.getElem?_eq_some_iff.mp hm).1⟩
  · intro hlong hnone
    by_cases hof : OfAddress ip row
    · obtain ⟨r, hr, hlen⟩ := hlong hof
      have := lastField_eq_none.mp hnone r hr
      omega
    · -- an empty row behind one of the address
      rw [lastField_concat, Option.or_eq_some_iff, ← List.head?_eq_getElem?] at hip
      rw [lastField_concat, Option.or_eq_none_iff] at hnone
      exact h.mac_ne_none (hip.resolve_left hof).2 hnone.2

theorem arpTurn_eq_some {table : List (List UInt8)} (h : ArpLegible ip table) {row : List UInt8} {s : ArpScan} :
    arpTurn ip ⟨lastField 0 table, lastField 3 table, leftMac ip table⟩ row = some s ↔
      (Fit [30, 30, 30, 30] (upTo 0 row) ∧ (table = [] → arpFields row ≠ []) ∧
        (OfAddress ip row → ∃ r ∈ table ++ [row], 4 ≤ (arpFields r).length)) ∧
      ⟨lastField 0 (table ++ [row]), lastField 3 (table ++ [row]), leftMac ip (table ++ [row])⟩ = s := by
  rw [arpTurn, ← h.first_ne_none_iff]
  by_cases hfit : Fit [30, 30, 30, 30] (upTo 0 row)
  swap
  · simp [hfit]
  rw [if_pos hfit]
  dsimp only
  rw [← lastField_concat, ← lastField_concat]
  cases hip : lastField 0 (table ++ [row]) with
  | none => simp
  | some a =>
    have hne : a ≠ [] := by
      obtain ⟨r, -, hr⟩ := List.exists_of_findSome?_eq_some hip
      exact ne_nil_of_mem_fields (List.mem_of_getElem? hr)
    rw [Option.bind_some]
    by_cases ha : a = ip
    · subst ha
      rw [if_pos ⟨hne, rfl⟩, ← h.mac_ne_none_iff hip, leftMac_of_last hip]
      cases lastField 3 (table ++ [row]) with
      | none => simp
      | some m => simp [hfit]
    · have hof : ¬OfAddress ip row := by
        intro hof
        rw [lastField_concat, ← List.head?_eq_getElem?, hof, Option.some_or] at hip
        exact ha (Option.some.inj hip).symm
      rw [if_neg fun hand => ha hand.2, leftMac_concat hof]
      simp [hfit, hof]

theorem arpTurns_eq_some {table : List (List UInt8)} {s : ArpScan} :
    table.foldlM (arpTurn ip) ⟨none, none, []⟩ = some s ↔
      ArpLegible ip table ∧ ⟨lastField 0 table, lastField 3 table, leftMac ip table⟩ = s := by
  induction table using List.reverseRecOn generalizing s with
  | nil => simp [arpLegible_nil, lastField, leftMac, List.foldlM_nil]
  | append_singleton table row ih =>
    rw [List.foldlM_append, Option.bind_eq_bind, Option.bind_eq_some_iff, arpLegible_concat, and_assoc]
    simp only [List.foldlM_cons, List.foldlM_nil, Option.bind_eq_bind, Option.pure_def, Option.bind_fun_some]
    constructor
    · rintro ⟨t, ht, hturn⟩
      obtain ⟨hlegible, rfl⟩ := ih.mp ht
      exact ⟨hlegible, (arpTurn_eq_some hlegible).mp hturn⟩
    · rintro ⟨hlegible, hrow⟩
      exact ⟨_, ih.mpr ⟨hlegible, rfl⟩, (arpTurn_eq_some hlegible).mpr hrow⟩

theorem arpLegible_twice (init : List (List UInt8)) (last : List UInt8) :
    ArpLegible ip (init ++ [last, last]) ↔ ArpLegible ip (init ++ [last]) := by
  have hsplit : init ++ [last, last] = (init ++ [last]) ++ [last] := by simp
  rw [hsplit, arpLegible_concat, and_iff_left_iff_imp]
  intro h
  obtain ⟨-, hfit, -, hmac⟩ := arpLegible_concat.mp h
  refine ⟨hfit, fun hnil => absurd hnil (by simp), fun hof => ?_⟩
  obtain ⟨r, hr, hlen⟩ := hmac hof
  exact ⟨r, List.mem_append_left _ hr, hlen⟩

theorem leftMac_twice (init : List (List UInt8)) (last : List UInt8) :
    leftMac ip (init ++ [last, last]) = leftMac ip (init ++ [last]) := by
  unfold leftMac
  rw [List.reverse_append, List.reverse_append, List.reverse_cons, List.reverse_singleton, List.singleton_append,
    List.singleton_append, List.cons_append]
  by_cases hof : OfAddress ip last
  · rw [List.dropWhile_cons_of_neg (by simpa using hof), List.dropWhile_cons_of_neg (by simpa using hof),
      List.findSome?_cons]
    cases hmac : (arpFields last)[3]? with
    | none => rfl
    | some m => rw [List.findSome?_cons, hmac]
  · rw [List.dropWhile_cons_of_pos (by simpa using hof)]
    rfl

theorem arpTurns_mac {table : List (List UInt8)} {mac : List UInt8} :
    (table.foldlM (arpTurn ip) ⟨none, none, []⟩).map ArpScan.mac = some mac ↔
      ArpLegible ip table ∧ leftMac ip table = mac := by
  rw [Option.map_eq_some_iff]
  constructor
  · rintro ⟨s, hs, rfl⟩
    obtain ⟨h, rfl⟩ := arpTurns_eq_some.mp hs
    exact ⟨h, rfl⟩
  · rintro ⟨h, rfl⟩
    exact ⟨_, arpTurns_eq_some.mpr ⟨h, rfl⟩, rfl⟩

theorem ipToMAC_eq_some {l : Listings} {mac : List UInt8} :
    ipToMAC l.procNetArp ip = some mac ↔
      (∀ content ∈ l.procNetArp, content ≠ [] ∧ ArpLegible ip (rows "IP address" content)) ∧ l.arpMac ip = mac := by
  unfold Listings.arpMac
  cases l.procNetArp with
  | none => simp [ipToMAC]
  | some content =>
    rw [ipToMAC]
    by_cases hempty : content = []
    · simp [hempty, feofReads_nil]
    obtain ⟨reads, hreads, hrows⟩ := filter_feofReads 255 hempty fun buff => ¬Contains (text "IP address") buff
    have hloop := @arpLoop_eq ip ⟨none, none, []⟩ reads
    rw [hreads, Option.bind_some, hloop, arpTurns_mac]
    simp only [Option.mem_some, forall_eq', ne_eq, hempty, not_false_eq_true, true_and, rows, Option.map_some,
      Option.getD_some]
    rcases hrows with hsame | ⟨init, last, hrows, htwice⟩
    · rw [hsame]
    · rw [htwice, hrows, arpLegible_twice, leftMac_twice]

end Arp

namespace Listings

variable {l : Listings} {ip : List UInt8}

theorem isIPFromWLS_eq_some {b : Bool} : l.isIPFromWLS ip = some b ↔
    l.Legible ip ∧ decide ((l.macPort (l.foundMac ip)).getD (-1) = l.wlanPort.getD (-1)) = b := by
  unfold isIPFromWLS
  simp only [Option.bind_eq_some_iff, Option.map_eq_some_iff, ipToMAC_eq_some, getBridgPortForMAC_eq_some,
    getWLSBridgePort_eq_some]
  constructor
  · rintro ⟨mac, ⟨harp, rfl⟩, port, ⟨hmacs, rfl⟩, wls, ⟨hshow, rfl⟩, rfl⟩
    exact ⟨⟨harp, hmacs, hshow⟩, rfl⟩
  · rintro ⟨⟨harp, hmacs, hshow⟩, rfl⟩
    exact ⟨_, ⟨harp, rfl⟩, _, ⟨hmacs, rfl⟩, _, ⟨hshow, rfl⟩, rfl⟩

theorem isIPFromWLS_isSome : (l.isIPFromWLS ip).isSome ↔ l.Legible ip := by
  rw [Option.isSome_iff_exists]
  simp only [isIPFromWLS_eq_some, exists_and_left, exists_eq', and_true]

theorem wlanPort_pos {wls : ℤ} (h : l.wlanPort = some wls) : 0 < wls := by
  obtain ⟨content, -, h⟩ := Option.bind_eq_some_iff.mp h
  obtain ⟨i, -, rfl⟩ := Option.map_eq_some_iff.mp h
  omega

theorem contains_of_isField {w row : List UInt8} (h : IsField w (upTo 0 row)) : Contains w row := by
  obtain ⟨a, b, hrow, -, -⟩ := h
  exact strstr_isSome.mpr ⟨a, b, hrow.symm⟩

theorem WlanListed.wlanPort (h : l.WlanListed) : ∃ wls, l.wlanPort = some wls := by
  obtain ⟨content, hcontent, row, hrow, hfield⟩ := h
  rw [← Option.isSome_iff_exists, Listings.wlanPort, Option.mem_def.mp hcontent, Option.bind_some, Option.isSome_map,
    List.findIdx?_isSome, List.any_eq_true]
  exact ⟨row, hrow, decide_eq_true (contains_of_isField hfield)⟩

theorem macListed_of_port {mac : List UInt8} {port : ℤ} (h : l.macPort mac = some port) : l.MacListed mac := by
  obtain ⟨content, hcontent, h⟩ := Option.bind_eq_some_iff.mp h
  obtain ⟨row, hrow, -⟩ := Option.map_eq_some_iff.mp h
  have hof := List.find?_some hrow
  exact ⟨content, hcontent, row, List.mem_of_find?_eq_some hrow, of_decide_eq_true hof⟩

theorem ArpComplete.arpMaps (h : l.ArpComplete ip) : l.ArpMaps ip (l.arpMac ip) := by
  obtain ⟨content, hcontent, row, hrow, hlen⟩ := h
  refine ⟨content, hcontent, row, hrow, ?_⟩
  obtain ⟨hof, later, earlier, hsplit, hlater⟩ := List.find?_eq_some_iff_append.mp hrow
  have hmac : (arpFields row)[3]? = some (arpFields row)[3] := List.getElem?_eq_getElem hlen
  have hskip : ∀ r ∈ later, (decide (¬OfAddress ip r)) = true := by simpa using hlater
  rw [arpMac, Option.mem_def.mp hcontent, Option.map_some, Option.getD_some, leftMac, hsplit,
    List.dropWhile_append_of_pos hskip, List.dropWhile_cons_of_neg (by simpa using hof), List.findSome?_cons, hmac,
    Option.getD_some]

theorem fromWlan_iff {port : ℤ} (hport : l.macPort (l.foundMac ip) = some port) :
    l.FromWlan ip ↔ l.WlanListed ∧ l.ArpComplete ip := by
  constructor
  · rintro ⟨hlisted, m, ⟨content, hcontent, row, hrow, hm⟩, -⟩
    exact ⟨hlisted, content, hcontent, row, hrow, (List.getElem?_eq_some_iff.mp hm).1⟩
  · rintro ⟨hlisted, hcomplete⟩
    exact ⟨hlisted, l.arpMac ip, hcomplete.arpMaps, macListed_of_port hport⟩

end Listings

theorem isIPFromWLS_right_iff (l : Listings) (ip : List UInt8) :
    ((l.isIPFromWLS ip).isSome ↔ l.Legible ip) ∧
      ((l.isIPFromWLS ip = some true → l.FromWlan ip) ↔ (l.Legible ip → l.Tells ip)) := by
  refine ⟨Listings.isIPFromWLS_isSome, ?_⟩
  rw [Listings.isIPFromWLS_eq_some, and_imp]
  apply imp_congr_right
  intro _
  rw [decide_eq_true_eq, Listings.Tells]
  cases hwls : l.wlanPort with
  | none =>
    have hnot : ¬l.FromWlan ip := by
      intro h
      obtain ⟨wls, hsome⟩ := h.1.wlanPort
      exact Option.some_ne_none wls (hsome.symm.trans hwls)
    cases l.macPort (l.foundMac ip) with
    | none => exact iff_of_false (fun h => hnot (h rfl)) id
    | some port => exact imp_congr_right fun _ => iff_of_false hnot id
  | some wls =>
    cases hport : l.macPort (l.foundMac ip) with
    | none =>
      have hpos := Listings.wlanPort_pos hwls
      refine iff_of_true (fun h => ?_) trivial
      rw [Option.getD_none, Option.getD_some] at h
      omega
    | some port => exact imp_congr_right fun _ => Listings.fromWlan_iff hport

def arpListing : List UInt8 :=
  text "IP address HW type Flags HW address Mask Device\n192.168.1.9 0x1 0x2 00:1F:2E:3D:4C:5B * br0\n"

def macsListing (port : String) : List UInt8 :=
  text "port no mac addr is local? ageing timer\n" ++ text port ++ text " 00:1f:2e:3d:4c:5b no 1.07\n"

def showListing (interface : String) : List UInt8 :=
  text "bridge name bridge id STP enabled interfaces\nbr0 8000.001f2e3d4c5a no eth0\n" ++ text interface

theorem unknown_client_fromWLS : ∃ l : Listings, l.isIPFromWLS (text "192.168.1.7") = some true ∧
    ¬l.WlanListed ∧ ¬l.FromWlan (text "192.168.1.7") := by
  -- both lookups fail with -1, and the two results are compared
  have hrows : (rows "bridge name" (showListing "")).all (fun row => ¬Contains (text "wlan0") row) = true := by
    rw [showListing]
    repeat rw [text_ofList]
    decide +kernel
  have hlisted : ¬Listings.WlanListed ⟨some (showListing ""), some (macsListing "1"), some arpListing⟩ := by
    rintro ⟨content, ⟨⟩, row, hrow, hfield⟩
    exact of_decide_eq_true (List.all_eq_true.mp hrows row hrow) (Listings.contains_of_isField hfield)
  refine ⟨_, ?_, hlisted, fun h => hlisted h.1⟩
  rw [showListing, macsListing, arpListing]
  repeat rw [text_ofList]
  decide +kernel

end Wap610n.Web
