import Wap610n.Bridge.FdbMap

/-!
What holds of the forwarding database after any sequence of events: it is the partial function the events make, its ports
are there, and the addresses of the bridge's own ports are not learnt from frames.
-/

namespace Wap610n.Bridge

open Chained

def Good (portList : List FdbPort) (f : FdbEntry) : Prop :=
  f.isStatic = f.isLocal ∧ ∃ p ∈ portList, p.dev = f.dst ∧ (f.isLocal = true → p.addr = f.addr)

def AllGood (portList : List FdbPort) (entry : EthAddr → Option FdbEntry) : Prop :=
  ∀ a f, entry a = some f → f.addr = a ∧ Good portList f

section

variable {L L' : List FdbPort} {f f' : FdbEntry} {p : List UInt8}

theorem Good.mono (h : Good L f) (hL : ∀ q ∈ L, q ∈ L') : Good L' f := by
  obtain ⟨hstatic, q, hq, hdst⟩ := h
  exact ⟨hstatic, q, hL q hq, hdst⟩

theorem good_reassign (hstatic : f.isStatic = f.isLocal) (h : reassign L p f = some f') :
    Good (L.filter fun op => op.dev ≠ p) f' := by
  rw [reassign, Option.map_eq_some_iff] at h
  obtain ⟨op, hop, rfl⟩ := h
  have hcond : op.dev ≠ p ∧ op.addr = f.addr := by simpa using List.find?_some hop
  refine ⟨hstatic, op, ?_, rfl, fun _ => hcond.2⟩
  rw [List.mem_filter]
  exact ⟨List.mem_of_find?_eq_some hop, by simpa using hcond.1⟩

theorem good_forget (h : Good L f) (hforget : forget L p f = some f') : Good (L.filter fun op => op.dev ≠ p) f' := by
  rw [forget] at hforget
  split_ifs at hforget with hdst hlocal
  · obtain rfl := Option.some.inj hforget
    obtain ⟨hstatic, q, hq, hqdst, haddr⟩ := h
    refine ⟨hstatic, q, ?_, hqdst, haddr⟩
    rw [List.mem_filter]
    exact ⟨hq, by simpa [hqdst] using hdst⟩
  · exact good_reassign h.1 hforget

theorem mem_setAddr {q : FdbPort} (newaddr : EthAddr) (hq : q ∈ L) (hdev : q.dev ≠ p) : q ∈ setAddr L p newaddr :=
  List.mem_map.mpr ⟨q, hq, if_neg hdev⟩

theorem good_moved {newaddr : EthAddr} (h : Good L f) (hmoved : FdbMap.moved (setAddr L p newaddr) p f = some f') :
    Good (setAddr L p newaddr) f' := by
  rw [FdbMap.moved] at hmoved
  split_ifs at hmoved with hlocal
  · exact (good_reassign h.1 hmoved).mono fun q hq => (List.mem_filter.mp hq).1
  · obtain rfl := Option.some.inj hmoved
    obtain ⟨hstatic, q, hq, hqdst, haddr⟩ := h
    by_cases hdev : q.dev = p
    · have hnot : f.isLocal ≠ true := fun hl => hlocal (by simp [FdbTable.isLocalOf, hl, ← hqdst, hdev])
      refine ⟨hstatic, { q with addr := newaddr }, List.mem_map.mpr ⟨q, hq, if_pos hdev⟩, hqdst, fun hl => absurd hl hnot⟩
    · exact ⟨hstatic, q, mem_setAddr newaddr hq hdev, hqdst, haddr⟩

end

namespace FdbMap

variable {m : FdbMap} {L : List FdbPort}

theorem put_entry (m : FdbMap) (addr : EthAddr) (f : Option FdbEntry) (a : EthAddr) :
    (m.put addr f).entry a = if a = addr then f else m.entry a := Function.update_apply _ _ _ _

theorem allGood_put (h : AllGood L m.entry) {addr : EthAddr} {f : Option FdbEntry}
    (hf : ∀ g, f = some g → g.addr = addr ∧ Good L g) : AllGood L (m.put addr f).entry := by
  intro a g hg
  rw [put_entry] at hg
  split_ifs at hg with ha
  · exact ha ▸ hf g hg
  · exact h a g hg

theorem allGood_change {L' : List FdbPort} (h : AllGood L m.entry) {g : FdbEntry → Option FdbEntry}
    (hg : ∀ f f', Good L f → g f = some f' → f'.addr = f.addr ∧ Good L' f') : AllGood L' (m.change g).entry := by
  intro a f' hf'
  obtain ⟨f, hf, hgf⟩ := Option.bind_eq_some_iff.mp hf'
  obtain ⟨haddr, hgood⟩ := h a f hf
  obtain ⟨haddr', hgood'⟩ := hg f f' hgood hgf
  exact ⟨haddr'.trans haddr, hgood'⟩

theorem allGood_insert (h : AllGood L m.entry) {p : FdbPort} (hp : p ∈ L) (alloc : Bool) :
    AllGood L (m.insert p.dev p.addr alloc).1.entry := by
  rw [insert]
  split_ifs
  · exact h
  · exact allGood_put h fun g hg => by
      obtain rfl := Option.some.inj hg
      exact ⟨rfl, rfl, p, hp, rfl, fun _ => rfl⟩
  · exact allGood_put h fun g hg => absurd hg (by simp)
  · exact h

theorem allGood_insert_failed (h : AllGood L m.entry) (source : List UInt8) (addr : EthAddr) (alloc : Bool)
    (hfail : (m.insert source addr alloc).2 = false) : AllGood L (m.insert source addr alloc).1.entry := by
  rw [insert] at hfail ⊢
  split_ifs at hfail ⊢
  · exact allGood_put h fun g hg => absurd hg (by simp)
  · exact h

theorem insert_portList (m : FdbMap) (source : List UInt8) (addr : EthAddr) (alloc : Bool) :
    (m.insert source addr alloc).1.portList = m.portList := by
  rw [insert]
  split_ifs <;> rfl

structure Sound (m : FdbMap) : Prop where
  devs : (m.portList.map FdbPort.dev).Nodup
  good : AllGood m.portList m.entry

theorem Sound.local_unique (h : m.Sound) {p : List UInt8} {a a' : EthAddr} {f f' : FdbEntry}
    (hf : m.entry a = some f) (hf' : m.entry a' = some f') (hp : FdbTable.isLocalOf p f = true)
    (hp' : FdbTable.isLocalOf p f' = true) : a = a' := by
  simp only [FdbTable.isLocalOf, decide_eq_true_eq] at hp hp'
  obtain ⟨haddr, -, q, hq, hdst, hown⟩ := h.good a f hf
  obtain ⟨haddr', -, q', hq', hdst', hown'⟩ := h.good a' f' hf'
  have hqq : q = q' := by
    apply List.inj_on_of_nodup_map h.devs hq hq'
    rw [hdst, hdst', hp.1, hp'.1]
  rw [← haddr, ← haddr', ← hown hp.2, ← hown' hp'.2, hqq]

theorem hasPort_iff {p : List UInt8} : m.hasPort p = true ↔ ∃ q ∈ m.portList, q.dev = p := by
  simp [hasPort]

theorem map_dev_setAddr (L : List FdbPort) (p : List UInt8) (newaddr : EthAddr) :
    (setAddr L p newaddr).map FdbPort.dev = L.map FdbPort.dev := by
  rw [setAddr, List.map_map]
  apply List.map_congr_left
  intro q _
  rw [Function.comp_apply]
  split_ifs <;> rfl

theorem addIf_sound (h : m.Sound) (p : FdbPort) (alloc sysfs : Bool) : (m.step (.addIf p alloc sysfs)).Sound := by
  rw [step]
  by_cases hport : m.hasPort p.dev = true
  · rw [if_pos hport]
    exact h
  · rw [if_neg hport]
    have hnew : ∀ q ∈ m.portList, q.dev ≠ p.dev := fun q hq hdev => hport (hasPort_iff.mpr ⟨q, hq, hdev⟩)
    have hlist := insert_portList m p.dev p.addr alloc
    have hgood : AllGood (p :: m.portList) (m.insert p.dev p.addr alloc).1.entry := by
      apply allGood_insert _ List.mem_cons_self
      intro a f hf
      exact ⟨(h.good a f hf).1, (h.good a f hf).2.mono fun q hq => List.mem_cons_of_mem _ hq⟩
    cases hins : m.insert p.dev p.addr alloc with
    | mk m' ok =>
      rw [hins] at hlist hgood
      dsimp only at hlist hgood ⊢
      cases ok with
      | false =>
        refine ⟨hlist ▸ h.devs, ?_⟩
        have hfailed := allGood_insert_failed h.good p.dev p.addr alloc (by rw [hins])
        rw [hins] at hfailed
        exact hlist ▸ hfailed
      | true =>
        cases sysfs with
        | true =>
          refine ⟨?_, hlist ▸ hgood⟩
          show ((p :: m'.portList).map FdbPort.dev).Nodup
          rw [hlist, List.map_cons, List.nodup_cons]
          refine ⟨fun hmem => ?_, h.devs⟩
          obtain ⟨q, hq, hdev⟩ := List.mem_map.mp hmem
          exact hnew q hq hdev
        | false =>
          refine ⟨hlist ▸ h.devs, ?_⟩
          show AllGood m'.portList (m'.change (forget m'.portList p.dev)).entry
          rw [hlist]
          apply allGood_change hgood
          intro f f' hf hforget
          refine ⟨addr_forget _ _ _ _ hforget, ?_⟩
          have hfilter : (p :: m.portList).filter (fun op => op.dev ≠ p.dev) = m.portList := by
            rw [List.filter_cons_of_neg (by simp), List.filter_eq_self]
            intro q hq
            simpa using hnew q hq
          have hsame : forget (p :: m.portList) p.dev f = forget m.portList p.dev f := by
            simp [forget, reassign]
          rw [← hfilter]
          exact good_forget hf (hsame.trans hforget)

theorem learn_portList (m : FdbMap) (source : List UInt8) (addr : EthAddr) (alloc : Bool) :
    (m.learn source addr alloc).portList = m.portList := by
  rw [learn]
  repeat' split
  all_goals rfl

theorem allGood_learn (h : AllGood L m.entry) {q : FdbPort} (hq : q ∈ L) (addr : EthAddr) (alloc : Bool) :
    AllGood L (m.learn q.dev addr alloc).entry := by
  rw [learn]
  by_cases hzero : m.holdTime = 0
  · rw [if_pos hzero]
    exact h
  · rw [if_neg hzero]
    cases hentry : m.entry addr with
    | none =>
      dsimp only
      split_ifs
      · exact allGood_put h fun g hg => by
          obtain rfl := Option.some.inj hg
          exact ⟨rfl, rfl, q, hq, rfl, fun hl => absurd hl Bool.false_ne_true⟩
      · exact h
    | some f =>
      dsimp only
      split_ifs with hlocal
      · exact h
      · obtain ⟨haddr, hstatic, -⟩ := h addr f hentry
        exact allGood_put h fun g hg => by
          obtain rfl := Option.some.inj hg
          exact ⟨haddr, hstatic, q, hq, rfl, fun hl => absurd hl hlocal⟩

theorem step_sound (h : m.Sound) (e : FdbEvent) : (m.step e).Sound := by
  cases e with
  | addIf p alloc sysfs => exact addIf_sound h p alloc sysfs
  | delIf p =>
    rw [step]
    split_ifs
    · refine ⟨h.devs.sublist (List.filter_sublist.map _), ?_⟩
      exact allGood_change h.good fun f f' hf hforget => ⟨addr_forget _ _ _ _ hforget, good_forget hf hforget⟩
    · exact h
  | changeAddr p newaddr alloc =>
    rw [step]
    split_ifs with hport
    · obtain ⟨q, hq, rfl⟩ := hasPort_iff.mp hport
      constructor
      · rw [insert_portList, map_dev_setAddr]
        exact h.devs
      · rw [insert_portList]
        have hmem : { q with addr := newaddr } ∈ setAddr m.portList q.dev newaddr :=
          List.mem_map.mpr ⟨q, hq, if_pos rfl⟩
        apply allGood_insert _ hmem
        exact allGood_change h.good fun f f' hf hmoved => ⟨addr_moved _ _ _ _ hmoved, good_moved hf hmoved⟩
    · exact h
  | learn p source alloc =>
    rw [step]
    split_ifs with hport
    · obtain ⟨q, hq, rfl⟩ := hasPort_iff.mp hport
      have hlist := learn_portList m q.dev source alloc
      exact ⟨hlist ▸ h.devs, hlist ▸ allGood_learn h.good hq source alloc⟩
    · exact h
  | cleanup =>
    refine ⟨h.devs, allGood_change h.good fun f f' hf hkept => ?_⟩
    split_ifs at hkept
    exact Option.some.inj hkept ▸ ⟨rfl, hf⟩
  | times times => exact ⟨h.devs, h.good⟩

end FdbMap

def FdbMap.Listed (m : FdbMap) : Prop :=
  ∀ p ∈ m.portList, isValidEtherAddr p.addr = true → ∃ f, m.entry p.addr = some f ∧ f.isLocal = true

namespace FdbMap

variable {m : FdbMap}

theorem insert_keeps {a : EthAddr} {f : FdbEntry} (hf : m.entry a = some f) (hlocal : f.isLocal = true)
    (source : List UInt8) (addr : EthAddr) (alloc : Bool) : (m.insert source addr alloc).1.entry a = some f := by
  rw [insert]
  by_cases ha : a = addr
  · subst ha
    rw [hf, Option.any_some, if_pos hlocal]
    split_ifs <;> exact hf
  · split_ifs
    · exact hf
    · rw [put_entry, if_neg ha]
      exact hf
    · rw [put_entry, if_neg ha]
      exact hf
    · exact hf

theorem insert_lists {addr : EthAddr} (hvalid : isValidEtherAddr addr = true) (source : List UInt8) (alloc : Bool)
    (hok : (m.insert source addr alloc).2 = true) :
    ∃ f, (m.insert source addr alloc).1.entry addr = some f ∧ f.isLocal = true := by
  rw [insert, if_pos hvalid] at hok ⊢
  by_cases hlocal : (m.entry addr).any FdbEntry.isLocal = true
  · rw [if_pos hlocal]
    rwa [Option.any_eq_true] at hlocal
  · rw [if_neg hlocal] at hok ⊢
    split_ifs at hok ⊢
    exact ⟨_, put_entry m addr _ addr ▸ if_pos rfl, rfl⟩

theorem insert_ok {addr : EthAddr} (hvalid : isValidEtherAddr addr = true) (source : List UInt8) :
    (m.insert source addr true).2 = true := by
  rw [insert, if_pos hvalid, if_pos rfl]
  split_ifs <;> rfl

theorem learn_keeps {a : EthAddr} {f : FdbEntry} (hf : m.entry a = some f) (hlocal : f.isLocal = true)
    (source : List UInt8) (addr : EthAddr) (alloc : Bool) : (m.learn source addr alloc).entry a = some f := by
  rw [learn]
  by_cases hzero : m.holdTime = 0
  · rw [if_pos hzero]
    exact hf
  · rw [if_neg hzero]
    by_cases ha : a = addr
    · subst ha
      rw [hf]
      dsimp only
      rw [if_pos hlocal]
      exact hf
    · cases m.entry addr with
      | none =>
        dsimp only
        split_ifs
        · rw [put_entry, if_neg ha]
          exact hf
        · exact hf
      | some g =>
        dsimp only
        split_ifs
        · exact hf
        · rw [put_entry, if_neg ha]
          exact hf

theorem reassign_of_mem {L : List FdbPort} {p : List UInt8} {q : FdbPort} {f : FdbEntry} (hq : q ∈ L) (hdev : q.dev ≠ p)
    (haddr : q.addr = f.addr) : ∃ f', reassign L p f = some f' ∧ f'.isLocal = f.isLocal := by
  have hsome : (L.find? fun op => op.dev ≠ p ∧ op.addr = f.addr).isSome = true := by
    rw [List.find?_isSome]
    exact ⟨q, hq, decide_eq_true ⟨hdev, haddr⟩⟩
  obtain ⟨op, hop⟩ := Option.isSome_iff_exists.mp hsome
  exact ⟨{ f with dst := op.dev }, by rw [reassign, hop, Option.map_some], rfl⟩

theorem change_keeps {a : EthAddr} {f f' : FdbEntry} {g : FdbEntry → Option FdbEntry} (hf : m.entry a = some f)
    (hg : g f = some f') : (m.change g).entry a = some f' := by
  show (m.entry a).bind g = some f'
  rw [hf, Option.bind_some, hg]

theorem addIf_listed (h : m.Sound) (hlisted : m.Listed) (p : FdbPort) (alloc sysfs : Bool) :
    (m.step (.addIf p alloc sysfs)).Listed := by
  rw [step]
  by_cases hport : m.hasPort p.dev = true
  · rw [if_pos hport]
    exact hlisted
  · rw [if_neg hport]
    have hlist := insert_portList m p.dev p.addr alloc
    have hold : ∀ q ∈ m.portList, isValidEtherAddr q.addr = true → ∃ f, f.dst ≠ p.dev ∧
        (m.insert p.dev p.addr alloc).1.entry q.addr = some f ∧ f.isLocal = true := by
      intro q hq hvalid
      obtain ⟨f, hf, hlocal⟩ := hlisted q hq hvalid
      obtain ⟨-, -, q', hq', hdst, -⟩ := h.good _ f hf
      exact ⟨f, fun hp => hport (hasPort_iff.mpr ⟨q', hq', hdst.trans hp⟩), insert_keeps hf hlocal _ _ _, hlocal⟩
    cases hins : m.insert p.dev p.addr alloc with
    | mk m' ok =>
      rw [hins] at hlist hold
      dsimp only at hlist hold ⊢
      cases ok with
      | false =>
        intro q hq hvalid
        obtain ⟨f, -, hf⟩ := hold q (hlist ▸ hq) hvalid
        exact ⟨f, hf⟩
      | true =>
        cases sysfs with
        | true =>
          intro q hq hvalid
          rcases List.mem_cons.mp hq with rfl | hq
          · have hnew := insert_lists (m := m) hvalid q.dev alloc (by rw [hins])
            rwa [hins] at hnew
          · obtain ⟨f, -, hf⟩ := hold q (hlist ▸ hq) hvalid
            exact ⟨f, hf⟩
        | false =>
          intro q hq hvalid
          obtain ⟨f, hdst, hf, hlocal⟩ := hold q (hlist ▸ hq) hvalid
          exact ⟨f, change_keeps hf (if_pos hdst), hlocal⟩

theorem step_listed (h : m.Sound) (hlisted : m.Listed) {e : FdbEvent} (he : ∀ p a, e ≠ .changeAddr p a false) :
    (m.step e).Listed := by
  cases e with
  | addIf p alloc sysfs => exact addIf_listed h hlisted p alloc sysfs
  | delIf p =>
    rw [step]
    split_ifs
    · intro q hq hvalid
      obtain ⟨hq, hdev⟩ := List.mem_filter.mp hq
      obtain ⟨f, hf, hlocal⟩ := hlisted q hq hvalid
      by_cases hdst : f.dst = p
      · obtain ⟨f', hf', hlocal'⟩ := reassign_of_mem hq (of_decide_eq_true hdev) (h.good _ f hf).1.symm
        refine ⟨f', change_keeps hf ?_, hlocal'.trans hlocal⟩
        rw [forget, if_neg (not_not.mpr hdst), if_pos hlocal, hf']
      · exact ⟨f, change_keeps hf (if_pos hdst), hlocal⟩
    · exact hlisted
  | changeAddr p newaddr alloc =>
    rw [step]
    split_ifs
    · cases alloc with
      | false => exact absurd rfl (he p newaddr)
      | true =>
        intro q hq hvalid
        rw [insert_portList] at hq
        obtain ⟨q₀, hq₀, rfl⟩ := List.mem_map.mp hq
        by_cases hdev : q₀.dev = p
        · rw [if_pos hdev] at hvalid ⊢
          exact insert_lists hvalid _ _ (insert_ok hvalid _)
        · rw [if_neg hdev] at hvalid ⊢
          obtain ⟨f, hf, hlocal⟩ := hlisted q₀ hq₀ hvalid
          by_cases hmine : FdbTable.isLocalOf p f = true
          · obtain ⟨f', hf', hlocal'⟩ := reassign_of_mem (mem_setAddr newaddr hq₀ hdev) hdev
              (h.good _ f hf).1.symm
            have hmoved : moved (setAddr m.portList p newaddr) p f = some f' := by rw [moved, if_pos hmine, hf']
            refine ⟨f', ?_, hlocal'.trans hlocal⟩
            apply insert_keeps _ (hlocal'.trans hlocal)
            exact change_keeps hf hmoved
          · refine ⟨f, ?_, hlocal⟩
            apply insert_keeps _ hlocal
            exact change_keeps hf (if_neg hmine)
    · exact hlisted
  | learn p source alloc =>
    rw [step]
    split_ifs
    · intro q hq hvalid
      rw [learn_portList] at hq
      obtain ⟨f, hf, hlocal⟩ := hlisted q hq hvalid
      exact ⟨f, learn_keeps hf hlocal _ _ _, hlocal⟩
    · exact hlisted
  | cleanup =>
    intro q hq hvalid
    obtain ⟨f, hf, hlocal⟩ := hlisted q hq hvalid
    have hstatic : f.isStatic = true := (h.good _ f hf).2.1.trans hlocal
    have hexp : m.hasExpired f = false := by simp [FdbTimes.hasExpired, hstatic]
    exact ⟨f, change_keeps hf (by rw [hexp]; rfl), hlocal⟩
  | times times => exact hlisted

end FdbMap

namespace FdbTable

variable {t : FdbTable}

theorem step_abs (h : t.Wf) (hsound : t.abs.Sound) (e : FdbEvent) : (t.step e).Wf ∧ (t.step e).abs = t.abs.step e := by
  cases e with
  | addIf p alloc sysfs =>
    have hhas : t.abs.hasPort p.dev = t.hasPort p.dev := rfl
    rw [step, brAddIf, FdbMap.step, hhas]
    by_cases hport : t.hasPort p.dev = true
    · rw [if_pos hport, if_pos hport]
      exact ⟨h, rfl⟩
    · rw [if_neg hport, if_neg hport]
      obtain ⟨hwf, hins⟩ := fdbInsert_abs h p.dev p.addr alloc
      rw [← hins]
      cases hres : t.fdbInsert p.dev p.addr alloc with
      | mk t' ok =>
        rw [hres] at hwf
        cases ok with
        | false => exact ⟨hwf, rfl⟩
        | true =>
          cases sysfs with
          | false => exact filterMap_abs hwf (addr_forget t'.portList p.dev)
          | true => exact ⟨hwf, rfl⟩
  | delIf p =>
    have hhas : t.abs.hasPort p = t.hasPort p := rfl
    rw [step, brDelIf, FdbMap.step, hhas]
    split_ifs
    · obtain ⟨hwf, habs⟩ := filterMap_abs h (addr_forget t.portList p)
      exact ⟨hwf, congrArg (fun m => { m with portList := t.portList.filter fun op => op.dev ≠ p }) habs⟩
    · exact ⟨h, rfl⟩
  | changeAddr p newaddr alloc =>
    have hhas : t.abs.hasPort p = t.hasPort p := rfl
    rw [step, changeAddr, FdbMap.step, hhas]
    split_ifs
    · have hone : ∀ a f a' f', t.fdbFind a = some f → t.fdbFind a' = some f' → isLocalOf p f = true →
          isLocalOf p f' = true → a = a' := fun a f a' f' hf hf' hp hp' => hsound.local_unique hf hf' hp hp'
      have ht : ({ t with portList := setAddr t.portList p newaddr } : FdbTable).Wf := h
      obtain ⟨hwf, habs⟩ := moved_abs ht (setAddr t.portList p newaddr) hone
      obtain ⟨hwf', hins⟩ := fdbInsert_abs hwf p newaddr alloc
      refine ⟨hwf', ?_⟩
      have hfst := congrArg Prod.fst hins
      rw [habs] at hfst
      exact hfst
    · exact ⟨h, rfl⟩
  | learn p source alloc =>
    have hhas : t.abs.hasPort p = t.hasPort p := rfl
    rw [step, FdbMap.step, hhas]
    split_ifs
    · exact brFdbUpdate_abs h p source alloc
    · exact ⟨h, rfl⟩
  | cleanup =>
    have hfilter : t.brFdbCleanup =
        { t with hash := fun i => (t.hash i).filterMap fun f => if t.hasExpired f then none else some f } := by
      rw [brFdbCleanup]
      congr 1
      funext i
      rw [← List.filterMap_eq_filter]
      apply List.filterMap_congr
      intro f _
      cases hexp : t.hasExpired f <;> simp [Option.guard, hexp]
    rw [step, hfilter]
    exact filterMap_abs h fun f f' hf => by
      split_ifs at hf
      rw [← Option.some.inj hf]
  | times times => exact ⟨h, rfl⟩

theorem newTable_sound (times : FdbTimes) :
    (newTable times).Wf ∧ (newTable times).abs.Sound ∧ (newTable times).abs.Listed := by
  refine ⟨⟨?_, fun _ => List.nodup_nil⟩, ⟨List.nodup_nil, ?_⟩, ?_⟩
  · intro i e he
    exact absurd he List.not_mem_nil
  · intro a f hf
    exact absurd hf (Option.some_ne_none f).symm
  · intro p hp
    exact absurd hp List.not_mem_nil

theorem run_abs (h : t.Wf) (hsound : t.abs.Sound) (es : List FdbEvent) :
    (es.foldl step t).Wf ∧ (es.foldl step t).abs.Sound ∧ (es.foldl step t).abs = es.foldl FdbMap.step t.abs := by
  induction es generalizing t with
  | nil => exact ⟨h, hsound, rfl⟩
  | cons e es ih =>
    obtain ⟨hwf, habs⟩ := step_abs h hsound e
    have hsound' : (t.step e).abs.Sound := habs ▸ FdbMap.step_sound hsound e
    rw [List.foldl_cons, List.foldl_cons, ← habs]
    exact ih hwf hsound'

theorem run_listed (h : t.Wf) (hsound : t.abs.Sound) (hlisted : t.abs.Listed) {es : List FdbEvent}
    (hes : ∀ p a, FdbEvent.changeAddr p a false ∉ es) : (es.foldl step t).abs.Listed := by
  induction es generalizing t with
  | nil => exact hlisted
  | cons e es ih =>
    obtain ⟨hwf, habs⟩ := step_abs h hsound e
    have hsound' : (t.step e).abs.Sound := habs ▸ FdbMap.step_sound hsound e
    have he : ∀ p a, e ≠ .changeAddr p a false := fun p a heq => hes p a (heq ▸ List.mem_cons_self)
    exact ih hwf hsound' (habs ▸ FdbMap.step_listed hsound hlisted he) fun p a hmem =>
      hes p a (List.mem_cons_of_mem _ hmem)

/-- After any events the chains hold the partial function they make, and every entry stands in its chain, once, and is
found under its address. -/
theorem fdb_refines (times : FdbTimes) (es : List FdbEvent) :
    (es.foldl step (newTable times)).Wf ∧
    (es.foldl step (newTable times)).abs = es.foldl FdbMap.step (newTable times).abs ∧
    ∀ i, ∀ f ∈ (es.foldl step (newTable times)).hash i, (es.foldl step (newTable times)).fdbFind f.addr = some f := by
  obtain ⟨hwf, hsound, -⟩ := newTable_sound times
  obtain ⟨hwf, -, habs⟩ := run_abs hwf hsound es
  exact ⟨hwf, habs, fun i f hf => hwf.get_iff.mpr ⟨⟨i, hf⟩, rfl⟩⟩

/-- No entry leads to a port that is gone, and the address of a port is found as a local one whatever was heard, unless
there was no memory for it. -/
theorem fdb_own (times : FdbTimes) {es : List FdbEvent} (hes : ∀ p a, FdbEvent.changeAddr p a false ∉ es) :
    (∀ i, ∀ f ∈ (es.foldl step (newTable times)).hash i, ∃ p ∈ (es.foldl step (newTable times)).portList,
      p.dev = f.dst ∧ (f.isLocal = true → p.addr = f.addr)) ∧
    ∀ p ∈ (es.foldl step (newTable times)).portList, isValidEtherAddr p.addr = true →
      ∃ f, (es.foldl step (newTable times)).brFdbGet p.addr = some f ∧ f.isLocal = true := by
  obtain ⟨hwf, hsound, hlisted⟩ := newTable_sound times
  have hlisted' := run_listed hwf hsound hlisted hes
  obtain ⟨hwf, hsound, -⟩ := run_abs hwf hsound es
  constructor
  · intro i f hf
    exact (hsound.good f.addr f (hwf.get_iff.mpr ⟨⟨i, hf⟩, rfl⟩)).2.2
  · intro p hp hvalid
    obtain ⟨f, hf, hlocal⟩ := hlisted' p hp hvalid
    have hstatic : f.isStatic = true := (hsound.good _ f hf).2.1.trans hlocal
    refine ⟨f, ?_, hlocal⟩
    have hfind : (es.foldl step (newTable times)).fdbFind p.addr = some f := hf
    rw [brFdbGet, hfind, Option.filter_some, if_pos (by simp [FdbTimes.hasExpired, hstatic])]

def spoofed : List FdbEvent :=
  [.addIf ⟨eth0, 1, fun _ => 2⟩ true true, .addIf ⟨Bytes.text "wlan0", 2, fun _ => 4⟩ true true,
    .learn eth0 (fun _ => 4) true]

theorem fdb_own_spoofed : ∃ f, (spoofed.foldl step (newTable ⟨false, 1500, 30000, 0⟩)).brFdbGet (fun _ => 4) = some f ∧
    f.isLocal = true := by
  have hport : ⟨Bytes.text "wlan0", 2, fun _ => 4⟩ ∈ (spoofed.foldl step (newTable ⟨false, 1500, 30000, 0⟩)).portList := by
    decide +kernel
  exact (fdb_own ⟨false, 1500, 30000, 0⟩ (by simp [spoofed])).2 _ hport (by decide)

end FdbTable

end Wap610n.Bridge
