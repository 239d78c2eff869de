import Wap610n.Bridge.Fdb

/-!
The forwarding database as a partial function of the addresses, and that the hash chains hold one.
-/

namespace Wap610n.Bridge

open Chained

structure FdbMap extends FdbTimes where
  entry : EthAddr → Option FdbEntry
  portList : List FdbPort

namespace FdbMap

variable (m : FdbMap)

def put (addr : EthAddr) (f : Option FdbEntry) : FdbMap := { m with entry := Function.update m.entry addr f }

def change (g : FdbEntry → Option FdbEntry) : FdbMap := { m with entry := fun a => (m.entry a).bind g }

def insert (source : List UInt8) (addr : EthAddr) (alloc : Bool) : FdbMap × Bool :=
  if isValidEtherAddr addr then
    if (m.entry addr).any FdbEntry.isLocal then (m, true)
    else if alloc then (m.put addr (some ⟨addr, source, true, true, m.jiffies⟩), true)
    else (m.put addr none, false)
  else (m, false)

def learn (source : List UInt8) (addr : EthAddr) (alloc : Bool) : FdbMap :=
  if m.holdTime = 0 then m
  else
    match m.entry addr with
    | some f => if f.isLocal then m else m.put addr (some (learnt source m.jiffies f))
    | none => if alloc then m.put addr (some ⟨addr, source, false, false, m.jiffies⟩) else m

def moved (portList : List FdbPort) (p : List UInt8) (f : FdbEntry) : Option FdbEntry :=
  if FdbTable.isLocalOf p f then reassign portList p f else some f

def hasPort (p : List UInt8) : Bool := m.portList.any fun op => op.dev = p

def step (m : FdbMap) : FdbEvent → FdbMap
  | .addIf p alloc sysfs =>
    if m.hasPort p.dev then m
    else
      let (m, ok) := m.insert p.dev p.addr alloc
      if ok then if sysfs then { m with portList := p :: m.portList } else m.change (forget m.portList p.dev) else m
  | .delIf p =>
    if m.hasPort p then
      { m.change (forget m.portList p) with portList := m.portList.filter fun op => op.dev ≠ p }
    else m
  | .changeAddr p newaddr alloc =>
    if m.hasPort p then
      let portList := setAddr m.portList p newaddr
      ({ m.change (moved portList p) with portList := portList }.insert p newaddr alloc).1
    else m
  | .learn p source alloc => if m.hasPort p then m.learn p source alloc else m
  | .cleanup => m.change fun f => if m.hasExpired f then none else some f
  | .times times => { m with toFdbTimes := times }

end FdbMap

theorem addr_reassign {portList : List FdbPort} {p : List UInt8} {f f' : FdbEntry} (h : reassign portList p f = some f') :
    f'.addr = f.addr := by
  rw [reassign, Option.map_eq_some_iff] at h
  obtain ⟨op, -, rfl⟩ := h
  rfl

theorem addr_forget (portList : List FdbPort) (p : List UInt8) (f f' : FdbEntry) (h : forget portList p f = some f') :
    f'.addr = f.addr := by
  rw [forget] at h
  split_ifs at h
  · rw [← Option.some.inj h]
  · exact addr_reassign h

theorem addr_moved (portList : List FdbPort) (p : List UInt8) (f f' : FdbEntry)
    (h : FdbMap.moved portList p f = some f') : f'.addr = f.addr := by
  rw [FdbMap.moved] at h
  split_ifs at h
  · exact addr_reassign h
  · rw [← Option.some.inj h]

theorem brMacHash_lt (mac : EthAddr) : brMacHash mac < brHashSize := by
  rw [brMacHash, BitVec.toNat_and]
  exact Nat.lt_of_le_of_lt Nat.and_le_right (by decide)

namespace FdbTable

variable {t : FdbTable}

def Wf (t : FdbTable) : Prop := Chained.Wf FdbEntry.addr brMacHash t.hash

def abs (t : FdbTable) : FdbMap := { t with entry := t.fdbFind }

section

variable (h : t.Wf)
include h

theorem alter_addr {addr : EthAddr} {fdb : FdbEntry} (hfind : t.fdbFind addr = some fdb)
    {g : FdbEntry → Option FdbEntry} (hg : ∀ f f', g f = some f' → f'.addr = f.addr) :
    (t.alter (brMacHash addr) (fun f => f.addr = addr) g).Wf ∧
      (t.alter (brMacHash addr) (fun f => f.addr = addr) g).abs = t.abs.put addr (g fdb) := by
  have haddr : fdb.addr = addr := key_get hfind
  have heq := h.alter_eq (f := g) hfind
  rw [haddr] at heq
  have hkeep : ∀ f f', (if f.addr = addr then g f else some f) = some f' → f'.addr = f.addr := by
    intro f f' hf
    split_ifs at hf
    · exact hg f f' hf
    · rw [← Option.some.inj hf]
  constructor
  · rw [Wf, alter, heq]
    exact h.filterMap hkeep
  · have hentry : (t.alter (brMacHash addr) (fun f => f.addr = addr) g).fdbFind =
        Function.update t.fdbFind addr (g fdb) := by
      funext a
      rw [fdbFind, alter, heq, h.get_filterMap hkeep, Function.update_apply]
      split_ifs with ha
      · subst ha
        have hget : get FdbEntry.addr brMacHash t.hash a = some fdb := hfind
        rw [hget, Option.bind_some, if_pos haddr]
      · cases hget : get FdbEntry.addr brMacHash t.hash a with
        | none => exact hget.symm
        | some f =>
          have hf : f.addr ≠ addr := fun hf => ha ((key_get hget).symm.trans hf)
          rw [Option.bind_some, if_neg hf]
          exact hget.symm
    rw [abs, hentry]
    rfl

theorem fdbCreate_abs {addr : EthAddr} (hnew : t.fdbFind addr = none) (source : List UInt8) (isLocal : Bool) :
    (t.fdbCreate source addr isLocal).Wf ∧
      (t.fdbCreate source addr isLocal).abs = t.abs.put addr (some ⟨addr, source, isLocal, isLocal, t.jiffies⟩) := by
  refine ⟨h.add hnew, ?_⟩
  have hentry : (t.fdbCreate source addr isLocal).fdbFind =
      Function.update t.fdbFind addr (some ⟨addr, source, isLocal, isLocal, t.jiffies⟩) := by
    funext a
    rw [fdbFind, fdbCreate, get_add, Function.update_apply]
    rfl
  rw [abs, hentry]
  rfl

theorem fdbInsert_abs (source : List UInt8) (addr : EthAddr) (alloc : Bool) :
    (t.fdbInsert source addr alloc).1.Wf ∧
      ((t.fdbInsert source addr alloc).1.abs, (t.fdbInsert source addr alloc).2) = t.abs.insert source addr alloc := by
  rw [fdbInsert, FdbMap.insert]
  by_cases hvalid : isValidEtherAddr addr = true
  · rw [if_pos hvalid, if_pos hvalid]
    have habs : t.abs.entry addr = t.fdbFind addr := rfl
    rw [habs]
    cases hfind : t.fdbFind addr with
    | none =>
      cases alloc with
      | false =>
        refine ⟨h, ?_⟩
        have hentry : Function.update t.abs.entry addr none = t.abs.entry := by
          rw [← hfind]
          exact Function.update_eq_self addr t.abs.entry
        have hput : t.abs.put addr none = t.abs := by
          rw [FdbMap.put, hentry]
        exact congrArg (·, false) hput.symm
      | true =>
        have hcreate := fdbCreate_abs h hfind source true
        exact ⟨hcreate.1, congrArg (·, true) hcreate.2⟩
    | some fdb =>
      dsimp only
      by_cases hlocal : fdb.isLocal = true
      · rw [if_pos hlocal, Option.any_some, if_pos hlocal]
        exact ⟨h, rfl⟩
      · rw [if_neg hlocal, Option.any_some, if_neg hlocal]
        obtain ⟨hwf, hremove⟩ := alter_addr h hfind (g := fun _ => none) (by simp)
        cases alloc with
        | false => exact ⟨hwf, congrArg (·, false) hremove⟩
        | true =>
          have hnone : (t.alter (brMacHash addr) (fun f => f.addr = addr) fun _ => none).fdbFind addr = none := by
            have hentry := congrFun (congrArg FdbMap.entry hremove) addr
            exact hentry.trans (Function.update_self _ _ _)
          obtain ⟨hwf', hcreate⟩ := fdbCreate_abs hwf hnone source true
          refine ⟨hwf', congrArg (·, true) (hcreate.trans ?_)⟩
          rw [hremove, FdbMap.put, FdbMap.put, Function.update_idem]
          rfl
  · rw [if_neg hvalid, if_neg hvalid]
    exact ⟨h, rfl⟩

theorem brFdbUpdate_abs (source : List UInt8) (addr : EthAddr) (alloc : Bool) :
    (t.brFdbUpdate source addr alloc).Wf ∧ (t.brFdbUpdate source addr alloc).abs = t.abs.learn source addr alloc := by
  have hhold : t.abs.holdTime = t.holdTime := rfl
  have habs : t.abs.entry addr = t.fdbFind addr := rfl
  rw [brFdbUpdate, FdbMap.learn, hhold, habs]
  by_cases hzero : t.holdTime = 0
  · rw [if_pos hzero, if_pos hzero]
    exact ⟨h, rfl⟩
  · rw [if_neg hzero, if_neg hzero]
    cases hfind : t.fdbFind addr with
    | none =>
      cases alloc with
      | false => exact ⟨h, rfl⟩
      | true => exact fdbCreate_abs h hfind source false
    | some fdb =>
      dsimp only
      split_ifs
      · exact ⟨h, rfl⟩
      · exact alter_addr h hfind (g := fun f => some (learnt source t.jiffies f)) fun f f' hf => by
          rw [← Option.some.inj hf]
          rfl

theorem filterMap_abs {g : FdbEntry → Option FdbEntry} (hg : ∀ f f', g f = some f' → f'.addr = f.addr) :
    ({ t with hash := fun i => (t.hash i).filterMap g } : FdbTable).Wf ∧
      ({ t with hash := fun i => (t.hash i).filterMap g } : FdbTable).abs = t.abs.change g := by
  refine ⟨h.filterMap hg, ?_⟩
  have hentry : ({ t with hash := fun i => (t.hash i).filterMap g } : FdbTable).fdbFind =
      fun a => (t.fdbFind a).bind g := by
    funext a
    exact h.get_filterMap hg a
  rw [abs, hentry]
  rfl

/-- The local entries of a port all have one address, so that the search for the first one finds them all. -/
theorem moved_abs (portList : List FdbPort) {p : List UInt8}
    (hone : ∀ a f a' f', t.fdbFind a = some f → t.fdbFind a' = some f' → isLocalOf p f = true → isLocalOf p f' = true →
      a = a') :
    let t' :=
      match (List.range brHashSize).find? fun i => (t.hash i).any (isLocalOf p) with
      | some i => t.alter i (isLocalOf p) (reassign portList p)
      | none => t
    t'.Wf ∧ t'.abs = t.abs.change (FdbMap.moved portList p) := by
  have hmem : ∀ i, ∀ f ∈ t.hash i, t.fdbFind f.addr = some f := fun i f hf => h.get_iff.mpr ⟨⟨i, hf⟩, rfl⟩
  have hkey := addr_moved portList p
  have hfilter := filterMap_abs h hkey
  cases hsearch : (List.range brHashSize).find? fun i => (t.hash i).any (isLocalOf p) with
  | none =>
    have hnone : ∀ i, ∀ f ∈ t.hash i, isLocalOf p f = false := by
      intro i f hf
      rw [List.find?_eq_none] at hsearch
      have hi : i ∈ List.range brHashSize := by
        rw [List.mem_range, ← h.place i f hf]
        exact brMacHash_lt _
      cases hp : isLocalOf p f with
      | false => rfl
      | true => exact absurd (List.any_eq_true.mpr ⟨f, hf, hp⟩) (hsearch i hi)
    have hsame : (fun i => (t.hash i).filterMap (FdbMap.moved portList p)) = t.hash := by
      funext i
      have hcongr : (t.hash i).filterMap (FdbMap.moved portList p) = (t.hash i).filterMap some := by
        apply List.filterMap_congr
        intro f hf
        rw [FdbMap.moved, hnone i f hf, if_neg (by decide)]
      rw [hcongr, List.filterMap_some]
    rw [hsame] at hfilter
    exact hfilter
  | some i =>
    have hany := List.find?_some hsearch
    obtain ⟨f₀, hf₀⟩ : ∃ f₀, (t.hash i).find? (isLocalOf p) = some f₀ := by
      rw [← Option.isSome_iff_exists, List.find?_isSome]
      exact List.any_eq_true.mp hany
    have hlocal₀ : isLocalOf p f₀ = true := List.find?_some hf₀
    have hmem₀ := List.mem_of_find?_eq_some hf₀
    have hsame : (fun j => (t.hash j).filterMap fun f => if f.addr = f₀.addr then reassign portList p f else some f) =
        fun j => (t.hash j).filterMap (FdbMap.moved portList p) := by
      funext j
      apply List.filterMap_congr
      intro f hf
      have hiff : f.addr = f₀.addr ↔ isLocalOf p f = true := by
        constructor
        · intro haddr
          have heq : some f = some f₀ := by rw [← hmem j f hf, haddr, hmem i f₀ hmem₀]
          rw [Option.some.inj heq]
          exact hlocal₀
        · intro hp
          exact hone _ _ _ _ (hmem j f hf) (hmem i f₀ hmem₀) hp hlocal₀
      rw [FdbMap.moved]
      exact if_congr hiff rfl rfl
    have halter : t.alter i (isLocalOf p) (reassign portList p) =
        { t with hash := fun j => (t.hash j).filterMap (FdbMap.moved portList p) } := by
      rw [alter, h.alter_eq hf₀, hsame]
    dsimp only
    rw [halter]
    exact hfilter

end

end FdbTable

end Wap610n.Bridge
