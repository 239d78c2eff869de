import Wap610n.Bridge.FdbOwn

/-!
How the forwarding database is read out: `br_fdb_fillbuf` behind `brforward_read`, page by page.
-/

namespace Wap610n.Bridge

structure FdbRecord where
  macAddr : EthAddr
  portNo : UInt8
  isLocal : Bool
  ageingTimerValue : BitVec 32
deriving DecidableEq

def fdbRecordSize : ℕ := 16

section

-- `toClock` is `jiffies_to_clock_t`.
variable (toClock : BitVec 32 → BitVec 32) (t : FdbTable)

def portNoOf (dev : List UInt8) : ℕ := ((t.portList.find? fun p => p.dev = dev).map FdbPort.portNo).getD 0

def record (f : FdbEntry) : FdbRecord where
  macAddr := f.addr
  portNo := UInt8.ofNat (portNoOf t f.dst)
  isLocal := f.isLocal
  ageingTimerValue := if f.isStatic then 0 else toClock (t.jiffies - f.ageingTimer)

structure Filling where
  fe : List FdbRecord
  skip : ℕ
  out : Bool

def fillChain (maxnum : ℕ) : List FdbEntry → Filling → Filling
  | [], s => s
  | f :: fs, s =>
    if s.fe.length ≥ maxnum then { s with out := true }
    else if t.hasExpired f then fillChain maxnum fs s
    else if s.skip ≠ 0 then fillChain maxnum fs { s with skip := s.skip - 1 }
    else fillChain maxnum fs { s with fe := s.fe ++ [record toClock t f] }

def fillTable (maxnum : ℕ) : List ℕ → Filling → Filling
  | [], s => s
  | i :: is, s =>
    let s := fillChain toClock t maxnum (t.hash i) s
    if s.out then s else fillTable maxnum is s

def brFdbFillbuf (maxnum skip : ℕ) : List FdbRecord :=
  (fillTable toClock t maxnum (List.range brHashSize) ⟨[], skip, false⟩).fe

def brforwardRead (off count : ℕ) : Option (List FdbRecord) :=
  if off % fdbRecordSize ≠ 0 then none else some (brFdbFillbuf toClock t (count / fdbRecordSize) (off / fdbRecordSize))

def records : List FdbRecord :=
  (((List.range brHashSize).flatMap t.hash).filter fun f => !t.hasExpired f).map (record toClock t)

variable {toClock t} {maxnum : ℕ}

theorem fillChain_fe (fs : List FdbEntry) (s : Filling) : (fillChain toClock t maxnum fs s).fe = s.fe ++
    (((fs.filter fun f => !t.hasExpired f).map (record toClock t)).drop s.skip).take (maxnum - s.fe.length) := by
  induction fs generalizing s with
  | nil => simp [fillChain]
  | cons f fs ih =>
    obtain ⟨fe, skip, out⟩ := s
    rw [fillChain]
    by_cases hfull : fe.length ≥ maxnum
    · rw [if_pos hfull, Nat.sub_eq_zero_of_le hfull, List.take_zero, List.append_nil]
    · rw [if_neg hfull]
      cases hexp : t.hasExpired f with
      | true =>
        rw [if_pos rfl, List.filter_cons_of_neg (by simp [hexp])]
        exact ih _
      | false =>
        rw [if_neg Bool.false_ne_true, List.filter_cons_of_pos (by simp [hexp]), List.map_cons]
        cases skip with
        | zero =>
          obtain ⟨n, hn⟩ : ∃ n, maxnum - fe.length = n + 1 := ⟨maxnum - fe.length - 1, by omega⟩
          have hn' : maxnum - (fe ++ [record toClock t f]).length = n := by
            rw [List.length_append, List.length_singleton]
            omega
          rw [if_neg (by simp), ih]
          dsimp only
          rw [hn, hn', List.drop_zero, List.drop_zero, List.take_succ_cons, List.append_assoc]
          rfl
        | succ k =>
          rw [if_pos (by simp), ih]
          rfl

theorem fillChain_append (fs gs : List FdbEntry) (s : Filling) (hout : s.out = false) :
    fillChain toClock t maxnum (fs ++ gs) s =
      if (fillChain toClock t maxnum fs s).out then fillChain toClock t maxnum fs s
      else fillChain toClock t maxnum gs (fillChain toClock t maxnum fs s) := by
  induction fs generalizing s with
  | nil => rw [List.nil_append, fillChain, hout, if_neg Bool.false_ne_true]
  | cons f fs ih =>
    rw [List.cons_append, fillChain, fillChain]
    by_cases hfull : s.fe.length ≥ maxnum
    · rw [if_pos hfull, if_pos hfull, if_pos rfl]
    · rw [if_neg hfull, if_neg hfull]
      by_cases hexp : t.hasExpired f = true
      · rw [if_pos hexp, if_pos hexp]
        exact ih s hout
      · rw [if_neg hexp, if_neg hexp]
        by_cases hskip : s.skip ≠ 0
        · rw [if_pos hskip, if_pos hskip]
          exact ih _ hout
        · rw [if_neg hskip, if_neg hskip]
          exact ih _ hout

theorem fillTable_eq (is : List ℕ) (s : Filling) (hout : s.out = false) :
    fillTable toClock t maxnum is s = fillChain toClock t maxnum (is.flatMap t.hash) s := by
  induction is generalizing s with
  | nil => rfl
  | cons i is ih =>
    rw [List.flatMap_cons, fillChain_append _ _ _ hout, fillTable]
    cases hdone : (fillChain toClock t maxnum (t.hash i) s).out with
    | true => simp
    | false => simpa [hdone] using ih _ hdone

theorem brFdbFillbuf_eq (maxnum skip : ℕ) :
    brFdbFillbuf toClock t maxnum skip = ((records toClock t).drop skip).take maxnum := by
  rw [brFdbFillbuf, fillTable_eq _ _ rfl, fillChain_fe]
  rfl

variable (toClock t) in
def readPages : List ℕ → ℕ → Option (List FdbRecord)
  | [], _ => some []
  | count :: counts, off =>
    (brforwardRead toClock t off count).bind fun page =>
      (readPages counts (off + page.length * fdbRecordSize)).map (page ++ ·)

theorem readPages_eq (counts : List ℕ) {n : ℕ} (hn : n ≤ (records toClock t).length) :
    readPages toClock t counts (n * fdbRecordSize) =
      some (((records toClock t).drop n).take (counts.map (· / fdbRecordSize)).sum) := by
  induction counts generalizing n with
  | nil => rfl
  | cons count counts ih =>
    have hread : brforwardRead toClock t (n * fdbRecordSize) count =
        some (((records toClock t).drop n).take (count / fdbRecordSize)) := by
      rw [brforwardRead, if_neg (by simp), Nat.mul_div_cancel n (by decide), brFdbFillbuf_eq]
    have hnext : (records toClock t).drop (n + (((records toClock t).drop n).take (count / fdbRecordSize)).length) =
        ((records toClock t).drop n).drop (count / fdbRecordSize) := by
      rw [List.drop_drop, List.length_take, List.length_drop]
      by_cases hlast : count / fdbRecordSize ≤ (records toClock t).length - n
      · rw [Nat.min_eq_left hlast]
      · rw [List.drop_eq_nil_of_le (by omega), List.drop_eq_nil_of_le (by omega)]
    rw [readPages, hread, Option.bind_some, ← Nat.add_mul, ih (by simp; omega), hnext, Option.map_some, List.map_cons,
      List.sum_cons, List.take_add]

theorem records_nodup (h : t.Wf) : ((records toClock t).map FdbRecord.macAddr).Nodup := by
  have hmap : (records toClock t).map FdbRecord.macAddr =
      (((List.range brHashSize).flatMap t.hash).filter fun f => !t.hasExpired f).map FdbEntry.addr := by
    rw [records, List.map_map]
    rfl
  rw [hmap]
  apply List.Nodup.sublist (List.filter_sublist.map _)
  rw [List.map_flatMap, List.nodup_flatMap]
  refine ⟨fun i _ => h.nodup i, List.nodup_range.imp ?_⟩
  intro i j hij a ha ha'
  obtain ⟨f, hf, rfl⟩ := List.mem_map.mp ha
  obtain ⟨f', hf', haddr⟩ := List.mem_map.mp ha'
  exact hij ((h.place i f hf).symm.trans ((congrArg brMacHash haddr.symm).trans (h.place j f' hf')))

theorem mem_records (h : t.Wf) (a : EthAddr) :
    a ∈ (records toClock t).map FdbRecord.macAddr ↔ (t.brFdbGet a).isSome = true := by
  have hget : ∀ f, t.brFdbGet a = some f ↔ ((∃ i, f ∈ t.hash i) ∧ f.addr = a) ∧ t.hasExpired f = false := by
    intro f
    rw [FdbTable.brFdbGet, Option.filter_eq_some_iff, FdbTable.fdbFind, h.get_iff]
    simp
  rw [records, List.map_map, List.mem_map, Option.isSome_iff_exists]
  constructor
  · rintro ⟨f, hf, rfl⟩
    obtain ⟨hmem, hlive⟩ := List.mem_filter.mp hf
    obtain ⟨i, -, hi⟩ := List.mem_flatMap.mp hmem
    exact ⟨f, (hget f).mpr ⟨⟨⟨i, hi⟩, rfl⟩, by simpa using hlive⟩⟩
  · rintro ⟨f, hf⟩
    obtain ⟨⟨⟨i, hi⟩, haddr⟩, hlive⟩ := (hget f).mp hf
    have hrange : i ∈ List.range brHashSize := by
      rw [List.mem_range, ← h.place i f hi]
      exact brMacHash_lt _
    exact ⟨f, List.mem_filter.mpr ⟨List.mem_flatMap.mpr ⟨i, hrange, hi⟩, by simp [hlive]⟩, haddr⟩

end

end Wap610n.Bridge
