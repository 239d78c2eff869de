import Mathlib.Data.List.Nodup
import Wap610n.Env.SetGet

namespace Wap610n.Env

open Bytes

def SetEnvIo.ok : SetEnvIo := ⟨true, true, true⟩

def SetsParam (sector : List UInt8) (m : Name) (v : Value) : Prop :=
  ∃ out, setEnvParam .ok sector m.chars (some v.chars) = some (0, some out) ∧
    getenvValue (envData out) m.chars = some v.chars ∧
    ∀ q : Name, q ≠ m → getenvValue (envData out) q.chars = getenvValue (envData (byteAt sector)) q.chars

def DeletesParam (sector : List UInt8) (m : Name) : Prop :=
  ∃ out, setEnvParam .ok sector m.chars none = some (0, some out) ∧
    getenvValue (envData out) m.chars = none ∧
    ∀ q : Name, q ≠ m → getenvValue (envData out) q.chars = getenvValue (envData (byteAt sector)) q.chars

def assign (m : Name) (v : Value) (es : List Entry) : List Entry :=
  if es.any (fun e => e.name = m) then es.map fun e => if e.name = m then ⟨m, v⟩ else e else es ++ [⟨m, v⟩]

def SetSafe (es : List Entry) (m : Name) (v : Value) : Prop :=
  (∀ e ∈ es, ¬m.chars <+: e.name.chars) ∨
    (∃ e ∈ es, e.name = m ∧ 61 ∉ e.value.chars) ∧
      ∀ e ∈ es, e.name ≠ m → m.chars <+: e.name.chars → upto e.value.chars ++ v.chars = e.value.chars

def DeleteSafe (es : List Entry) (m : Name) : Prop := ∀ e ∈ es, m.chars <+: e.name.chars → e.name = m

theorem setEnvParam_ok {sector n : List UInt8} {v : Option (List UInt8)} {out : ℕ → UInt8} :
    setEnvParam .ok sector n v = some (0, some out) ↔ editSector sector n v = some out := by
  simp [setEnvParam, SetEnvIo.ok]

variable {es : List Entry} {m : Name} {v : Value}

theorem find_cons (q : Name) (e : Entry) (es : List Entry) :
    find q (e :: es) = if e.name = q then some e.value.chars else find q es := by
  by_cases h : e.name = q
  · simp [find, h]
  · simp [find, h]

theorem find?_of_mem (hd : (es.map Entry.name).Nodup) {e : Entry} (he : e ∈ es) :
    es.find? (fun d => d.name = e.name) = some e := by
  induction es with
  | nil => exact absurd he List.not_mem_nil
  | cons d es ih =>
    rw [List.map_cons, List.nodup_cons] at hd
    rcases List.mem_cons.mp he with rfl | he
    · simp
    · have hne : d.name ≠ e.name := fun heq => hd.1 (heq ▸ List.mem_map_of_mem he)
      simp [hne, ih hd.2 he]

theorem find_replace {q : Name} : find q (es.map fun e => if e.name = m then ⟨m, v⟩ else e) =
    if q = m ∧ ∃ e ∈ es, e.name = m then some v.chars else find q es := by
  induction es with
  | nil => simp
  | cons e es ih =>
    rw [List.map_cons, find_cons, ih, find_cons]
    by_cases he : e.name = m
    · by_cases hq : q = m
      · simp [he, hq]
      · simp [he, hq, Ne.symm hq]
    · by_cases hq : q = m
      · simp [he, hq]
      · simp [he, hq]

theorem find_append (q : Name) (a b : List Entry) : find q (a ++ b) = (find q a).or (find q b) := by
  rw [find, List.find?_append, Option.map_or, find, find]

theorem find_eq_none {q : Name} : find q es = none ↔ ∀ e ∈ es, e.name ≠ q := by
  simp [find]

theorem find_assign {q : Name} : find q (assign m v es) = if q = m then some v.chars else find q es := by
  unfold assign
  split_ifs with hany hq hq
  · rw [find_replace, if_pos ⟨hq, by simpa using hany⟩]
  · rw [find_replace, if_neg fun h => hq h.1]
  · have habs : find q es = none := find_eq_none.mpr (by simpa [hq] using hany)
    rw [find_append, habs, Option.none_or, find_cons, if_pos hq.symm]
  · rw [find_append, find_cons, if_neg (Ne.symm hq)]
    exact Option.or_none

theorem find_edit {q : Name} : find q (es.flatMap (edit m (some v))) =
    (es.find? fun e => e.name = q).map fun e =>
      if m.chars <+: e.name.chars then upto e.value.chars ++ v.chars else e.value.chars := by
  induction es with
  | nil => rfl
  | cons e es ih =>
    rw [List.flatMap_cons]
    by_cases hpre : m.chars <+: e.name.chars
    · rw [edit_found hpre, List.singleton_append, find_cons, ih, List.find?_cons]
      by_cases hq : e.name = q
      · simp [Entry.retarget, hq, hq ▸ hpre]
      · simp [Entry.retarget, hq]
    · rw [edit_other hpre, List.singleton_append, find_cons, ih, List.find?_cons]
      by_cases hq : e.name = q
      · simp [hq, hq ▸ hpre]
      · simp [hq]

theorem find_edit_none {q : Name} :
    find q (es.flatMap (edit m none)) = if m.chars <+: q.chars then none else find q es := by
  induction es with
  | nil => simp [find]
  | cons e es ih =>
    rw [List.flatMap_cons]
    by_cases hpre : m.chars <+: e.name.chars
    · rw [edit_dropped hpre, List.nil_append, ih, find_cons]
      by_cases hq : e.name = q
      · simp [hq ▸ hpre]
      · simp [hq]
    · rw [edit_other hpre, List.singleton_append, find_cons, ih, find_cons]
      by_cases hq : e.name = q
      · simp [hq, hq ▸ hpre]
      · simp [hq]

theorem encode_singleton_length (e : Entry) : (encode [e]).length = e.text.length + 1 := by
  rw [encode_cons, encode_nil, List.append_nil, List.length_append, List.length_singleton]

theorem setsParam_of_absent {sector : List UInt8} (h : Sector es sector)
    (hroom : 4 + (encode (assign m v es)).length < cfgEnvSize) (habs : ∀ e ∈ es, ¬m.chars <+: e.name.chars) :
    SetsParam sector m v := by
  have hany : es.any (fun e => m.chars <+: e.name.chars) = false := by simpa using habs
  have hname : ∀ e ∈ es, e.name ≠ m := fun e he heq => habs e he (heq ▸ List.prefix_rfl)
  have hassign : assign m v es = es ++ [⟨m, v⟩] := if_neg (by simpa using hname)
  rw [hassign] at hroom
  have hfits : Fits m (some v) 4 es :=
    fits_of_le (fun e he => by rw [edit_other (habs e he), encode_singleton_length]) h.encode_length
  obtain ⟨out, hout, hget⟩ := editSector_append h hany hfits hroom
  refine ⟨out, setEnvParam_ok.mpr hout, ?_, fun q hq => ?_⟩
  · rw [hget, ← hassign, find_assign, if_pos rfl]
  · rw [hget, ← hassign, find_assign, if_neg hq, h.getenv]

theorem edit_of_safe (hd : (es.map Entry.name).Nodup) (hm : ∃ e ∈ es, e.name = m ∧ 61 ∉ e.value.chars)
    (hother : ∀ e ∈ es, e.name ≠ m → m.chars <+: e.name.chars → upto e.value.chars ++ v.chars = e.value.chars)
    {e : Entry} (he : e ∈ es) : edit m (some v) e = [if e.name = m then ⟨m, v⟩ else e] := by
  by_cases hname : e.name = m
  · obtain ⟨e', he', hname', hval⟩ := hm
    cases List.inj_on_of_nodup_map hd he he' (hname.trans hname'.symm)
    rw [edit_found (hname ▸ List.prefix_rfl), if_pos hname]
    simp [Entry.retarget, hname, upto_eq_nil.mpr hval]
  · rw [if_neg hname]
    by_cases hpre : m.chars <+: e.name.chars
    · rw [edit_found hpre]
      simp [Entry.retarget, hother e he hname hpre]
    · exact edit_other hpre

theorem setsParam_of_present {sector : List UInt8} (h : Sector es sector)
    (hroom : 4 + (encode (assign m v es)).length < cfgEnvSize) (hm : ∃ e ∈ es, e.name = m ∧ 61 ∉ e.value.chars)
    (hother : ∀ e ∈ es, e.name ≠ m → m.chars <+: e.name.chars → upto e.value.chars ++ v.chars = e.value.chars) :
    SetsParam sector m v := by
  have hedit {e : Entry} (he : e ∈ es) := edit_of_safe h.distinct hm hother he
  have hassign : es.flatMap (edit m (some v)) = assign m v es := by
    have hpresent : es.any (fun e => e.name = m) = true := by
      obtain ⟨e, he, hname, -⟩ := hm
      exact List.any_eq_true.mpr ⟨e, he, decide_eq_true hname⟩
    rw [assign, if_pos hpresent, ← List.flatMap_pure_eq_map]
    exact List.flatMap_congr fun e he => hedit he
  have hlen {e : Entry} (he : e ∈ es) : (encode (edit m (some v) e)).length =
      if e.name = m then m.chars.length + v.chars.length + 2 else e.text.length + 1 := by
    rw [hedit he, encode_singleton_length]
    by_cases hname : e.name = m
    · rw [if_pos hname, if_pos hname, Entry.text_length]
    · rw [if_neg hname, if_neg hname]
  obtain ⟨e₀, he₀, hname₀, hval₀⟩ := hm
  have hlen₀ {e : Entry} (he : e ∈ es) (hname : e.name = m) :
      e.text.length = m.chars.length + e₀.value.chars.length + 1 := by
    rw [List.inj_on_of_nodup_map h.distinct he he₀ (hname.trans hname₀.symm), Entry.text_length, hname₀]
  have hfits : Fits m (some v) 4 es := by
    rcases Nat.le_total v.chars.length e₀.value.chars.length with hle | hle
    · apply fits_of_le _ h.encode_length
      intro e he
      rw [hlen he]
      split_ifs with hname
      · rw [hlen₀ he hname]
        omega
      · rfl
    · apply fits_of_ge _ (hassign ▸ hroom)
      intro e he
      rw [hlen he]
      split_ifs with hname
      · rw [hlen₀ he hname]
        omega
      · rfl
  have hany : es.any (fun e => m.chars <+: e.name.chars) = true :=
    List.any_eq_true.mpr ⟨e₀, he₀, decide_eq_true (hname₀ ▸ List.prefix_rfl)⟩
  rcases editSector_edit h (Or.inr hany) with ⟨-, out, hout, hget⟩ | ⟨hn, -⟩
  swap
  · exact absurd hfits hn
  refine ⟨out, setEnvParam_ok.mpr hout, ?_, fun q hq => ?_⟩
  · rw [hget, hassign, find_assign, if_pos rfl]
  · rw [hget, hassign, find_assign, if_neg hq, h.getenv]

theorem SetsParam.safe {sector : List UInt8} (h : Sector es sector) (hs : SetsParam sector m v) : SetSafe es m v := by
  obtain ⟨out, hout, hm, hq⟩ := hs
  by_cases habs : ∀ e ∈ es, ¬m.chars <+: e.name.chars
  · exact Or.inl habs
  have hany : es.any (fun e => m.chars <+: e.name.chars) = true := by simpa using habs
  rw [setEnvParam_ok] at hout
  rcases editSector_edit (m := m) (w := some v) h (Or.inr hany) with ⟨-, out', hout', hget⟩ | ⟨-, hnone⟩
  swap
  · exact absurd (hnone.symm.trans hout) (by simp)
  cases Option.some.inj (hout.symm.trans hout')
  simp only [hget, h.getenv, find_edit] at hm hq
  refine Or.inr ⟨?_, fun e he hne hpre => ?_⟩
  · obtain ⟨e, he, hval⟩ := Option.map_eq_some_iff.mp hm
    have hname : e.name = m := by simpa using List.find?_some he
    rw [if_pos (hname ▸ List.prefix_rfl), List.append_left_eq_self] at hval
    exact ⟨e, List.mem_of_find?_eq_some he, hname, upto_eq_nil.mp hval⟩
  · have hval := hq e.name hne
    simpa [find, find?_of_mem h.distinct he, hpre] using hval

theorem deletesParam_iff {sector : List UInt8} (h : Sector es sector) : DeletesParam sector m ↔ DeleteSafe es m := by
  have hfits : Fits m none 4 es := by
    apply fits_of_le _ h.encode_length
    intro e _
    by_cases hpre : m.chars <+: e.name.chars
    · simp [edit_dropped hpre]
    · rw [edit_other hpre, encode_singleton_length]
  rcases editSector_edit h (Or.inl rfl) with ⟨-, out, hout, hget⟩ | ⟨hn, -⟩
  swap
  · exact absurd hfits hn
  have hlost : DeletesParam sector m ↔ ∀ q : Name, q ≠ m → m.chars <+: q.chars → find q es = none := by
    constructor
    · rintro ⟨out', hout', -, hq⟩ q hne hpre
      cases Option.some.inj (hout.symm.trans (setEnvParam_ok.mp hout'))
      have hkept := hq q hne
      rwa [hget, find_edit_none, if_pos hpre, h.getenv, eq_comm] at hkept
    · intro hnone
      refine ⟨out, setEnvParam_ok.mpr hout, ?_, fun q hne => ?_⟩
      · rw [hget, find_edit_none, if_pos List.prefix_rfl]
      · rw [hget, find_edit_none, h.getenv]
        split_ifs with hpre
        · exact (hnone q hne hpre).symm
        · rfl
  rw [hlost]
  constructor
  · intro hnone e he hpre
    by_contra hne
    exact find_eq_none.mp (hnone e.name hne hpre) e he rfl
  · intro hsafe q hne hpre
    apply find_eq_none.mpr
    intro e he hq
    apply hne
    rw [← hq]
    exact hsafe e he (hq ▸ hpre)

theorem setsParam_iff {sector : List UInt8} (h : Sector es sector)
    (hroom : 4 + (encode (assign m v es)).length < cfgEnvSize) : SetsParam sector m v ↔ SetSafe es m v :=
  ⟨SetsParam.safe h, fun hs => hs.elim (setsParam_of_absent h hroom) fun hp => setsParam_of_present h hroom hp.1 hp.2⟩

theorem setEnvParam_law {sector : List UInt8} (h : Sector es sector) :
    (∀ v : Value, 4 + (encode (assign m v es)).length < cfgEnvSize → (SetsParam sector m v ↔ SetSafe es m v)) ∧
      (DeletesParam sector m ↔ DeleteSafe es m) :=
  ⟨fun _ hroom => setsParam_iff h hroom, deletesParam_iff h⟩

instance : Decidable (SetSafe es m v) := inferInstanceAs (Decidable (_ ∨ _))

instance : Decidable (DeleteSafe es m) := inferInstanceAs (Decidable (∀ e ∈ es, _))

def valueX : Value := ⟨text "x", forall_mem_of_all (by decide)⟩

def bootdelay : Entry :=
  ⟨⟨text "bootdelay", by decide, forall_mem_of_all (by decide)⟩, ⟨text "3", forall_mem_of_all (by decide)⟩⟩

def bootargs : Entry :=
  ⟨⟨text "bootargs", by decide, forall_mem_of_all (by decide)⟩, ⟨text "root=/dev/ram0", forall_mem_of_all (by decide)⟩⟩

def boot : Name := ⟨text "boot", by decide, forall_mem_of_all (by decide)⟩

def bootSector : List UInt8 :=
  List.replicate 4 0 ++ encode [bootdelay, bootargs] ++ 0 :: List.replicate (cfgEnvSize - 41) 0

theorem bootSector_sector : Sector [bootdelay, bootargs] bootSector where
  length := by
    have hlen : (encode [bootdelay, bootargs]).length = 36 := by decide
    rw [bootSector, List.length_append, List.length_append, List.length_cons, List.length_replicate,
      List.length_replicate, hlen]
    rfl
  data := ⟨_, by rw [bootSector, List.append_assoc, List.drop_left' List.length_replicate]⟩
  distinct := by decide
  count := by decide

theorem setEnvParam_law_bootSector : Sector [bootdelay, bootargs] bootSector ∧
    SetsParam bootSector bootdelay.name valueX ∧ DeletesParam bootSector bootargs.name :=
  ⟨bootSector_sector, ((setEnvParam_law bootSector_sector).1 _ (by decide)).mpr (by decide),
    (setEnvParam_law bootSector_sector).2.mpr (by decide)⟩

theorem setEnvParam_loses_entries : Sector [bootdelay, bootargs] bootSector ∧
    4 + (encode (assign boot valueX [bootdelay, bootargs])).length < cfgEnvSize ∧
    ¬SetsParam bootSector boot valueX ∧ ¬DeletesParam bootSector boot ∧
      ¬SetsParam bootSector bootargs.name valueX :=
  ⟨bootSector_sector, by decide, mt (SetsParam.safe bootSector_sector) (by decide),
    mt (deletesParam_iff bootSector_sector).mp (by decide), mt (SetsParam.safe bootSector_sector) (by decide)⟩

end Wap610n.Env
