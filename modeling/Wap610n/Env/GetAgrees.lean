import Wap610n.Env.ReadLoop

namespace Wap610n.Env

open Bytes CString

/-- A sector of the flash with the entries `es` and the bytes `rest` behind the empty string that closes them. -/
structure ClosedSector (es : List Entry) (rest sector : List UInt8) : Prop where
  length : sector.length = cfgEnvSize
  data : sector.drop 4 = encode es ++ 0 :: rest

def GetAgrees (junk : Buffer → ℕ → UInt8) (sector : List UInt8) (q : Name) : Prop :=
  (∀ v, getEnvParam true junk sector [text "get_env_param", q.chars] = some (0, v ++ [10]) ↔
    getenvValue (envData (byteAt sector)) q.chars = some v) ∧
  ((∃ out, getEnvParam true junk sector [text "get_env_param", q.chars] = some (1, out)) ↔
    getenvValue (envData (byteAt sector)) q.chars = none)

def GetSafe (es : List Entry) (rest : List UInt8) (q : Name) : Prop :=
  (∃ e, es.find? (fun e => e.name.chars.take 254 = q.chars) = some e ∧ find q es = some (behindEq e.value.chars)) ∨
    (∀ e ∈ es, e.name.chars.take 254 ≠ q.chars) ∧ ∀ s ∈ strings [] rest, ¬Names q.chars s

theorem Entry.names_iff (e : Entry) (q : List UInt8) : Names q e.text ↔ e.name.chars.take 254 = q := by
  have hname : 61 ∉ e.name.chars := fun h => (e.name.clean 61 h).2 rfl
  rw [Names, if_pos (by simp [Entry.text]), Entry.text, upTo_append_cons hname]

theorem Entry.valueOf_text (e : Entry) : valueOf e.text = behindEq e.value.chars := by
  rw [valueOf, if_pos (by simp [Entry.text]), Entry.text, behindEq_text fun c hc => (e.name.clean c hc).2]

theorem ClosedSector.getenv {es : List Entry} {rest sector : List UInt8} (h : ClosedSector es rest sector) (q : Name) :
    getenvValue (envData (byteAt sector)) q.chars = find q es := by
  have hlen := congrArg List.length h.data
  rw [List.length_drop, h.length, List.length_append, List.length_cons] at hlen
  have hrest : sector.drop 4 = encode es ++ [0] ++ rest := by rw [h.data, List.append_assoc, List.singleton_append]
  exact getenvValue_envData (holds_byteAt hrest) (by omega) q

theorem ClosedSector.run {es : List Entry} {rest sector : List UInt8} (h : ClosedSector es rest sector) {q : Name}
    (hq : q.chars.length < 255) (junk : Buffer → ℕ → UInt8) :
    let ss := es.map Entry.text ++ [] :: strings [] rest
    let r := getEnvParam true junk sector [text "get_env_param", q.chars]
    (∃ s, ss.find? (fun s => Names q.chars s) = some s ∧ Prints (valueOf s) r) ∨
      (ss.find? (fun s => Names q.chars s) = none ∧ r = some (1, [])) := by
  obtain ⟨hclean, tail, htail, heq⟩ := strings_split rest
  have hdata : sector.drop 4 = zstrings (es.map Entry.text ++ [] :: strings [] rest) ++ tail := by
    rw [h.data, encode_eq, zstrings_append, zstrings_cons, List.append_assoc, List.nil_append, List.cons_append, ← heq]
  have hlen : ¬sector.length < 4 := by rw [h.length]; decide
  simp only [getEnvParam, hlen, or_false, Bool.true_eq_false, if_false, hdata]
  apply readLoop_strings (fun c hc => (q.clean c hc).1) hq _ htail (Reader.clear_paramValue _)
  intro s hs
  rcases List.mem_append.mp hs with hs | hs
  · obtain ⟨e, -, rfl⟩ := List.mem_map.mp hs
    exact e.text_clean
  · rcases List.mem_cons.mp hs with rfl | hs
    · exact fun _ h => absurd h List.not_mem_nil
    · exact hclean s hs

theorem Prints.ne_one {v : List UInt8} {r : Option (ℤ × List UInt8)} (h : Prints v r) (out : List UInt8) :
    r ≠ some (1, out) := by
  intro hr
  by_cases hlt : v.length < 255
  · simp [h.short hlt] at hr
  · exact absurd (h.long (Nat.le_of_not_lt hlt) _ _ hr).1 (by decide)

theorem Prints.eq_iff {v w : List UInt8} {r : Option (ℤ × List UInt8)} (h : Prints v r) (hw : w.length < 255) :
    r = some (0, w ++ [10]) ↔ v = w := by
  by_cases hlt : v.length < 255
  · simp [h.short hlt]
  · refine iff_of_false (fun hr => ?_) fun heq => hlt (heq ▸ hw)
    have := (h.long (Nat.le_of_not_lt hlt) _ _ hr).2
    rw [List.length_append, List.length_singleton] at this
    omega

theorem ClosedSector.run_cases {es : List Entry} {rest sector : List UInt8} (h : ClosedSector es rest sector) {q : Name}
    (hq : q.chars.length < 255) (junk : Buffer → ℕ → UInt8) :
    let r := getEnvParam true junk sector [text "get_env_param", q.chars]
    (∃ e, es.find? (fun e => e.name.chars.take 254 = q.chars) = some e ∧ Prints (behindEq e.value.chars) r) ∨
    ((∀ e ∈ es, e.name.chars.take 254 ≠ q.chars) ∧ (∃ s ∈ strings [] rest, Names q.chars s) ∧ ∃ v, Prints v r) ∨
    ((∀ e ∈ es, e.name.chars.take 254 ≠ q.chars) ∧ (∀ s ∈ strings [] rest, ¬Names q.chars s) ∧ r = some (1, [])) := by
  have hmap : (es.map Entry.text).find? (fun s => Names q.chars s) =
      (es.find? fun e => e.name.chars.take 254 = q.chars).map Entry.text := by
    rw [List.find?_map]
    simp only [Function.comp_def, Entry.names_iff]
  have hnil : ¬Names q.chars [] := by simpa [Names] using q.nonempty.symm
  have hrun := h.run hq junk
  simp only [List.find?_append, hmap] at hrun
  cases he : es.find? fun e => e.name.chars.take 254 = q.chars with
  | some e =>
    rcases hrun with ⟨s, hs, hprints⟩ | ⟨hnone, -⟩
    · rw [he, Option.map_some, Option.some_or, Option.some.injEq] at hs
      rw [← hs, e.valueOf_text] at hprints
      exact Or.inl ⟨e, rfl, hprints⟩
    · simp [he] at hnone
  | none =>
    have hno : ∀ e ∈ es, e.name.chars.take 254 ≠ q.chars := by simpa using he
    rw [he, Option.map_none, Option.none_or, List.find?_cons_of_neg (by simpa using hnil)] at hrun
    rcases hrun with ⟨s, hs, hprints⟩ | ⟨hnone, hr⟩
    · have hname : Names q.chars s := by simpa using List.find?_some hs
      exact Or.inr (Or.inl ⟨hno, ⟨s, List.mem_of_find?_eq_some hs, hname⟩, _, hprints⟩)
    · exact Or.inr (Or.inr ⟨hno, by simpa using hnone, hr⟩)

theorem find_eq_none_of_cut {es : List Entry} {q : Name} (hq : q.chars.length < 255)
    (h : ∀ e ∈ es, e.name.chars.take 254 ≠ q.chars) : find q es = none := by
  rw [find, Option.map_eq_none_iff, List.find?_eq_none]
  intro e he hname
  apply h e he
  rw [of_decide_eq_true hname]
  exact List.take_of_length_le (by omega)

variable {es : List Entry} {rest sector : List UInt8} {q : Name} {junk : Buffer → ℕ → UInt8}

theorem GetAgrees.safe (h : ClosedSector es rest sector) (hq : q.chars.length < 255)
    (hv : ∀ v, find q es = some v → v.length < 255) (ha : GetAgrees junk sector q) : GetSafe es rest q := by
  obtain ⟨hval, hexit⟩ := ha
  rw [h.getenv q] at hexit
  rcases h.run_cases hq junk with ⟨e, he, hprints⟩ | ⟨hno, -, v, hprints⟩ | ⟨hno, hleft, -⟩
  · cases hfind : find q es with
    | none =>
      obtain ⟨out, hout⟩ := hexit.mpr hfind
      exact absurd hout (hprints.ne_one out)
    | some v =>
      have hprinted := (hval v).mpr (by rw [h.getenv q, hfind])
      rw [← (hprints.eq_iff (hv v hfind)).mp hprinted] at hfind
      exact Or.inl ⟨e, he, hfind⟩
  · obtain ⟨out, hout⟩ := hexit.mpr (find_eq_none_of_cut hq hno)
    exact absurd hout (hprints.ne_one out)
  · exact Or.inr ⟨hno, hleft⟩

theorem GetSafe.agrees (h : ClosedSector es rest sector) (hq : q.chars.length < 255)
    (hv : ∀ v, find q es = some v → v.length < 255) (hs : GetSafe es rest q) : GetAgrees junk sector q := by
  unfold GetAgrees
  rw [h.getenv q]
  rcases h.run_cases hq junk with ⟨e, he, hprints⟩ | ⟨hno, ⟨s, hmem, hname⟩, -⟩ | ⟨hno, -, hr⟩
  · rcases hs with ⟨e', he', hfind⟩ | ⟨hno, -⟩
    · cases Option.some.inj (he.symm.trans he')
      rw [hprints.short (hv _ hfind), hfind]
      simp
    · exact absurd (by simpa using List.find?_some he) (hno e (List.mem_of_find?_eq_some he))
  · rcases hs with ⟨e, he, -⟩ | ⟨-, hleft⟩
    · exact absurd (by simpa using List.find?_some he) (hno e (List.mem_of_find?_eq_some he))
    · exact absurd hname (hleft s hmem)
  · rw [hr, find_eq_none_of_cut hq hno]
    simp

theorem getAgrees_iff (h : ClosedSector es rest sector) (q : Name) (hq : q.chars.length < 255)
    (hv : ∀ v, find q es = some v → v.length < 255) (junk : Buffer → ℕ → UInt8) :
    GetAgrees junk sector q ↔ GetSafe es rest q :=
  ⟨GetAgrees.safe h hq hv, GetSafe.agrees h hq hv⟩

theorem bootSector_closed :
    ClosedSector [bootdelay, bootargs] (List.replicate (cfgEnvSize - 41) 0) bootSector where
  length := bootSector_sector.length
  data := by rw [bootSector, List.append_assoc, List.drop_left' List.length_replicate]

theorem getAgrees_bootdelay : GetAgrees (fun _ _ => 0xff) bootSector bootdelay.name :=
  (getAgrees_iff bootSector_closed _ (by decide) (by decide) _).mpr (Or.inl ⟨bootdelay, by decide, by decide⟩)

theorem getEnvParam_cuts_value : ClosedSector [bootdelay, bootargs] (List.replicate (cfgEnvSize - 41) 0) bootSector ∧
    ¬GetAgrees (fun _ _ => 0xff) bootSector bootargs.name := by
  refine ⟨bootSector_closed, fun h => ?_⟩
  rcases h.safe bootSector_closed (by decide) (by decide) with ⟨e, he, hv⟩ | ⟨hno, -⟩
  · cases Option.some.inj (he.symm.trans (show _ = some bootargs by decide))
    exact absurd hv (by decide)
  · exact hno bootargs (by decide) (by decide)

end Wap610n.Env
