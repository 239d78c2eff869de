import Wap610n.Web.QueryVars

namespace Wap610n.Web

open CString Search

structure Field where
  name : List UInt8
  value : List UInt8

/-- The longest name that stands with its closing quote in the line `extractUploadedFileContent` keeps. -/
def longestName : ℕ := 984

def Field.nameStr (f : Field) : List UInt8 :=
  if f.name ≠ [] ∧ f.name.length ≤ longestName then f.name ++ 61 :: f.value else []

def Field.pairs (f : Field) : List (List UInt8 × List UInt8) := (queryTokens f.nameStr).map keywordValue

structure Field.Plain (f : Field) : Prop where
  name_ne : f.name ≠ []
  name_le : f.name.length ≤ longestName
  name_amp : 38 ∉ f.name
  value_amp : 38 ∉ f.value
  name_escape : escapeFree f.name
  value_escape : escapeFree f.value

structure Field.Sendable (f : Field) : Prop where
  name_nul : 0 ∉ f.name
  name_eq : 61 ∉ f.name
  value_nul : 0 ∉ f.value

def decoded (s : List UInt8) : List UInt8 := upTo 0 (websDecodeUrl s)

theorem decoded_length_le (s : List UInt8) : (decoded s).length ≤ s.length :=
  (upTo_length_le 0 _).trans (websDecodeUrl_length_le s)

theorem decoded_of_escapeFree {s : List UInt8} (h : escapeFree s) (hs : 0 ∉ s) : decoded s = s := by
  rw [decoded, websDecodeUrl_of_escapeFree h, upTo_of_notMem hs]

theorem decoded_of_length {s : List UInt8} (h : (decoded s).length = s.length) :
    decoded s = websDecodeUrl s ∧ (websDecodeUrl s).length = s.length := by
  have hle := websDecodeUrl_length_le s
  have hup := upTo_length_le 0 (websDecodeUrl s)
  rw [decoded] at h ⊢
  exact ⟨upTo_of_length (by omega), by omega⟩

theorem keywordValue_of_eq {a b : List UInt8} (h : 61 ∉ a) : keywordValue (a ++ 61 :: b) = (decoded a, decoded b) := by
  rw [keywordValue, strchr_append_cons h, upTo_append_cons h]
  rfl

theorem keywordValue_of_notMem {token : List UInt8} (h : 61 ∉ token) : keywordValue token = (token, []) := by
  rw [keywordValue, strchr_eq_none.mpr h]

theorem keywordValue_length_lt {token : List UInt8} (h : 61 ∈ token) :
    (keywordValue token).1.length + (keywordValue token).2.length < token.length := by
  obtain ⟨a, b, rfl, ha⟩ := List.eq_append_cons_of_mem h
  have hname := decoded_length_le a
  have hvalue := decoded_length_le b
  rw [keywordValue_of_eq ha, List.length_append, List.length_cons]
  dsimp only
  omega

theorem keywordValue_length_le (token : List UInt8) :
    (keywordValue token).1.length + (keywordValue token).2.length ≤ token.length := by
  by_cases h : 61 ∈ token
  · exact (keywordValue_length_lt h).le
  · rw [keywordValue_of_notMem h, List.length_nil, Nat.add_zero]

theorem weight_tokens_lt {query : List UInt8} (h : 61 ∈ query) :
    weight ((queryTokens query).map keywordValue) + query.count 38 < query.length := by
  have hlen := tokens_length 38 [] query
  have hlt : ((queryTokens query).map fun t => (keywordValue t).1.length + (keywordValue t).2.length).sum <
      ((queryTokens query).map List.length).sum := by
    apply List.sum_lt_sum
    · intro t _
      exact keywordValue_length_le t
    · obtain ⟨t, ht, hmem⟩ := @exists_token_mem _ _ 38 61 [] query (by decide) h
      exact ⟨t, ht, keywordValue_length_lt hmem⟩
  rw [weight, List.map_map]
  rw [queryTokens] at hlt ⊢
  rw [List.length_nil, Nat.zero_add] at hlen
  simp only [Function.comp_def]
  omega

theorem pairs_of_dropped {f : Field} (h : ¬ (f.name ≠ [] ∧ f.name.length ≤ longestName)) : f.pairs = [] := by
  rw [Field.pairs, Field.nameStr, if_neg h]
  rfl

theorem weight_pairs_add_count {f : Field} (h : f.name ≠ [] ∧ f.name.length ≤ longestName) :
    weight f.pairs + (f.name ++ 61 :: f.value).count 38 ≤ f.name.length + f.value.length := by
  have hlt := @weight_tokens_lt (f.name ++ 61 :: f.value) (List.mem_append_right _ List.mem_cons_self)
  rw [Field.pairs, Field.nameStr, if_pos h]
  rw [List.length_append, List.length_cons] at hlt
  omega

theorem weight_pairs_le (f : Field) : weight f.pairs ≤ f.name.length + f.value.length := by
  by_cases h : f.name ≠ [] ∧ f.name.length ≤ longestName
  · have := weight_pairs_add_count h
    omega
  · rw [pairs_of_dropped h]
    exact Nat.zero_le _

theorem pairs_of_notMem {f : Field} (hne : f.name ≠ []) (hle : f.name.length ≤ longestName)
    (hamp : 38 ∉ f.name ++ 61 :: f.value) (heq : 61 ∉ f.name) :
    f.pairs = [(decoded f.name, decoded f.value)] := by
  rw [Field.pairs, Field.nameStr, if_pos ⟨hne, hle⟩, queryTokens, tokens_of_notMem hamp (by simp),
    List.nil_append, List.map_singleton, keywordValue_of_eq heq]

def fieldPairs (fs : List Field) : List (List UInt8 × List UInt8) := fs.flatMap Field.pairs

theorem weight_fieldPairs (fs : List Field) : weight (fieldPairs fs) = (fs.map fun f => weight f.pairs).sum := by
  induction fs with
  | nil => rfl
  | cons f fs ih =>
    rw [fieldPairs, List.flatMap_cons, weight_append, List.map_cons, List.sum_cons, ← ih, fieldPairs]

def Bound (fs : List Field) (ps : List (List UInt8 × List UInt8)) : Prop :=
  ∀ f ∈ fs, f.name ≠ [] ∧ (values f.name ps).foldl setValue none = some f.value

theorem weight_pairs_eq {fs : List Field} (hd : (fs.map Field.name).Nodup) (h : Bound fs (fieldPairs fs)) :
    ∀ f ∈ fs, weight f.pairs = f.name.length + f.value.length := by
  have hneed : (fs.map fun f => f.name.length + f.value.length).sum ≤
      (fs.map fun f => weight ((fieldPairs fs).filter fun p => p.1 = f.name)).sum := by
    apply List.sum_le_sum
    intro f hf
    exact length_le_weight (h f hf).1 (h f hf).2
  have hall := sum_weight_filter_le hd (fieldPairs fs)
  rw [List.map_map, Function.comp_def, weight_fieldPairs] at hall
  intro f hf
  by_contra hne
  have hlt : (fs.map fun f => weight f.pairs).sum < (fs.map fun f => f.name.length + f.value.length).sum := by
    apply List.sum_lt_sum
    · intro g _
      exact weight_pairs_le g
    · exact ⟨f, hf, lt_of_le_of_ne (weight_pairs_le f) hne⟩
  omega

theorem name_le_of_bound {fs : List Field} (hd : (fs.map Field.name).Nodup) (h : Bound fs (fieldPairs fs)) {f : Field}
    (hf : f ∈ fs) : f.name.length ≤ longestName ∧ 38 ∉ f.name ++ 61 :: f.value := by
  have hweight := weight_pairs_eq hd h f hf
  have hpos := List.length_pos_iff.mpr (h f hf).1
  by_cases hle : f.name ≠ [] ∧ f.name.length ≤ longestName
  · refine ⟨hle.2, List.count_eq_zero.mp ?_⟩
    have := weight_pairs_add_count hle
    omega
  · rw [pairs_of_dropped hle] at hweight
    have hzero : weight [] = 0 := rfl
    omega

theorem decoded_length_of_bound {fs : List Field} (hd : (fs.map Field.name).Nodup) (h : Bound fs (fieldPairs fs))
    {f : Field} (hf : f ∈ fs) (heq : 61 ∉ f.name) :
    (decoded f.name).length = f.name.length ∧ (decoded f.value).length = f.value.length := by
  obtain ⟨hle, hamp⟩ := name_le_of_bound hd h hf
  have hweight := weight_pairs_eq hd h f hf
  rw [pairs_of_notMem (h f hf).1 hle hamp heq, weight_cons] at hweight
  have hzero : weight [] = 0 := rfl
  have hname := decoded_length_le f.name
  have hvalue := decoded_length_le f.value
  dsimp only at hweight
  omega

theorem exists_pair_of_foldl {k v : List UInt8} {ps : List (List UInt8 × List UInt8)}
    (h : (values k ps).foldl setValue none = some v) : ∃ p ∈ ps, p.1 = k := by
  induction ps with
  | nil => cases h
  | cons p ps ih =>
    rw [values_cons] at h
    split_ifs at h with hp
    · exact ⟨p, List.mem_cons_self, hp⟩
    · obtain ⟨q, hq, hk⟩ := ih h
      exact ⟨q, List.mem_cons_of_mem p hq, hk⟩

theorem escapeFree_name_of_bound {fs : List Field} (hd : (fs.map Field.name).Nodup) (hs : ∀ f ∈ fs, f.Sendable)
    (h : Bound fs (fieldPairs fs)) {f : Field} (hf : f ∈ fs) : escapeFree f.name := by
  obtain ⟨p, hp, hname⟩ := exists_pair_of_foldl (h f hf).2
  obtain ⟨g, hg, hpg⟩ := List.mem_flatMap.mp hp
  obtain ⟨hle, hamp⟩ := name_le_of_bound hd h hg
  rw [pairs_of_notMem (h g hg).1 hle hamp (hs g hg).name_eq, List.mem_singleton] at hpg
  obtain ⟨hdec, hlen⟩ := decoded_of_length (decoded_length_of_bound hd h hg (hs g hg).name_eq).1
  have hplus : 43 ∉ f.name := by
    rw [← hname, hpg, hdec]
    exact plus_notMem_websDecodeUrl hlen
  exact escapeFree_of_length (decoded_of_length (decoded_length_of_bound hd h hf (hs f hf).name_eq).1).2 hplus

theorem fieldPairs_eq {fs : List Field} {v : Field → List UInt8} (h : ∀ f ∈ fs, f.pairs = [(f.name, v f)]) :
    fieldPairs fs = fs.map fun f => (f.name, v f) := by
  rw [fieldPairs, List.map_eq_flatMap]
  exact List.flatMap_congr h

theorem values_map {fs : List Field} (hd : (fs.map Field.name).Nodup) (v : Field → List UInt8) {f : Field}
    (hf : f ∈ fs) : values f.name (fs.map fun f => (f.name, v f)) = [v f] := by
  induction fs with
  | nil => exact absurd hf List.not_mem_nil
  | cons g fs ih =>
    obtain ⟨hg, hd⟩ := List.nodup_cons.mp hd
    rw [List.map_cons, values_cons]
    rcases List.mem_cons.mp hf with rfl | hf
    · have hnone : values f.name (fs.map fun f => (f.name, v f)) = [] := by
        rw [values, List.map_eq_nil_iff, List.filter_eq_nil_iff]
        intro p hp
        obtain ⟨e, he, rfl⟩ := List.mem_map.mp hp
        exact fun heq => hg (List.mem_map.mpr ⟨e, he, of_decide_eq_true heq⟩)
      rw [if_pos rfl, hnone]
    · have hne : g.name ≠ f.name := fun heq => hg (heq ▸ List.mem_map_of_mem hf)
      rw [if_neg hne, ih hd hf]

theorem bound_of_pairs {fs : List Field} (hd : (fs.map Field.name).Nodup) {v : Field → List UInt8}
    (h : ∀ f ∈ fs, f.pairs = [(f.name, v f)]) {f : Field} (hf : f ∈ fs) :
    (values f.name (fieldPairs fs)).foldl setValue none = some (v f) := by
  rw [fieldPairs_eq h, values_map hd v hf]
  rfl

theorem plain_of_bound {fs : List Field} (hd : (fs.map Field.name).Nodup) (hs : ∀ f ∈ fs, f.Sendable)
    (h : Bound fs (fieldPairs fs)) : ∀ f ∈ fs, f.Plain := by
  have hpairs : ∀ f ∈ fs, f.pairs = [(f.name, decoded f.value)] := by
    intro f hf
    obtain ⟨hle, hamp⟩ := name_le_of_bound hd h hf
    rw [pairs_of_notMem (h f hf).1 hle hamp (hs f hf).name_eq,
      decoded_of_escapeFree (escapeFree_name_of_bound hd hs h hf) (hs f hf).name_nul]
  intro f hf
  obtain ⟨hle, hamp⟩ := name_le_of_bound hd h hf
  rw [List.mem_append, List.mem_cons, not_or, not_or] at hamp
  have hvalue : decoded f.value = f.value :=
    Option.some.inj ((bound_of_pairs hd hpairs hf).symm.trans (h f hf).2)
  have hdec := (decoded_of_length (congrArg List.length hvalue)).1
  exact ⟨(h f hf).1, hle, hamp.1, hamp.2.2, escapeFree_name_of_bound hd hs h hf,
    escapeFree_of_websDecodeUrl (hdec.symm.trans hvalue)⟩

theorem bound_of_plain {fs : List Field} (hd : (fs.map Field.name).Nodup) (hs : ∀ f ∈ fs, f.Sendable)
    (h : ∀ f ∈ fs, f.Plain) : Bound fs (fieldPairs fs) := by
  have hpairs : ∀ f ∈ fs, f.pairs = [(f.name, f.value)] := by
    intro f hf
    have hp := h f hf
    have hamp : 38 ∉ f.name ++ 61 :: f.value := by
      rw [List.mem_append, List.mem_cons, not_or, not_or]
      exact ⟨hp.name_amp, by decide, hp.value_amp⟩
    rw [pairs_of_notMem hp.name_ne hp.name_le hamp (hs f hf).name_eq,
      decoded_of_escapeFree hp.name_escape (hs f hf).name_nul,
      decoded_of_escapeFree hp.value_escape (hs f hf).value_nul]
  intro f hf
  exact ⟨(h f hf).name_ne, bound_of_pairs hd hpairs hf⟩

theorem bound_iff_plain {fs : List Field} (hd : (fs.map Field.name).Nodup) (hs : ∀ f ∈ fs, f.Sendable) :
    Bound fs (fieldPairs fs) ↔ ∀ f ∈ fs, f.Plain :=
  ⟨plain_of_bound hd hs, bound_of_plain hd hs⟩

end Wap610n.Web
