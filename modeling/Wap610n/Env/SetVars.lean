import Mathlib.Data.List.Nodup
import Wap610n.Env.Block

namespace Wap610n.Env

open Bytes CString

theorem joined_clean {sep : UInt8} (hsep : sep ≠ 0) (args : List Value) :
    ∀ c ∈ joined sep (args.map Value.chars), c ≠ 0 := by
  induction args generalizing sep with
  | nil => intro c hc; exact absurd hc List.not_mem_nil
  | cons val vals ih =>
    intro c hc
    rw [List.map_cons, joined, List.mem_cons, List.mem_append] at hc
    rcases hc with rfl | hc | hc
    · exact hsep
    · exact val.clean c hc
    · exact ih (by decide) c hc

def Var.ofText (cs : List UInt8) (clean : ∀ c ∈ cs, c ≠ 0) : Var where
  key := upTo 61 cs
  value := cs.drop ((upTo 61 cs).length + 1)
  keyClean c hc := ⟨clean c ((List.takeWhile_prefix _).subset hc), by simpa using List.mem_takeWhile_imp hc⟩
  valueClean c hc := clean c (List.mem_of_mem_drop hc)

theorem Var.text_ofText {cs : List UInt8} (clean : ∀ c ∈ cs, c ≠ 0) (h : 61 ∈ cs) : (Var.ofText cs clean).text = cs := by
  obtain ⟨r, -, hr⟩ := eq_upTo_append h
  have hvalue : (Var.ofText cs clean).value = r := by
    have hdrop := congrArg (List.drop ((upTo 61 cs).length + 1)) hr
    exact hdrop.trans (by simp)
  rw [Var.text, hvalue]
  exact hr.symm

def Var.ofArgs (name : Value) (args : List Value) : Var :=
  Var.ofText (name.chars ++ joined 61 (args.map Value.chars)) fun c hc =>
    (List.mem_append.mp hc).elim (name.clean c) (joined_clean (by decide) args c)

theorem upTo_append_sep (name rest : List UInt8) : upTo 61 (name ++ 61 :: rest) = upTo 61 name := by
  induction name with
  | nil => rfl
  | cons c name ih =>
    by_cases hc : c = 61
    · subst hc
      rfl
    · have hcons : ∀ s, upTo 61 (c :: s) = c :: upTo 61 s := fun s => List.takeWhile_cons_of_pos (decide_eq_true hc)
      rw [List.cons_append, hcons, hcons, ih]

theorem Var.key_ofArgs (name s : Value) (args : List Value) : (Var.ofArgs name (s :: args)).key = upTo 61 name.chars :=
  upTo_append_sep _ _

theorem Var.text_ofArgs (name s : Value) (args : List Value) :
    (Var.ofArgs name (s :: args)).text = name.chars ++ joined 61 ((s :: args).map Value.chars) :=
  Var.text_ofText _ (by simp [joined])

def lookup (k : List UInt8) (vs : List Var) : Option (List UInt8) := (vs.find? fun v => v.key = k).map Var.value

theorem lookup_cons (k : List UInt8) (v : Var) (vs : List Var) :
    lookup k (v :: vs) = if v.key = k then some v.value else lookup k vs := by
  rw [lookup, List.find?_cons]
  by_cases h : v.key = k <;> simp [h, lookup]

theorem getenvFrom_texts {data : ℕ → UInt8} {vs : List Var} {i fuel : ℕ} (name : List UInt8)
    (h : Holds data i (texts vs ++ [0])) (hi : i + (texts vs).length ≤ cfgEnvSize) (hf : vs.length < fuel) :
    (getenvFrom data name fuel i).map (cString data cfgEnvSize) = lookup (upTo 61 name) vs := by
  induction vs generalizing i fuel with
  | nil =>
    obtain ⟨fuel, rfl⟩ : ∃ k, fuel = k + 1 := ⟨fuel - 1, by omega⟩
    have hzero : data i = 0 := (holds_cons.mp h).1
    rw [getenvFrom, if_pos hzero]
    rfl
  | cons v vs ih =>
    rw [List.length_cons] at hf
    obtain ⟨fuel, rfl⟩ : ∃ k, fuel = k + 1 := ⟨fuel - 1, by omega⟩
    obtain ⟨htext, hrest⟩ := holds_texts_cons h
    have hlen : (texts (v :: vs)).length = v.text.length + 1 + (texts vs).length := by simp [texts_cons]; omega
    have hvalue : Holds data (i + v.key.length + 1) (v.value ++ [0]) := by
      have hsplit : v.text ++ [0] = (v.key ++ [61]) ++ (v.value ++ [0]) := by simp [Var.text]
      rw [hsplit, holds_append, List.length_append, List.length_singleton, ← Nat.add_assoc] at htext
      exact htext.2
    have htextLen := v.text_length
    rw [getenvFrom, if_neg (ne_zero_of_holds_text htext), entryEnd_text v.text_clean htext (by omega) (by omega),
      Option.bind_some, envmatch_var name (holds_append.mp htext).1, lookup_cons]
    by_cases hkey : v.key = upTo 61 name
    · rw [if_pos hkey.symm, if_pos hkey, Option.map_some, cString_text v.valueClean hvalue (by omega)]
    · rw [if_neg (Ne.symm hkey), if_neg hkey]
      exact ih hrest (by omega) (by omega)

structure EnvT.Rep (t : EnvT) (vs : List Var) (sealed : Bool) : Prop where
  holds : Holds t.data 0 (block vs)
  size : (block vs).length ≤ envSize
  nodup : (vs.map Var.key).Nodup
  crc : sealed = true → t.crc = dataCrc t.data

theorem EnvT.Rep.texts {t : EnvT} {vs : List Var} {isSealed : Bool} (h : t.Rep vs isSealed) :
    Holds t.data 0 (texts vs ++ [0]) ∧ (texts vs).length ≤ envSize := by
  have holds := h.holds
  have size := h.size
  by_cases hvs : vs = []
  · subst hvs
    exact ⟨(holds_append.mp (show Holds t.data 0 ([0] ++ [0]) from holds)).1, Nat.zero_le _⟩
  · rw [block, if_neg hvs] at holds size
    rw [List.length_append, List.length_singleton] at size
    exact ⟨holds, by omega⟩

theorem EnvT.Rep.getenvValue {t : EnvT} {vs : List Var} {isSealed : Bool} (h : t.Rep vs isSealed) (name : List UInt8) :
    getenvValue t.data name = lookup (upTo 61 name) vs := by
  have hcount := length_le_texts vs
  have hlt : envSize < cfgEnvSize := by decide
  obtain ⟨htexts, hsize⟩ := h.texts
  exact getenvFrom_texts name htexts (by omega) (by omega)

def unset (k : List UInt8) (vs : List Var) : List Var := vs.eraseP fun v => v.key = k

def added (name : Value) (args : List Value) : List Var := if args = [] then [] else [Var.ofArgs name args]

def HasRoom (vs : List Var) (name : Value) (args : List Value) : Prop :=
  args = [] ∨ (texts vs).length + (Var.ofArgs name args).text.length + 2 ≤ envSize

instance (vs : List Var) (name : Value) (args : List Value) : Decidable (HasRoom vs name args) :=
  inferInstanceAs (Decidable (_ ∨ _))

section

variable {t : EnvT} {vs : List Var} {isSealed : Bool} {name : Value} {args : List Value}

theorem block_snoc (vs : List Var) (v : Var) : block (vs ++ [v]) = texts vs ++ (v.text ++ [0, 0]) := by
  simp [block, texts, zstrings]

theorem EnvT.crc_mk (crc : BitVec 32) (data : ℕ → UInt8) : (EnvT.mk crc data).crc = crc := rfl

-- By rewriting: a check by `rfl` would compute the checksum.
theorem EnvT.envCrcUpdate_crc (t : EnvT) : t.envCrcUpdate.crc = dataCrc t.envCrcUpdate.data := by
  rw [EnvT.envCrcUpdate, EnvT.crc_mk]

theorem EnvT.data_mk (crc : BitVec 32) (data : ℕ → UInt8) : (EnvT.mk crc data).data = data := rfl

theorem EnvT.envCrcUpdate_data (t : EnvT) : t.envCrcUpdate.data = t.data := by
  rw [EnvT.envCrcUpdate, EnvT.data_mk]

theorem EnvT.envCrcUpdate_rep (holds : Holds t.data 0 (block vs)) (size : (block vs).length ≤ envSize)
    (nodup : (vs.map Var.key).Nodup) : t.envCrcUpdate.Rep vs true :=
  ⟨t.envCrcUpdate_data.symm ▸ holds, size, nodup, fun _ => t.envCrcUpdate_crc⟩

theorem define_length (name s : Value) (args : List Value) : (Var.ofArgs name (s :: args)).text.length =
    name.chars.length + ((s.chars :: args.map Value.chars).map fun val => val.length + 1).sum := by
  rw [Var.text_ofArgs, List.length_append, joined_length, List.map_cons]

theorem define_rep (h : t.Rep vs isSealed) (hnew : ∀ v ∈ vs, v.key ≠ upTo 61 name.chars)
    (hroom : HasRoom vs name args) (effects : List Effect) :
    ∃ r, define t effects name.chars (args.map Value.chars) = some r ∧ r.rcode = 0 ∧
      (∀ i, envSize ≤ i → r.env.data i = t.data i) ∧ r.env.Rep (vs ++ added name args) true := by
  cases args with
  | nil =>
    rw [added, if_pos rfl, List.append_nil]
    exact ⟨_, rfl, rfl, fun _ _ => rfl, EnvT.envCrcUpdate_rep h.holds h.size h.nodup⟩
  | cons s args =>
    have hsize := h.size
    have hlt : envSize < cfgEnvSize := by decide
    have hfits := hroom.resolve_left (List.cons_ne_nil _ _)
    have hlen := define_length name s args
    have hdata : defineAt t.data (texts vs).length name.chars (s.chars :: args.map Value.chars) =
        store t.data (texts vs).length ((Var.ofArgs name (s :: args)).text ++ [0, 0]) := by
      rw [defineAt_eq, Var.text_ofArgs]
      rfl
    rw [added, if_neg (List.cons_ne_nil _ _), List.map_cons, define, envEnd_block h.holds (by omega), Option.map_some,
      if_neg (by omega)]
    refine ⟨_, rfl, rfl, ?_, ?_⟩
    · intro i hi
      refine (congrFun hdata i).trans (store_out ?_)
      right
      rw [List.length_append, List.length_cons, List.length_singleton]
      omega
    · apply EnvT.envCrcUpdate_rep
      · rw [EnvT.data_mk, hdata, block_snoc, holds_append, Nat.zero_add]
        exact ⟨(holds_append.mp h.texts.1).1.store_out (Or.inl (by omega)), holds_store _ _ _⟩
      · rw [block_snoc]
        simp only [List.length_append, List.length_cons, List.length_nil]
        omega
      · rw [List.map_append, List.nodup_append]
        refine ⟨h.nodup, List.nodup_singleton _, ?_⟩
        intro k hk k' hk'
        obtain ⟨v, hv, rfl⟩ := List.mem_map.mp hk
        rw [List.map_singleton, List.mem_singleton] at hk'
        rw [hk', Var.key_ofArgs]
        exact hnew v hv

theorem define_full (h : t.Rep vs isSealed) (hroom : ¬HasRoom vs name args) (effects : List Effect) :
    define t effects name.chars (args.map Value.chars) = some ⟨1, effects, t⟩ := by
  cases args with
  | nil => exact absurd (Or.inl rfl) hroom
  | cons s args =>
    have hsize := h.size
    have hlt : envSize < cfgEnvSize := by decide
    have hlen := define_length name s args
    rw [HasRoom, not_or] at hroom
    rw [List.map_cons, define, envEnd_block h.holds (by omega), Option.map_some, if_pos (by omega)]

theorem mem_unset_key (h : (vs.map Var.key).Nodup) {k : List UInt8} : ∀ v ∈ unset k vs, v.key ≠ k := by
  intro v hv hkey
  have hmem : v ∈ vs := List.mem_of_mem_eraseP hv
  obtain ⟨w, pre, post, -, hw, hvs, herase⟩ := List.exists_of_eraseP hmem (p := fun v => v.key = k) (decide_eq_true hkey)
  rw [unset, herase] at hv
  rw [hvs, List.map_append, List.map_cons, List.nodup_middle, List.nodup_cons] at h
  apply h.1
  rw [of_decide_eq_true hw, ← hkey, ← List.map_append]
  exact List.mem_map_of_mem hv

theorem unset_rep (h : t.Rep vs isSealed) (hset : ∃ v ∈ vs, v.key = upTo 61 name.chars) :
    ∃ env nxt data, search t.data name.chars cfgEnvSize 0 = some (some (env, nxt)) ∧
      deleteAt t.data env nxt = some data ∧ (∀ i, envSize ≤ i → data i = t.data i) ∧
      ({ t with data := data } : EnvT).Rep (unset (upTo 61 name.chars) vs) false := by
  obtain ⟨v, hv, hkey⟩ := hset
  have hlt : envSize < cfgEnvSize := by decide
  have hsize := h.size
  obtain ⟨w, pre, post, hpre, hw, rfl, herase⟩ :=
    List.exists_of_eraseP hv (p := fun v => v.key = upTo 61 name.chars) (decide_eq_true hkey)
  obtain ⟨tail, hdelete, hblock, hfits⟩ := deleteAt_eq h.holds (by omega)
  have hne : pre ++ w :: post ≠ [] := by simp
  have htexts : Holds t.data 0 (texts (pre ++ w :: post) ++ [0]) := by
    have hh := h.holds
    rwa [block, if_neg hne] at hh
  have hlen : (texts (pre ++ w :: post)).length ≤ cfgEnvSize := by
    rw [block, if_neg hne, List.length_append] at hsize
    omega
  have hcount : pre.length < cfgEnvSize := by
    have hle := length_le_texts (pre ++ w :: post)
    rw [List.length_append, List.length_cons] at hle
    omega
  have hsearch := search_some htexts hlen hcount (fun u hu => by simpa using hpre u hu) (of_decide_eq_true hw)
  rw [Nat.zero_add] at hsearch
  refine ⟨_, _, _, hsearch, hdelete, ?_, ?_⟩
  · intro i hi
    exact store_out (by omega)
  · have hunset : unset (upTo 61 name.chars) (pre ++ w :: post) = pre ++ post := herase
    rw [hunset]
    refine ⟨?_, ?_, ?_, fun hfalse => absurd hfalse (by decide)⟩
    · rw [hblock, holds_append, Nat.zero_add]
      have hkept : Holds t.data 0 (texts pre) := by
        rw [texts_append, List.append_assoc] at htexts
        exact (holds_append.mp htexts).1
      exact ⟨hkept.store_out (Or.inl (by omega)), holds_store _ _ _⟩
    · rw [hblock, List.length_append]
      omega
    · apply List.Nodup.sublist _ h.nodup
      apply List.Sublist.map
      exact List.Sublist.append_left (List.sublist_cons_self w post) pre

end

section

variable (assign : Console → List UInt8 → Bool) (atNull : List UInt8)

/-- How a command ends: a value that does not fit may have made the old one go. -/
inductive Outcome
  | done
  | kept
  | lost
deriving DecidableEq

def outcome (vs : List Var) (name : Value) (args : List Value) : Outcome :=
  if ∀ v ∈ vs, v.key ≠ upTo 61 name.chars then if HasRoom vs name args then .done else .kept
  else if replaceable assign atNull name.chars (args.map Value.chars) = none then .kept
  else if HasRoom (unset (upTo 61 name.chars) vs) name args then .done
  else .lost

def after (vs : List Var) (isSealed : Bool) (name : Value) (args : List Value) : Outcome → List Var × Bool
  | .done => (unset (upTo 61 name.chars) vs ++ added name args, true)
  | .kept => (vs, isSealed)
  | .lost => (unset (upTo 61 name.chars) vs, false)

theorem unset_of_new {vs : List Var} {k : List UInt8} (h : ∀ v ∈ vs, v.key ≠ k) : unset k vs = vs :=
  List.eraseP_of_forall_not fun v hv => by simpa using h v hv

variable {assign atNull} {t : EnvT} {vs : List Var} {isSealed : Bool}

variable (assign atNull) in
theorem doSetenv_rep (h : t.Rep vs isSealed) (name : Value) (args : List Value) :
    ∃ r, doSetenv assign atNull t name.chars (args.map Value.chars) = some r ∧
      (∀ i, envSize ≤ i → r.env.data i = t.data i) ∧
      (r.rcode = 0 ↔ outcome assign atNull vs name args = .done) ∧
      (outcome assign atNull vs name args = .kept → r.env = t) ∧
      (outcome assign atNull vs name args = .lost → r.env.crc = t.crc) ∧
      r.env.Rep (after vs isSealed name args (outcome assign atNull vs name args)).1
        (after vs isSealed name args (outcome assign atNull vs name args)).2 := by
  have hlt : envSize < cfgEnvSize := by decide
  by_cases hnew : ∀ v ∈ vs, v.key ≠ upTo 61 name.chars
  · obtain ⟨htexts, hsize⟩ := h.texts
    have hcount := length_le_texts vs
    rw [outcome, if_pos hnew, doSetenv, search_none htexts (by omega) (by omega) hnew, Option.bind_some]
    dsimp only
    by_cases hroom : HasRoom vs name args
    · obtain ⟨r, hr, hcode, hframe, hrep⟩ := define_rep h hnew hroom []
      rw [if_pos hroom, after, unset_of_new hnew]
      exact ⟨r, hr, hframe, by simp [hcode], by simp, by simp, hrep⟩
    · rw [if_neg hroom]
      exact ⟨_, define_full h hroom [], fun _ _ => rfl, by simp, fun _ => rfl, by simp, h⟩
  · rw [outcome, if_neg hnew]
    simp only [not_forall, not_not, exists_prop] at hnew
    obtain ⟨env, nxt, data, hsearch, hdelete, hframe, hrep⟩ := unset_rep h hnew
    rw [doSetenv, hsearch, Option.bind_some]
    dsimp only
    cases hreplace : replaceable assign atNull name.chars (args.map Value.chars) with
    | none =>
      rw [if_pos rfl]
      exact ⟨_, rfl, fun _ _ => rfl, by simp, fun _ => rfl, by simp, h⟩
    | some effects =>
      dsimp only
      rw [hdelete, Option.bind_some, if_neg (by simp)]
      by_cases hroom : HasRoom (unset (upTo 61 name.chars) vs) name args
      · obtain ⟨r, hr, hcode, hkept, hrep⟩ := define_rep hrep (mem_unset_key h.nodup) hroom effects
        rw [if_pos hroom]
        exact ⟨r, hr, fun i hi => (hkept i hi).trans (hframe i hi), by simp [hcode], by simp, by simp, hrep⟩
      · rw [if_neg hroom]
        exact ⟨_, define_full hrep hroom effects, hframe, by simp, by simp, fun _ => rfl, hrep⟩

end

end Wap610n.Env
