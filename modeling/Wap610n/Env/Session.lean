import Wap610n.Env.SetVars

/-!
A session at the boot loader's prompt, from one start to the next: what the commands do to the bytes in memory and in
flash is what they do to a list of variables, and what `getenv` finds is what was set last.
-/

namespace Wap610n.Env

open Bytes CString Transition

section

variable {t ram flash : EnvT} {vs : List Var} {isSealed : Bool}

theorem dataCrc_congr {data data' : ℕ → UInt8} (h : ∀ i < envSize, data i = data' i) : dataCrc data = dataCrc data' := by
  rw [dataCrc, dataCrc, slice_congr (q := 0) fun i hi => by simpa using h i hi]

theorem copy_below {data source : ℕ → UInt8} {i : ℕ} (hi : i < envSize) :
    store data 0 (slice source 0 envSize) i = source i := by
  have hin : store data 0 (slice source 0 envSize) (0 + i) = (slice source 0 envSize).getD i 0 :=
    store_in (by simpa using hi)
  rw [Nat.zero_add] at hin
  rw [hin, slice_getD hi, Nat.zero_add]

theorem copy_above {data source : ℕ → UInt8} {i : ℕ} (hi : envSize ≤ i) :
    store data 0 (slice source 0 envSize) i = data i := store_out (Or.inr (by simpa using hi))

theorem EnvT.Rep.copy (h : t.Rep vs isSealed) (data : ℕ → UInt8) :
    (EnvT.mk t.crc (store data 0 (slice t.data 0 envSize))).Rep vs isSealed where
  holds := by
    have hsize := h.size
    apply h.holds.congr
    intro i _ hi
    rw [EnvT.data_mk, copy_below (by omega)]
  size := h.size
  nodup := h.nodup
  crc hs := by
    rw [EnvT.crc_mk, EnvT.data_mk, h.crc hs, dataCrc_congr fun i hi => copy_below hi]

end

theorem defaultTexts_check : (defaultTexts.all fun cs => cs.all (· != 0) && cs.contains 61) = true ∧
    (defaultTexts.map (upTo 61)).Nodup ∧ (zstrings defaultTexts).length = 646 := by
  rw [defaultTexts, defaultSettings]
  simp only [List.map_cons, List.map_nil, List.flatMap_cons, List.flatMap_nil]
  -- the kernel is slow at decoding the literals
  repeat rw [text_ofList]
  decide +kernel

theorem defaultTexts_clean : ∀ cs ∈ defaultTexts, (∀ c ∈ cs, c ≠ 0) ∧ 61 ∈ cs := by
  intro cs hcs
  have hcheck := List.all_eq_true.mp defaultTexts_check.1 cs hcs
  rw [Bool.and_eq_true, List.all_eq_true, List.contains_iff_mem] at hcheck
  exact ⟨fun c hc => by simpa using hcheck.1 c hc, hcheck.2⟩

def defaults : List Var := defaultTexts.pmap (fun cs h => Var.ofText cs h.1) defaultTexts_clean

theorem map_text_pmap {l : List (List UInt8)} (h : ∀ cs ∈ l, (∀ c ∈ cs, c ≠ 0) ∧ 61 ∈ cs) :
    (l.pmap (fun cs h => Var.ofText cs h.1) h).map Var.text = l := by
  induction l with
  | nil => rfl
  | cons cs l ih => rw [List.pmap, List.map_cons, ih, Var.text_ofText _ (h cs List.mem_cons_self).2]

theorem defaultEnvironment_eq : defaultEnvironment = texts defaults ++ [0] ++ [0] := by
  rw [texts, defaults, map_text_pmap, defaultEnvironment]
  simp

theorem defaultEnvironment_length : defaultEnvironment.length = 648 := by
  rw [defaultEnvironment, List.length_append, defaultTexts_check.2.2]
  rfl

theorem defaults_nodup : (defaults.map Var.key).Nodup := by
  have hkeys : defaults.map Var.key = defaultTexts.map (upTo 61) := by
    rw [defaults, List.map_pmap]
    exact List.pmap_eq_map _
  rw [hkeys]
  exact defaultTexts_check.2.1

theorem defaults_ne_nil : defaults ≠ [] := by
  rw [defaults, Ne, List.pmap_eq_nil_iff]
  exact List.cons_ne_nil _ _

theorem defaults_rep (ram : EnvT) (data : ℕ → UInt8) :
    ({ ram with data := store data 0 defaultEnvironment } : EnvT).envCrcUpdate.Rep defaults true := by
  have hblock : block defaults = texts defaults ++ [0] := if_neg defaults_ne_nil
  have hlen := defaultEnvironment_length
  rw [defaultEnvironment_eq, List.length_append, List.length_singleton] at hlen
  apply EnvT.envCrcUpdate_rep
  · rw [EnvT.data_mk, defaultEnvironment_eq, hblock]
    exact (holds_append.mp (holds_store data 0 _)).1
  · rw [hblock]
    have hsize : 647 ≤ envSize := by decide
    omega
  · exact defaults_nodup

/-- The variables in memory and in flash, each with whether its checksum is known to be right. -/
structure Session where
  vars : List Var
  isSealed : Bool
  saved : List Var
  savedSealed : Bool

structure Board.Rep (b : Board) (s : Session) : Prop where
  ram : b.ram.Rep s.vars s.isSealed
  flash : b.flash.Rep s.saved s.savedSealed

section

variable (assign : Console → List UInt8 → Bool) (atNull : List UInt8)

def Session.Next (s : Session) (c : Cmd) (s' : Session) : Prop :=
  match c with
  | .setenv name args =>
    s' = { s with
      vars := (after s.vars s.isSealed name args (outcome assign atNull s.vars name args)).1
      isSealed := (after s.vars s.isSealed name args (outcome assign atNull s.vars name args)).2 }
  | .saveenv ok => s' = if ok then { s with saved := s.vars, savedSealed := s.isSealed } else s
  | .reset =>
    s'.isSealed = true ∧ s'.saved = s.saved ∧ s'.savedSealed = s.savedSealed ∧
      (s'.vars = s.saved ∨ s.savedSealed = false ∧ s'.vars = defaults)

inductive Session.Leads : Session → List Cmd → Session → Prop
  | nil (s : Session) : Leads s [] s
  | cons {s s' s'' : Session} {c : Cmd} {cs : List Cmd} (h : s.Next assign atNull c s') (hs : Leads s' cs s'') :
    Leads s (c :: cs) s''

variable {assign atNull} {b : Board} {s : Session}

theorem envRelocate_good {ram flash : EnvT} (h : dataCrc flash.data = flash.crc) :
    envRelocate ram flash = ⟨flash.crc, store ram.data 0 (slice flash.data 0 envSize)⟩ := if_pos h

theorem envRelocate_bad {ram flash : EnvT} (h : dataCrc flash.data ≠ flash.crc) : envRelocate ram flash =
    { ram with data := store (store ram.data 0 (List.replicate envSize 0)) 0 defaultEnvironment }.envCrcUpdate := if_neg h

theorem envRelocate_frame (ram flash : EnvT) {i : ℕ} (hi : envSize ≤ i) : (envRelocate ram flash).data i = ram.data i := by
  by_cases hcrc : dataCrc flash.data = flash.crc
  · rw [envRelocate_good hcrc, EnvT.data_mk, copy_above hi]
  · have hsize : 648 ≤ envSize := by decide
    rw [envRelocate_bad hcrc, EnvT.envCrcUpdate_data, EnvT.data_mk,
      store_out (by rw [defaultEnvironment_length]; omega), store_out (by rw [List.length_replicate]; omega)]

theorem reset_next (h : b.Rep s) : ∃ s', s.Next assign atNull .reset s' ∧
    (Board.mk (envRelocate b.ram b.flash) b.flash).Rep s' := by
  by_cases hcrc : dataCrc b.flash.data = b.flash.crc
  · have hflash : b.flash.Rep s.saved true := ⟨h.flash.holds, h.flash.size, h.flash.nodup, fun _ => hcrc.symm⟩
    refine ⟨⟨s.saved, true, s.saved, s.savedSealed⟩, ⟨rfl, rfl, rfl, Or.inl rfl⟩, ?_, h.flash⟩
    rw [envRelocate_good hcrc]
    exact hflash.copy b.ram.data
  · have hopen : s.savedSealed = false := by
      cases hs : s.savedSealed with
      | false => rfl
      | true => exact absurd (h.flash.crc hs).symm hcrc
    refine ⟨⟨defaults, true, s.saved, s.savedSealed⟩, ⟨rfl, rfl, rfl, Or.inr ⟨hopen, rfl⟩⟩, ?_, h.flash⟩
    rw [envRelocate_bad hcrc]
    exact defaults_rep b.ram _

theorem Board.ram_mk (ram flash : EnvT) : (Board.mk ram flash).ram = ram := rfl

theorem step_next (h : b.Rep s) (c : Cmd) : ∃ b' s', b.step assign atNull c = some b' ∧ s.Next assign atNull c s' ∧
    b'.Rep s' ∧ ∀ i, envSize ≤ i → b'.ram.data i = b.ram.data i := by
  cases c with
  | setenv name args =>
    obtain ⟨r, hr, hframe, -, -, -, hrep⟩ := doSetenv_rep assign atNull h.ram name args
    refine ⟨⟨r.env, b.flash⟩, _, ?_, rfl, ⟨hrep, h.flash⟩, hframe⟩
    rw [Board.step, hr, Option.map_some]
  | saveenv ok =>
    cases ok with
    | false => exact ⟨b, s, rfl, rfl, h, fun _ _ => rfl⟩
    | true =>
      refine ⟨⟨b.ram, saveenv b.ram b.flash⟩, _, rfl, rfl, ⟨h.ram, h.ram.copy b.flash.data⟩, fun i _ => ?_⟩
      rw [Board.ram_mk]
  | reset =>
    obtain ⟨s', hnext, hrep⟩ := reset_next h
    refine ⟨⟨envRelocate b.ram b.flash, b.flash⟩, s', rfl, hnext, hrep, fun i hi => ?_⟩
    rw [Board.ram_mk, envRelocate_frame _ _ hi]

variable (assign atNull) in
theorem exec_leads (h : b.Rep s) (cs : List Cmd) : ∃ b' s', exec (Board.step assign atNull) b cs = some b' ∧
    s.Leads assign atNull cs s' ∧ b'.Rep s' ∧ ∀ i, envSize ≤ i → b'.ram.data i = b.ram.data i := by
  induction cs generalizing b s with
  | nil => exact ⟨b, s, rfl, .nil s, h, fun _ _ => rfl⟩
  | cons c cs ih =>
    obtain ⟨b₁, s₁, hstep, hnext, hrep, hframe⟩ := step_next h c
    obtain ⟨b', s', hexec, hleads, hrep', hframe'⟩ := ih hrep
    refine ⟨b', s', ?_, .cons hnext hleads, hrep', fun i hi => (hframe' i hi).trans (hframe i hi)⟩
    rw [exec, hstep]
    exact hexec

theorem session_refines (h : b.Rep s) (cs : List Cmd) : ∃ b' s', exec (Board.step assign atNull) b cs = some b' ∧
    s.Leads assign atNull cs s' ∧ b'.Rep s' ∧ (∀ i, envSize ≤ i → b'.ram.data i = b.ram.data i) ∧
    ∀ q, getenvValue b'.ram.data q = lookup (upTo 61 q) s'.vars := by
  obtain ⟨b', s', hexec, hleads, hrep, hframe⟩ := exec_leads assign atNull h cs
  exact ⟨b', s', hexec, hleads, hrep, hframe, fun q => hrep.ram.getenvValue q⟩

def bootdelayName : Value := ⟨Bytes.text "bootdelay", forall_mem_of_all (by decide)⟩

def one : Value := ⟨Bytes.text "1", forall_mem_of_all (by decide)⟩

def five : Value := ⟨Bytes.text "5", forall_mem_of_all (by decide)⟩

def bootdelay1 : Var := Var.ofArgs bootdelayName [one]

def small : Board :=
  let t : EnvT := { crc := 0, data := store (fun _ => 0) 0 (block [bootdelay1]) }
  ⟨t.envCrcUpdate, t.envCrcUpdate⟩

theorem small_rep : small.Rep ⟨[bootdelay1], true, [bootdelay1], true⟩ := by
  have hrep : (EnvT.mk 0 (store (fun _ => 0) 0 (block [bootdelay1]))).envCrcUpdate.Rep [bootdelay1] true :=
    EnvT.envCrcUpdate_rep (holds_store _ _ _) (by decide +kernel) (List.nodup_singleton _)
  exact ⟨hrep, hrep⟩

theorem small_idle (assign : Console → List UInt8 → Bool) (atNull : List UInt8) :
    exec (Board.step assign atNull) small [] = some small := rfl

theorem outcome_five : outcome (fun _ _ => true) [] [bootdelay1] bootdelayName [five] = .done := by decide +kernel

theorem session_refines_five : ∃ b', exec (Board.step (fun _ _ => true) []) small
      [.setenv bootdelayName [five], .saveenv true, .reset] = some b' ∧
    getenvValue b'.ram.data (Bytes.text "bootdelay") = some (Bytes.text "5") := by
  obtain ⟨b', s', hexec, hleads, -, -, hget⟩ := session_refines small_rep
    [.setenv bootdelayName [five], .saveenv true, .reset]
  refine ⟨b', hexec, (hget _).trans ?_⟩
  cases hleads with
  | cons h₁ h =>
    cases h with
    | cons h₂ h =>
      cases h with
      | cons h₃ h =>
        cases h
        rw [Session.Next, outcome_five] at h₁
        rw [Session.Next, if_pos rfl] at h₂
        obtain ⟨-, -, -, hvars⟩ := h₃
        rw [h₂, h₁] at hvars
        rcases hvars with hvars | ⟨hfalse, -⟩
        · rw [hvars]
          decide +kernel
        · exact Bool.noConfusion hfalse

theorem exec_rep (h : b.Rep s) {cs : List Cmd} {b' : Board} (hexec : exec (Board.step assign atNull) b cs = some b') :
    ∃ s', b'.Rep s' := by
  obtain ⟨b₁, s', hexec₁, -, hrep, -⟩ := exec_leads assign atNull h cs
  obtain rfl : b₁ = b' := Option.some.inj (hexec₁.symm.trans hexec)
  exact ⟨s', hrep⟩

theorem lookup_append (q : List UInt8) (as bs : List Var) : lookup q (as ++ bs) = (lookup q as).or (lookup q bs) := by
  rw [lookup, List.find?_append, Option.map_or]
  rfl

theorem lookup_eq_none {q : List UInt8} {vs : List Var} : lookup q vs = none ↔ ∀ v ∈ vs, v.key ≠ q := by
  simp [lookup]

theorem lookup_unset {vs : List Var} (h : (vs.map Var.key).Nodup) (k q : List UInt8) :
    lookup q (unset k vs) = if q = k then none else lookup q vs := by
  split_ifs with hq
  · subst hq
    exact lookup_eq_none.mpr (mem_unset_key h)
  · by_cases hnew : ∀ v ∈ vs, v.key ≠ k
    · rw [unset_of_new hnew]
    · simp only [not_forall, not_not, exists_prop] at hnew
      obtain ⟨v, hv, hkey⟩ := hnew
      obtain ⟨w, pre, post, -, hw, hvs, herase⟩ :=
        List.exists_of_eraseP hv (p := fun v => v.key = k) (decide_eq_true hkey)
      have hwq : w.key ≠ q := fun hwq => hq (hwq.symm.trans (of_decide_eq_true hw))
      rw [unset, herase, hvs, lookup_append, lookup_append, lookup_cons, if_neg hwq]

theorem lookup_added (name : Value) (args : List Value) (q : List UInt8) : lookup q (added name args) =
    if q = upTo 61 name.chars ∧ args ≠ [] then some (Var.ofArgs name args).value else none := by
  cases args with
  | nil => simp [added, lookup]
  | cons s args =>
    rw [added, if_neg (List.cons_ne_nil _ _), lookup_cons, Var.key_ofArgs]
    simp [eq_comm, lookup]

/-- At any time a command that succeeds sets its variable and no other one. One that fails changes nothing, or takes the
old value away and leaves a checksum that was computed with it. -/
theorem setenv_lookup (h : b.Rep s) {cs : List Cmd} {b' : Board}
    (hexec : exec (Board.step assign atNull) b cs = some b') (name : Value) (args : List Value) :
    ∃ r, doSetenv assign atNull b'.ram name.chars (args.map Value.chars) = some r ∧
      (r.rcode = 0 → r.env.crc = dataCrc r.env.data ∧ ∀ q, getenvValue r.env.data q =
        if upTo 61 q = upTo 61 name.chars then if args = [] then none else some (Var.ofArgs name args).value
        else getenvValue b'.ram.data q) ∧
      (r.rcode ≠ 0 → r.env = b'.ram ∨ r.env.crc = b'.ram.crc ∧ getenvValue b'.ram.data name.chars ≠ none ∧
        ∀ q, getenvValue r.env.data q = if upTo 61 q = upTo 61 name.chars then none else getenvValue b'.ram.data q) := by
  obtain ⟨s', hrep⟩ := exec_rep h hexec
  have hnodup := hrep.ram.nodup
  obtain ⟨r, hr, -, hcode, hkept, hlost, hafter⟩ := doSetenv_rep assign atNull hrep.ram name args
  refine ⟨r, hr, ?_, ?_⟩
  · intro hzero
    rw [hcode.mp hzero] at hafter
    refine ⟨hafter.crc rfl, fun q => ?_⟩
    rw [hafter.getenvValue, hrep.ram.getenvValue, after, lookup_append, lookup_unset hnodup, lookup_added]
    by_cases hq : upTo 61 q = upTo 61 name.chars
    · by_cases hargs : args = [] <;> simp [hq, hargs]
    · simp [hq]
  · intro hnz
    cases hout : outcome assign atNull s'.vars name args with
    | done => exact absurd (hcode.mpr hout) hnz
    | kept => exact Or.inl (hkept hout)
    | lost =>
      right
      rw [hout] at hafter
      refine ⟨hlost hout, ?_, fun q => ?_⟩
      · rw [hrep.ram.getenvValue, Ne, lookup_eq_none]
        intro hnew
        rw [outcome, if_pos hnew] at hout
        split_ifs at hout
      · rw [hafter.getenvValue, hrep.ram.getenvValue, after, lookup_unset hnodup]

def long : Value := ⟨List.replicate envSize 97, fun c hc => by rw [List.eq_of_mem_replicate hc]; decide⟩

theorem outcome_long : outcome (fun _ _ => true) [] [bootdelay1] bootdelayName [long] = .lost := by
  have hset : ¬∀ v ∈ [bootdelay1], v.key ≠ upTo 61 bootdelayName.chars := by decide +kernel
  have hreplace : replaceable (fun _ _ => true) [] bootdelayName.chars [long.chars] = some [] := rfl
  have hroom : ¬HasRoom (unset (upTo 61 bootdelayName.chars) [bootdelay1]) bootdelayName [long] := by
    rw [HasRoom, define_length]
    simp [long]
    omega
  rw [outcome, if_neg hset, List.map_singleton, hreplace, if_neg (by simp), if_neg hroom]

theorem setenv_lookup_long : ∃ r, doSetenv (fun _ _ => true) [] small.ram bootdelayName.chars [long.chars] = some r ∧
    r.env.crc = small.ram.crc ∧ getenvValue small.ram.data (Bytes.text "bootdelay") = some (Bytes.text "1") ∧
    getenvValue r.env.data (Bytes.text "bootdelay") = none := by
  obtain ⟨r, hr, -, hfails⟩ := setenv_lookup small_rep (small_idle _ _) bootdelayName [long]
  obtain ⟨r', hr', -, hcode, -, -, hafter⟩ := doSetenv_rep (fun _ _ => true) [] small_rep.ram bootdelayName [long]
  obtain rfl : r = r' := Option.some.inj (hr.symm.trans hr')
  have hnz : r.rcode ≠ 0 := by
    intro hzero
    have hdone := hcode.mp hzero
    rw [outcome_long] at hdone
    exact Outcome.noConfusion hdone
  have hbefore : getenvValue small.ram.data (Bytes.text "bootdelay") = some (Bytes.text "1") :=
    (small_rep.ram.getenvValue _).trans (by decide +kernel)
  rcases hfails hnz with heq | ⟨hcrc, -, hget⟩
  · rw [outcome_long, heq] at hafter
    have hnone : getenvValue small.ram.data (Bytes.text "bootdelay") = none :=
      (hafter.getenvValue _).trans (by decide +kernel)
    rw [hbefore] at hnone
    exact absurd hnone (Option.some_ne_none _)
  · exact ⟨r, hr, hcrc, hbefore, (hget _).trans (if_pos rfl)⟩

theorem step_flash {c : Cmd} {b' : Board} (hc : c ≠ .saveenv true) (hstep : b.step assign atNull c = some b') :
    b'.flash = b.flash := by
  cases c with
  | setenv name args =>
    rw [Board.step, Option.map_eq_some_iff] at hstep
    obtain ⟨r, -, rfl⟩ := hstep
    rfl
  | saveenv ok =>
    cases ok with
    | false =>
      obtain rfl : b = b' := Option.some.inj hstep
      rfl
    | true => exact absurd rfl hc
  | reset =>
    obtain rfl : Board.mk (envRelocate b.ram b.flash) b.flash = b' := Option.some.inj hstep
    rfl

theorem exec_flash {cs : List Cmd} {b' : Board} (hcs : ∀ c ∈ cs, c ≠ .saveenv true)
    (hexec : exec (Board.step assign atNull) b cs = some b') : b'.flash = b.flash := by
  induction cs generalizing b with
  | nil =>
    obtain rfl : b = b' := Option.some.inj hexec
    rfl
  | cons c cs ih =>
    rw [exec, Option.bind_eq_some_iff] at hexec
    obtain ⟨b₁, hstep, hrest⟩ := hexec
    rw [ih (fun d hd => hcs d (List.mem_cons_of_mem _ hd)) hrest, step_flash (hcs c List.mem_cons_self) hstep]

theorem saved_after_reset (h : b.Rep s) {cs cs' : List Cmd} {b₁ : Board}
    (hexec : exec (Board.step assign atNull) b cs = some b₁) (hcs' : ∀ c ∈ cs', c ≠ .saveenv true) :
    ∃ b₂, exec (Board.step assign atNull) b (cs ++ .saveenv true :: (cs' ++ [.reset])) = some b₂ ∧
      ∀ q, getenvValue b₂.ram.data q =
        if b₁.ram.crc = dataCrc b₁.ram.data then getenvValue b₁.ram.data q else lookup (upTo 61 q) defaults := by
  obtain ⟨s₁, hrep₁⟩ := exec_rep h hexec
  have hsaved : (Board.mk b₁.ram (saveenv b₁.ram b₁.flash)).Rep ⟨s₁.vars, s₁.isSealed, s₁.vars, s₁.isSealed⟩ :=
    ⟨hrep₁.ram, hrep₁.ram.copy b₁.flash.data⟩
  obtain ⟨b', s', hexec', -, hrep', -⟩ := exec_leads assign atNull hsaved cs'
  have hflash : b'.flash = saveenv b₁.ram b₁.flash := exec_flash hcs' hexec'
  refine ⟨⟨envRelocate b'.ram b'.flash, b'.flash⟩, ?_, fun q => ?_⟩
  · rw [exec_append, hexec, Option.bind_some, exec]
    have hstep : b₁.step assign atNull (.saveenv true) = some ⟨b₁.ram, saveenv b₁.ram b₁.flash⟩ := rfl
    rw [hstep, Option.bind_some, exec_append, hexec', Option.bind_some]
    rfl
  · have hdata : dataCrc (saveenv b₁.ram b₁.flash).data = dataCrc b₁.ram.data := by
      rw [saveenv, EnvT.data_mk, dataCrc_congr fun i hi => copy_below hi]
    have hcrc : (saveenv b₁.ram b₁.flash).crc = b₁.ram.crc := by rw [saveenv, EnvT.crc_mk]
    rw [Board.ram_mk, hflash]
    split_ifs with hok
    · rw [envRelocate_good (by rw [hdata, hcrc, hok]), (hsaved.flash.copy b'.ram.data).getenvValue,
        hrep₁.ram.getenvValue]
    · rw [envRelocate_bad (by rw [hdata, hcrc]; exact Ne.symm hok), (defaults_rep b'.ram _).getenvValue]

theorem saved_after_reset_five : ∃ b₂, exec (Board.step (fun _ _ => true) []) small
      [.saveenv true, .setenv bootdelayName [five], .reset] = some b₂ ∧
    getenvValue b₂.ram.data (Bytes.text "bootdelay") = some (Bytes.text "1") := by
  obtain ⟨b₂, hexec, hget⟩ := saved_after_reset small_rep (small_idle (fun _ _ => true) [])
    (show ∀ c ∈ [Cmd.setenv bootdelayName [five]], c ≠ .saveenv true by simp)
  refine ⟨b₂, hexec, (hget _).trans ?_⟩
  rw [if_pos (small_rep.ram.crc rfl), small_rep.ram.getenvValue]
  decide +kernel

end

end Wap610n.Env
