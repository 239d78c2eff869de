import Wap610n.Discover.IpSettings

namespace Wap610n.Discover

open Bytes Lan Mask

def allArgs : List ArgName := [.type, .ipAddress, .netMask, .gateway]

section Children

variable (values : ArgName → Option (List UInt8)) (sub : ArgName → List XmlElement)

def childrenOf (order : List ArgName) : List XmlElement := order.map fun arg => .node arg.name (values arg) (sub arg)

def readArgs : IpArgs :=
  { lanIPConfigureMode := (values .type).getD []
    lanIP := values .ipAddress
    netmask := values .netMask
    lanGateway := (values .gateway).getD []
    isGatewayConfigured := (values .gateway).isSome
    argFlags := 0x0f#32 }

def argFold (a : IpArgs) (arg : ArgName) : IpArgs := storeArg a (values arg) arg

def argTurn (a : IpArgs) (arg : ArgName) : Option IpArgs :=
  if refuses a.lanIPConfigureMode (values arg) arg then none else some (argFold values a arg)

theorem flag_and_flag {arg arg' : ArgName} (h : arg ≠ arg') : arg.flag &&& arg'.flag = 0#32 := by
  cases arg <;> cases arg' <;> first | rfl | exact absurd rfl h

theorem storeArg_argFlags (a : IpArgs) (value : Option (List UInt8)) (arg : ArgName) :
    (storeArg a value arg).argFlags = a.argFlags ||| arg.flag := by
  cases arg <;> rfl

theorem flags_incomplete {flags : BitVec 32} {arg : ArgName} (h : flags &&& arg.flag = 0#32) : flags ^^^ 0x0f#32 ≠ 0#32 := by
  intro hxor
  obtain rfl : flags = 0x0f#32 := BitVec.xor_eq_zero_iff.mp hxor
  cases arg <;> exact absurd h (by decide)

theorem argLoop_childrenOf {order : List ArgName} {a : IpArgs} (hnodup : order.Nodup)
    (hnew : ∀ arg ∈ order, a.argFlags &&& arg.flag = 0#32) :
    argLoop (childrenOf values sub order) a = (order.foldlM (argTurn values) a).bind fun a =>
      if a.argFlags ^^^ 0x0f#32 = 0#32 then some a else none := by
  induction order generalizing a with
  | nil => rfl
  | cons arg order ih =>
    rw [List.nodup_cons] at hnodup
    rw [List.forall_mem_cons] at hnew
    have hstep : argStep a (.node arg.name (values arg) (sub arg)) = argTurn values a arg := argStep_eq rfl a
    rw [childrenOf, List.map_cons, argLoop, if_neg (flags_incomplete hnew.1), hstep, List.foldlM_cons]
    cases hturn : argTurn values a arg with
    | none => rfl
    | some b =>
      have hb : b = argFold values a arg := by
        rw [argTurn] at hturn
        split_ifs at hturn
        exact (Option.some.inj hturn).symm
      apply ih hnodup.2
      intro arg' harg'
      have hne : arg ≠ arg' := by
        rintro rfl
        exact hnodup.1 harg'
      rw [hb, argFold, storeArg_argFlags, or_and_of_disjoint (flag_and_flag hne)]
      exact hnew.2 arg' harg'

theorem foldlM_argTurn (order : List ArgName) (a : IpArgs) :
    order.foldlM (argTurn values) a = none ∨ order.foldlM (argTurn values) a = some (order.foldl (argFold values) a) := by
  induction order generalizing a with
  | nil => exact Or.inr rfl
  | cons arg order ih =>
    rw [List.foldlM_cons, argTurn]
    split_ifs
    · exact Or.inl rfl
    · exact ih (argFold values a arg)

theorem argFold_comm (a : IpArgs) {arg arg' : ArgName} (h : arg ≠ arg') :
    argFold values (argFold values a arg) arg' = argFold values (argFold values a arg') arg := by
  have hflags : a.argFlags ||| arg.flag ||| arg'.flag = a.argFlags ||| arg'.flag ||| arg.flag := by
    rw [BitVec.or_assoc, BitVec.or_comm arg.flag, ← BitVec.or_assoc]
  cases arg <;> cases arg' <;> first | exact absurd rfl h | simp only [argFold, storeArg, hflags]

theorem foldl_argFold {order : List ArgName} (hperm : order.Perm allArgs) :
    order.foldl (argFold values) {} = readArgs values := by
  have hcomm : ∀ arg ∈ order, ∀ arg' ∈ order, ∀ a, argFold values (argFold values a arg) arg' =
      argFold values (argFold values a arg') arg := by
    intro arg _ arg' _ a
    by_cases h : arg = arg'
    · rw [h]
    · exact argFold_comm values a h
  rw [hperm.foldl_eq' hcomm]
  simp [allArgs, argFold, storeArg, readArgs, ArgName.flag]

theorem argLoop_order {order : List ArgName} (hperm : order.Perm allArgs) :
    argLoop (childrenOf values sub order) {} = order.foldlM (argTurn values) {} := by
  have hnodup : order.Nodup := hperm.nodup_iff.mpr (by decide)
  rw [argLoop_childrenOf values sub hnodup fun _ _ => BitVec.zero_and]
  rcases foldlM_argTurn values order {} with h | h
  · rw [h]
    rfl
  · rw [h, foldl_argFold values hperm, Option.bind_some]
    exact if_pos (show 0x0f#32 ^^^ 0x0f#32 = 0#32 by decide)

theorem foldlM_refused {order : List ArgName} (hmem : .type ∈ order) (htype : values .type = none) (a : IpArgs) :
    order.foldlM (argTurn values) a = none := by
  induction order generalizing a with
  | nil => exact absurd hmem List.not_mem_nil
  | cons arg order ih =>
    rw [List.foldlM_cons, argTurn]
    split_ifs with hrefused
    · rfl
    · rcases List.mem_cons.mp hmem with rfl | hmem
      · rw [htype] at hrefused
        exact absurd rfl hrefused
      · exact ih hmem _

theorem argTurn_passes {a : IpArgs} (htype : values .type ≠ none)
    (hpass : a.lanIPConfigureMode = text "Static" → values .ipAddress ≠ none ∧ values .netMask ≠ none) (arg : ArgName) :
    argTurn values a arg = some (argFold values a arg) := by
  apply if_neg
  intro hrefused
  cases arg with
  | type => exact htype (of_decide_eq_true hrefused)
  | ipAddress =>
    obtain ⟨hnull, hmode⟩ := of_decide_eq_true hrefused
    exact (hpass hmode).1 hnull
  | netMask =>
    obtain ⟨hnull, hmode⟩ := of_decide_eq_true hrefused
    exact (hpass hmode).2 hnull
  | gateway => exact Bool.false_ne_true hrefused

theorem foldlM_passes {mode : List UInt8} (htype : values .type = some mode)
    (hpass : mode = text "Static" → values .ipAddress ≠ none ∧ values .netMask ≠ none) (order : List ArgName) {a : IpArgs}
    (ha : a.lanIPConfigureMode = [] ∨ a.lanIPConfigureMode = mode) :
    order.foldlM (argTurn values) a = some (order.foldl (argFold values) a) := by
  induction order generalizing a with
  | nil => rfl
  | cons arg order ih =>
    have hstatic (h : a.lanIPConfigureMode = text "Static") : mode = text "Static" := by
      rcases ha with ha | ha
      · rw [ha] at h
        exact absurd h (by decide)
      · exact ha.symm.trans h
    have hsome : values .type ≠ none := by
      rw [htype]
      exact Option.some_ne_none mode
    rw [List.foldlM_cons, argTurn_passes values hsome fun h => hpass (hstatic h)]
    apply ih
    cases arg with
    | type => exact Or.inr (by rw [argFold, htype]; rfl)
    | ipAddress => exact ha
    | netMask => exact ha
    | gateway => exact ha

end Children

def NullSafe (values : ArgName → Option (List UInt8)) : Prop :=
  values .type = some (text "Static") →
    ∃ lanIP, values .ipAddress = some lanIP ∧ (hnapValidateIpaddr lanIP = true → values .netMask ≠ none)

def OrderFree (config : LanConfig) (values : ArgName → Option (List UInt8)) (sub : ArgName → List XmlElement) : Prop :=
  ∃ out, ∀ order, order.Perm allArgs → ∀ request, settingsOf request = some (childrenOf values sub order) →
    ddSetIpSettings config request = some out

section Outcome

variable {config : LanConfig} {values : ArgName → Option (List UInt8)} {sub : ArgName → List XmlElement}
  {order : List ArgName} {request : Option XmlElement}

theorem ddSetIpSettings_order (hperm : order.Perm allArgs)
    (hrequest : settingsOf request = some (childrenOf values sub order)) :
    ddSetIpSettings config request =
      (order.foldlM (argTurn values) {}).elim (some { reply := .error, config }) (applyArgs config) := by
  rw [ddSetIpSettings, ipArgs, hrequest, Option.bind_some, argLoop_order values sub hperm]
  cases order.foldlM (argTurn values) {} <;> rfl

theorem ddSetIpSettings_passes {mode : List UInt8} (htype : values .type = some mode)
    (hpass : mode = text "Static" → values .ipAddress ≠ none ∧ values .netMask ≠ none) (hperm : order.Perm allArgs)
    (hrequest : settingsOf request = some (childrenOf values sub order)) :
    ddSetIpSettings config request = applyArgs config (readArgs values) := by
  rw [ddSetIpSettings_order hperm hrequest, foldlM_passes values htype hpass order (Or.inl rfl),
    foldl_argFold values hperm, Option.elim_some]

theorem ddSetIpSettings_type_last (htype : values .type ≠ none)
    (hrequest : settingsOf request = some (childrenOf values sub [.ipAddress, .netMask, .gateway, .type])) :
    ddSetIpSettings config request = applyArgs config (readArgs values) := by
  have hperm : [ArgName.ipAddress, .netMask, .gateway, .type].Perm allArgs := by decide
  -- the addresses are read before the mode is known, so that none of them is refused
  have hturn {a : IpArgs} (ha : a.lanIPConfigureMode = []) (arg : ArgName) :=
    argTurn_passes values htype (fun h => absurd (ha.symm.trans h) (by decide)) arg
  have hfold : [ArgName.ipAddress, .netMask, .gateway, .type].foldlM (argTurn values) {} =
      some ([ArgName.ipAddress, .netMask, .gateway, .type].foldl (argFold values) {}) := by
    have h1 := hturn (a := {}) rfl .ipAddress
    have h2 := hturn (a := argFold values {} .ipAddress) rfl .netMask
    have h3 := hturn (a := argFold values (argFold values {} .ipAddress) .netMask) rfl .gateway
    have h4 := hturn (a := argFold values (argFold values (argFold values {} .ipAddress) .netMask) .gateway) rfl .type
    simp only [List.foldlM_cons, List.foldlM_nil, List.foldl_cons, List.foldl_nil, h1, h2, h3, h4, Option.bind_eq_bind,
      Option.bind_some, Option.pure_def]
  rw [ddSetIpSettings_order hperm hrequest, hfold, foldl_argFold values hperm, Option.elim_some]

end Outcome

theorem applyArgs_isSome (config : LanConfig) {a : IpArgs}
    (h : a.lanIPConfigureMode = text "Static" → a.lanIP ≠ none ∧ a.netmask ≠ none) :
    ∃ out, applyArgs config a = some out := by
  by_cases hstatic : a.lanIPConfigureMode = text "Static"
  · obtain ⟨hip, hmask⟩ := h hstatic
    obtain ⟨lanIP, hip⟩ := Option.ne_none_iff_exists'.mp hip
    obtain ⟨netmask, hmask⟩ := Option.ne_none_iff_exists'.mp hmask
    obtain ⟨valid, hvalid⟩ : ∃ valid, staticValid a = some valid := by
      rw [staticValid, hip, hmask, Option.bind_some]
      split_ifs
      · exact ⟨_, rfl⟩
      · exact ⟨_, rfl⟩
    rw [applyArgs_static hstatic, hvalid, hip, hmask, Option.bind_some]
    split_ifs
    · exact ⟨_, rfl⟩
    · exact ⟨_, rfl⟩
  · rw [applyArgs, if_neg hstatic]
    split_ifs
    · exact ⟨_, rfl⟩
    · exact ⟨_, rfl⟩

theorem applyArgs_null {config : LanConfig} {values : ArgName → Option (List UInt8)} (h : ¬NullSafe values) :
    values .type ≠ none ∧ applyArgs config (readArgs values) = none := by
  rw [NullSafe, Classical.not_imp] at h
  obtain ⟨htype, hnull⟩ := h
  have hmode : (readArgs values).lanIPConfigureMode = text "Static" := by
    rw [readArgs, htype]
    rfl
  have hvalid : staticValid (readArgs values) = none := by
    rw [staticValid, readArgs]
    cases hip : values .ipAddress with
    | none => rfl
    | some lanIP =>
      have hmask : hnapValidateIpaddr lanIP = true ∧ values .netMask = none := by
        by_contra hcontra
        exact hnull ⟨lanIP, hip, fun hok hnone => hcontra ⟨hok, hnone⟩⟩
      rw [Option.bind_some, if_neg (by rw [hmask.1]; decide), hmask.2, Option.map_none]
  refine ⟨by rw [htype]; exact Option.some_ne_none _, ?_⟩
  rw [applyArgs_static hmode, hvalid, Option.bind_none]

theorem orderFree_iff (config : LanConfig) (values : ArgName → Option (List UInt8)) (sub : ArgName → List XmlElement) :
    OrderFree config values sub ↔ NullSafe values := by
  constructor
  · rintro ⟨out, hout⟩
    by_contra hnull
    obtain ⟨htype, hcrash⟩ := @applyArgs_null config values hnull
    have hlast := hout [.ipAddress, .netMask, .gateway, .type] (by decide)
      (requestOf (childrenOf values sub [.ipAddress, .netMask, .gateway, .type])) rfl
    rw [ddSetIpSettings_type_last htype rfl, hcrash] at hlast
    exact absurd hlast.symm (Option.some_ne_none out)
  · intro hsafe
    cases htype : values .type with
    | none =>
      refine ⟨{ reply := .error, config }, fun order hperm request hrequest => ?_⟩
      have hmem : ArgName.type ∈ order := hperm.mem_iff.mpr (by decide)
      rw [ddSetIpSettings_order hperm hrequest, foldlM_refused values hmem htype, Option.elim_none]
    | some mode =>
      by_cases hpass : mode = text "Static" → values .ipAddress ≠ none ∧ values .netMask ≠ none
      · obtain ⟨out, hout⟩ := applyArgs_isSome config (a := readArgs values) (by
          rw [readArgs, htype]
          exact hpass)
        refine ⟨out, fun order hperm request hrequest => ?_⟩
        rw [ddSetIpSettings_passes htype hpass hperm hrequest, hout]
      · -- the address is refused before the netmask is looked at
        rw [Classical.not_imp] at hpass
        obtain ⟨rfl, hnull⟩ := hpass
        obtain ⟨lanIP, hip, hmask⟩ := hsafe htype
        have hbad : hnapValidateIpaddr lanIP = false := by
          by_contra hok
          exact hnull ⟨by rw [hip]; exact Option.some_ne_none _, hmask (Bool.not_eq_false _ ▸ hok)⟩
        have herror : applyArgs config (readArgs values) = some { reply := .error, config } := by
          rw [applyArgs_static (by rw [readArgs, htype]; rfl), staticValid, readArgs, hip, Option.bind_some, if_pos hbad,
            Option.bind_some, if_pos rfl]
        refine ⟨{ reply := .error, config }, fun order hperm request hrequest => ?_⟩
        rw [ddSetIpSettings_order hperm hrequest]
        rcases foldlM_argTurn values order {} with h | h
        · rw [h, Option.elim_none]
        · rw [h, foldl_argFold values hperm, Option.elim_some, herror]

def nullAddress : ArgName → Option (List UInt8)
  | .type => some (text "Static")
  | .ipAddress => none
  | .netMask => some (text "255.255.255.0")
  | .gateway => none

theorem null_address_order :
    ddSetIpSettings ⟨text "0", [], [], []⟩ (requestOf (childrenOf nullAddress (fun _ => []) allArgs)) =
        some { reply := .error, config := ⟨text "0", [], [], []⟩ } ∧
      ddSetIpSettings ⟨text "0", [], [], []⟩
        (requestOf (childrenOf nullAddress (fun _ => []) [.ipAddress, .netMask, .gateway, .type])) = none := by
  decide

end Wap610n.Discover
