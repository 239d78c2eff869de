import Wap610n.Config.Ini

/-!
The commands that `driver_api.tcl` makes of a wireless configuration. The scripts of the command table are evaluated by
`evalTcl`, from the script and the variables `interface`, `param` and `value`, and `none` is a script that fails.
-/

namespace Wap610n.Config

open Bytes Tcl Search

def getParamExecuteCmd (handler : Handler) (sec param : List UInt8) : List UInt8 :=
  let retVal := iniGetKey handler sec param
  if retVal ≠ [] then
    let retVal1 := iniGetKey handler retVal sec
    if retVal1 ≠ [] then retVal1 else retVal
  else retVal

abbrev EvalTcl := List UInt8 → List UInt8 → List UInt8 → List UInt8 → Option (List UInt8)

def wepEncryption : List UInt8 := text "WepEncryption"

def equals : List UInt8 := [32, 61, 32]

structure Script where
  head : List (List UInt8)
  params : List (List UInt8)
  wep : List (List UInt8)
  bridge : List (List UInt8)

def unlessEmpty (ret : List UInt8) : List (List UInt8) := if ret ≠ [] then [ret] else []

structure LoopState where
  wep : List UInt8
  value : Option (List UInt8)
  params : List (List UInt8)

section Script

variable (evalTcl : EvalTcl) (handler : Handler)

def driverSet (interface param value : List UInt8) : List UInt8 :=
  let retVal := getParamExecuteCmd handler (text "SET") (trim param)
  if retVal ≠ [] then
    match evalTcl retVal interface (trim param) (trim value) with
    | none => text "# failed to eval " ++ retVal
    | some ret => ret
  else retVal

def driverLine (interface : List UInt8) (s : LoopState) (line : List UInt8) : LoopState :=
  match cutLast equals line with
  | some (param, value) =>
    if param = wepEncryption then { s with wep := value, value := some value }
    else
      { s with
        value := some value
        params := s.params ++ unlessEmpty (driverSet evalTcl handler interface param value) }
  | none => s

/-- `bridgeMode` is what the pattern finds in the lines of `sys.conf`; without a match `value` is left as it was, and
without any value the procedure fails. -/
def bridgeCommands (value bridgeMode : Option (List UInt8)) : List (List UInt8) :=
  match bridgeMode.or value with
  | none => []
  | some value =>
    unlessEmpty (driverSet evalTcl handler (text "wlan0") (text "BridgeMode") value) ++
      [text "echo DriverSET Param is DONE"]

/-- A file that cannot be read is `none`. -/
def driverSetAll (findBridgeMode : List (List UInt8) → Option (List UInt8)) (interface : List UInt8)
    (confFile sysConf : Option (List UInt8)) : Script :=
  match confFile with
  | none => ⟨[], [], [], []⟩
  | some file =>
    let s := (split (read file)).foldl (driverLine evalTcl handler interface) ⟨text "0", none, []⟩
    { head := [text "#!/bin/sh"]
      params := s.params
      wep := unlessEmpty (driverSet evalTcl handler interface wepEncryption s.wep)
      bridge :=
        match sysConf with
        | none => []
        | some file => bridgeCommands evalTcl handler s.value (findBridgeMode (split (read file))) }

end Script

structure Setting where
  name : List UInt8
  value : List UInt8
  noBlank : 32 ∉ name
  oneLine : 10 ∉ name ∧ 10 ∉ value

def Setting.line (c : Setting) : List UInt8 := c.name ++ (equals ++ c.value)

def Setting.Again (c : Setting) : Prop := equals <:+: 32 :: c.value

instance (c : Setting) : Decidable c.Again := inferInstanceAs (Decidable (equals <:+: _))

theorem Setting.cut (c : Setting) : ∃ param value, cutLast equals c.line = some (param, value) ∧
    (¬c.Again ∧ param = c.name ∧ value = c.value ∨ c.Again ∧ 61 ∈ param) := by
  have hne : equals ≠ [] := List.cons_ne_nil _ _
  have hsame : ∀ b, ¬equals <:+: (equals ++ b).tail → ¬equals <:+: 32 :: b := by
    intro b hlast hinfix
    exact hlast (List.infix_cons hinfix)
  cases hcut : cutLast equals c.line with
  | none =>
    refine absurd ?_ (cutLast_eq_none hne hcut)
    exact ⟨c.name, c.value, by rw [Setting.line, List.append_assoc]⟩
  | some p =>
    obtain ⟨a, b⟩ := p
    obtain ⟨heq, hlast⟩ := cutLast_eq_some hne hcut
    refine ⟨a, b, rfl, ?_⟩
    rcases List.append_eq_append_iff.mp heq with ⟨x, ha, hx⟩ | ⟨x, hname, hx⟩
    · cases x with
      | nil =>
        obtain rfl : c.value = b := List.append_cancel_left hx
        exact Or.inl ⟨hsame _ hlast, by rw [ha, List.append_nil], rfl⟩
      | cons d x =>
        -- The match begins behind the first one, so that it does not begin before its last blank.
        cases x with
        | nil => cases hx
        | cons e x =>
          obtain ⟨-, hrest⟩ := List.cons.inj hx
          obtain ⟨he, hvalue⟩ := List.cons.inj hrest
          refine Or.inr ⟨⟨x, b, by rw [List.append_assoc]; exact hvalue.symm⟩, ?_⟩
          rw [ha, ← he]
          exact List.mem_append_right _ (List.mem_cons_of_mem _ List.mem_cons_self)
    · cases x with
      | nil =>
        obtain rfl : b = c.value := List.append_cancel_left hx
        exact Or.inl ⟨hsame _ hlast, by rw [hname, List.append_nil], rfl⟩
      | cons d x =>
        obtain ⟨rfl, -⟩ := List.cons.inj hx
        refine absurd ?_ c.noBlank
        rw [hname]
        exact List.mem_append_right _ List.mem_cons_self

theorem Setting.line_oneLine (c : Setting) : 10 ∉ c.line := by
  rw [Setting.line, List.mem_append, List.mem_append, not_or, not_or]
  exact ⟨c.oneLine.1, by decide, c.oneLine.2⟩

def lastWep (settings : List Setting) : List UInt8 :=
  ((settings.filter fun c => c.name = wepEncryption).getLast?.map Setting.value).getD (text "0")

section Commands

variable (evalTcl : EvalTcl) (handler : Handler) (interface : List UInt8)

def emitted (c : Setting) : Option (List UInt8) :=
  if c.name = wepEncryption ∨ driverSet evalTcl handler interface c.name c.value = [] then none
  else some (driverSet evalTcl handler interface c.name c.value)

theorem unlessEmpty_inj {a b : List UInt8} : unlessEmpty a = unlessEmpty b ↔ a = b := by
  unfold unlessEmpty
  constructor
  · intro h
    split_ifs at h with ha hb hb
    · exact (List.cons.inj h).1
    · rw [not_not.mp ha, not_not.mp hb]
  · intro h
    rw [h]

theorem foldl_split {settings : List Setting} {contents : List UInt8}
    (h : contents = puts (settings.map Setting.line) ∨ contents = [10].intercalate (settings.map Setting.line))
    (s : LoopState) :
    (split contents).foldl (driverLine evalTcl handler interface) s =
      (settings.map Setting.line).foldl (driverLine evalTcl handler interface) s := by
  have hlines : ∀ line ∈ settings.map Setting.line, 10 ∉ line := by
    rw [List.forall_mem_map]
    intro c _
    exact c.line_oneLine
  by_cases hnil : settings = []
  · subst hnil
    rcases h with rfl | rfl
    · rfl
    · rfl
  have hne : settings.map Setting.line ≠ [] := fun h => hnil (List.map_eq_nil_iff.mp h)
  rcases h with rfl | rfl
  · rw [split_puts hlines hne, List.foldl_append]
    rfl
  · have hcontents : [10].intercalate (settings.map Setting.line) ≠ [] := by
      intro h
      have hsplit := List.splitOn_intercalate 10 hlines hne
      rw [h, List.splitOn_nil] at hsplit
      obtain ⟨c, settings, rfl⟩ := List.exists_cons_of_ne_nil hnil
      have hline : c.line ≠ [] := List.append_ne_nil_of_right_ne_nil _ (List.cons_ne_nil _ _)
      exact hline (List.cons.inj hsplit).1.symm
    rw [split, if_neg hcontents, List.splitOn_intercalate 10 hlines hne]

variable {handler} {ini : List UInt8} (hopen : iniOpen ini = some handler)

include hopen

theorem driverSet_of_mem {param : List UInt8} (value : List UInt8) (hparam : 61 ∈ param) :
    driverSet evalTcl handler interface param value = [] := by
  have hkey : iniGetKey handler (text "SET") (trim param) = [] :=
    iniGetKey_of_mem hopen _ (mem_trim hparam (by decide))
  have hnone : getParamExecuteCmd handler (text "SET") (trim param) = [] := by
    rw [getParamExecuteCmd, hkey, if_neg (not_not.mpr rfl)]
  rw [driverSet, hnone, if_neg (not_not.mpr rfl)]

theorem driverLine_line (s : LoopState) (c : Setting) :
    (driverLine evalTcl handler interface s c.line).params =
        s.params ++ (if c.Again then none else emitted evalTcl handler interface c).toList ∧
      (driverLine evalTcl handler interface s c.line).wep =
        if c.name = wepEncryption ∧ ¬c.Again then c.value else s.wep := by
  obtain ⟨param, value, hcut, ⟨hagain, rfl, rfl⟩ | ⟨hagain, hparam⟩⟩ := c.cut
  · unfold driverLine
    rw [hcut, if_neg hagain]
    dsimp only
    by_cases hwep : c.name = wepEncryption
    · rw [if_pos hwep, if_pos ⟨hwep, hagain⟩, emitted, if_pos (Or.inl hwep)]
      exact ⟨(List.append_nil _).symm, rfl⟩
    · rw [if_neg hwep, if_neg (fun h => hwep h.1), emitted, unlessEmpty]
      refine ⟨?_, rfl⟩
      by_cases hret : driverSet evalTcl handler interface c.name c.value = []
      · rw [if_pos (Or.inr hret), if_neg (not_not.mpr hret)]
        rfl
      · rw [if_neg (not_or.mpr ⟨hwep, hret⟩), if_pos hret]
        rfl
  · have hwep : param ≠ wepEncryption := by
      rintro rfl
      exact absurd hparam (by decide)
    unfold driverLine
    rw [hcut, if_pos hagain, if_neg (fun h => h.2 hagain)]
    dsimp only
    rw [if_neg hwep, driverSet_of_mem evalTcl interface hopen value hparam]
    exact ⟨rfl, rfl⟩

theorem foldl_driverLine (settings : List Setting) (s : LoopState) :
    ((settings.map Setting.line).foldl (driverLine evalTcl handler interface) s).params =
        s.params ++ settings.filterMap (fun c => if c.Again then none else emitted evalTcl handler interface c) ∧
      ((settings.map Setting.line).foldl (driverLine evalTcl handler interface) s).wep =
        ((settings.filter fun c => c.name = wepEncryption ∧ ¬c.Again).getLast?.map Setting.value).getD s.wep := by
  induction settings generalizing s with
  | nil => exact ⟨(List.append_nil _).symm, rfl⟩
  | cons c settings ih =>
    obtain ⟨hparams, hwep⟩ := driverLine_line evalTcl interface hopen s c
    obtain ⟨ihparams, ihwep⟩ := ih (driverLine evalTcl handler interface s c.line)
    rw [List.map_cons, List.foldl_cons, ihparams, ihwep, hparams, hwep, List.append_assoc, List.filterMap_cons,
      List.filter_cons]
    constructor
    · cases if c.Again then none else emitted evalTcl handler interface c with
      | none => rfl
      | some ret => rfl
    · by_cases h : c.name = wepEncryption ∧ ¬c.Again
      · rw [if_pos h, if_pos (decide_eq_true h), List.getLast?_cons]
        cases (settings.filter fun c => c.name = wepEncryption ∧ ¬c.Again).getLast? with
        | none => rfl
        | some last => rfl
      · rw [if_neg h, if_neg (by simpa using h)]

end Commands

def essidScript : List UInt8 := text "iwconfig $interface essid \"\\\"$value\\\"\""

def wepScript : List UInt8 := text "iwconfig $interface key [test $value==0 off on]"

def setTable : List UInt8 := puts [text "[SET]", text "WepEncryption=" ++ wepScript, text "ESSID=" ++ essidScript]

def setHandler : Handler := [(text "SET#ESSID", essidScript), (text "SET#WepEncryption", wepScript)]

theorem iniOpen_setTable : iniOpen setTable = some setHandler := by
  rw [setTable, setHandler, wepScript, essidScript]
  repeat rw [text_ofList]
  decide +kernel

def evalSet : EvalTcl := fun script interface _ value =>
  if script = essidScript then some (text "iwconfig " ++ interface ++ text " essid \"" ++ value ++ text "\"")
  else if script = wepScript then
    some (text "iwconfig " ++ interface ++ text " key " ++ if value = text "0" then text "off" else text "on")
  else none

def threeSettings : List Setting :=
  [⟨text "WepEncryption", text "1", by decide, by decide⟩, ⟨text "ESSID", text "home", by decide, by decide⟩,
    ⟨text "Comment", text "a = b", by decide, by decide⟩]

end Wap610n.Config
