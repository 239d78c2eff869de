import Wap610n.Lib.Bytes
import Wap610n.Lib.Tcl

/-!
`ini.tcl`. The element of the array `inihandler` for a key of a section is named by both, with a `#` between them.
-/

namespace Wap610n.Config

open Tcl

abbrev Handler := List (List UInt8 × List UInt8)

def elementName (sec key : List UInt8) : List UInt8 := sec ++ 35 :: key

/-- What `^\[(.*)\]$` matches. -/
def sectionOf (line : List UInt8) : Option (List UInt8) :=
  if 2 ≤ line.length ∧ line.head? = some 91 ∧ line.getLast? = some 93 then some (line.drop 1).dropLast else none

structure IniState where
  sec : Option (List UInt8)
  inihandler : Handler

/-- `none` is a key before the first section, where the variable that is read has no value. -/
def iniLine (s : IniState) (line : List UInt8) : Option IniState :=
  match cutFirst 61 line with
  | some (key, value) =>
    s.sec.map fun sec => { s with inihandler := (elementName sec (trim key), trim value) :: s.inihandler }
  | none =>
    match sectionOf line with
    | some sec => some { s with sec := some (trim sec) }
    | none => some s

def iniOpen (iniFile : List UInt8) : Option Handler :=
  ((split (read iniFile)).foldlM iniLine ⟨none, []⟩).map IniState.inihandler

def iniGetKey (inihandler : Handler) (sec key : List UInt8) : List UInt8 :=
  (inihandler.lookup (elementName (trim sec) (trim key))).getD []

namespace IniState

structure Plain (s : IniState) : Prop where
  sec : ∀ sec ∈ s.sec, 61 ∉ sec
  names : ∀ e ∈ s.inihandler, 61 ∉ e.1

theorem Plain.iniLine {s s' : IniState} (h : s.Plain) {line : List UInt8} (hs : iniLine s line = some s') : s'.Plain := by
  unfold Config.iniLine at hs
  cases hcut : cutFirst 61 line with
  | some p =>
    obtain ⟨key, value⟩ := p
    rw [hcut] at hs
    obtain ⟨sec, hsec, rfl⟩ := Option.map_eq_some_iff.mp hs
    refine ⟨h.sec, ?_⟩
    rw [List.forall_mem_cons]
    refine ⟨?_, h.names⟩
    have hkey : 61 ∉ trim key := fun hmem => (cutFirst_eq_some.mp hcut).1 (trim_subset _ hmem)
    rw [elementName, List.mem_append, List.mem_cons, not_or, not_or]
    exact ⟨h.sec sec hsec, by decide, hkey⟩
  | none =>
    rw [hcut] at hs
    dsimp only at hs
    cases hsec : sectionOf line with
    | none =>
      rw [hsec] at hs
      exact Option.some.inj hs ▸ h
    | some sec =>
      rw [hsec] at hs
      obtain rfl := Option.some.inj hs
      refine ⟨?_, h.names⟩
      rintro _ ⟨⟩ hmem
      unfold sectionOf at hsec
      split_ifs at hsec
      obtain rfl := Option.some.inj hsec
      exact cutFirst_eq_none.mp hcut (List.drop_subset _ _ (List.dropLast_subset _ (trim_subset _ hmem)))

theorem Plain.foldlM {lines : List (List UInt8)} {s s' : IniState} (h : s.Plain)
    (hs : lines.foldlM Config.iniLine s = some s') : s'.Plain := by
  induction lines generalizing s with
  | nil => exact Option.some.inj hs ▸ h
  | cons line lines ih =>
    rw [List.foldlM_cons] at hs
    obtain ⟨u, hu, hrest⟩ := Option.bind_eq_some_iff.mp hs
    exact ih (h.iniLine hu) hrest

end IniState

theorem iniOpen_names {contents : List UInt8} {h : Handler} (hopen : iniOpen contents = some h) : ∀ e ∈ h, 61 ∉ e.1 := by
  obtain ⟨s, hs, rfl⟩ := Option.map_eq_some_iff.mp hopen
  have hplain : IniState.Plain ⟨none, []⟩ := ⟨by simp, by simp⟩
  exact (hplain.foldlM hs).names

theorem iniGetKey_of_mem {contents : List UInt8} {h : Handler} (hopen : iniOpen contents = some h) (sec : List UInt8)
    {key : List UInt8} (hkey : 61 ∈ key) : iniGetKey h sec key = [] := by
  have hname : 61 ∈ elementName (trim sec) (trim key) :=
    List.mem_append_right _ (List.mem_cons_of_mem _ (mem_trim hkey (by decide)))
  have hnone : h.lookup (elementName (trim sec) (trim key)) = none := by
    rw [List.lookup_eq_none_iff]
    intro e he
    rw [bne_iff_ne]
    intro heq
    exact iniOpen_names hopen e he (heq ▸ hname)
  rw [iniGetKey, hnone]
  rfl

theorem iniGetKey_ne_nil {h : Handler} (hvalues : ∀ e ∈ h, e.2 ≠ []) (sec key : List UInt8) :
    iniGetKey h sec key ≠ [] ↔ elementName (trim sec) (trim key) ∈ h.map Prod.fst := by
  unfold iniGetKey
  cases hl : h.lookup (elementName (trim sec) (trim key)) with
  | none =>
    rw [List.lookup_eq_none_iff] at hl
    refine ⟨fun hne => absurd rfl hne, ?_⟩
    intro hmem
    obtain ⟨e, he, heq⟩ := List.mem_map.mp hmem
    exact absurd heq.symm (bne_iff_ne.mp (hl e he))
  | some value =>
    obtain ⟨l₁, l₂, rfl, -⟩ := List.lookup_eq_some_iff.mp hl
    have hmem : (elementName (trim sec) (trim key), value) ∈ l₁ ++ (elementName (trim sec) (trim key), value) :: l₂ :=
      List.mem_append_right _ List.mem_cons_self
    exact ⟨fun _ => List.mem_map_of_mem hmem, fun _ => hvalues _ hmem⟩

end Wap610n.Config
