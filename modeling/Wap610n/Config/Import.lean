import Wap610n.Config.Ini

/-!
`do_config_import`. A file that cannot be read is `none`; the import file is none of the files that are written.
-/

namespace Wap610n.Config

open Bytes CString Tcl

structure ConfFiles where
  sysConf : List UInt8
  wlanConf : List UInt8
deriving DecidableEq

/-- The blocks are what the reads of the pipe return. -/
def fileLoad (file : Option (List (List UInt8))) : List (List UInt8) :=
  match file with
  | none => split []
  | some blocks => split (execOutput (appendResult blocks))

structure DbState where
  lastKey : List UInt8
  sysTmp : List UInt8
  wlanTmp : List UInt8

def putsEntry (s : DbState) (value : List UInt8) : DbState :=
  if value = text "wlan" then { s with wlanTmp := s.wlanTmp ++ puts [s.lastKey ++ 61 :: value] }
  else if value = text "sys" then { s with sysTmp := s.sysTmp ++ puts [s.lastKey ++ 61 :: value] }
  else s

def dbLine (s : DbState) (line : List UInt8) : DbState :=
  match cutFirst 61 line with
  | some (key, value) =>
    if trim key = text "Name" then { s with lastKey := trim value }
    else if trim key = text "ConfFile" then putsEntry s (trim value)
    else s
  | none => s

/-- The array `inihandler` after it, which is empty before; `none` is a script that fails. -/
def readParamDb (dbFile : Option (List (List UInt8))) : Option Handler :=
  match dbFile with
  | none => some []
  | some db =>
    let s := (fileLoad (some db)).foldl dbLine ⟨[], puts [text "[sys]"], puts [text "[wlan]"]⟩
    iniOpen (s.sysTmp ++ s.wlanTmp)

def importLine (webDb : Handler) (t : ConfFiles) (line : List UInt8) : ConfFiles :=
  match cutFirst 61 line with
  | some (key, _) =>
    { wlanConf := if iniGetKey webDb (text "wlan") key ≠ [] then t.wlanConf ++ puts [line] else t.wlanConf
      sysConf := if iniGetKey webDb (text "sys") key ≠ [] then t.sysConf ++ puts [line] else t.sysConf }
  | none => t

def ConfFiles.openForWriting (_ : ConfFiles) : ConfFiles := ⟨[], []⟩

def doConfigImport (db inFile : Option (List (List UInt8))) (files : ConfFiles) : Option ConfFiles :=
  let t := files.openForWriting
  (readParamDb db).map fun webDb => (fileLoad inFile).foldl (importLine webDb) t

inductive ConfFile
  | sys | wlan
deriving DecidableEq

def ConfFile.name : ConfFile → List UInt8
  | sys => text "sys"
  | wlan => text "wlan"

def ConfFiles.get (t : ConfFiles) : ConfFile → List UInt8
  | .sys => t.sysConf
  | .wlan => t.wlanConf

def DbState.tmp (s : DbState) : ConfFile → List UInt8
  | .sys => s.sysTmp
  | .wlan => s.wlanTmp

def assignments (file : ConfFile) : Option (List UInt8) → List (List UInt8) → List (Option (List UInt8))
  | _, [] => []
  | name, line :: lines =>
    match cutFirst 61 line with
    | some (key, value) =>
      if trim key = text "Name" then assignments file (some (trim value)) lines
      else if trim key = text "ConfFile" ∧ trim value = file.name then name :: assignments file name lines
      else assignments file name lines
    | none => assignments file name lines

def assigned (file : ConfFile) (db : List UInt8) : List (List UInt8) :=
  (assignments file none (db.splitOn 10)).filterMap id

def selected (file : ConfFile) (db inFile : List UInt8) : List UInt8 :=
  puts ((inFile.splitOn 10).filter fun line => 61 ∈ line ∧ trim (upTo 61 line) ∈ assigned file db)

/-- What the detour through the ini file makes of a name with a `=` in it and of a missing one. -/
def extraKeys (file : ConfFile) (db : List UInt8) : List (List UInt8) :=
  (assignments file none (db.splitOn 10)).filterMap fun name =>
    match name with
    | none => some []
    | some name => if 61 ∈ name then some (trim (upTo 61 name)) else none

def entry (file : ConfFile) (name : Option (List UInt8)) : List UInt8 := name.getD [] ++ 61 :: file.name

def registeredKey (name : Option (List UInt8)) : List UInt8 := trim (upTo 61 (name.getD []))

section Database

variable (file : ConfFile)

theorem putsEntry_tmp (s : DbState) (value : List UInt8) :
    (putsEntry s value).lastKey = s.lastKey ∧ (putsEntry s value).tmp file =
      s.tmp file ++ if value = file.name then puts [s.lastKey ++ 61 :: file.name] else [] := by
  have hne : text "sys" ≠ text "wlan" := by decide
  unfold putsEntry
  by_cases hwlan : value = text "wlan"
  · subst hwlan
    rw [if_pos rfl]
    cases file with
    | sys => exact ⟨rfl, (List.append_nil _).symm⟩
    | wlan => exact ⟨rfl, rfl⟩
  rw [if_neg hwlan]
  by_cases hsys : value = text "sys"
  · subst hsys
    rw [if_pos rfl]
    cases file with
    | sys => exact ⟨rfl, rfl⟩
    | wlan => exact ⟨rfl, (List.append_nil _).symm⟩
  · have hfile : value ≠ file.name := by
      cases file with
      | sys => exact hsys
      | wlan => exact hwlan
    rw [if_neg hsys, if_neg hfile]
    exact ⟨rfl, (List.append_nil _).symm⟩

theorem foldl_dbLine (lines : List (List UInt8)) (name : Option (List UInt8)) {s : DbState}
    (h : s.lastKey = name.getD []) :
    (lines.foldl dbLine s).tmp file = s.tmp file ++ puts ((assignments file name lines).map (entry file)) := by
  induction lines generalizing name s with
  | nil => exact (List.append_nil _).symm
  | cons line lines ih =>
    rw [List.foldl_cons, assignments, dbLine]
    cases cutFirst 61 line with
    | none => exact ih name h
    | some p =>
      obtain ⟨key, value⟩ := p
      dsimp only
      by_cases hname : trim key = text "Name"
      · rw [if_pos hname, if_pos hname]
        exact ih (some (trim value)) rfl
      rw [if_neg hname, if_neg hname]
      by_cases hconf : trim key = text "ConfFile"
      · obtain ⟨hlast, htmp⟩ := putsEntry_tmp file s (trim value)
        rw [if_pos hconf, ih name (hlast.trans h), htmp]
        by_cases hfile : trim value = file.name
        · rw [if_pos hfile, if_pos ⟨hconf, hfile⟩, List.append_assoc, h, ← puts_append]
          rfl
        · rw [if_neg hfile, if_neg (fun hand => hfile hand.2), List.append_nil]
      · rw [if_neg hconf, if_neg (fun hand => hconf hand.1)]
        exact ih name h

theorem assignments_append_replicate (lines : List (List UInt8)) (name : Option (List UInt8)) (k : ℕ) :
    assignments file name (lines ++ List.replicate k []) = assignments file name lines := by
  induction lines generalizing name with
  | nil =>
    rw [List.nil_append]
    induction k with
    | zero => rfl
    | succ k ih =>
      rw [List.replicate_succ]
      exact ih
  | cons line lines ih =>
    rw [List.cons_append, assignments, assignments]
    cases cutFirst 61 line with
    | none => exact ih name
    | some p =>
      obtain ⟨key, value⟩ := p
      dsimp only
      rw [ih, ih]

theorem mem_assignments {c : UInt8} {lines : List (List UInt8)} (hlines : ∀ line ∈ lines, c ∉ line)
    {name : Option (List UInt8)} (hname : ∀ n ∈ name, c ∉ n ∧ trim n = n) :
    ∀ m ∈ assignments file name lines, ∀ n ∈ m, c ∉ n ∧ trim n = n := by
  induction lines generalizing name with
  | nil => exact fun m hm => absurd hm List.not_mem_nil
  | cons line lines ih =>
    rw [List.forall_mem_cons] at hlines
    rw [assignments]
    cases hcut : cutFirst 61 line with
    | none => exact ih hlines.2 hname
    | some p =>
      obtain ⟨key, value⟩ := p
      have hvalue : c ∉ trim value := by
        intro hmem
        apply hlines.1
        rw [(cutFirst_eq_some.mp hcut).2]
        exact List.mem_append_right _ (List.mem_cons_of_mem _ (trim_subset _ hmem))
      dsimp only
      split_ifs
      · apply ih hlines.2
        rintro _ ⟨⟩
        exact ⟨hvalue, trim_trim value⟩
      · rw [List.forall_mem_cons]
        exact ⟨hname, ih hlines.2 hname⟩
      · exact ih hlines.2 hname

theorem names_of_db {c : UInt8} (db : List UInt8) (h : c = 10 ∨ c ∉ db) :
    ∀ m ∈ assignments file none (db.splitOn 10), ∀ n ∈ m, c ∉ n ∧ trim n = n := by
  refine mem_assignments file ?_ fun _ h => by cases h
  intro line hline
  obtain ⟨hsub, hnot⟩ := subset_of_mem_splitOn hline
  rcases h with rfl | hdb
  · exact hnot
  · exact fun hmem => hdb (hsub hmem)

end Database

section Registered

theorem entry_cut (file : ConfFile) (name : Option (List UInt8)) :
    ∃ value, cutFirst 61 (entry file name) = some (upTo 61 (name.getD []), value) ∧ trim value ≠ [] := by
  have hvalue : ∀ value, file.name <:+ value → trim value ≠ [] := by
    intro value hsuffix
    obtain ⟨c, hc, hkept⟩ : ∃ c ∈ file.name, isTrimmed c = false := by
      cases file with
      | sys => exact ⟨115, by decide, by decide⟩
      | wlan => exact ⟨119, by decide, by decide⟩
    exact List.ne_nil_of_mem (mem_trim (hsuffix.subset hc) hkept)
  unfold entry
  generalize name.getD [] = n
  by_cases hn : 61 ∈ n
  · obtain ⟨r, hnot, hr⟩ := eq_upTo_append hn
    refine ⟨r ++ 61 :: file.name, cutFirst_eq_some.mpr ⟨hnot, ?_⟩, hvalue _ ?_⟩
    · conv_lhs => rw [hr]
      rw [List.append_assoc, List.cons_append]
    · exact (List.suffix_cons 61 file.name).trans (List.suffix_append r _)
  · refine ⟨file.name, cutFirst_eq_some.mpr ?_, hvalue _ List.suffix_rfl⟩
    rw [upTo_of_notMem hn]
    exact ⟨hn, rfl⟩

theorem foldlM_entries (file : ConfFile) (sec : List UInt8) (names : List (Option (List UInt8))) {h : Handler}
    (hvalues : ∀ e ∈ h, e.2 ≠ []) :
    ∃ h' : Handler, (names.map (entry file)).foldlM iniLine ⟨some sec, h⟩ = some ⟨some sec, h'⟩ ∧
      (∀ e ∈ h', e.2 ≠ []) ∧
      ∀ k, k ∈ h'.map Prod.fst ↔ k ∈ h.map Prod.fst ∨ ∃ key ∈ names.map registeredKey, k = elementName sec key := by
  induction names generalizing h with
  | nil => exact ⟨h, rfl, hvalues, by simp⟩
  | cons name names ih =>
    obtain ⟨value, hcut, hvalue⟩ := entry_cut file name
    have hline : iniLine ⟨some sec, h⟩ (entry file name) =
        some ⟨some sec, (elementName sec (registeredKey name), trim value) :: h⟩ := by
      rw [iniLine, hcut]
      rfl
    have hnext : ∀ e ∈ (elementName sec (registeredKey name), trim value) :: h, e.2 ≠ [] :=
      List.forall_mem_cons.mpr ⟨hvalue, hvalues⟩
    obtain ⟨h', hfold, hvalues', hnames⟩ := ih hnext
    refine ⟨h', ?_, hvalues', ?_⟩
    · rw [List.map_cons, List.foldlM_cons, hline]
      exact hfold
    · intro k
      rw [hnames, List.map_cons, List.map_cons, List.mem_cons, List.exists_mem_cons_iff]
      tauto

theorem elementName_inj {a b : ConfFile} {k l : List UInt8} :
    elementName a.name k = elementName b.name l ↔ a = b ∧ k = l := by
  constructor
  · intro h
    cases a <;> cases b
    · exact ⟨rfl, (List.cons.inj (List.append_cancel_left h)).2⟩
    · cases h
    · cases h
    · exact ⟨rfl, (List.cons.inj (List.append_cancel_left h)).2⟩
  · rintro ⟨rfl, rfl⟩
    rfl

theorem entry_clean {file : ConfFile} {c : UInt8} (hc : c = 10 ∨ c = 0) {names : List (Option (List UInt8))}
    (hnames : ∀ m ∈ names, ∀ n ∈ m, c ∉ n) : ∀ line ∈ names.map (entry file), c ∉ line := by
  rw [List.forall_mem_map]
  intro name hname
  rw [entry, List.mem_append, List.mem_cons, not_or, not_or]
  refine ⟨?_, by rcases hc with rfl | rfl <;> decide, by rcases hc with rfl | rfl <;> cases file <;> decide⟩
  cases name with
  | none => exact List.not_mem_nil
  | some n => exact hnames _ hname n rfl

theorem iniOpen_entries (names : ConfFile → List (Option (List UInt8)))
    (hnames : ∀ c, c = 10 ∨ c = 0 → ∀ file, ∀ m ∈ names file, ∀ n ∈ m, c ∉ n) :
    ∃ h, iniOpen (puts (text "[sys]" :: (names .sys).map (entry .sys)) ++
        puts (text "[wlan]" :: (names .wlan).map (entry .wlan))) = some h ∧
      ∀ (file : ConfFile) (key : List UInt8),
        iniGetKey h file.name key ≠ [] ↔ trim key ∈ (names file).map registeredKey := by
  have hlines : ∀ c, c = 10 ∨ c = 0 → ∀ line ∈ text "[sys]" :: (names .sys).map (entry .sys) ++
      text "[wlan]" :: (names .wlan).map (entry .wlan), c ∉ line := by
    intro c hc
    rw [List.forall_mem_append, List.forall_mem_cons, List.forall_mem_cons]
    have hhead : c ∉ text "[sys]" ∧ c ∉ text "[wlan]" := by rcases hc with rfl | rfl <;> decide
    exact ⟨⟨hhead.1, entry_clean hc (hnames c hc .sys)⟩, hhead.2, entry_clean hc (hnames c hc .wlan)⟩
  obtain ⟨h₁, hfold₁, hvalues₁, helems₁⟩ :=
    foldlM_entries .sys (text "sys") (names .sys) (h := []) (fun _ he => absurd he List.not_mem_nil)
  obtain ⟨h₂, hfold₂, hvalues₂, helems₂⟩ := foldlM_entries .wlan (text "wlan") (names .wlan) hvalues₁
  have hhead : iniLine ⟨none, []⟩ (text "[sys]") = some ⟨some (text "sys"), []⟩ := rfl
  have hnext : iniLine ⟨some (text "sys"), h₁⟩ (text "[wlan]") = some ⟨some (text "wlan"), h₁⟩ := rfl
  refine ⟨h₂, ?_, ?_⟩
  · rw [iniOpen, ← puts_append, read_eq (notMem_puts (by decide) (hlines 0 (Or.inr rfl))),
      split_puts (hlines 10 (Or.inl rfl)) (List.cons_ne_nil _ _), List.append_assoc, List.cons_append,
      List.cons_append, List.foldlM_cons, hhead, Option.bind_eq_bind, Option.bind_some, List.foldlM_append, hfold₁,
      Option.bind_eq_bind, Option.bind_some, List.foldlM_cons, hnext, Option.bind_eq_bind, Option.bind_some,
      List.foldlM_append, hfold₂]
    rfl
  · intro file key
    have hsec : trim file.name = file.name := by cases file <;> decide
    have hsys : ∀ k, elementName file.name (trim key) = elementName (text "sys") k ↔ file = .sys ∧ trim key = k :=
      fun k => elementName_inj (b := .sys)
    have hwlan : ∀ k, elementName file.name (trim key) = elementName (text "wlan") k ↔ file = .wlan ∧ trim key = k :=
      fun k => elementName_inj (b := .wlan)
    rw [iniGetKey_ne_nil hvalues₂, hsec, helems₂, helems₁]
    cases file <;> simp [hsys, hwlan]

theorem readParamDb_some {blocks : List (List UInt8)} {db : List UInt8} (hdb : appendResult blocks = db) :
    ∃ h, readParamDb (some blocks) = some h ∧ ∀ (file : ConfFile) (key : List UInt8),
      iniGetKey h file.name key ≠ [] ↔ trim key ∈ (assignments file none (db.splitOn 10)).map registeredKey := by
  obtain ⟨k, hk⟩ := splitOn_execOutput db
  have hnul : 0 ∉ db := hdb ▸ notMem_appendResult blocks
  have htmp : ∀ file,
      ((fileLoad (some blocks)).foldl dbLine ⟨[], puts [text "[sys]"], puts [text "[wlan]"]⟩).tmp file =
        puts ((91 :: file.name ++ [93]) :: (assignments file none (db.splitOn 10)).map (entry file)) := by
    intro file
    rw [foldl_dbLine file _ none rfl, fileLoad, hdb, hk, assignments_append_replicate]
    cases file <;> rfl
  obtain ⟨h, hopen, hkeys⟩ := iniOpen_entries (fun file => assignments file none (db.splitOn 10))
    fun c hc file m hm n hn => (names_of_db file db (hc.imp_right fun h => h ▸ hnul) m hm n hn).1
  refine ⟨h, ?_, hkeys⟩
  rw [← hopen]
  exact congrArg iniOpen (congrArg₂ (· ++ ·) (htmp .sys) (htmp .wlan))

theorem mem_registered (file : ConfFile) (db : List UInt8) {x : List UInt8} (hx : 61 ∉ x) :
    trim x ∈ (assignments file none (db.splitOn 10)).map registeredKey ↔
      trim x ∈ assigned file db ∨ trim x ∈ extraKeys file db := by
  have hnames := names_of_db file db (Or.inl rfl)
  have hplain : 61 ∉ trim x := fun hmem => hx (trim_subset _ hmem)
  rw [List.mem_map, assigned, extraKeys, List.mem_filterMap, List.mem_filterMap]
  constructor
  · rintro ⟨name, hname, heq⟩
    -- A name without a `=` is registered as it is; any other one, or none at all, gives an extra key.
    cases name with
    | none => exact Or.inr ⟨none, hname, by rw [← heq]; rfl⟩
    | some n =>
      by_cases hn : 61 ∈ n
      · refine Or.inr ⟨some n, hname, ?_⟩
        dsimp only
        rw [if_pos hn, ← heq]
        rfl
      · refine Or.inl ⟨some n, hname, ?_⟩
        rw [← heq, registeredKey, Option.getD_some, upTo_of_notMem hn, (hnames _ hname n rfl).2]
        rfl
  · rintro (⟨name, hname, heq⟩ | ⟨name, hname, heq⟩)
    · obtain rfl : name = some (trim x) := heq
      refine ⟨_, hname, ?_⟩
      rw [registeredKey, Option.getD_some, upTo_of_notMem hplain, trim_trim]
    · refine ⟨name, hname, ?_⟩
      cases name with
      | none =>
        rw [← Option.some.inj heq]
        rfl
      | some n =>
        dsimp only at heq
        split_ifs at heq
        exact Option.some.inj heq

end Registered

section Import

variable (webDb : Handler) (file : ConfFile)

def copied (line : List UInt8) : Bool := 61 ∈ line ∧ iniGetKey webDb file.name (upTo 61 line) ≠ []

theorem importLine_get (t : ConfFiles) (line : List UInt8) :
    (importLine webDb t line).get file = t.get file ++ puts ([line].filter (copied webDb file)) := by
  unfold importLine cutFirst
  by_cases hline : 61 ∈ line
  · rw [if_pos hline]
    have hcopied : copied webDb file line = decide (iniGetKey webDb file.name (upTo 61 line) ≠ []) := by
      simp [copied, hline]
    by_cases hkey : iniGetKey webDb file.name (upTo 61 line) ≠ []
    · rw [List.filter_cons_of_pos (by rw [hcopied]; exact decide_eq_true hkey)]
      cases file with
      | sys => exact if_pos hkey
      | wlan => exact if_pos hkey
    · rw [List.filter_cons_of_neg (by rw [hcopied]; simpa using hkey), List.filter_nil]
      cases file with
      | sys => exact (if_neg hkey).trans (List.append_nil _).symm
      | wlan => exact (if_neg hkey).trans (List.append_nil _).symm
  · rw [if_neg hline, List.filter_cons_of_neg (by simp [copied, hline]), List.filter_nil]
    exact (List.append_nil _).symm

theorem foldl_importLine (lines : List (List UInt8)) (t : ConfFiles) :
    (lines.foldl (importLine webDb) t).get file = t.get file ++ puts (lines.filter (copied webDb file)) := by
  induction lines generalizing t with
  | nil => exact (List.append_nil _).symm
  | cons line lines ih =>
    rw [List.foldl_cons, ih, importLine_get, List.append_assoc, ← puts_append, ← List.filter_append,
      List.singleton_append]

theorem foldl_fileLoad {blocks : List (List UInt8)} {s : List UInt8} (h : appendResult blocks = s) :
    ((fileLoad (some blocks)).foldl (importLine webDb) ⟨[], []⟩).get file =
      puts ((s.splitOn 10).filter (copied webDb file)) := by
  obtain ⟨k, hk⟩ := splitOn_execOutput s
  have hempty : (List.replicate k ([] : List UInt8)).filter (copied webDb file) = [] := by
    rw [List.filter_eq_nil_iff]
    intro line hline
    rw [List.eq_of_mem_replicate hline]
    simp [copied]
  rw [foldl_importLine, fileLoad, h, hk, List.filter_append, hempty, List.append_nil]
  cases file <;> rfl

end Import

def Imported (db inFile : Option (List (List UInt8))) (files : ConfFiles) : Prop :=
  match db, inFile with
  | some db, some inFile =>
    doConfigImport (some db) (some inFile) files =
      some ⟨selected .sys db.flatten inFile.flatten, selected .wlan db.flatten inFile.flatten⟩
  | db, inFile => doConfigImport db inFile files = some files

theorem puts_filter_eq_iff {lines : List (List UInt8)} (h : ∀ line ∈ lines, 10 ∉ line) {p q : List UInt8 → Bool} :
    puts (lines.filter p) = puts (lines.filter q) ↔ ∀ line ∈ lines, p line = q line := by
  constructor
  · intro heq line hline
    have hfilter := puts_inj (fun l hl => h l (List.mem_of_mem_filter hl))
      (fun l hl => h l (List.mem_of_mem_filter hl)) heq
    have hmem : line ∈ lines.filter p ↔ line ∈ lines.filter q := by rw [hfilter]
    rw [List.mem_filter, List.mem_filter] at hmem
    exact Bool.eq_iff_iff.mpr ⟨fun hp => (hmem.mp ⟨hline, hp⟩).2, fun hq => (hmem.mpr ⟨hline, hq⟩).2⟩
  · intro heq
    rw [List.filter_congr heq]

theorem ConfFiles.ext_get {t u : ConfFiles} : t = u ↔ ∀ file, t.get file = u.get file := by
  refine ⟨fun h _ => by rw [h], ?_⟩
  intro h
  obtain ⟨sysConf, wlanConf⟩ := t
  exact congrArg₂ ConfFiles.mk (h .sys) (h .wlan)

theorem readParamDb_isSome (db : Option (List (List UInt8))) : ∃ webDb, readParamDb db = some webDb := by
  cases db with
  | none => exact ⟨[], rfl⟩
  | some db =>
    obtain ⟨h, hread, -⟩ := readParamDb_some (Eq.refl (appendResult db))
    exact ⟨h, hread⟩

theorem doConfigImport_unread {db inFile : Option (List (List UInt8))} (h : db = none ∨ inFile = none)
    (files : ConfFiles) :
    doConfigImport db inFile files = some ⟨[], []⟩ := by
  obtain ⟨webDb, hread⟩ := readParamDb_isSome db
  rw [doConfigImport, hread, Option.map_some]
  apply congrArg some
  rw [ConfFiles.ext_get]
  intro file
  rw [foldl_importLine]
  have hnone : (fileLoad inFile).filter (copied webDb file) = [] := by
    rcases h with rfl | rfl
    · obtain rfl : [] = webDb := Option.some.inj hread
      rw [List.filter_eq_nil_iff]
      intro line _
      simp [copied, iniGetKey]
    · rfl
  rw [hnone]
  cases file <;> rfl

theorem doConfigImport_read {dbBlocks inBlocks : List (List UInt8)} {db inFile : List UInt8}
    (hdb : appendResult dbBlocks = db) (hin : appendResult inBlocks = inFile) (files : ConfFiles) :
    ∃ t, doConfigImport (some dbBlocks) (some inBlocks) files = some t ∧ ∀ file, t.get file =
      puts ((inFile.splitOn 10).filter fun line => 61 ∈ line ∧
        (trim (upTo 61 line) ∈ assigned file db ∨ trim (upTo 61 line) ∈ extraKeys file db)) := by
  obtain ⟨webDb, hread, hkeys⟩ := readParamDb_some hdb
  refine ⟨_, by rw [doConfigImport, hread]; rfl, ?_⟩
  intro file
  refine (foldl_fileLoad webDb file hin).trans ?_
  congr 2
  funext line
  rw [copied, decide_eq_decide]
  apply and_congr_right
  intro hline
  obtain ⟨-, hkey, -⟩ := eq_upTo_append hline
  rw [hkeys, mem_registered file db hkey]

def twoParamDb : List (List UInt8) :=
  [text "Name=ESSID\nConf", text "File=wlan\nName = Lan=Ip\nConfFile=sys\nName=Lan\nConfFile=sys\n"]

def twoParamFile : List (List UInt8) := [text "ESSID=home\nLan = 1\nOther=2\n", text "noKey"]

end Wap610n.Config
