import Wap610n.Web.FormEnd

namespace Wap610n.Web

open Bytes CString Search

def Form.fields (form : Form) : List Field := (form.before ++ form.after).map TextField.toField

def Form.post (form : Form) (wp : Webs) (protoVersion heap : List UInt8) : Post :=
  { wp with
    fileContent := []
    fileContentLen := 0
    protoVersion
    multipartForm := true
    multiPartBoundary := some (delimiter form.boundary)
    postData := some form.body
    heap }

def Form.Received (form : Form) (r : Option (Vars × Post)) : Prop :=
  ∃ vars wp, r = some (vars, wp) ∧ (∀ f ∈ form.fields, vars f.name = some f.value) ∧
    ∀ f ∈ form.file, wp.fileContentLen = f.content.length ∧ wp.fileContent.take f.content.length = f.content

structure Form.Apart (form : Form) (server : ServerNames) (vars : Vars) (wp : Post) : Prop where
  unset : ∀ f ∈ form.fields, setCgiVars server vars wp f.name = none
  query : ∀ token ∈ queryTokens wp.query, ∀ f ∈ form.fields, (keywordValue token).1 ≠ f.name
  fileName : ∀ file ∈ form.file, ∀ token ∈ queryTokens file.nameStr, ∀ f ∈ form.fields, (keywordValue token).1 ≠ f.name
  shown : ∀ file ∈ form.file, file.name.length ≤ 972

def Form.extracted (form : Form) (heap : List UInt8) (u : Extracted) : Extracted :=
  let u := { u with query := addFields u.query form.before }
  let u := u.withFile form.file (fieldParts form.after ++ (closing form.boundary ++ heap))
  { u with query := addFields u.query form.after }

theorem Form.turns_le (form : Form) (heap : List UInt8) :
    heap.length + 1 + form.after.length + form.file.toList.length + form.before.length ≤
      (form.body ++ heap).length := by
  have hbefore := length_le_fieldParts form.before
  have hafter := length_le_fieldParts form.after
  have hfile : form.file.toList.length ≤ (fileParts form.file).length := by
    cases form.file with
    | none => exact Nat.le_refl _
    | some f => exact part_length_pos _ _ _
  have hclosing : 0 < (closing form.boundary).length := by
    rw [closing, List.length_append]
    exact Nat.add_pos_right _ (by decide)
  simp only [Form.body, List.length_append]
  omega

theorem Form.scanParts_body (form : Form) (hname : ∀ f ∈ form.file, f.name.length ≤ 972) (heap : List UInt8)
    (u : Extracted) {fuel : ℕ}
    (hfuel : heap.length + 1 + form.after.length + form.file.toList.length + form.before.length ≤ fuel) :
    ∃ k, heap.length < k ∧
      scanParts (delimiter form.boundary) heap.length fuel ⟨u, some (form.body ++ heap), false⟩ =
        scanParts (delimiter form.boundary) heap.length k
          ⟨form.extracted heap u, some (closing form.boundary ++ heap), form.file.isSome⟩ := by
  obtain ⟨k, rfl⟩ := Nat.exists_eq_add_of_le hfuel
  have hlast : closing form.boundary ++ heap = delimiter form.boundary ++ (text "--\r\n" ++ heap) :=
    List.append_assoc _ _ _
  have hheap : heap.length ≤ (text "--\r\n" ++ heap).length := by
    rw [List.length_append]
    omega
  obtain ⟨r, hr, hrlen⟩ := fieldParts_delimiter form.after (text "--\r\n" ++ heap)
  obtain ⟨t, ht, htlen⟩ := fileParts_delimiter form.file r
  have hsplit : form.body ++ heap = fieldParts form.before ++ (delimiter form.boundary ++ t) := by
    rw [← ht, ← hr, ← hlast]
    simp only [Form.body, List.append_assoc]
  have hturns : heap.length + 1 + form.after.length + form.file.toList.length + form.before.length + k =
      heap.length + 1 + k + form.after.length + form.file.toList.length + form.before.length := by
    omega
  refine ⟨heap.length + 1 + k, by omega, ?_⟩
  rw [hsplit, hturns, scanParts_fields form.boundary_ok form.before ((hheap.trans hrlen).trans htlen), ← ht,
    scanParts_file form.boundary_ok hname (hheap.trans hrlen), ← hr, scanParts_fields form.boundary_ok form.after hheap,
    ← hlast]
  rfl

theorem Form.extract (form : Form) (hname : ∀ f ∈ form.file, f.name.length ≤ 972) (wp : Webs)
    (protoVersion heap : List UInt8) :
    (Quiet heap → extractUploadedFileContent (form.post wp protoVersion heap) =
      some { form.post wp protoVersion heap with toExtracted := form.extracted heap ⟨wp.query, [], 0⟩ }) ∧
    (¬ Quiet heap → extractUploadedFileContent (form.post wp protoVersion heap) = none) := by
  obtain ⟨k, hk, hscan⟩ := form.scanParts_body hname heap ⟨wp.query, [], 0⟩ (form.turns_le heap)
  have hextract : extractUploadedFileContent (form.post wp protoVersion heap) =
      (scanParts (delimiter form.boundary) heap.length k
        ⟨form.extracted heap ⟨wp.query, [], 0⟩, some (closing form.boundary ++ heap), form.file.isSome⟩).map fun u =>
          { form.post wp protoVersion heap with toExtracted := u } := by
    rw [← hscan]
    rfl
  rw [hextract]
  constructor
  · intro h
    rw [scanParts_closing form.boundary_ok hk _ _ h]
    rfl
  · intro h
    rw [scanParts_stuck form.boundary_ok k _ _ h]
    rfl

theorem queryTokens_appendName (query nameStr : List UInt8) :
    queryTokens (appendName query nameStr) = queryTokens query ++ queryTokens nameStr := by
  rw [appendName]
  split_ifs with hname
  · rw [hname]
    exact (List.append_nil _).symm
  · rw [appendQuery]
    split_ifs with hquery
    · rw [hquery]
      rfl
    · exact tokens_append 38 [] query nameStr

theorem pairs_addFields {boundary : List UInt8} (query : List UInt8) (fs : List (TextField boundary)) :
    (queryTokens (addFields query fs)).map keywordValue =
      (queryTokens query).map keywordValue ++ fieldPairs (fs.map TextField.toField) := by
  induction fs generalizing query with
  | nil => exact (List.append_nil _).symm
  | cons f fs ih =>
    rw [List.map_cons, fieldPairs, List.flatMap_cons, ← fieldPairs, ← List.append_assoc, addFields, List.foldl_cons,
      ← addFields, ih, queryTokens_appendName, List.map_append, Field.pairs]

theorem values_append (k : List UInt8) (a b : List (List UInt8 × List UInt8)) :
    values k (a ++ b) = values k a ++ values k b := by
  rw [values, List.filter_append, List.map_append, values, values]

theorem values_of_ne {k : List UInt8} {tokens : List (List UInt8)} (h : ∀ t ∈ tokens, (keywordValue t).1 ≠ k) :
    values k (tokens.map keywordValue) = [] := by
  rw [values, List.map_eq_nil_iff, List.filter_eq_nil_iff]
  intro p hp
  obtain ⟨t, ht, rfl⟩ := List.mem_map.mp hp
  rw [decide_eq_true_iff]
  exact h t ht

theorem Form.values_extracted (form : Form) {server : ServerNames} {vars : Vars} {wp : Webs}
    {protoVersion heap : List UInt8} (h : form.Apart server vars (form.post wp protoVersion heap)) {f : Field}
    (hf : f ∈ form.fields) :
    values f.name ((queryTokens (form.extracted heap ⟨wp.query, [], 0⟩).query).map keywordValue) =
      values f.name (fieldPairs form.fields) := by
  have hquery : values f.name ((queryTokens wp.query).map keywordValue) = [] :=
    values_of_ne fun t ht => h.query t ht f hf
  have hfields : fieldPairs form.fields =
      fieldPairs (form.before.map TextField.toField) ++ fieldPairs (form.after.map TextField.toField) := by
    rw [Form.fields, List.map_append, fieldPairs, List.flatMap_append, fieldPairs, fieldPairs]
  rw [hfields, values_append, Form.extracted, pairs_addFields, values_append]
  congr 1
  cases hfile : form.file with
  | none =>
    rw [Extracted.withFile, pairs_addFields, values_append, hquery, List.nil_append]
  | some file =>
    have hname : values f.name ((queryTokens file.nameStr).map keywordValue) = [] :=
      values_of_ne fun t ht => h.fileName file hfile t ht f hf
    rw [Extracted.withFile, queryTokens_appendName, List.map_append, values_append, hname, List.append_nil,
      pairs_addFields, values_append, hquery, List.nil_append]

theorem Form.fileContent_extracted (form : Form) (heap : List UInt8) (u : Extracted) {f : FilePart form.boundary}
    (hf : f ∈ form.file) : (form.extracted heap u).fileContentLen = f.content.length ∧
      (form.extracted heap u).fileContent.take f.content.length = f.content := by
  rw [Form.extracted, Option.mem_def.mp hf]
  exact ⟨rfl, List.take_left⟩

theorem Form.fields_sendable (form : Form) : ∀ f ∈ form.fields, f.Sendable := by
  intro f hf
  obtain ⟨g, -, rfl⟩ := List.mem_map.mp hf
  exact ⟨fun h => (g.name_ok 0 h).1 rfl, fun h => (g.name_ok 61 h).2.2.1 rfl, g.value_nul⟩

theorem Form.fields_nodup (form : Form) : (form.fields.map Field.name).Nodup := by
  rw [Form.fields, List.map_map]
  exact form.distinct

theorem Form.bound_iff (form : Form) {server : ServerNames} {vars : Vars} {wp : Webs} {protoVersion heap : List UInt8}
    (h : form.Apart server vars (form.post wp protoVersion heap)) :
    (∀ f ∈ form.fields, ((queryTokens (form.extracted heap ⟨wp.query, [], 0⟩).query).map keywordValue).foldl setKeyword
      (setCgiVars server vars (form.post wp protoVersion heap)) f.name = some f.value) ↔
        Bound form.fields (fieldPairs form.fields) := by
  apply forall₂_congr
  intro f hf
  by_cases hne : f.name = []
  · have hunset := h.unset f hf
    rw [hne] at hunset ⊢
    rw [foldl_setKeyword_nil, hunset]
    exact ⟨fun heq => absurd heq.symm (Option.some_ne_none _), fun hb => absurd rfl hb.1⟩
  · rw [foldl_setKeyword _ _ hne, h.unset f hf, form.values_extracted h hf]
    exact ⟨fun hb => ⟨hne, hb⟩, fun hb => hb.2⟩

theorem Form.received_iff (form : Form) (server : ServerNames) (vars : Vars) (wp : Webs)
    (protoVersion heap : List UInt8) (h : form.Apart server vars (form.post wp protoVersion heap)) :
    form.Received (websSetEnv server vars (form.post wp protoVersion heap)) ↔
      (∀ f ∈ form.fields, f.Plain) ∧ Quiet heap := by
  rw [← bound_iff_plain form.fields_nodup form.fields_sendable, ← form.bound_iff h]
  have henv : websSetEnv server vars (form.post wp protoVersion heap) =
      (extractUploadedFileContent (form.post wp protoVersion heap)).map fun post =>
        (((queryTokens post.query).map keywordValue).foldl setKeyword
          (setCgiVars server vars (form.post wp protoVersion heap)), post) := rfl
  rw [henv]
  by_cases hquiet : Quiet heap
  · rw [(form.extract h.shown wp protoVersion heap).1 hquiet]
    constructor
    · rintro ⟨_, _, heq, hfields, -⟩
      obtain ⟨rfl, -⟩ := Prod.mk.inj (Option.some.inj heq)
      exact ⟨hfields, hquiet⟩
    · rintro ⟨hfields, -⟩
      exact ⟨_, _, rfl, hfields, fun f hf => form.fileContent_extracted heap _ hf⟩
  · rw [(form.extract h.shown wp protoVersion heap).2 hquiet]
    constructor
    · rintro ⟨_, _, heq, -, -⟩
      cases heq
    · rintro ⟨-, hq⟩
      exact absurd hq hquiet

def upldRequest : Webs := websParseFirst (text "192.168.1.2") (text "POST") (text "/goform/upldForm") Credentials.empty

def apServer : ServerNames := ⟨text "ap", text "ap", text "192.168.1.1", text "80"⟩

def ampersandForm : Form where
  boundary := [120]
  boundary_ok := ⟨by decide, by decide, by decide⟩
  before := [⟨⟨[97], text "b&c"⟩, by simp, by decide, by decide, by decide⟩]
  file := none
  after := []
  distinct := List.nodup_singleton _

theorem ampersand_cuts_value :
    ¬ ampersandForm.Received
      (websSetEnv apServer (fun _ => none) (ampersandForm.post upldRequest (text "HTTP/1.1") [])) := by
  rintro ⟨vars, wp, h, hfields, -⟩
  have hvalue : vars [97] = some (text "b&c") := hfields ⟨[97], text "b&c"⟩ (List.mem_singleton_self _)
  have heval : (websSetEnv apServer (fun _ => none) (ampersandForm.post upldRequest (text "HTTP/1.1") [])).map
      (fun r => r.1 [97]) = some (some (text "b")) := by
    decide +kernel
  have hcut : vars [97] = some (text "b") :=
    Option.some.inj ((congrArg (Option.map fun r : Vars × Post => r.1 [97]) h).symm.trans heval)
  exact absurd (hvalue.symm.trans hcut) (by decide)

def imageFile : FilePart [120] where
  name := [102]
  fileName := text "w.img"
  contentType := text "x/y"
  content := [0, 13, 10, 45, 45, 255]
  name_ok := by simp
  fileName_ok := by simp [text]
  contentType_ok := by simp [text]
  content_boundary := by decide

def fileForm : Form where
  boundary := [120]
  boundary_ok := ⟨by decide, by decide, by decide⟩
  before := [⟨⟨[97], text "b=c"⟩, by simp, by decide, by decide, by decide⟩]
  file := some imageFile
  after := []
  distinct := List.nodup_singleton _

theorem fileForm_apart : fileForm.Apart apServer (fun _ => none) (fileForm.post upldRequest (text "HTTP/1.1") []) := by
  have hfields : ∀ f ∈ fileForm.fields, f.name = [97] := List.forall_mem_singleton.mpr rfl
  constructor
  · intro f hf
    rw [hfields f hf]
    decide +kernel
  · have hnone : queryTokens (fileForm.post upldRequest (text "HTTP/1.1") []).query = [] := by decide +kernel
    rw [hnone]
    exact fun _ h => absurd h List.not_mem_nil
  · have htoken : queryTokens imageFile.nameStr = [text "filename=w.img"] := by decide +kernel
    intro file hfile token ht f hf
    obtain rfl := Option.some.inj hfile
    obtain rfl := List.mem_singleton.mp (htoken ▸ ht)
    rw [hfields f hf]
    decide +kernel
  · intro file hfile
    obtain rfl := Option.some.inj hfile
    decide

theorem received_iff_fileForm :
    fileForm.Received (websSetEnv apServer (fun _ => none) (fileForm.post upldRequest (text "HTTP/1.1") [])) := by
  apply (Form.received_iff _ _ _ _ _ _ fileForm_apart).mpr
  refine ⟨List.forall_mem_singleton.mpr ?_, Or.inl rfl⟩
  exact ⟨by decide, by decide, by decide, by decide, by decide, by decide⟩

end Wap610n.Web
