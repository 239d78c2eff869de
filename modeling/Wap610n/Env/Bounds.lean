import Wap610n.Env.Law

namespace Wap610n.Env

open Bytes CString Crc32

def envSize : ℕ := cfgEnvSize - 4

def WritesSafely (io : SetEnvIo) (sector n : List UInt8) (v : Option (List UInt8)) : Prop :=
  ∃ rc w, setEnvParam io sector n v = some (rc, w) ∧ ∀ out, w = some out →
    wordAt out 0 = crc32 0 (slice out 4 envSize) ∧ ∃ es rest, slice out 4 envSize = encode es ++ 0 :: rest

def IsPair (s : List UInt8) : Prop := 61 ∈ s ∧ s.head? ≠ some 61

instance (s : List UInt8) : Decidable (IsPair s) := inferInstanceAs (Decidable (_ ∧ _))

/-- `ss` are the strings of the sector up to its first empty one. -/
structure SafeEdit (reopened : Bool) (ss : List (List UInt8)) (n : List UInt8) (v : Option (List UInt8)) : Prop where
  inBounds : InBounds n v 4 0 ss
  pairs : reopened = true → ∀ s ∈ ss.flatMap (revise n v), IsPair s
  appended : ∀ w, v = some w → (∀ s ∈ ss, ¬n <+: s) →
    4 + (zstrings ss).length + n.length + w.length + 1 < cfgEnvSize ∧
    (reopened = true → IsPair (n ++ 61 :: w) ∧ 4 + (zstrings ss).length + n.length + w.length + 2 < cfgEnvSize)

theorem isPair_iff {s : List UInt8} (h0 : ∀ c ∈ s, c ≠ 0) : IsPair s ↔ ∃ e : Entry, e.text = s := by
  constructor
  · rintro ⟨h61, hhead⟩
    obtain ⟨n, v, rfl, hn⟩ := List.eq_append_cons_of_mem h61
    have hne : n ≠ [] := by
      rintro rfl
      exact hhead rfl
    refine ⟨⟨⟨n, hne, ?_⟩, ⟨v, ?_⟩⟩, rfl⟩
    · intro c hc
      exact ⟨h0 c (List.mem_append_left _ hc), fun h => hn (h ▸ hc)⟩
    · intro c hc
      exact h0 c (List.mem_append_right _ (List.mem_cons_of_mem _ hc))
  · rintro ⟨e, rfl⟩
    refine ⟨by simp [Entry.text], fun hhead => ?_⟩
    obtain ⟨c, cs, hc⟩ := List.exists_cons_of_ne_nil e.name.nonempty
    rw [Entry.text, hc, List.cons_append, List.head?_cons, Option.some.injEq] at hhead
    exact (e.name.clean c (hc ▸ List.mem_cons_self)).2 hhead

theorem exists_entries {ss : List (List UInt8)} (h : ∀ s ∈ ss, IsPair s) (h0 : ∀ s ∈ ss, ∀ c ∈ s, c ≠ 0) :
    ∃ es : List Entry, es.map Entry.text = ss := by
  induction ss with
  | nil => exact ⟨[], rfl⟩
  | cons s ss ih =>
    obtain ⟨e, rfl⟩ := (isPair_iff (h0 s List.mem_cons_self)).mp (h s List.mem_cons_self)
    obtain ⟨es, rfl⟩ := ih (fun t ht => h t (List.mem_cons_of_mem _ ht)) fun t ht => h0 t (List.mem_cons_of_mem _ ht)
    exact ⟨e :: es, rfl⟩

theorem encoded_iff {ss : List (List UInt8)} (hss : ∀ s ∈ ss, s ≠ [] ∧ ∀ c ∈ s, c ≠ 0) (f : List UInt8) :
    (∃ es rest, zstrings ss ++ 0 :: f = encode es ++ 0 :: rest) ↔ ∀ s ∈ ss, IsPair s := by
  constructor
  · rintro ⟨es, rest, heq⟩ s hs
    have hts : ∀ t ∈ es.map Entry.text, t ≠ [] ∧ ∀ c ∈ t, c ≠ 0 := by
      intro t ht
      obtain ⟨e, -, rfl⟩ := List.mem_map.mp ht
      exact ⟨e.text_ne_nil, e.text_clean⟩
    have hentries := congrArg entries heq
    rw [encode_eq, entries_zstrings hss, entries_zstrings hts] at hentries
    rw [hentries] at hs
    obtain ⟨e, -, rfl⟩ := List.mem_map.mp hs
    exact (isPair_iff e.text_clean).mpr ⟨e, rfl⟩
  · intro hpairs
    obtain ⟨es, rfl⟩ := exists_entries hpairs fun s hs => (hss s hs).2
    exact ⟨es, f, by rw [encode_eq]⟩

theorem not_encoded {ss : List (List UInt8)} (hss : ∀ s ∈ ss, s ≠ [] ∧ ∀ c ∈ s, c ≠ 0) :
    ¬∃ es rest, zstrings ss = encode es ++ 0 :: rest := by
  rintro ⟨es, rest, heq⟩
  have hss' : strings [] (zstrings ss) = ss := by
    have := strings_zstrings (fun s hs => (hss s hs).2) []
    rwa [List.append_nil, strings, List.append_nil] at this
  have hes : strings [] (encode es ++ 0 :: rest) = es.map Entry.text ++ [] :: strings [] rest := by
    rw [encode_eq, strings_zstrings, strings, if_pos rfl]
    intro s hs
    obtain ⟨e, -, rfl⟩ := List.mem_map.mp hs
    exact e.text_clean
  have hmem : [] ∈ ss := by
    rw [← hss', heq, hes]
    exact List.mem_append_right _ List.mem_cons_self
  exact (hss [] hmem).1 rfl

theorem revise_clean {n : List UInt8} {v : Option (List UInt8)} {ss : List (List UInt8)} {p k : ℕ}
    (hb : InBounds n v p k ss) (hv : ∀ w, v = some w → ∀ c ∈ w, c ≠ 0) (hss : ∀ s ∈ ss, s ≠ [] ∧ ∀ c ∈ s, c ≠ 0) :
    ∀ s ∈ ss.flatMap (revise n v), s ≠ [] ∧ ∀ c ∈ s, c ≠ 0 := by
  induction ss generalizing p k with
  | nil => simp
  | cons t ss ih =>
    intro s hs
    rw [List.flatMap_cons, List.mem_append] at hs
    rcases hs with hs | hs
    swap
    · exact ih hb.2 (fun u hu => hss u (List.mem_cons_of_mem _ hu)) s hs
    unfold revise at hs
    split_ifs at hs with hpre
    · cases v with
      | none => simp at hs
      | some w =>
        rw [List.mem_singleton.mp hs]
        refine ⟨fun hnil => ?_, fun c hc => ?_⟩
        · exact upto_eq_nil.mp (List.append_eq_nil_iff.mp hnil).1 (hb.1.2.1 hpre (by simp))
        · rcases List.mem_append.mp hc with hc | hc
          · exact (hss t List.mem_cons_self).2 c (upto_append_drop t ▸ List.mem_append_left _ hc)
          · exact hv w rfl c hc
    · rw [List.mem_singleton.mp hs]
      exact hss t List.mem_cons_self

def sealed (mem : ℕ → UInt8) : ℕ → UInt8 := store mem 0 (leBytes (tableCrc32 0 (slice mem 4 envSize)))

theorem sealed_slice (mem : ℕ → UInt8) : slice (sealed mem) 4 envSize = slice mem 4 envSize := by
  apply slice_congr
  intro i _
  exact store_out (Or.inr (by rw [leBytes_length]; omega))

theorem sealed_crc (mem : ℕ → UInt8) : wordAt (sealed mem) 0 = crc32 0 (slice (sealed mem) 4 envSize) := by
  rw [sealed_slice, ← tableCrc32_eq]
  exact wordAt_store _ _ _

theorem slice_envSize {mem : ℕ → UInt8} {l : List UInt8} (h : Holds mem 4 l) (hlen : 4 + l.length ≤ cfgEnvSize) :
    slice mem 4 envSize = l ++ slice mem (4 + l.length) (cfgEnvSize - 4 - l.length) := by
  have hsum : envSize = l.length + (cfgEnvSize - 4 - l.length) := by
    unfold envSize
    omega
  have hfirst : slice mem 4 l.length = l := h
  rw [hsum, slice_add, hfirst]

theorem writesSafely_none {reopened : Bool} {sector n : List UInt8} {v : Option (List UInt8)}
    (h : editSector sector n v = none) : ¬WritesSafely ⟨true, true, reopened⟩ sector n v := by
  rintro ⟨rc, w, heq, -⟩
  rw [setEnvParam, if_neg (by simp), h] at heq
  simp at heq

theorem writesSafely_some {reopened : Bool} {sector n : List UInt8} {v : Option (List UInt8)} {mem : ℕ → UInt8}
    (h : editSector sector n v = some (sealed mem)) :
    WritesSafely ⟨true, true, reopened⟩ sector n v ↔
      (reopened = true → ∃ es rest, slice mem 4 envSize = encode es ++ 0 :: rest) := by
  have heq : setEnvParam ⟨true, true, reopened⟩ sector n v =
      some (if reopened then (0, some (sealed mem)) else (1, none)) := by
    rw [setEnvParam, if_neg (by simp), h, Option.map_some]
  unfold WritesSafely
  rw [heq]
  cases reopened
  · simp
  · simp [sealed_crc, sealed_slice]

variable {sector n : List UInt8} {v : Option (List UInt8)} {ss : List (List UInt8)} {rest : List UInt8}

theorem editSector_closed (hn : ∀ c ∈ n, c ≠ 0) (hss : ∀ s ∈ ss, s ≠ [] ∧ ∀ c ∈ s, c ≠ 0)
    (hdata : sector.drop 4 = zstrings ss ++ 0 :: rest) :
    (InBounds n v 4 0 ss ∧ ∃ r : Editor, r.Done (zstrings (ss.flatMap (revise n v))) ∧
      r.paramFound = (ss.any fun s => n <+: s) ∧ editSector sector n v = (r.complete n v).map sealed) ∨
    (¬InBounds n v 4 0 ss ∧ editSector sector n v = none) := by
  unfold editSector
  rw [hdata]
  rcases Editor.copyLoop_strings (f := 0 :: rest) (start_at v sector) hn hss with ⟨hb, s', heq, hat, hp⟩ | ⟨hb, hnone⟩
  · obtain ⟨r, hr, hd, hpr⟩ := copyLoop_end (n := n) (f := rest) hat
    refine Or.inl ⟨hb, r, hd, by rw [hpr, hp, Bool.false_or], ?_⟩
    dsimp only
    rw [heq, hr, Option.bind_some]
    rfl
  · refine Or.inr ⟨hb, ?_⟩
    dsimp only
    rw [hnone]
    rfl

theorem writesSafely_done {reopened : Bool} {r : Editor} (hd : r.Done (zstrings (ss.flatMap (revise n v))))
    (hclean : ∀ s ∈ ss.flatMap (revise n v), s ≠ [] ∧ ∀ c ∈ s, c ≠ 0)
    (hedit : editSector sector n v = some (sealed r.mem)) :
    WritesSafely ⟨true, true, reopened⟩ sector n v ↔
      (reopened = true → ∀ s ∈ ss.flatMap (revise n v), IsPair s) := by
  have hroom : 4 + (zstrings (ss.flatMap (revise n v)) ++ [0]).length ≤ cfgEnvSize := by
    have := hd.room
    rw [hd.currStr] at this
    rw [List.length_append, List.length_singleton]
    omega
  rw [writesSafely_some hedit, slice_envSize hd.holds hroom, List.append_assoc, List.singleton_append,
    encoded_iff hclean]

theorem clean_snoc {w : List UInt8} (hn : ∀ c ∈ n, c ≠ 0) (hw : ∀ c ∈ w, c ≠ 0)
    (hss : ∀ s ∈ ss, s ≠ [] ∧ ∀ c ∈ s, c ≠ 0) : ∀ s ∈ ss ++ [n ++ 61 :: w], s ≠ [] ∧ ∀ c ∈ s, c ≠ 0 := by
  intro s hs
  rcases List.mem_append.mp hs with hs | hs
  · exact hss s hs
  · rw [List.mem_singleton.mp hs]
    refine ⟨by simp, fun c hc => ?_⟩
    rcases List.mem_append.mp hc with hc | hc
    · exact hn c hc
    · rcases List.mem_cons.mp hc with rfl | hc
      · decide
      · exact hw c hc

theorem writesSafely_appended {reopened : Bool} {r : Editor} {w : List UInt8} (hn : ∀ c ∈ n, c ≠ 0)
    (hw : ∀ c ∈ w, c ≠ 0) (hss : ∀ s ∈ ss, s ≠ [] ∧ ∀ c ∈ s, c ≠ 0) (hd : r.Done (zstrings ss))
    (hp : r.paramFound = false) (hedit : editSector sector n (some w) = (r.append n w).map sealed) :
    WritesSafely ⟨true, true, reopened⟩ sector n (some w) ↔
      4 + (zstrings ss).length + n.length + w.length + 1 < cfgEnvSize ∧
      (reopened = true → (∀ s ∈ ss, IsPair s) ∧ IsPair (n ++ 61 :: w) ∧
        4 + (zstrings ss).length + n.length + w.length + 2 < cfgEnvSize) := by
  by_cases hroom : 4 + (zstrings ss).length + n.length + w.length + 1 < cfgEnvSize
  swap
  · rw [append_out hd hroom, Option.map_none] at hedit
    exact iff_of_false (writesSafely_none hedit) fun h => hroom h.1
  obtain ⟨mem, hmem, hholds, hzero⟩ := append_holds hd hp hroom
  rw [hmem, Option.map_some] at hedit
  have hnew : zstrings ss ++ (n ++ 61 :: w ++ [0]) = zstrings (ss ++ [n ++ 61 :: w]) := by
    rw [zstrings_append, zstrings_cons, zstrings_nil]
  have hclean := clean_snoc hn hw hss
  have hlen : (zstrings (ss ++ [n ++ 61 :: w])).length = (zstrings ss).length + n.length + w.length + 2 := by
    rw [← hnew]
    simp only [List.length_append, List.length_cons, List.length_nil]
    omega
  rw [hnew] at hholds
  rw [writesSafely_some hedit]
  by_cases hclose : 4 + (zstrings ss).length + n.length + w.length + 2 < cfgEnvSize
  · have hholds' : Holds mem 4 (zstrings (ss ++ [n ++ 61 :: w]) ++ [0]) := by
      rw [holds_append]
      refine ⟨hholds, holds_cons.mpr ⟨?_, holds_nil _ _⟩⟩
      rw [hlen, ← hzero]
      congr 1
      omega
    rw [slice_envSize hholds' (by rw [List.length_append, List.length_singleton]; omega), List.append_assoc,
      List.singleton_append, encoded_iff hclean]
    simp only [List.forall_mem_append, List.forall_mem_singleton, hroom, hclose, true_and, and_true]
  · have hall : slice mem 4 envSize = zstrings (ss ++ [n ++ 61 :: w]) := by
      rw [slice_envSize hholds (by omega), show cfgEnvSize - 4 - (zstrings (ss ++ [n ++ 61 :: w])).length = 0 by omega]
      exact List.append_nil _
    rw [hall]
    simp only [not_encoded hclean, hroom, hclose, true_and, and_false]

theorem writesSafely_closed (reopened : Bool) (hn : ∀ c ∈ n, c ≠ 0) (hv : ∀ w, v = some w → ∀ c ∈ w, c ≠ 0)
    (hss : ∀ s ∈ ss, s ≠ [] ∧ ∀ c ∈ s, c ≠ 0) (hdata : sector.drop 4 = zstrings ss ++ 0 :: rest) :
    WritesSafely ⟨true, true, reopened⟩ sector n v ↔ SafeEdit reopened ss n v := by
  rcases editSector_closed (v := v) hn hss hdata with ⟨hb, r, hd, hp, hedit⟩ | ⟨hb, hnone⟩
  swap
  · exact iff_of_false (writesSafely_none hnone) fun h => hb h.inBounds
  by_cases happ : ∃ w, v = some w ∧ ∀ s ∈ ss, ¬n <+: s
  · obtain ⟨w, rfl, habs⟩ := happ
    have hself : ss.flatMap (revise n (some w)) = ss := by
      apply flatMap_eq_self
      intro s hs
      exact if_neg (habs s hs)
    have hfound : r.paramFound = false := by
      rw [hp]
      simpa using habs
    rw [hself] at hd
    have hcomplete : r.complete n (some w) = r.append n w := by
      rw [Editor.complete, if_pos ⟨hfound, hd.space⟩]
    rw [hcomplete] at hedit
    rw [writesSafely_appended hn (hv w rfl) hss hd hfound hedit]
    constructor
    · rintro ⟨hroom, hpairs⟩
      refine ⟨hb, fun hre => ?_, fun w' hw' _ => ?_⟩
      · rw [hself]
        exact (hpairs hre).1
      · cases hw'
        exact ⟨hroom, fun hre => (hpairs hre).2⟩
    · intro h
      obtain ⟨hroom, hpairs⟩ := h.appended w rfl habs
      exact ⟨hroom, fun hre => ⟨hself ▸ h.pairs hre, hpairs hre⟩⟩
  · have hcomplete : r.complete n v = some r.mem := by
      cases v with
      | none => rfl
      | some w =>
        have hfound : r.paramFound = true := by
          rw [hp]
          simpa using happ
        rw [Editor.complete, if_neg fun h => absurd (hfound.symm.trans h.1) (by decide)]
    rw [hcomplete, Option.map_some] at hedit
    rw [writesSafely_done hd (revise_clean hb hv hss) hedit]
    exact ⟨fun hpairs => ⟨hb, hpairs, fun w hw habs => absurd ⟨w, hw, habs⟩ happ⟩, fun h => h.pairs⟩

theorem editSector_open (hn : ∀ c ∈ n, c ≠ 0) (hss : ∀ s ∈ ss, s ≠ [] ∧ ∀ c ∈ s, c ≠ 0) (hrest : ∀ c ∈ rest, c ≠ 0)
    (hdata : sector.drop 4 = zstrings ss ++ rest)
    (hover : cfgEnvSize ≤ 4 + (zstrings (ss.flatMap (revise n v))).length + rest.length) :
    editSector sector n v = none := by
  have hloop : Editor.copyLoop n v (sector.drop 4) { mem := store (fun _ => 0) 0 (sector.take 4) } = none := by
    rw [hdata]
    rcases Editor.copyLoop_strings (f := rest) (start_at v sector) hn hss with ⟨-, s', heq, hat, -⟩ | ⟨-, hnone⟩
    swap
    · exact hnone
    have hi : s'.currStrIdx < paramsMax := hat.idx ▸ hat.count
    have htail := Editor.copyLoop_text (n := n) (v := v) (f := []) hrest hi hat.room.le
    rw [List.append_nil] at htail
    rw [heq, htail]
    split_ifs with hle
    · have hfull := Editor.full_eq_false (s := { s' with
        mem := store s'.mem s'.currStr rest
        currStr := s'.currStr + rest.length
        valuePtr := lastEq rest s'.currStr s'.valuePtr }) hi hle
      rw [Editor.copyLoop, hfull, if_neg Bool.false_ne_true, put, if_neg]
      · rfl
      · dsimp only
        rw [hat.currStr, List.nil_append]
        omega
    · rfl
  unfold editSector
  dsimp only
  rw [hloop]
  rfl

theorem writesSafely_iff (hlen : sector.length = cfgEnvSize) (hn : ∀ c ∈ n, c ≠ 0)
    (hv : ∀ w, v = some w → ∀ c ∈ w, c ≠ 0) :
    (∀ io : SetEnvIo, io.opened = false ∨ io.malloced = false → WritesSafely io sector n v) ∧
    ∀ reopened, ([] ∈ strings [] (sector.drop 4) →
      (WritesSafely ⟨true, true, reopened⟩ sector n v ↔ SafeEdit reopened (entries (sector.drop 4)) n v)) ∧
    ([] ∉ strings [] (sector.drop 4) →
      (zstrings (strings [] (sector.drop 4))).length ≤
        (zstrings ((strings [] (sector.drop 4)).flatMap (revise n v))).length →
      ¬WritesSafely ⟨true, true, reopened⟩ sector n v) := by
  refine ⟨fun io hio => ⟨1, none, if_pos hio, fun out hout => by simp at hout⟩, fun reopened => ⟨fun hclosed => ?_, ?_⟩⟩
  · obtain ⟨rest, hrest⟩ := eq_entries_append hclosed
    exact writesSafely_closed reopened hn hv (fun s hs => entries_mem hs) hrest
  · intro hopen hle
    obtain ⟨hclean, tail, htail, hdata⟩ := strings_split (sector.drop 4)
    have hsum := congrArg List.length hdata
    rw [List.length_append, List.length_drop, hlen] at hsum
    have hss : ∀ s ∈ strings [] (sector.drop 4), s ≠ [] ∧ ∀ c ∈ s, c ≠ 0 :=
      fun s hs => ⟨fun h => hopen (h ▸ hs), hclean s hs⟩
    exact writesSafely_none (editSector_open hn hss htail hdata (by omega))

theorem bootSector_data :
    bootSector.drop 4 = zstrings [bootdelay.text, bootargs.text] ++ 0 :: List.replicate (cfgEnvSize - 41) 0 := by
  rw [bootSector, List.append_assoc, List.drop_left' List.length_replicate, encode_eq]
  rfl

theorem bootSector_strings : ∀ s ∈ [bootdelay.text, bootargs.text], s ≠ [] ∧ ∀ c ∈ s, c ≠ 0 := by
  simp only [List.forall_mem_cons]
  exact ⟨⟨bootdelay.text_ne_nil, bootdelay.text_clean⟩, ⟨bootargs.text_ne_nil, bootargs.text_clean⟩, by simp⟩

theorem writesSafely_bootSector : WritesSafely .ok bootSector (text "bootdelay") (some (text "5")) := by
  have hclosed : [] ∈ strings [] (bootSector.drop 4) := by
    rw [bootSector_data, strings_zstrings fun s hs => (bootSector_strings s hs).2]
    simp [strings]
  have hn : ∀ c ∈ text "bootdelay", c ≠ 0 := forall_mem_of_all (by decide)
  have hv : ∀ w, some (text "5") = some w → ∀ c ∈ w, c ≠ 0 := by
    intro w hw
    cases hw
    exact forall_mem_of_all (by decide)
  refine (((writesSafely_iff bootSector_sector.length hn hv).2 true).1 hclosed).mpr ?_
  rw [bootSector_data, entries_zstrings bootSector_strings]
  refine ⟨⟨⟨by decide, by decide, by decide, by decide⟩, ⟨by decide, by decide, by decide, by decide⟩, trivial⟩, ?_, ?_⟩
  · intro _
    decide
  · intro w _ habs
    exact absurd (by decide) (habs bootdelay.text List.mem_cons_self)

theorem setEnvParam_overruns : ¬WritesSafely .ok (List.replicate cfgEnvSize 0xff) (text "ip") (some (text "x")) ∧
    ¬WritesSafely .ok bootSector (text "ip") (some (List.replicate cfgEnvSize 0x78)) := by
  have hn : ∀ c ∈ text "ip", c ≠ 0 := forall_mem_of_all (by decide)
  constructor
  · apply writesSafely_none
    have hdata : (List.replicate cfgEnvSize 0xff).drop 4 = zstrings [] ++ List.replicate (cfgEnvSize - 4) 0xff := by
      rw [List.drop_replicate, zstrings_nil, List.nil_append]
    refine editSector_open hn (fun _ hs => absurd hs List.not_mem_nil) ?_ hdata ?_
    · intro c hc
      rw [List.eq_of_mem_replicate hc]
      decide
    · rw [List.flatMap_nil, zstrings_nil, List.length_nil, List.length_replicate]
      decide
  · intro h
    have hv : ∀ w, some (List.replicate cfgEnvSize 0x78) = some w → ∀ c ∈ w, c ≠ (0 : UInt8) := by
      intro w hw c hc
      cases hw
      rw [List.eq_of_mem_replicate hc]
      decide
    have hsafe := (writesSafely_closed true hn hv bootSector_strings bootSector_data).mp h
    have hroom := (hsafe.appended _ rfl (by decide)).1
    rw [List.length_replicate] at hroom
    omega

end Wap610n.Env
