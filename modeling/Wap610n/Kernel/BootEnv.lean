import Wap610n.Env.Law
import Wap610n.Kernel.Partition

/-!
The match loop of the boot loader as it stands in the source, with its own index arithmetic. The scanning loop around it
is the same as that of the kernel; `none` is an access behind the NUL of the name.
-/

namespace Wap610n.Kernel.BootEnv

open Bytes CString Crc32 Env

def ubootEnvmatch (env : ℕ → UInt8) : List UInt8 → ℕ → Option (Option ℕ)
  | [], i2 => if env i2 = 0 then none else if env (i2 + 1 - 1) = 61 then some (some (i2 + 1)) else some none
  | c :: s1, i2 =>
    if c = env i2 then if c = 61 then some (some (i2 + 1)) else ubootEnvmatch env s1 (i2 + 1) else some none

def scanFrom (env : ℕ → UInt8) (envmatch : ℕ → Option (Option ℕ)) : ℕ → ℕ → Option (Option ℕ)
  | 0, _ => none
  | fuel + 1, i =>
    if env i = 0 then some none
    else match entryEnd env (cfgEnvSize + 1) i with
      | none => some none
      | some nxt => (envmatch i).bind fun val =>
        match val with
        | some val => some (some val)
        | none => scanFrom env envmatch fuel (nxt + 1)

def scan (env : ℕ → UInt8) (envmatch : ℕ → Option (Option ℕ)) : Option (Option (List UInt8)) :=
  (scanFrom env envmatch (cfgEnvSize + 2) 0).map fun val => val.map (cString env cfgEnvSize)

def ubootGetenv (sector : ℕ → UInt8) (name : List UInt8) : Option (Option (List UInt8)) :=
  scan (envData sector) (ubootEnvmatch (envData sector) name)

def kernelGetBootEnvParam (mapped : Bool) (sector : ℕ → UInt8) (paramName : List UInt8) :
    Option (Option (List UInt8)) :=
  if mapped = false then some none
  else if tableCrc32 0 (slice (envData sector) 0 cfgEnvDataSize) ≠ wordAt sector 0 then some none
  else
    let env := store (envData sector) (cfgEnvDataSize - 2) [0, 0]
    scan env fun i => some (envmatch env paramName.length paramName i)

theorem ubootEnvmatch_pair {env : ℕ → UInt8} {a b : List UInt8} {i : ℕ} (hb : ∀ c ∈ b, c ≠ 0)
    (h : Holds env i (b ++ [61])) : ubootEnvmatch env a i = some (Env.envmatch env a i) := by
  induction a generalizing b i with
  | nil =>
    have h0 := ne_zero_of_holds_pair hb h
    rw [ubootEnvmatch, Env.envmatch, if_neg h0, Nat.add_sub_cancel]
    split_ifs <;> rfl
  | cons c a ih =>
    rw [ubootEnvmatch, Env.envmatch]
    split_ifs with hc h61
    · rfl
    · cases b with
      | nil =>
        rw [List.nil_append, holds_cons] at h
        exact absurd (hc.trans h.1) h61
      | cons d b =>
        rw [List.cons_append, holds_cons] at h
        exact ih (fun x hx => hb x (List.mem_cons_of_mem _ hx)) h.2
    · rfl

def lookup (q : List UInt8) (ss : List (List UInt8)) : Option (List UInt8) :=
  (ss.find? fun s => upTo 61 s = q).map fun s => s.drop ((upTo 61 s).length + 1)

def MatchesAt (env : ℕ → UInt8) (q : List UInt8) (envmatch : ℕ → Option (Option ℕ)) : Prop :=
  ∀ i n, (∀ c ∈ n, c ≠ 0 ∧ c ≠ 61) → Holds env i (n ++ [61]) →
    envmatch i = some (if q = n then some (i + n.length + 1) else none)

theorem uboot_matchesAt (env : ℕ → UInt8) (q : Name) : MatchesAt env q.chars (ubootEnvmatch env q.chars) := by
  intro i n hn h
  rw [ubootEnvmatch_pair (fun c hc => (hn c hc).1) h,
    envmatch_name (fun c hc => (q.clean c hc).2) (fun c hc => (hn c hc).2) h]

theorem kernel_matchesAt (env : ℕ → UInt8) (q : Name) :
    MatchesAt env q.chars fun i => some (envmatch env q.chars.length q.chars i) := by
  intro i n hn h
  dsimp only
  rw [envmatch_eq (fun c hc => (q.clean c hc).1),
    envmatch_name (fun c hc => (q.clean c hc).2) (fun c hc => (hn c hc).2) h]

theorem lookup_pair {q n v : List UInt8} (hn : 61 ∉ n) (ss : List (List UInt8)) :
    lookup q ((n ++ 61 :: v) :: ss) = if q = n then some v else lookup q ss := by
  have hval : (n ++ 61 :: v).drop (n.length + 1) = v := by simp
  split_ifs with hq
  · simp [lookup, upTo_append_cons hn, hq, hval]
  · simp [lookup, upTo_append_cons hn, Ne.symm hq]

theorem scanFrom_pair {env : ℕ → UInt8} {q : List UInt8} {envmatch : ℕ → Option (Option ℕ)}
    (hm : MatchesAt env q envmatch) {n v : List UInt8} {i : ℕ} (hn : ∀ c ∈ n, c ≠ 0 ∧ c ≠ 61) (hv : ∀ c ∈ v, c ≠ 0)
    (h : Holds env i (n ++ 61 :: v ++ [0])) (hi : i + (n ++ 61 :: v).length < cfgEnvSize) (fuel : ℕ) :
    scanFrom env envmatch (fuel + 1) i =
      if q = n then some (some (i + n.length + 1)) else scanFrom env envmatch fuel (i + (n ++ 61 :: v).length + 1) := by
  have hclean : ∀ c ∈ n ++ 61 :: v, c ≠ 0 := by
    intro c hc
    rcases List.mem_append.mp hc with hc | hc
    · exact (hn c hc).1
    · rcases List.mem_cons.mp hc with rfl | hc
      · decide
      · exact hv c hc
  have hend : entryEnd env (cfgEnvSize + 1) i = some (i + (n ++ 61 :: v).length) :=
    entryEnd_text hclean h (by omega) (by omega)
  have hname : Holds env i (n ++ [61]) := by
    have hsplit : n ++ 61 :: v ++ [0] = (n ++ [61]) ++ (v ++ [0]) := by simp
    rw [hsplit, holds_append] at h
    exact h.1
  have hfirst := ne_zero_of_holds_pair (fun c hc => (hn c hc).1) hname
  rw [scanFrom, if_neg hfirst, hend, hm i n hn hname]
  split_ifs
  · rfl
  · rfl

theorem scanFrom_entries {env : ℕ → UInt8} {q : List UInt8} {envmatch : ℕ → Option (Option ℕ)}
    (hm : MatchesAt env q envmatch) {ss : List (List UInt8)} {i fuel : ℕ} (hss : ∀ s ∈ ss, 61 ∈ s ∧ ∀ c ∈ s, c ≠ 0)
    (h : Holds env i (zstrings ss ++ [0]))
    (hi : i + (zstrings ss).length ≤ cfgEnvSize) (hf : ss.length < fuel) :
    (scanFrom env envmatch fuel i).map (fun val => val.map (cString env cfgEnvSize)) = some (lookup q ss) := by
  induction ss generalizing i fuel with
  | nil =>
    obtain ⟨fuel, rfl⟩ : ∃ k, fuel = k + 1 := ⟨fuel - 1, by omega⟩
    rw [zstrings_nil, List.nil_append, holds_cons] at h
    rw [scanFrom, if_pos h.1]
    rfl
  | cons s ss ih =>
    obtain ⟨h61, h0⟩ := hss s List.mem_cons_self
    obtain ⟨n, v, rfl, hn⟩ := List.eq_append_cons_of_mem h61
    have hclean : ∀ c ∈ n, c ≠ 0 ∧ c ≠ 61 := fun c hc => ⟨h0 c (List.mem_append_left _ hc), fun h => hn (h ▸ hc)⟩
    have hv : ∀ c ∈ v, c ≠ 0 := fun c hc => h0 c (List.mem_append_right _ (List.mem_cons_of_mem _ hc))
    rw [List.length_cons] at hf
    obtain ⟨fuel, rfl⟩ : ∃ k, fuel = k + 1 := ⟨fuel - 1, by omega⟩
    have hsplit : zstrings ((n ++ 61 :: v) :: ss) ++ [0] = (n ++ 61 :: v ++ [0]) ++ (zstrings ss ++ [0]) := by
      rw [zstrings_cons]
      simp
    rw [hsplit, holds_append, @List.length_append _ (n ++ 61 :: v), List.length_singleton, ← Nat.add_assoc] at h
    obtain ⟨htext, hrest⟩ := h
    rw [zstrings_cons, List.length_append, List.length_cons] at hi
    rw [scanFrom_pair hm hclean hv htext (by omega), lookup_pair hn]
    split_ifs
    · have hvalue : Holds env (i + n.length + 1) (v ++ [0]) := by
        have hsplit : n ++ 61 :: v ++ [0] = (n ++ [61]) ++ (v ++ [0]) := by simp
        rw [hsplit, holds_append, List.length_append, List.length_singleton, ← Nat.add_assoc] at htext
        exact htext.2
      rw [List.length_append, List.length_cons] at hi
      rw [Option.map_some, Option.map_some, cString_text hv hvalue (by omega)]
    · exact ih (fun t ht => hss t (List.mem_cons_of_mem _ ht)) hrest (by omega) (by omega)

structure ValidSector (sector : List UInt8) : Prop where
  length : sector.length = cfgEnvSize
  crc : wordAt (byteAt sector) 0 = crc32 0 (sector.drop 4)
  pairs : ∀ s ∈ entries (sector.drop 4), 61 ∈ s
  closed : [0, 0] <:+ sector.drop 4

theorem ValidSector.scan {sector : List UInt8} (h : ValidSector sector) {q : List UInt8}
    {envmatch : ℕ → Option (Option ℕ)} (hm : MatchesAt (envData (byteAt sector)) q envmatch) :
    scan (envData (byteAt sector)) envmatch = some (lookup q (entries (sector.drop 4))) := by
  obtain ⟨rest, hrest⟩ := eq_entries_append (nil_mem_strings h.closed [])
  have hlen := congrArg List.length hrest
  rw [List.length_drop, h.length, List.length_append, List.length_cons] at hlen
  have hcount := length_le_zstrings (entries (sector.drop 4))
  apply scanFrom_entries hm
  · intro s hs
    exact ⟨h.pairs s hs, (entries_mem hs).2⟩
  · apply holds_envData
    apply holds_byteAt (r := rest)
    rw [List.append_assoc, List.singleton_append]
    exact hrest
  · omega
  · omega

theorem holds_drop_four (sector : List UInt8) :
    Holds (envData (byteAt sector)) 0 (sector.drop 4) := by
  apply holds_envData
  apply holds_byteAt (r := [])
  rw [List.append_nil]

theorem ValidSector.store_eq {sector : List UInt8} (h : ValidSector sector) :
    store (envData (byteAt sector)) (cfgEnvDataSize - 2) [0, 0] = envData (byteAt sector) := by
  obtain ⟨front, hfront⟩ := h.closed
  have hlen := congrArg List.length hfront
  rw [List.length_append, List.length_drop, h.length] at hlen
  have hpos : cfgEnvDataSize - 2 = front.length := by
    unfold cfgEnvDataSize
    simp only [List.length_cons, List.length_nil] at hlen
    omega
  have hholds := holds_drop_four sector
  rw [← hfront, holds_append, Nat.zero_add, ← hpos] at hholds
  exact store_of_holds hholds.2

theorem ValidSector.kernelGetBootEnvParam {sector : List UInt8} (h : ValidSector sector) (q : Name) :
    kernelGetBootEnvParam true (byteAt sector) q.chars = some (lookup q.chars (entries (sector.drop 4))) := by
  have hsize : cfgEnvDataSize = (sector.drop 4).length := by rw [List.length_drop, h.length, cfgEnvDataSize]
  have hcrc : tableCrc32 0 (slice (envData (byteAt sector)) 0 cfgEnvDataSize) = wordAt (byteAt sector) 0 := by
    rw [tableCrc32_eq, hsize, h.crc]
    exact congrArg (crc32 0) (holds_drop_four sector)
  rw [BootEnv.kernelGetBootEnvParam, if_neg (by decide), if_neg (not_not.mpr hcrc), h.store_eq]
  exact h.scan (kernel_matchesAt _ q)

theorem kernelGetBootEnvParam_eq {sector : List UInt8} (h : ValidSector sector) (q : Name) :
    ∃ r, ubootGetenv (byteAt sector) q.chars = some r ∧ kernelGetBootEnvParam true (byteAt sector) q.chars = some r ∧
      r = lookup q.chars (entries (sector.drop 4)) :=
  ⟨_, h.scan (uboot_matchesAt _ q), h.kernelGetBootEnvParam q, rfl⟩

def bootData : List UInt8 := encode [bootdelay, bootargs] ++ 0 :: (List.replicate (cfgEnvSize - 43) 0 ++ [0, 0])

def sealedSector : List UInt8 := leBytes (crc32 0 bootData) ++ bootData

theorem sealedSector_valid : ValidSector sealedSector := by
  have hdata : sealedSector.drop 4 = bootData := List.drop_left' (leBytes_length _)
  constructor
  · have hlen : (encode [bootdelay, bootargs]).length = 36 := by decide
    rw [sealedSector, bootData, List.length_append, List.length_append, List.length_cons, List.length_append,
      List.length_replicate, leBytes_length, hlen]
    rfl
  · rw [hdata]
    exact wordAt_of_holds (holds_byteAt (r := bootData) rfl)
  · rw [hdata, bootData, encode_eq, entries_zstrings]
    · decide
    · intro s hs
      obtain ⟨e, -, rfl⟩ := List.mem_map.mp hs
      exact ⟨e.text_ne_nil, e.text_clean⟩
  · rw [hdata, bootData, ← List.cons_append, ← List.append_assoc]
    exact List.suffix_append _ _

theorem kernelGetBootEnvParam_sealedSector : ValidSector sealedSector ∧
    ∃ r, ubootGetenv (byteAt sealedSector) bootargs.name.chars = some r ∧
      kernelGetBootEnvParam true (byteAt sealedSector) bootargs.name.chars = some r ∧
      r = lookup bootargs.name.chars (entries (sealedSector.drop 4)) :=
  ⟨sealedSector_valid, kernelGetBootEnvParam_eq sealedSector_valid _⟩

section Embeddings

variable {env : ℕ → UInt8} {name : List UInt8}

theorem ubootEnvmatch_some {i : ℕ} {val : Option ℕ} (h : ubootEnvmatch env name i = some val) :
    Env.envmatch env name i = val := by
  induction name generalizing i with
  | nil =>
    rw [ubootEnvmatch, Nat.add_sub_cancel] at h
    rw [Env.envmatch]
    split_ifs at h ⊢ <;> exact Option.some.inj h
  | cons c name ih =>
    rw [ubootEnvmatch] at h
    rw [Env.envmatch]
    split_ifs at h ⊢
    · exact Option.some.inj h
    · exact ih h
    · exact Option.some.inj h

theorem getenvFrom_of_scan {fuel i : ℕ} {val : Option ℕ} (h : scanFrom env (ubootEnvmatch env name) fuel i = some val) :
    getenvFrom env name fuel i = val := by
  induction fuel generalizing i with
  | zero => cases h
  | succ fuel ih =>
    rw [scanFrom] at h
    rw [getenvFrom]
    split_ifs at h ⊢ with hend
    · exact Option.some.inj h
    cases hnxt : entryEnd env (cfgEnvSize + 1) i with
    | none =>
      rw [hnxt] at h
      exact Option.some.inj h
    | some nxt =>
      rw [hnxt] at h
      obtain ⟨val', hmatch, hrest⟩ := Option.bind_eq_some_iff.mp h
      rw [Option.bind_some, ubootEnvmatch_some hmatch]
      cases val' with
      | none => exact ih hrest
      | some val' => exact Option.some.inj hrest

/-- Where the boot loader reads nothing behind the name, the two models of its search agree. -/
theorem ubootGetenv_eq_getenvValue {sector : ℕ → UInt8} {r : Option (List UInt8)}
    (h : ubootGetenv sector name = some r) : getenvValue (envData sector) name = r := by
  obtain ⟨val, hval, rfl⟩ := Option.map_eq_some_iff.mp h
  rw [getenvValue, getenv, getenvFrom_of_scan hval]

theorem entryEnd_bounds {fuel i nxt : ℕ} (h : entryEnd env fuel i = some nxt) :
    env nxt = 0 ∧ i ≤ nxt ∧ (nxt = i ∨ nxt ≤ cfgEnvSize) := by
  induction fuel generalizing i with
  | zero => cases h
  | succ fuel ih =>
    rw [entryEnd] at h
    split_ifs at h with hend hfull
    · obtain rfl := Option.some.inj h
      exact ⟨hend, le_rfl, Or.inl rfl⟩
    · obtain ⟨hzero, hle, hnxt⟩ := ih h
      exact ⟨hzero, by omega, by omega⟩

theorem scanFrom_eq_paramFrom {fuel i : ℕ} (hi : i ≤ cfgEnvSize + 1) (hfuel : cfgEnvSize + 1 < i + fuel) :
    scanFrom env (fun i => some (envmatch env name.length name i)) fuel i = some (paramFrom env name fuel i) := by
  induction fuel generalizing i with
  | zero => omega
  | succ fuel ih =>
    rw [scanFrom, paramFrom]
    split_ifs with hend
    · rfl
    cases hnxt : entryEnd env (cfgEnvSize + 1) i with
    | none => rfl
    | some nxt =>
      obtain ⟨hzero, hle, hstop⟩ := entryEnd_bounds hnxt
      have hne : nxt ≠ i := fun heq => hend (heq ▸ hzero)
      rw [Option.bind_some]
      dsimp only
      rw [Option.bind_some]
      cases envmatch env name.length name i with
      | some val => rfl
      | none => exact ih (by omega) (by omega)

theorem kernelGetBootEnvParam_eq_some (mapped : Bool) (sector : ℕ → UInt8) (name : List UInt8) :
    kernelGetBootEnvParam mapped sector name = some (getBootEnvParam mapped sector name) := by
  rw [kernelGetBootEnvParam, getBootEnvParam]
  split_ifs
  · rfl
  · rfl
  · dsimp only
    rw [scan, scanFrom_eq_paramFrom (Nat.zero_le _) (by omega), Option.map_some]

def configOffsetName : Name := ⟨text "config_offset", by decide, forall_mem_of_all (by decide)⟩

theorem getConfigPartOffset_valid {sector : List UInt8} (h : ValidSector sector) :
    getConfigPartOffset true (byteAt sector) =
      (lookup (text "config_offset") (entries (sector.drop 4))).elim configCfgOffset fun value =>
        simpleStrtol value &&& 0x00FFFFFF#32 := by
  have hparam : getBootEnvParam true (byteAt sector) configOffsetName.chars =
      lookup configOffsetName.chars (entries (sector.drop 4)) := by
    rw [← Option.some.injEq, ← kernelGetBootEnvParam_eq_some, h.kernelGetBootEnvParam]
  have hname : configOffsetName.chars = text "config_offset" := rfl
  rw [hname] at hparam
  rewrite [getConfigPartOffset, hparam]
  cases lookup (text "config_offset") (entries (sector.drop 4)) with
  | none => rfl
  | some value => rfl

end Embeddings

end Wap610n.Kernel.BootEnv
