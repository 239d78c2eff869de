import Wap610n.Env.SetEnvParam

namespace Wap610n.Env

open Bytes CString

def upto : List UInt8 → List UInt8
  | [] => []
  | c :: cs => if 61 ∈ cs then c :: upto cs else if c = 61 then [61] else []

theorem upto_append_drop (cs : List UInt8) : upto cs ++ cs.drop (upto cs).length = cs := by
  induction cs with
  | nil => rfl
  | cons c cs ih =>
    unfold upto
    split_ifs with h hc
    · rw [List.length_cons, List.drop_succ_cons, List.cons_append, ih]
    · rw [hc]
      rfl
    · rfl

theorem upto_eq_nil {cs : List UInt8} : upto cs = [] ↔ 61 ∉ cs := by
  cases cs with
  | nil => simp [upto]
  | cons c cs =>
    unfold upto
    split_ifs with h hc
    · simp [h]
    · simp [hc]
    · simp [h, Ne.symm hc]

theorem upto_text {name value : List UInt8} (hn : ∀ c ∈ name, c ≠ 61) :
    upto (name ++ 61 :: value) = name ++ 61 :: upto value := by
  induction name with
  | nil =>
    by_cases hv : 61 ∈ value
    · simp [upto, hv]
    · simp [upto, hv, upto_eq_nil.mpr hv]
  | cons c name ih => simp [upto, ih fun x hx => hn x (List.mem_cons_of_mem _ hx)]

def lastEq : List UInt8 → ℕ → Option ℕ → Option ℕ
  | [], _, valuePtr => valuePtr
  | c :: cs, p, valuePtr => lastEq cs (p + 1) (if c = 61 then some (p + 1) else valuePtr)

theorem lastEq_eq (cs : List UInt8) (p : ℕ) (valuePtr : Option ℕ) :
    lastEq cs p valuePtr = if 61 ∈ cs then some (p + (upto cs).length) else valuePtr := by
  induction cs generalizing p valuePtr with
  | nil => rfl
  | cons c cs ih =>
    rw [lastEq, ih, upto]
    by_cases h : 61 ∈ cs
    · simp [h, Nat.add_assoc, Nat.add_comm 1]
    · by_cases hc : c = 61
      · simp [h, hc]
      · simp [h, hc, Ne.symm hc]

def Entry.retarget (e : Entry) (v : Value) : Entry where
  name := e.name
  value := ⟨upto e.value.chars ++ v.chars, by
    intro c hc
    rcases List.mem_append.mp hc with hc | hc
    · exact e.value.clean c (upto_append_drop e.value.chars ▸ List.mem_append_left _ hc)
    · exact v.clean c hc⟩

def edit (n : Name) (v : Option Value) (e : Entry) : List Entry :=
  if n.chars <+: e.name.chars then
    match v with
    | some v => [e.retarget v]
    | none => []
  else [e]

theorem edit_other {n : Name} {v : Option Value} {e : Entry} (h : ¬n.chars <+: e.name.chars) : edit n v e = [e] :=
  if_neg h

theorem edit_found {n : Name} {v : Value} {e : Entry} (h : n.chars <+: e.name.chars) :
    edit n (some v) e = [e.retarget v] :=
  if_pos h

theorem edit_dropped {n : Name} {e : Entry} (h : n.chars <+: e.name.chars) : edit n none e = [] :=
  if_pos h

theorem Entry.upto_text (e : Entry) : upto e.text = e.name.chars ++ 61 :: upto e.value.chars :=
  Env.upto_text fun c hc => (e.name.clean c hc).2

theorem Entry.retarget_text (e : Entry) (v : Value) : (e.retarget v).text = upto e.text ++ v.chars := by
  rw [e.upto_text]
  simp [Entry.retarget, Entry.text]

theorem holds_prefix_iff {m : ℕ → UInt8} {p : ℕ} {z : UInt8} {a b r : List UInt8} (ha : ∀ c ∈ a, c ≠ z)
    (h : Holds m p (b ++ z :: r)) : Holds m p a ↔ a <+: b := by
  induction a generalizing b p with
  | nil => simp [holds_nil]
  | cons c a ih =>
    cases b with
    | nil =>
      rw [List.nil_append, holds_cons] at h
      simp [holds_cons, h.1, Ne.symm (ha c List.mem_cons_self)]
    | cons d b =>
      rw [List.cons_append, holds_cons] at h
      rw [holds_cons, ih (fun x hx => ha x (List.mem_cons_of_mem _ hx)) h.2, List.cons_prefix_cons, h.1, eq_comm]

def revise (n : List UInt8) (v : Option (List UInt8)) (t : List UInt8) : List (List UInt8) :=
  if n <+: t then
    match v with
    | some v => [upto t ++ v]
    | none => []
  else [t]

theorem prefix_append_cons_iff {z : UInt8} {a b r : List UInt8} (ha : ∀ c ∈ a, c ≠ z) :
    a <+: b ++ z :: r ↔ a <+: b := by
  induction a generalizing b with
  | nil => simp
  | cons c a ih =>
    cases b with
    | nil => simp [List.cons_prefix_cons, ha c List.mem_cons_self]
    | cons d b => rw [List.cons_append, List.cons_prefix_cons, List.cons_prefix_cons,
        ih fun x hx => ha x (List.mem_cons_of_mem _ hx)]

theorem revise_text (m : Name) (w : Option Value) (e : Entry) :
    revise m.chars (w.map Value.chars) e.text = (edit m w e).map Entry.text := by
  have hiff : m.chars <+: e.text ↔ m.chars <+: e.name.chars := prefix_append_cons_iff fun c hc => (m.clean c hc).2
  unfold revise edit
  by_cases hpre : m.chars <+: e.name.chars
  · rw [if_pos (hiff.mpr hpre), if_pos hpre]
    cases w with
    | none => rfl
    | some v => rw [Option.map_some, List.map_singleton, e.retarget_text]
  · rw [if_neg (mt hiff.mp hpre), if_neg hpre, List.map_singleton]

def Room (n : List UInt8) (v : Option (List UInt8)) (p k : ℕ) (t : List UInt8) : Prop :=
  p + t.length < cfgEnvSize ∧ (n <+: t → v ≠ none → 61 ∈ t) ∧ k + (revise n v t).length < paramsMax ∧
    p + (zstrings (revise n v t)).length < cfgEnvSize

def InBounds (n : List UInt8) (v : Option (List UInt8)) : ℕ → ℕ → List (List UInt8) → Prop
  | _, _, [] => True
  | p, k, t :: ts =>
    Room n v p k t ∧ InBounds n v (p + (zstrings (revise n v t)).length) (k + (revise n v t).length) ts

theorem store_zero {mem : ℕ → UInt8} {p : ℕ} (h : ∀ i, p ≤ i → mem i = 0) : ∀ i, p ≤ i → store mem p [0] i = 0 := by
  intro i hi
  by_cases heq : i = p
  · rw [heq]
    exact (holds_cons.mp (holds_store mem p [0])).1
  · rw [store_out (Or.inr (by rw [List.length_singleton]; omega)), h i hi]

namespace Editor

variable {n : List UInt8} {v : Option (List UInt8)}

theorem full_eq_false {s : Editor} (hi : s.currStrIdx < paramsMax) (hp : s.currStr ≤ cfgEnvSize) :
    s.full = false := by
  simp only [full, cfgEnvSize, paramsMax] at *
  simp
  omega

theorem copyLoop_text {cs f : List UInt8} {s : Editor} (hcs : ∀ c ∈ cs, c ≠ 0) (hi : s.currStrIdx < paramsMax)
    (hp : s.currStr ≤ cfgEnvSize) :
    copyLoop n v (cs ++ f) s = if s.currStr + cs.length ≤ cfgEnvSize then
      copyLoop n v f { s with
        mem := store s.mem s.currStr cs
        currStr := s.currStr + cs.length
        valuePtr := lastEq cs s.currStr s.valuePtr } else none := by
  induction cs generalizing s with
  | nil => simp [hp, store_nil, lastEq]
  | cons c cs ih =>
    have h0 := hcs c List.mem_cons_self
    rw [List.cons_append, copyLoop, full_eq_false hi hp, put]
    by_cases hlt : s.currStr < cfgEnvSize
    · have hst := store_append s.mem s.currStr [c] cs
      rw [List.length_singleton, List.singleton_append] at hst
      rw [if_pos hlt, List.length_cons, Nat.add_comm cs.length 1, ← Nat.add_assoc]
      by_cases hc : c = 61
      · subst hc
        simp only [Bool.false_eq_true, if_false, Option.bind_some, if_true]
        rw [ih (fun x hx => hcs x (List.mem_cons_of_mem _ hx)) (by exact hi) (by exact hlt)]
        simp only [lastEq, if_true, ← hst]
      · simp only [Bool.false_eq_true, if_false, Option.bind_some, hc, h0]
        rw [ih (fun x hx => hcs x (List.mem_cons_of_mem _ hx)) (by exact hi) (by exact hlt)]
        simp only [lastEq, hc, if_false, ← hst]
    · have hover : ¬s.currStr + (c :: cs).length ≤ cfgEnvSize := by
        rw [List.length_cons]
        omega
      rw [if_neg hlt, if_neg hover]
      rfl

theorem copyLoop_nul {f : List UInt8} {s : Editor} (hi : s.currStrIdx < paramsMax) (hp : s.currStr ≤ cfgEnvSize) :
    copyLoop n v (0 :: f) s = if s.currStr < cfgEnvSize then
      if store s.mem s.currStr [0] s.namePtr ≠ 0 then
        (endEntry n v { s with mem := store s.mem s.currStr [0], currStr := s.currStr + 1 }).bind (copyLoop n v f)
      else some { s with mem := store s.mem s.currStr [0] } else none := by
  rw [copyLoop, full_eq_false hi hp, if_neg Bool.false_ne_true, put]
  by_cases hlt : s.currStr < cfgEnvSize
  · rw [if_pos hlt, if_pos hlt]
    rfl
  · rw [if_neg hlt, if_neg hlt]
    rfl

structure At (v : Option (List UInt8)) (s : Editor) (l : List UInt8) (k : ℕ) : Prop where
  holds : Holds s.mem 4 l
  currStr : s.currStr = 4 + l.length
  namePtr : s.namePtr = s.currStr
  room : s.currStr < cfgEnvSize
  idx : s.currStrIdx = k
  count : k < paramsMax
  valuePtr : v ≠ none → s.valuePtr = none
  fresh : s.paramFound = false → ∀ i, s.currStr ≤ i → s.mem i = 0
  space : s.outOfSpace = false

def read (s : Editor) (t : List UInt8) : Editor :=
  { s with
    mem := store s.mem s.currStr (t ++ [0])
    currStr := s.currStr + t.length + 1
    valuePtr := lastEq t s.currStr s.valuePtr }

theorem copyLoop_read {t f l : List UInt8} {s : Editor} {k : ℕ} (h : At v s l k) (ht : t ≠ [])
    (h0 : ∀ c ∈ t, c ≠ 0) :
    copyLoop n v (t ++ 0 :: f) s = if s.currStr + t.length < cfgEnvSize then
      (endEntry n v (s.read t)).bind (copyLoop n v f) else none := by
  have hi : s.currStrIdx < paramsMax := h.idx ▸ h.count
  have hfirst : store s.mem s.currStr (t ++ [0]) s.namePtr ≠ 0 := by
    have hst := holds_store s.mem s.currStr (t ++ [0])
    obtain ⟨c, cs, rfl⟩ := List.exists_cons_of_ne_nil ht
    rw [List.cons_append, holds_cons] at hst
    rw [h.namePtr, List.cons_append, hst.1]
    exact h0 c List.mem_cons_self
  rw [copyLoop_text h0 hi h.room.le]
  by_cases hle : s.currStr + t.length ≤ cfgEnvSize
  · rw [if_pos hle, copyLoop_nul (by exact hi) (by exact hle)]
    dsimp only
    rw [store_append, if_pos hfirst]
    rfl
  · rw [if_neg hle, if_neg (by omega)]

theorem nextEntry_at {l : List UInt8} {s : Editor} {k : ℕ} (hh : Holds s.mem 4 l) (hc : s.currStr = 4 + l.length)
    (hi : s.currStrIdx = k) (hf : s.paramFound = false → ∀ i, s.currStr ≤ i → s.mem i = 0)
    (ho : s.outOfSpace = false) :
    ((k + 1 < paramsMax ∧ 4 + l.length < cfgEnvSize) ∧
      ∃ s', s.nextEntry = some s' ∧ At v s' l (k + 1) ∧ s'.paramFound = s.paramFound) ∨
    (¬(k + 1 < paramsMax ∧ 4 + l.length < cfgEnvSize) ∧ s.nextEntry = none) := by
  unfold nextEntry put
  rw [hi, hc]
  by_cases hk : k + 1 < paramsMax
  swap
  · exact Or.inr ⟨fun h => hk h.1, if_neg hk⟩
  rw [if_pos hk]
  by_cases hlt : 4 + l.length < cfgEnvSize
  swap
  · rw [if_neg hlt]
    exact Or.inr ⟨fun h => hlt h.2, rfl⟩
  rw [if_pos hlt]
  rw [hc] at hf
  refine Or.inl ⟨⟨hk, hlt⟩, _, rfl, ⟨?_, rfl, rfl, hlt, rfl, hk, fun _ => rfl, fun hp => store_zero (hf hp), ho⟩, rfl⟩
  exact hh.store_out (Or.inl le_rfl)

def Revises (n : List UInt8) (v : Option (List UInt8)) (s : Editor) (l : List UInt8) (k : ℕ) (t : List UInt8)
    (r : Option Editor) : Prop :=
  (Room n v (4 + l.length) k t ∧ ∃ s', r = some s' ∧
    At v s' (l ++ zstrings (revise n v t)) (k + (revise n v t).length) ∧
    s'.paramFound = (s.paramFound || decide (n <+: t))) ∨
  (¬Room n v (4 + l.length) k t ∧ r = none)

theorem At.read_holds {l : List UInt8} {s : Editor} {k : ℕ} (h : At v s l k) (t : List UInt8) :
    Holds (s.read t).mem 4 l ∧ Holds (s.read t).mem (4 + l.length) (t ++ [0]) := by
  rw [← h.currStr]
  exact ⟨h.holds.store_out (Or.inl h.currStr.ge), holds_store _ _ _⟩

theorem At.read_fresh {l : List UInt8} {s : Editor} {k : ℕ} (h : At v s l k) (t : List UInt8)
    (hp : (s.read t).paramFound = false) : ∀ i, (s.read t).currStr ≤ i → (s.read t).mem i = 0 := by
  intro i hi
  have hle : s.currStr + t.length + 1 ≤ i := hi
  refine (store_out (Or.inr ?_)).trans (h.fresh hp i (by omega))
  rw [List.length_append, List.length_singleton]
  omega

theorem endEntry_other {l t : List UInt8} {s : Editor} {k : ℕ} (h : At v s l k) (hpre : ¬n <+: t)
    (hlt : 4 + l.length + t.length < cfgEnvSize) : Revises n v s l k t (s.read t).nextEntry := by
  obtain ⟨hold, htext⟩ := h.read_holds t
  have hnew : l ++ zstrings [t] = l ++ (t ++ [0]) := by rw [zstrings_cons, zstrings_nil]
  have hlen : (l ++ zstrings [t]).length = l.length + t.length + 1 := by
    rw [hnew, List.length_append, List.length_append, List.length_singleton, Nat.add_assoc]
  have hzlen : (zstrings [t]).length = t.length + 1 := by rw [List.length_append] at hlen; omega
  have hcurr : (s.read t).currStr = 4 + (l ++ zstrings [t]).length := by
    have hcurr : (s.read t).currStr = s.currStr + t.length + 1 := rfl
    rw [hcurr, hlen, h.currStr]
    omega
  unfold Revises Room
  rw [show revise n v t = [t] from if_neg hpre, List.length_singleton, hzlen]
  rcases nextEntry_at (v := v) (hnew ▸ holds_append.mpr ⟨hold, htext⟩) hcurr h.idx (h.read_fresh t) h.space with
    ⟨hroom, s', hs', hat, hp⟩ | ⟨hroom, hnone⟩
  · refine Or.inl ⟨⟨hlt, fun hc => absurd hc hpre, hroom.1, by omega⟩, s', hs', hat, ?_⟩
    rw [hp, decide_eq_false hpre, Bool.or_false]
    rfl
  · exact Or.inr ⟨fun hr => hroom ⟨hr.2.2.1, by have := hr.2.2.2; omega⟩, hnone⟩

theorem endEntry_dropped {l t : List UInt8} {s : Editor} {k : ℕ} (h : At none s l k) (hpre : n <+: t)
    (hlt : 4 + l.length + t.length < cfgEnvSize) :
    Revises n none s l k t ((put (s.read t).mem (s.read t).namePtr 0).map fun mem => { s.read t with
      mem := mem
      currStr := (s.read t).namePtr
      paramFound := true }) := by
  have hroom : 4 + l.length < cfgEnvSize := h.currStr ▸ h.room
  have hname : (s.read t).namePtr = 4 + l.length := h.namePtr.trans h.currStr
  unfold Revises Room
  rw [show revise n none t = [] from if_pos hpre, zstrings_nil, List.length_nil, List.append_nil, hname, put,
    if_pos hroom, Option.map_some]
  refine Or.inl ⟨⟨hlt, fun _ hc => absurd rfl hc, h.count, hroom⟩, _, rfl, ?_, by simp [hpre]⟩
  exact ⟨(h.read_holds t).1.store_out (Or.inl le_rfl), rfl, hname, hroom, h.idx, h.count, fun hc => absurd rfl hc,
    fun hf => absurd hf.symm Bool.false_ne_true, h.space⟩

theorem endEntry_set {l t w : List UInt8} {s : Editor} {k : ℕ} (h : At (some w) s l k) (hpre : n <+: t)
    (hlt : 4 + l.length + t.length < cfgEnvSize) :
    Revises n (some w) s l k t ((s.read t).valuePtr.bind fun p => (strcpy (s.read t).mem p w).bind fun mem =>
      nextEntry { s.read t with
        mem := mem
        currStr := p + w.length + 1
        paramFound := true }) := by
  have hptr : (s.read t).valuePtr = if 61 ∈ t then some (4 + l.length + (upto t).length) else none := by
    rw [← h.currStr, ← h.valuePtr (by simp), ← lastEq_eq]
    rfl
  unfold Revises Room
  rw [show revise n (some w) t = [upto t ++ w] from if_pos hpre, hptr, zstrings_cons, zstrings_nil]
  by_cases h61 : 61 ∈ t
  swap
  · exact Or.inr ⟨fun hr => h61 (hr.2.1 hpre (by simp)), by rw [if_neg h61]; rfl⟩
  rw [if_pos h61, Option.bind_some, strcpy]
  have hlen : (l ++ (upto t ++ w ++ [0])).length = l.length + (upto t).length + w.length + 1 := by
    simp only [List.length_append, List.length_singleton]
    omega
  have hzlen : (upto t ++ w ++ [0]).length = (upto t).length + w.length + 1 := by
    rw [List.length_append] at hlen
    omega
  by_cases hcp : 4 + l.length + (upto t).length + w.length < cfgEnvSize
  swap
  · rw [if_neg hcp]
    exact Or.inr ⟨fun hr => hcp (by have := hr.2.2.2; omega), rfl⟩
  rw [if_pos hcp, Option.bind_some]
  obtain ⟨hold, htext⟩ := h.read_holds t
  have hnew : Holds (store (s.read t).mem (4 + l.length + (upto t).length) (w ++ [0])) 4
      (l ++ (upto t ++ w ++ [0])) := by
    have hsplit : t ++ [0] = upto t ++ (t.drop (upto t).length ++ [0]) := by rw [← List.append_assoc, upto_append_drop]
    rw [hsplit, holds_append] at htext
    rw [List.append_assoc, holds_append, holds_append]
    exact ⟨hold.store_out (Or.inl (by omega)), htext.1.store_out (Or.inl le_rfl), holds_store _ _ _⟩
  rcases nextEntry_at (v := some w) (s := { s.read t with
      mem := store (s.read t).mem (4 + l.length + (upto t).length) (w ++ [0])
      currStr := 4 + l.length + (upto t).length + w.length + 1
      paramFound := true }) hnew (by dsimp only; omega) h.idx (fun hf => absurd hf.symm Bool.false_ne_true) h.space with
    ⟨hroom, s', hs', hat, hp⟩ | ⟨hroom, hnone⟩
  · refine Or.inl ⟨⟨hlt, fun _ _ => h61, hroom.1, by omega⟩, s', hs', hat, ?_⟩
    rw [hp, decide_eq_true hpre, Bool.or_true]
  · exact Or.inr ⟨fun hr => hroom ⟨hr.2.2.1, by have := hr.2.2.2; omega⟩, hnone⟩

theorem copyLoop_revise {t f l : List UInt8} {s : Editor} {k : ℕ} (h : At v s l k) (hn : ∀ c ∈ n, c ≠ 0) (ht : t ≠ [])
    (h0 : ∀ c ∈ t, c ≠ 0) :
    ∃ r, copyLoop n v (t ++ 0 :: f) s = r.bind (copyLoop n v f) ∧ Revises n v s l k t r := by
  rw [copyLoop_read h ht h0, h.currStr]
  by_cases hlt : 4 + l.length + t.length < cfgEnvSize
  swap
  · exact ⟨none, if_neg hlt, Or.inr ⟨fun hr => hlt hr.1, rfl⟩⟩
  rw [if_pos hlt]
  refine ⟨_, rfl, ?_⟩
  have hname : slice (s.read t).mem (s.read t).namePtr n.length = n ↔ n <+: t := by
    rw [show (s.read t).namePtr = 4 + l.length from h.namePtr.trans h.currStr]
    exact holds_prefix_iff hn (h.read_holds t).2
  unfold endEntry
  by_cases hpre : n <+: t
  swap
  · rw [if_neg (mt hname.mp hpre)]
    exact endEntry_other h hpre hlt
  rw [if_pos (hname.mpr hpre)]
  cases v with
  | none => exact endEntry_dropped h hpre hlt
  | some w => exact endEntry_set h hpre hlt

theorem copyLoop_strings {ts : List (List UInt8)} {f l : List UInt8} {s : Editor} {k : ℕ} (h : At v s l k)
    (hn : ∀ c ∈ n, c ≠ 0) (hts : ∀ t ∈ ts, t ≠ [] ∧ ∀ c ∈ t, c ≠ 0) :
    (InBounds n v (4 + l.length) k ts ∧ ∃ s', copyLoop n v (zstrings ts ++ f) s = copyLoop n v f s' ∧
      At v s' (l ++ zstrings (ts.flatMap (revise n v))) (k + (ts.flatMap (revise n v)).length) ∧
      s'.paramFound = (s.paramFound || ts.any fun t => n <+: t)) ∨
    (¬InBounds n v (4 + l.length) k ts ∧ copyLoop n v (zstrings ts ++ f) s = none) := by
  induction ts generalizing l s k with
  | nil => exact Or.inl ⟨trivial, s, rfl, by simpa using h, by simp⟩
  | cons t ts ih =>
    obtain ⟨ht, h0⟩ := hts t List.mem_cons_self
    rw [zstrings_cons, List.append_assoc, List.cons_append]
    obtain ⟨r, heq, ⟨hroom, s', rfl, hat, hp⟩ | ⟨hroom, rfl⟩⟩ :=
      copyLoop_revise (f := zstrings ts ++ f) h hn ht h0
    swap
    · exact Or.inr ⟨fun hb => hroom hb.1, heq⟩
    rw [heq, Option.bind_some]
    have hpos : 4 + l.length + (zstrings (revise n v t)).length = 4 + (l ++ zstrings (revise n v t)).length := by
      rw [List.length_append, Nat.add_assoc]
    rcases ih hat fun u hu => hts u (List.mem_cons_of_mem _ hu) with ⟨hb, s₂, heq₂, hat₂, hp₂⟩ | ⟨hb, hnone⟩
    · refine Or.inl ⟨⟨hroom, hpos ▸ hb⟩, s₂, heq₂, ?_, ?_⟩
      · rw [List.flatMap_cons, zstrings_append, List.length_append, ← List.append_assoc, ← Nat.add_assoc]
        exact hat₂
      · rw [hp₂, hp, List.any_cons, Bool.or_assoc]
    · exact Or.inr ⟨fun hb' => hb (hpos ▸ hb'.2), hnone⟩

end Editor

end Wap610n.Env
