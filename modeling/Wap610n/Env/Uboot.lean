import Wap610n.Lib.Bytes
import Wap610n.Lib.Strings

namespace Wap610n.Env

open Bytes CString

def cfgEnvSize : ℕ := 0x10000

def envData (sector : ℕ → UInt8) (i : ℕ) : UInt8 := sector (4 + i)

theorem holds_envData {sector : ℕ → UInt8} {p : ℕ} {l : List UInt8} (h : Holds sector (4 + p) l) :
    Holds (envData sector) p l := by
  have hshift : slice (envData sector) p l.length = slice sector (4 + p) l.length := by
    apply slice_congr
    intro i _
    rw [envData, Nat.add_assoc]
  exact hshift.trans h

@[ext] structure Name where
  chars : List UInt8
  nonempty : chars ≠ []
  clean : ∀ c ∈ chars, c ≠ 0 ∧ c ≠ 61
deriving DecidableEq

structure Value where
  chars : List UInt8
  clean : ∀ c ∈ chars, c ≠ 0
deriving DecidableEq

structure Entry where
  name : Name
  value : Value
deriving DecidableEq

def Entry.text (e : Entry) : List UInt8 := e.name.chars ++ 61 :: e.value.chars

theorem Entry.text_length (e : Entry) : e.text.length = e.name.chars.length + e.value.chars.length + 1 := by
  simp only [Entry.text, List.length_append, List.length_cons]
  omega

def encode (es : List Entry) : List UInt8 := es.flatMap fun e => e.text ++ [0]

@[simp] theorem encode_nil : encode [] = [] := rfl

theorem encode_cons (e : Entry) (es : List Entry) : encode (e :: es) = e.text ++ [0] ++ encode es := rfl

theorem encode_eq (es : List Entry) : encode es = zstrings (es.map Entry.text) := by
  rw [zstrings, List.flatMap_map]
  rfl

def find (m : Name) (es : List Entry) : Option (List UInt8) :=
  (es.find? fun e => e.name = m).map fun e => e.value.chars

/-- A string equal to the name and without a `=` makes the loop read past the end of the name; that is
taken as no match. -/
def envmatch (env : ℕ → UInt8) : List UInt8 → ℕ → Option ℕ
  | [], i2 => if env i2 = 61 then some (i2 + 1) else none
  | c :: s1, i2 =>
    if c = env i2 then if c = 61 then some (i2 + 1) else envmatch env s1 (i2 + 1) else none

def entryEnd (env : ℕ → UInt8) : ℕ → ℕ → Option ℕ
  | 0, _ => none
  | fuel + 1, nxt =>
    if env nxt = 0 then some nxt else if nxt ≥ cfgEnvSize then none else entryEnd env fuel (nxt + 1)

def getenvFrom (env : ℕ → UInt8) (name : List UInt8) : ℕ → ℕ → Option ℕ
  | 0, _ => none
  | fuel + 1, i =>
    if env i = 0 then none
    else (entryEnd env (cfgEnvSize + 1) i).bind fun nxt =>
      match envmatch env name i with
      | some val => some val
      | none => getenvFrom env name fuel (nxt + 1)

/-- Every round of either loop moves on by one character at least and stops at `CFG_ENV_SIZE`, so the
fuel is never used up. -/
def getenv (env : ℕ → UInt8) (name : List UInt8) : Option ℕ := getenvFrom env name (cfgEnvSize + 2) 0

def cString (m : ℕ → UInt8) : ℕ → ℕ → List UInt8
  | 0, _ => []
  | fuel + 1, p => if m p = 0 then [] else m p :: cString m fuel (p + 1)

def getenvValue (env : ℕ → UInt8) (name : List UInt8) : Option (List UInt8) :=
  (getenv env name).map (cString env cfgEnvSize)

theorem envmatch_name {env : ℕ → UInt8} {a b : List UInt8} {i : ℕ} (ha : ∀ c ∈ a, c ≠ 61)
    (hb : ∀ c ∈ b, c ≠ 61) (h : Holds env i (b ++ [61])) :
    envmatch env a i = if a = b then some (i + b.length + 1) else none := by
  induction a generalizing b i with
  | nil =>
    cases b with
    | nil =>
      rw [List.nil_append, holds_cons] at h
      simp [envmatch, h.1]
    | cons c b =>
      rw [List.cons_append, holds_cons] at h
      simp [envmatch, h.1, hb c List.mem_cons_self]
  | cons c a ih =>
    have hc := ha c List.mem_cons_self
    cases b with
    | nil =>
      rw [List.nil_append, holds_cons] at h
      simp [envmatch, h.1, hc]
    | cons d b =>
      rw [List.cons_append, holds_cons] at h
      simp only [envmatch, h.1, hc, if_false, List.cons.injEq, List.length_cons]
      rw [ih (fun x hx => ha x (List.mem_cons_of_mem _ hx)) (fun x hx => hb x (List.mem_cons_of_mem _ hx)) h.2]
      by_cases hcd : c = d
      · simp [hcd, Nat.add_assoc, Nat.add_comm 1]
      · simp [hcd]

theorem ne_zero_of_holds_pair {env : ℕ → UInt8} {n : List UInt8} {i : ℕ} (hn : ∀ c ∈ n, c ≠ 0)
    (h : Holds env i (n ++ [61])) : env i ≠ 0 := by
  cases n with
  | nil =>
    rw [List.nil_append, holds_cons] at h
    rw [h.1]
    decide
  | cons c n =>
    rw [List.cons_append, holds_cons] at h
    rw [h.1]
    exact hn c List.mem_cons_self

theorem entryEnd_text {env : ℕ → UInt8} {cs : List UInt8} {i fuel : ℕ} (hcs : ∀ c ∈ cs, c ≠ 0)
    (h : Holds env i (cs ++ [0])) (hi : i + cs.length ≤ cfgEnvSize) (hf : cs.length < fuel) :
    entryEnd env fuel i = some (i + cs.length) := by
  induction cs generalizing i fuel with
  | nil =>
    obtain ⟨fuel, rfl⟩ := Nat.exists_eq_add_of_lt hf
    rw [List.nil_append, holds_cons] at h
    simp [entryEnd, h.1]
  | cons c cs ih =>
    rw [List.length_cons] at hi hf
    obtain ⟨fuel, rfl⟩ : ∃ k, fuel = k + 1 := ⟨fuel - 1, by omega⟩
    rw [List.cons_append, holds_cons] at h
    rw [entryEnd, h.1, if_neg (hcs c List.mem_cons_self), if_neg (by omega),
      ih (fun x hx => hcs x (List.mem_cons_of_mem _ hx)) h.2 (by omega) (by omega), List.length_cons]
    congr 1
    omega

theorem cString_text {m : ℕ → UInt8} {cs : List UInt8} {p fuel : ℕ} (hcs : ∀ c ∈ cs, c ≠ 0)
    (h : Holds m p (cs ++ [0])) (hf : cs.length < fuel) : cString m fuel p = cs := by
  induction cs generalizing p fuel with
  | nil =>
    obtain ⟨fuel, rfl⟩ : ∃ k, fuel = k + 1 := ⟨fuel - 1, by omega⟩
    rw [List.nil_append, holds_cons] at h
    rw [cString, if_pos h.1]
  | cons c cs ih =>
    rw [List.length_cons] at hf
    obtain ⟨fuel, rfl⟩ : ∃ k, fuel = k + 1 := ⟨fuel - 1, by omega⟩
    rw [List.cons_append, holds_cons] at h
    rw [cString, h.1, if_neg (hcs c List.mem_cons_self),
      ih (fun x hx => hcs x (List.mem_cons_of_mem _ hx)) h.2 (by omega)]

theorem Entry.text_clean (e : Entry) : ∀ c ∈ e.text, c ≠ 0 := by
  intro c hc
  rcases List.mem_append.mp hc with hn | hv
  · exact (e.name.clean c hn).1
  · rcases List.mem_cons.mp hv with rfl | hv
    · decide
    · exact e.value.clean c hv

theorem Entry.text_ne_nil (e : Entry) : e.text ≠ [] := by simp [Entry.text]

theorem getenvFrom_encode {env : ℕ → UInt8} {es : List Entry} {i fuel : ℕ} (m : Name)
    (h : Holds env i (encode es ++ [0])) (hi : i + (encode es).length ≤ cfgEnvSize) (hf : es.length < fuel) :
    (getenvFrom env m.chars fuel i).map (cString env cfgEnvSize) = find m es := by
  induction es generalizing i fuel with
  | nil =>
    obtain ⟨fuel, rfl⟩ : ∃ k, fuel = k + 1 := ⟨fuel - 1, by omega⟩
    rw [encode, List.flatMap_nil, List.nil_append, holds_cons] at h
    rw [getenvFrom, if_pos h.1]
    rfl
  | cons e es ih =>
    rw [List.length_cons] at hf
    obtain ⟨fuel, rfl⟩ : ∃ k, fuel = k + 1 := ⟨fuel - 1, by omega⟩
    rw [encode_cons, List.append_assoc, List.append_assoc, ← List.append_assoc, holds_append] at h
    rw [encode_cons, List.length_append, List.length_append, List.length_singleton] at hi
    obtain ⟨htext, hrest⟩ := h
    rw [List.length_append, List.length_singleton, ← Nat.add_assoc] at hrest
    have hlen := e.text_length
    have hfirst : env i ≠ 0 := by
      obtain ⟨c, cs, hc⟩ := List.exists_cons_of_ne_nil e.text_ne_nil
      rw [hc, List.cons_append, holds_cons] at htext
      rw [htext.1]
      exact e.text_clean c (hc ▸ List.mem_cons_self)
    have hsplit : Holds env i (e.name.chars ++ [61] ++ (e.value.chars ++ [0])) := by
      simpa [Entry.text] using htext
    rw [holds_append, List.length_append, List.length_singleton, ← Nat.add_assoc] at hsplit
    have hmatch := envmatch_name (fun c hc => (m.clean c hc).2) (fun c hc => (e.name.clean c hc).2) hsplit.1
    rw [getenvFrom, if_neg hfirst, entryEnd_text e.text_clean htext (by omega) (by omega), Option.bind_some, hmatch]
    by_cases hm : m.chars = e.name.chars
    · have hname : e.name = m := Name.ext hm.symm
      rw [if_pos hm, Option.map_some, cString_text e.value.clean hsplit.2 (by omega)]
      simp [find, hname]
    · have hname : e.name ≠ m := fun he => hm (by rw [he])
      have hnext := ih hrest (by omega) (show es.length < fuel by omega)
      rw [if_neg hm]
      simpa [find, hname] using hnext

theorem getenvValue_encode {env : ℕ → UInt8} {es : List Entry} (m : Name) (h : Holds env 0 (encode es ++ [0]))
    (hi : (encode es).length ≤ cfgEnvSize) : getenvValue env m.chars = find m es := by
  have hlen : es.length ≤ (encode es).length := by
    clear h hi
    induction es with
    | nil => rfl
    | cons e es ih => simp only [encode_cons, List.length_append, List.length_cons] at ih ⊢; omega
  exact getenvFrom_encode m h (by omega) (by omega)

end Wap610n.Env
