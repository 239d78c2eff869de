import Wap610n.Env.Law
import Wap610n.Lib.CString
import Wap610n.Lib.Strings

namespace Wap610n.Env

open Bytes CString

inductive Buffer where
  | currParam
  | paramValue
deriving DecidableEq

/-- The two arrays of 256 bytes, with the bytes of the stack behind them, and the pointer and index of the
array that is being filled. -/
structure Reader where
  bufs : Buffer → ℕ → UInt8
  currStr : Buffer
  currIdx : ℕ

namespace Reader

def put (r : Reader) (b : Buffer) (i : ℕ) (c : UInt8) : Reader :=
  { r with bufs := Function.update r.bufs b (store (r.bufs b) i [c]) }

def keep (r : Reader) (c : UInt8) : Reader :=
  if r.currIdx < 255 then { r.put r.currStr r.currIdx c with currIdx := r.currIdx + 1 } else r

def endName (r : Reader) : Reader :=
  { r.put r.currStr (r.currIdx - 1) 0 with currStr := .paramValue, currIdx := 0 }

def clear (r : Reader) : Reader :=
  { (r.put .currParam 0 0).put .paramValue 0 0 with currStr := .currParam, currIdx := 0 }

end Reader

/-- What `printf` shows of an array; `none` when no NUL is found in it. -/
def shown (m : ℕ → UInt8) : Option (List UInt8) :=
  if 0 ∈ slice m 0 256 then some (upTo 0 (slice m 0 256)) else none

def readLoop (paramName : List UInt8) : List UInt8 → Reader → Option (ℤ × List UInt8)
  | [], _ => some (1, [])
  | c :: f, r =>
    if c = 61 then readLoop paramName f (r.keep c).endName
    else if c = 0 then
      if slice ((r.keep c).bufs .currParam) 0 (paramName.length + 1) = paramName ++ [0] then
        (shown ((r.keep c).bufs .paramValue)).map fun v => (0, v ++ [10])
      else readLoop paramName f (r.keep c).clear
    else readLoop paramName f (r.keep c)

/-- The exit status and the output of `get_env_param`; `junk` is what the arrays hold at first. -/
def getEnvParam (opened : Bool) (junk : Buffer → ℕ → UInt8) (mtd : List UInt8) (argv : List (List UInt8)) :
    Option (ℤ × List UInt8) :=
  match argv with
  | [_, paramName] =>
    if opened = false ∨ mtd.length < 4 then some (1, [])
    else readLoop paramName (mtd.drop 4) (Reader.clear ⟨junk, .currParam, 0⟩)
  | _ => some (1, [])

theorem holds_string_iff {m : ℕ → UInt8} {p : ℕ} {a b : List UInt8} (ha : ∀ c ∈ a, c ≠ 0) (hb : ∀ c ∈ b, c ≠ 0)
    (h : Holds m p (a ++ [0])) : Holds m p (b ++ [0]) ↔ a = b := by
  induction a generalizing b p with
  | nil =>
    cases b with
    | nil => simpa using h
    | cons d b =>
      rw [List.nil_append, holds_cons] at h
      simp [holds_cons, h.1, Ne.symm (hb d List.mem_cons_self)]
  | cons c a ih =>
    rw [List.cons_append, holds_cons] at h
    cases b with
    | nil => simp [holds_cons, h.1, ha c List.mem_cons_self]
    | cons d b =>
      rw [List.cons_append, holds_cons, h.1, List.cons.injEq,
        ih (fun x hx => ha x (List.mem_cons_of_mem _ hx)) (fun x hx => hb x (List.mem_cons_of_mem _ hx)) h.2]

theorem not_holds_string {m : ℕ → UInt8} {p : ℕ} {a b : List UInt8} (ha : ∀ c ∈ a, c ≠ 0) (h : Holds m p a)
    (hlt : b.length < a.length) : ¬Holds m p (b ++ [0]) := by
  intro hb
  have hz := (holds_cons.mp (holds_append.mp hb).2).1
  have hc := slice_getD (m := m) (p := p) hlt
  rw [show slice m p a.length = a from h, hz, List.getD_eq_getElem a 0 hlt] at hc
  exact ha _ (List.getElem_mem hlt) hc

theorem shown_string {m : ℕ → UInt8} {a : List UInt8} (ha : ∀ c ∈ a, c ≠ 0) (h : Holds m 0 (a ++ [0]))
    (hlen : a.length < 256) : shown m = some a := by
  have hslice : slice m 0 256 = a ++ [0] ++ slice m (a.length + 1) (256 - (a.length + 1)) := by
    have hsum : 256 = (a ++ [0]).length + (256 - (a.length + 1)) := by
      simp only [List.length_append, List.length_singleton]
      omega
    have hfirst : slice m 0 (a ++ [0]).length = a ++ [0] := h
    have hrest : (a ++ [0]).length = a.length + 1 := by simp
    conv_lhs => rw [hsum, slice_add, hfirst, hrest, Nat.zero_add]
  rw [shown, hslice, if_pos (by simp), upTo, List.append_assoc, List.takeWhile_append_of_pos (by simpa using ha)]
  simp

theorem le_length_of_shown {m : ℕ → UInt8} {a v : List UInt8} (ha : ∀ c ∈ a, c ≠ 0) (h : Holds m 0 a)
    (hlen : a.length ≤ 256) (hv : shown m = some v) : a.length ≤ v.length := by
  have hslice : slice m 0 256 = a ++ slice m a.length (256 - a.length) := by
    have hsum : 256 = a.length + (256 - a.length) := by omega
    have hfirst : slice m 0 a.length = a := h
    conv_lhs => rw [hsum, slice_add, hfirst, Nat.zero_add]
  unfold shown at hv
  split_ifs at hv
  rw [hslice, upTo, List.takeWhile_append_of_pos (by simpa using ha)] at hv
  rw [← Option.some.inj hv, List.length_append]
  omega

theorem store_again (m : ℕ → UInt8) (p : ℕ) (x y : UInt8) : store (store m p [x]) p [y] = store m p [y] := by
  funext i
  simp only [store, List.length_singleton]
  split_ifs <;> rfl

namespace Reader

def within (bufs : Buffer → ℕ → UInt8) (b : Buffer) (cs : List UInt8) : Reader :=
  ⟨Function.update bufs b (store (bufs b) 0 (cs.take 255)), b, min cs.length 255⟩

variable {bufs : Buffer → ℕ → UInt8} {b : Buffer} {cs f q : List UInt8}

theorem within_bufs : (within bufs b cs).bufs b = store (bufs b) 0 (cs.take 255) := Function.update_self _ _ _

theorem within_bufs_of_ne {d : Buffer} (h : d ≠ b) : (within bufs b cs).bufs d = bufs d := Function.update_of_ne h _ _

theorem within_nil : within bufs b [] = ⟨bufs, b, 0⟩ := by
  simp [within, store_nil]

theorem within_of_le (h : cs.length ≤ 255) :
    within bufs b cs = ⟨Function.update bufs b (store (bufs b) 0 cs), b, cs.length⟩ := by
  rw [within, List.take_of_length_le h, Nat.min_eq_left h]

theorem within_keep (c : UInt8) : (within bufs b cs).keep c = within bufs b (cs ++ [c]) := by
  have hlen : (cs ++ [c]).length = cs.length + 1 := by rw [List.length_append, List.length_singleton]
  by_cases hlt : cs.length < 255
  · have hnew : (cs ++ [c]).length ≤ 255 := by omega
    have hst := store_append (bufs b) 0 cs [c]
    rw [Nat.zero_add] at hst
    rw [within_of_le hlt.le, within_of_le hnew, keep, if_pos hlt, hlen]
    simp only [put, Function.update_self, Function.update_idem, hst]
  · have hfull : ¬ (within bufs b cs).currIdx < 255 := by
      rw [within]
      dsimp only
      omega
    rw [keep, if_neg hfull, within, within, List.take_append_of_le_length (Nat.le_of_not_lt hlt), hlen,
      Nat.min_eq_right (Nat.le_of_not_lt hlt), Nat.min_eq_right (Nat.le_succ_of_le (Nat.le_of_not_lt hlt))]

theorem readLoop_within (hcs : ∀ c ∈ cs, c ≠ 0 ∧ c ≠ 61) (pre : List UInt8) :
    readLoop q (cs ++ f) (within bufs b pre) = readLoop q f (within bufs b (pre ++ cs)) := by
  induction cs generalizing pre with
  | nil => simp
  | cons c cs ih =>
    obtain ⟨h0, h61⟩ := hcs c List.mem_cons_self
    rw [List.cons_append, readLoop, if_neg h61, if_neg h0, within_keep,
      ih (fun x hx => hcs x (List.mem_cons_of_mem _ hx)), List.append_assoc, List.singleton_append]

theorem exists_take_name (cs : List UInt8) : ∃ x, (cs ++ [61]).take 255 = cs.take 254 ++ [x] := by
  by_cases hlt : cs.length < 255
  · exact ⟨61, by rw [List.take_of_length_le (by simp; omega), List.take_of_length_le (by omega)]⟩
  · refine ⟨cs.get ⟨254, by omega⟩, ?_⟩
    rw [List.take_append_of_le_length (by omega)]
    exact List.take_succ_eq_append_getElem (by omega)

theorem within_endName :
    ((within bufs b cs).keep 61).endName =
      ⟨Function.update bufs b (store (bufs b) 0 (cs.take 254 ++ [0])), .paramValue, 0⟩ := by
  obtain ⟨x, hx⟩ := exists_take_name cs
  have hidx : min (cs ++ [61]).length 255 - 1 = (cs.take 254).length := by
    simp only [List.length_append, List.length_singleton, List.length_take]
    omega
  have hst := store_append (bufs b) 0 (cs.take 254)
  rw [Nat.zero_add] at hst
  rw [within_keep, endName, put, within]
  simp only [hidx, hx, Function.update_self, Function.update_idem, ← hst, store_again]

end Reader

end Wap610n.Env
