import Wap610n.Env.GetEnvParam

namespace Wap610n.Env

open Bytes CString

def behindEq (s : List UInt8) : List UInt8 := s.drop (upto s).length

theorem behindEq_of_not_mem {s : List UInt8} (h : 61 ∉ s) : behindEq s = s := by
  rw [behindEq, upto_eq_nil.mpr h, List.length_nil, List.drop_zero]

theorem behindEq_text {n v : List UInt8} (hn : ∀ c ∈ n, c ≠ 61) : behindEq (n ++ 61 :: v) = behindEq v := by
  rw [behindEq, upto_text hn, behindEq, List.length_append, List.length_cons, List.drop_append]
  simp

theorem mem_of_mem_behindEq {s : List UInt8} {c : UInt8} (h : c ∈ behindEq s) : c ∈ s := List.mem_of_mem_drop h

variable {q s f : List UInt8}

theorem readLoop_tail (hf : ∀ c ∈ f, c ≠ 0) (r : Reader) : readLoop q f r = some (1, []) := by
  induction f generalizing r with
  | nil => rfl
  | cons c f ih =>
    have hrest := fun r => ih (fun x hx => hf x (List.mem_cons_of_mem _ hx)) r
    rw [readLoop, if_neg (hf c List.mem_cons_self), hrest, hrest, ite_self]

open Reader in
theorem readLoop_value {v : List UInt8} (hv : ∀ c ∈ v, c ≠ 0) (bufs : Buffer → ℕ → UInt8) :
    ∃ bufs', bufs' .currParam = bufs .currParam ∧
      readLoop q (v ++ f) ⟨bufs, .paramValue, 0⟩ = readLoop q f (within bufs' .paramValue (behindEq v)) := by
  induction hn : v.length using Nat.strong_induction_on generalizing v bufs with
  | _ n ih =>
    by_cases h61 : 61 ∈ v
    · obtain ⟨a, w, rfl, ha⟩ := List.eq_append_cons_of_mem h61
      have hclean : ∀ c ∈ a, c ≠ 0 ∧ c ≠ 61 := by
        intro c hc
        exact ⟨hv c (List.mem_append_left _ hc), fun h => ha (h ▸ hc)⟩
      have hw : ∀ c ∈ w, c ≠ 0 := fun c hc => hv c (List.mem_append_right _ (List.mem_cons_of_mem _ hc))
      obtain ⟨bufs', hcurr, hloop⟩ := ih w.length (by rw [← hn, List.length_append, List.length_cons]; omega) hw
        (Function.update bufs .paramValue (store (bufs .paramValue) 0 (a.take 254 ++ [0]))) rfl
      refine ⟨bufs', hcurr.trans (by simp), ?_⟩
      rw [behindEq_text fun c hc => (hclean c hc).2, ← hloop, ← within_nil, List.append_assoc, readLoop_within hclean,
        List.nil_append, List.cons_append, readLoop, if_pos rfl, within_endName]
    · have hclean : ∀ c ∈ v, c ≠ 0 ∧ c ≠ 61 := fun c hc => ⟨hv c hc, fun h => h61 (h ▸ hc)⟩
      refine ⟨bufs, rfl, ?_⟩
      rw [behindEq_of_not_mem h61, ← within_nil, readLoop_within hclean, List.nil_append]

def Names (q s : List UInt8) : Prop := if 61 ∈ s then (upTo 61 s).take 254 = q else s = q

instance (q s : List UInt8) : Decidable (Names q s) := by unfold Names; infer_instance

def valueOf (s : List UInt8) : List UInt8 := if 61 ∈ s then behindEq s else []

structure Prints (v : List UInt8) (r : Option (ℤ × List UInt8)) : Prop where
  short : v.length < 255 → r = some (0, v ++ [10])
  long : 255 ≤ v.length → ∀ rc out, r = some (rc, out) → rc = 0 ∧ 255 < out.length

theorem holds_stored (m : ℕ → UInt8) {v : List UInt8} (h : v.length < 255) :
    Holds (store m 0 ((v ++ [0]).take 255)) 0 (v ++ [0]) := by
  have hall : (v ++ [0]).take 255 = v ++ [0] := List.take_of_length_le (by simp; omega)
  rw [hall]
  exact holds_store _ _ _

theorem holds_cut (m : ℕ → UInt8) {v : List UInt8} (h : 255 ≤ v.length) :
    Holds (store m 0 ((v ++ [0]).take 255)) 0 (v.take 255) := by
  rw [List.take_append_of_le_length h]
  exact holds_store _ _ _

theorem prints_stored (m : ℕ → UInt8) {v : List UInt8} (hv : ∀ c ∈ v, c ≠ 0) :
    Prints v ((shown (store m 0 ((v ++ [0]).take 255))).map fun v => (0, v ++ [10])) := by
  constructor
  · intro hlt
    rw [shown_string hv (holds_stored m hlt) (by omega), Option.map_some]
  · intro hge rc out hout
    obtain ⟨w, hw, heq⟩ := Option.map_eq_some_iff.mp hout
    have hlen : (v.take 255).length = 255 := by rw [List.length_take]; omega
    have hle := le_length_of_shown (fun c hc => hv c (List.mem_of_mem_take hc)) (holds_cut m hge) (by omega) hw
    simp only [Prod.mk.injEq] at heq
    rw [← heq.1, ← heq.2, List.length_append, List.length_singleton]
    omega

theorem Reader.clear_paramValue (r : Reader) : r.clear.bufs .paramValue 0 = 0 := by
  simp only [Reader.clear, Reader.put, Function.update_self]
  exact (holds_cons.mp (holds_store _ _ _)).1

def Ends (q f v : List UInt8) (P : Prop) (r : Option (ℤ × List UInt8)) : Prop :=
  P ∧ Prints v r ∨ ¬P ∧ ∃ bufs : Buffer → ℕ → UInt8, bufs .paramValue 0 = 0 ∧ r = readLoop q f ⟨bufs, .currParam, 0⟩

theorem readLoop_nul {r : Reader} {P : Prop} {v : List UInt8}
    (hP : Holds ((r.keep 0).bufs .currParam) 0 (q ++ [0]) ↔ P)
    (hv : Prints v ((shown ((r.keep 0).bufs .paramValue)).map fun v => (0, v ++ [10]))) :
    Ends q f v P (readLoop q (0 :: f) r) := by
  have hslice : slice ((r.keep 0).bufs .currParam) 0 (q.length + 1) = q ++ [0] ↔ P := by
    simpa [Holds] using hP
  rw [readLoop, if_neg (by decide), if_pos rfl]
  by_cases h : P
  · rw [if_pos (hslice.mpr h)]
    exact Or.inl ⟨h, hv⟩
  · rw [if_neg (mt hslice.mp h)]
    exact Or.inr ⟨h, _, (r.keep 0).clear_paramValue, rfl⟩

open Reader in
theorem readLoop_pair {n v : List UInt8} (hq : ∀ c ∈ q, c ≠ 0) (hn : ∀ c ∈ n, c ≠ 0 ∧ c ≠ 61) (hv : ∀ c ∈ v, c ≠ 0)
    (bufs : Buffer → ℕ → UInt8) :
    Ends q f (behindEq v) (n.take 254 = q) (readLoop q (n ++ 61 :: (v ++ 0 :: f)) ⟨bufs, .currParam, 0⟩) := by
  obtain ⟨bufs', hcurr, hloop⟩ := readLoop_value (q := q) (f := 0 :: f) hv
    (Function.update bufs .currParam (store (bufs .currParam) 0 (n.take 254 ++ [0])))
  rw [Function.update_self] at hcurr
  rw [← within_nil, readLoop_within hn, List.nil_append, readLoop, if_pos rfl, within_endName, hloop]
  apply readLoop_nul
  · rw [within_keep, within_bufs_of_ne (by decide), hcurr]
    exact holds_string_iff (fun c hc => (hn c (List.mem_of_mem_take hc)).1) hq (holds_store _ _ _)
  · rw [within_keep, within_bufs]
    exact prints_stored _ fun c hc => hv c (mem_of_mem_behindEq hc)

open Reader in
theorem readLoop_plain (hq : ∀ c ∈ q, c ≠ 0) (hlen : q.length < 255) (hs : ∀ c ∈ s, c ≠ 0 ∧ c ≠ 61)
    {bufs : Buffer → ℕ → UInt8} (h0 : bufs .paramValue 0 = 0) :
    Ends q f [] (s = q) (readLoop q (s ++ 0 :: f) ⟨bufs, .currParam, 0⟩) := by
  rw [← within_nil, readLoop_within hs, List.nil_append]
  apply readLoop_nul
  · rw [within_keep, within_bufs]
    by_cases hlt : s.length < 255
    · exact holds_string_iff (fun c hc => (hs c hc).1) hq (holds_stored _ hlt)
    · have hcut : (s.take 255).length = 255 := by rw [List.length_take]; omega
      have hne : s ≠ q := fun h => hlt (h ▸ hlen)
      have hno := not_holds_string (fun c hc => (hs c (List.mem_of_mem_take hc)).1)
        (holds_cut (bufs .currParam) (Nat.le_of_not_lt hlt)) (show q.length < (s.take 255).length by omega)
      exact iff_of_false hno hne
  · have hempty : Holds (bufs .paramValue) 0 ([] ++ [0]) := holds_cons.mpr ⟨h0, holds_nil _ _⟩
    rw [within_keep, within_bufs_of_ne (by decide),
      shown_string (fun _ h => absurd h List.not_mem_nil) hempty (by simp)]
    exact ⟨fun _ => rfl, fun h => absurd h (by simp)⟩

theorem readLoop_string (hq : ∀ c ∈ q, c ≠ 0) (hlen : q.length < 255) (hs : ∀ c ∈ s, c ≠ 0)
    {bufs : Buffer → ℕ → UInt8} (h0 : bufs .paramValue 0 = 0) :
    Ends q f (valueOf s) (Names q s) (readLoop q (s ++ 0 :: f) ⟨bufs, .currParam, 0⟩) := by
  unfold Names valueOf
  by_cases h61 : 61 ∈ s
  · rw [if_pos h61, if_pos h61]
    obtain ⟨n, v, rfl, hn⟩ := List.eq_append_cons_of_mem h61
    have hclean : ∀ c ∈ n, c ≠ 0 ∧ c ≠ 61 := fun c hc => ⟨hs c (List.mem_append_left _ hc), fun h => hn (h ▸ hc)⟩
    have hv : ∀ c ∈ v, c ≠ 0 := fun c hc => hs c (List.mem_append_right _ (List.mem_cons_of_mem _ hc))
    rw [upTo_append_cons hn, behindEq_text fun c hc => (hclean c hc).2, List.append_assoc, List.cons_append]
    exact readLoop_pair hq hclean hv bufs
  · rw [if_neg h61, if_neg h61]
    exact readLoop_plain hq hlen (fun c hc => ⟨hs c hc, fun h => h61 (h ▸ hc)⟩) h0

theorem readLoop_strings {ss : List (List UInt8)} {tail : List UInt8} (hq : ∀ c ∈ q, c ≠ 0) (hlen : q.length < 255)
    (hss : ∀ s ∈ ss, ∀ c ∈ s, c ≠ 0) (htail : ∀ c ∈ tail, c ≠ 0) {bufs : Buffer → ℕ → UInt8}
    (h0 : bufs .paramValue 0 = 0) :
    (∃ s, ss.find? (fun s => Names q s) = some s ∧
      Prints (valueOf s) (readLoop q (zstrings ss ++ tail) ⟨bufs, .currParam, 0⟩)) ∨
    (ss.find? (fun s => Names q s) = none ∧
      readLoop q (zstrings ss ++ tail) ⟨bufs, .currParam, 0⟩ = some (1, [])) := by
  induction ss generalizing bufs with
  | nil => exact Or.inr ⟨rfl, readLoop_tail htail _⟩
  | cons s ss ih =>
    rw [zstrings_cons, List.append_assoc, List.cons_append]
    rcases readLoop_string (f := zstrings ss ++ tail) hq hlen (hss s List.mem_cons_self) h0 with
      ⟨hname, hprints⟩ | ⟨hname, bufs', h0', heq⟩
    · exact Or.inl ⟨s, by simp [hname], hprints⟩
    · rw [heq, List.find?_cons_of_neg (by simpa using hname)]
      exact ih (fun t ht => hss t (List.mem_cons_of_mem _ ht)) h0'

end Wap610n.Env
