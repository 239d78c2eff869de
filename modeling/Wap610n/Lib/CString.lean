import Mathlib.Algebra.Group.Int.Defs
import Mathlib.Data.List.Infix
import Mathlib.Data.List.TakeWhile

/-!
Functions of the C library on strings, as lists of characters without the closing NUL.
-/

namespace Wap610n.CString

def strstr (needle : List UInt8) : List UInt8 → Option (List UInt8)
  | [] => if needle = [] then some [] else none
  | c :: s => if needle <+: c :: s then some (c :: s) else strstr needle s

def strchr (c : UInt8) : List UInt8 → Option (List UInt8)
  | [] => none
  | d :: s => if d = c then some (d :: s) else strchr c s

theorem strchr_eq_none {c : UInt8} {s : List UInt8} : strchr c s = none ↔ c ∉ s := by
  induction s with
  | nil => simp [strchr]
  | cons d s ih =>
    rw [strchr, List.mem_cons, not_or]
    split_ifs with h
    · simp [h]
    · simp [ih, Ne.symm h]

theorem strchr_append_cons {c : UInt8} {a b : List UInt8} (h : c ∉ a) :
    strchr c (a ++ c :: b) = some (c :: b) := by
  induction a with
  | nil => rw [List.nil_append, strchr, if_pos rfl]
  | cons d a ih =>
    rw [List.mem_cons, not_or] at h
    rw [List.cons_append, strchr, if_neg (Ne.symm h.1), ih h.2]

def strrchr (c : UInt8) : List UInt8 → Option (List UInt8)
  | [] => none
  | d :: s =>
    match strrchr c s with
    | some t => some t
    | none => if d = c then some (d :: s) else none

def upTo (c : UInt8) (s : List UInt8) : List UInt8 := s.takeWhile fun d => d ≠ c

theorem upTo_append {c : UInt8} {a : List UInt8} (h : c ∉ a) (s : List UInt8) : upTo c (a ++ s) = a ++ upTo c s := by
  have hall : ∀ d ∈ a, (fun d : UInt8 => decide (d ≠ c)) d = true := by
    intro d hd
    exact decide_eq_true fun heq => h (heq ▸ hd)
  rw [upTo, List.takeWhile_append_of_pos hall, upTo]

theorem upTo_append_cons {c : UInt8} {a b : List UInt8} (h : c ∉ a) : upTo c (a ++ c :: b) = a := by
  rw [upTo_append h, upTo, List.takeWhile_cons_of_neg (by simp), List.append_nil]

theorem upTo_length_le (c : UInt8) (s : List UInt8) : (upTo c s).length ≤ s.length :=
  (List.takeWhile_prefix _).length_le

theorem upTo_of_length {c : UInt8} {s : List UInt8} (h : s.length ≤ (upTo c s).length) : upTo c s = s :=
  (List.takeWhile_prefix _).eq_of_length_le h

theorem upTo_of_notMem {c : UInt8} {s : List UInt8} (h : c ∉ s) : upTo c s = s := by
  rw [upTo, List.takeWhile_eq_self_iff]
  intro d hd
  exact decide_eq_true fun heq => h (heq ▸ hd)

theorem eq_upTo_append {c : UInt8} {s : List UInt8} (h : c ∈ s) : ∃ r, c ∉ upTo c s ∧ s = upTo c s ++ c :: r := by
  induction s with
  | nil => exact absurd h List.not_mem_nil
  | cons d s ih =>
    by_cases hd : d = c
    · subst hd
      exact ⟨s, by simp [upTo], by simp [upTo]⟩
    · obtain ⟨r, hnot, hr⟩ := ih ((List.mem_cons.mp h).resolve_left (Ne.symm hd))
      have hcons : upTo c (d :: s) = d :: upTo c s := List.takeWhile_cons_of_pos (decide_eq_true hd)
      rw [hcons]
      exact ⟨r, fun hmem => (List.mem_cons.mp hmem).elim (Ne.symm hd) hnot, by rw [List.cons_append, ← hr]⟩

def hexValue (c : UInt8) : Option ℕ :=
  if 48 ≤ c ∧ c ≤ 57 then some (c.toNat - 48)
  else if 65 ≤ c ∧ c ≤ 70 then some (c.toNat - 65 + 10)
  else if 97 ≤ c ∧ c ≤ 102 then some (c.toNat - 97 + 10)
  else none

def toLower (c : UInt8) : UInt8 := if 65 ≤ c ∧ c ≤ 90 then c + 32 else c

def sameIgnoringCase (a b : List UInt8) : Bool := a.map toLower = b.map toLower

def isSpace (c : UInt8) : Bool := c = 32 ∨ 9 ≤ c ∧ c ≤ 13

def decimal (n : ℕ) : List UInt8 → ℕ
  | [] => n
  | c :: s => if 48 ≤ c ∧ c ≤ 57 then decimal (n * 10 + (c.toNat - 48)) s else n

/-- The C library's `strtol` stops at the bounds of an `int`. -/
def atoi (s : List UInt8) : ℤ :=
  let s := s.dropWhile isSpace
  if s.head? = some 45 then max (-2 ^ 31) (-decimal 0 (s.drop 1))
  else min (2 ^ 31 - 1) (decimal 0 (if s.head? = some 43 then s.drop 1 else s))

def showDigits : ℕ → ℕ → List UInt8
  | 0, _ => []
  | fuel + 1, n => (if n < 10 then [] else showDigits fuel (n / 10)) ++ [UInt8.ofNat (48 + n % 10)]

def showNat (n : ℕ) : List UInt8 := showDigits (n + 1) n

theorem showDigits_fuel {f g n : ℕ} (hf : n < f) (hg : n < g) : showDigits f n = showDigits g n := by
  induction f generalizing g n with
  | zero => omega
  | succ f ih =>
    cases g with
    | zero => omega
    | succ g =>
      rw [showDigits, showDigits]
      split_ifs with hn
      · rfl
      · rw [ih (show n / 10 < f by omega) (show n / 10 < g by omega)]

theorem showNat_eq (n : ℕ) :
    showNat n = (if n < 10 then [] else showNat (n / 10)) ++ [UInt8.ofNat (48 + n % 10)] := by
  rw [showNat, showDigits]
  split_ifs with hn
  · rfl
  · rw [showNat, showDigits_fuel (show n / 10 < n by omega) (Nat.lt_succ_self _)]

theorem digit_range : ∀ d < 10, (48 ≤ UInt8.ofNat (48 + d) ∧ UInt8.ofNat (48 + d) ≤ 57) ∧
    (UInt8.ofNat (48 + d)).toNat - 48 = d := by
  decide

theorem mem_showNat {n : ℕ} {c : UInt8} (h : c ∈ showNat n) : 48 ≤ c ∧ c ≤ 57 := by
  induction n using Nat.strongRecOn with
  | ind n ih =>
    rw [showNat_eq, List.mem_append, List.mem_singleton] at h
    rcases h with h | rfl
    · split_ifs at h with hn
      · exact absurd h List.not_mem_nil
      · exact ih (n / 10) (by omega) h
    · exact (digit_range _ (Nat.mod_lt n (by decide))).1

theorem showNat_ne_nil (n : ℕ) : showNat n ≠ [] := by
  rw [showNat_eq]
  exact List.append_ne_nil_of_right_ne_nil _ (List.cons_ne_nil _ _)

theorem read_showNat {β : Type*} {read : ℕ → List UInt8 → β} {bound : ℕ}
    (hread : ∀ v d s, d < 10 → v * 10 + d ≤ bound → read v (UInt8.ofNat (48 + d) :: s) = read (v * 10 + d) s)
    {n : ℕ} (hn : n ≤ bound) (s : List UInt8) : read 0 (showNat n ++ s) = read n s := by
  induction n using Nat.strongRecOn generalizing s with
  | ind n ih =>
    have hlast : n % 10 < 10 := Nat.mod_lt n (by decide)
    rw [showNat_eq]
    split_ifs with h
    · have hzero : 0 * 10 + n % 10 = n := by omega
      rw [List.nil_append, List.singleton_append, hread 0 _ _ hlast (by omega), hzero]
    · have hsplit : n / 10 * 10 + n % 10 = n := by omega
      rw [List.append_assoc, List.singleton_append, ih (n / 10) (by omega) (by omega),
        hread _ _ _ hlast (by omega), hsplit]

theorem decimal_showNat (n : ℕ) (s : List UInt8) : decimal 0 (showNat n ++ s) = decimal n s := by
  apply read_showNat _ le_rfl
  intro v d s hd _
  rw [decimal, if_pos (digit_range d hd).1, (digit_range d hd).2]

theorem strstr_isSome {needle s : List UInt8} : (strstr needle s).isSome ↔ needle <:+: s := by
  induction s with
  | nil =>
    unfold strstr
    split_ifs with h
    · simp [h]
    · simp [h]
  | cons c s ih =>
    unfold strstr
    split_ifs with h
    · simp [h.isInfix]
    · rw [ih, List.infix_cons_iff]
      simp [h]

theorem strstr_append_notMem {d : UInt8} {n pre : List UInt8} (h : d ∉ pre) (s : List UInt8) :
    strstr (d :: n) (pre ++ s) = strstr (d :: n) s := by
  induction pre with
  | nil => rfl
  | cons c pre ih =>
    rw [List.mem_cons, not_or] at h
    rw [List.cons_append, strstr, if_neg (fun hp => h.1 (List.cons_prefix_cons.mp hp).1), ih h.2]

theorem strstr_start {d : UInt8} {n s : List UInt8} : strstr (d :: n) (d :: n ++ s) = some (d :: n ++ s) := by
  rw [List.cons_append, strstr, if_pos (show d :: n <+: d :: (n ++ s) from List.prefix_append (d :: n) s)]

theorem strstr_spec {needle s r : List UInt8} (h : strstr needle s = some r) :
    ∃ x, s = x ++ r ∧ needle <+: r ∧ ∀ k ≤ x.length, strstr needle (s.drop k) = some r := by
  have h' := h
  induction s with
  | nil =>
    unfold strstr at h
    split_ifs at h with hn
    cases h
    exact ⟨[], rfl, hn ▸ List.nil_prefix, fun k _ => by rwa [List.drop_nil]⟩
  | cons c s ih =>
    unfold strstr at h
    split_ifs at h with hp
    · cases h
      refine ⟨[], rfl, hp, fun k hk => ?_⟩
      rwa [Nat.le_zero.mp hk]
    · obtain ⟨x, rfl, hr, hlater⟩ := ih h h
      refine ⟨c :: x, rfl, hr, fun k hk => ?_⟩
      cases k with
      | zero => exact h'
      | succ k => exact hlater k (Nat.le_of_succ_le_succ hk)

def strstrAt (needle s : List UInt8) : Option ℕ := (strstr needle s).map fun r => s.length - r.length

theorem strstrAt_isSome {needle s : List UInt8} : (strstrAt needle s).isSome ↔ needle <:+: s := by
  rw [strstrAt, Option.isSome_map, strstr_isSome]

theorem strstrAt_spec {needle s : List UInt8} {k : ℕ} (h : strstrAt needle s = some k) :
    needle <+: s.drop k ∧ ∀ j ≤ k, strstrAt needle (s.drop j) = some (k - j) := by
  obtain ⟨r, hr, hk⟩ := Option.map_eq_some_iff.mp h
  obtain ⟨x, rfl, hp, hlater⟩ := strstr_spec hr
  rw [List.length_append, Nat.add_sub_cancel] at hk
  subst hk
  refine ⟨by rwa [List.drop_left], fun j hj => ?_⟩
  rw [strstrAt, hlater j hj, Option.map_some, List.length_drop, List.length_append]
  congr 1
  omega

end Wap610n.CString
