import Mathlib.Data.List.TakeWhile

/-!
Buffers of strings that are closed by a NUL each; an empty string ends such a list.
-/

namespace Wap610n.CString

def zstrings (ss : List (List UInt8)) : List UInt8 := ss.flatMap fun s => s ++ [0]

@[simp] theorem zstrings_nil : zstrings [] = [] := rfl

theorem zstrings_cons (s : List UInt8) (ss : List (List UInt8)) : zstrings (s :: ss) = s ++ 0 :: zstrings ss := by
  rw [zstrings, List.flatMap_cons, List.append_assoc, List.singleton_append, zstrings]

theorem zstrings_append (a b : List (List UInt8)) : zstrings (a ++ b) = zstrings a ++ zstrings b :=
  List.flatMap_append

theorem length_le_zstrings (ss : List (List UInt8)) : ss.length ≤ (zstrings ss).length := by
  induction ss with
  | nil => rfl
  | cons s ss ih =>
    rw [zstrings_cons, List.length_append, List.length_cons, List.length_cons]
    omega

/-- The strings of a buffer that are closed by a NUL; `cur` is the part of the first one read so far. -/
def strings : List UInt8 → List UInt8 → List (List UInt8)
  | _, [] => []
  | cur, c :: f => if c = 0 then cur :: strings [] f else strings (cur ++ [c]) f

theorem strings_append {cur : List UInt8} (f : List UInt8) (hcur : ∀ c ∈ cur, c ≠ 0) :
    (∀ s ∈ strings cur f, ∀ c ∈ s, c ≠ 0) ∧
      ∃ tail, (∀ c ∈ tail, c ≠ 0) ∧ cur ++ f = zstrings (strings cur f) ++ tail := by
  induction f generalizing cur with
  | nil => exact ⟨fun _ hs => absurd hs List.not_mem_nil, cur, hcur, List.append_nil cur⟩
  | cons c f ih =>
    rw [strings]
    split_ifs with hc
    · obtain ⟨hs, tail, ht, heq⟩ := @ih [] fun _ h => absurd h List.not_mem_nil
      refine ⟨?_, tail, ht, ?_⟩
      · intro s hmem
        rcases List.mem_cons.mp hmem with rfl | hmem
        · exact hcur
        · exact hs s hmem
      · rw [List.nil_append] at heq
        rw [zstrings_cons, List.append_assoc, List.cons_append, ← heq, hc]
    · obtain ⟨hs, tail, ht, heq⟩ := @ih (cur ++ [c]) (by
        intro x hx
        rcases List.mem_append.mp hx with hx | hx
        · exact hcur x hx
        · rwa [List.mem_singleton.mp hx])
      exact ⟨hs, tail, ht, by rw [← heq, List.append_assoc, List.singleton_append]⟩

theorem strings_split (f : List UInt8) :
    (∀ s ∈ strings [] f, ∀ c ∈ s, c ≠ 0) ∧ ∃ tail, (∀ c ∈ tail, c ≠ 0) ∧ f = zstrings (strings [] f) ++ tail := by
  apply strings_append f
  exact fun _ h => absurd h List.not_mem_nil

theorem strings_cons {s : List UInt8} (hs : ∀ c ∈ s, c ≠ 0) (cur f : List UInt8) :
    strings cur (s ++ 0 :: f) = (cur ++ s) :: strings [] f := by
  induction s generalizing cur with
  | nil => simp [strings]
  | cons c s ih =>
    rw [List.cons_append, strings, if_neg (hs c List.mem_cons_self), ih fun x hx => hs x (List.mem_cons_of_mem _ hx),
      List.append_assoc, List.singleton_append]

theorem strings_zstrings {ss : List (List UInt8)} (hss : ∀ s ∈ ss, ∀ c ∈ s, c ≠ 0) (f : List UInt8) :
    strings [] (zstrings ss ++ f) = ss ++ strings [] f := by
  induction ss with
  | nil => rfl
  | cons s ss ih =>
    rw [zstrings_cons, List.append_assoc, List.cons_append, strings_cons (hss s List.mem_cons_self), List.nil_append,
      ih fun t ht => hss t (List.mem_cons_of_mem _ ht), List.cons_append]

theorem nil_mem_strings {f : List UInt8} (h : [0, 0] <:+ f) (cur : List UInt8) : [] ∈ strings cur f := by
  induction f generalizing cur with
  | nil => simp at h
  | cons c f ih =>
    rcases List.suffix_cons_iff.mp h with heq | hf
    · rw [← heq]
      simp [strings]
    · rw [strings]
      split_ifs
      · exact List.mem_cons_of_mem _ (ih hf _)
      · exact ih hf _

def entries (f : List UInt8) : List (List UInt8) := (strings [] f).takeWhile fun s => s ≠ []

theorem entries_eq {f : List UInt8} {ss more : List (List UInt8)} (h : strings [] f = ss ++ [] :: more) (hss : [] ∉ ss) :
    entries f = ss := by
  have hall : ∀ s ∈ ss, (fun s : List UInt8 => decide (s ≠ [])) s = true := by
    intro s hs
    exact decide_eq_true fun heq => hss (heq ▸ hs)
  rw [entries, h, List.takeWhile_append_of_pos hall, List.takeWhile_cons_of_neg (by decide), List.append_nil]

theorem entries_mem {f s : List UInt8} (h : s ∈ entries f) : s ≠ [] ∧ ∀ c ∈ s, c ≠ 0 := by
  refine ⟨?_, (strings_split f).1 s ((List.takeWhile_prefix _).subset h)⟩
  simpa using List.mem_takeWhile_imp h

theorem entries_zstrings {ss : List (List UInt8)} (hss : ∀ s ∈ ss, s ≠ [] ∧ ∀ c ∈ s, c ≠ 0) (f : List UInt8) :
    entries (zstrings ss ++ 0 :: f) = ss := by
  have hstrings : strings [] (zstrings ss ++ 0 :: f) = ss ++ [] :: strings [] f := by
    rw [strings_zstrings fun s hs => (hss s hs).2, strings, if_pos rfl]
  exact entries_eq hstrings fun hmem => (hss [] hmem).1 rfl

theorem eq_entries_append {f : List UInt8} (h : [] ∈ strings [] f) : ∃ rest, f = zstrings (entries f) ++ 0 :: rest := by
  obtain ⟨-, tail, -, heq⟩ := strings_split f
  obtain ⟨ss, more, hsplit, hss⟩ := List.eq_append_cons_of_mem h
  refine ⟨zstrings more ++ tail, ?_⟩
  rw [entries_eq hsplit hss]
  rw [hsplit, zstrings_append, zstrings_cons, List.append_assoc] at heq
  exact heq

end Wap610n.CString
