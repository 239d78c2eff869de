import Mathlib.Data.List.Nodup
import Mathlib.Logic.Function.Basic

/-!
Hash tables with a chain for each hash value: a table whose entries all lie in their chains, no two of a key, is a partial
function of the keys.
-/

namespace Wap610n.Chained

variable {κ ε : Type*}

section

variable (P : ε → Bool) (f : ε → Option ε)

def alterFirst : List ε → List ε
  | [] => []
  | e :: l => if P e then (f e).toList ++ l else e :: alterFirst l

variable {P f}

theorem alterFirst_of_find? {l : List ε} {e : ε} (h : l.find? P = some e) :
    ∃ l₁ l₂, l = l₁ ++ e :: l₂ ∧ alterFirst P f l = l₁ ++ ((f e).toList ++ l₂) := by
  induction l with
  | nil => exact absurd h (by simp)
  | cons d l ih =>
    by_cases hd : P d = true
    · rw [List.find?_cons_of_pos hd, Option.some.injEq] at h
      subst h
      exact ⟨[], l, rfl, if_pos hd⟩
    · rw [List.find?_cons_of_neg hd] at h
      obtain ⟨l₁, l₂, hl, halter⟩ := ih h
      refine ⟨d :: l₁, l₂, by rw [hl, List.cons_append], ?_⟩
      rw [alterFirst, if_neg hd, halter, List.cons_append]

end

section

variable (key : ε → κ) (hash : κ → ℕ)

structure Wf (t : ℕ → List ε) : Prop where
  place : ∀ i, ∀ e ∈ t i, hash (key e) = i
  nodup : ∀ i, ((t i).map key).Nodup

variable {key hash} in
theorem map_key_filterMap {f : ε → Option ε} (hf : ∀ e e', f e = some e' → key e' = key e) (l : List ε) :
    ((l.filterMap f).map key).Sublist (l.map key) := by
  induction l with
  | nil => exact List.Sublist.slnil
  | cons e l ih =>
    cases he : f e with
    | none =>
      rw [List.filterMap_cons_none he]
      exact ih.cons _
    | some e' =>
      rw [List.filterMap_cons_some he, List.map_cons, List.map_cons, hf e e' he]
      exact ih.cons_cons _

variable {key hash} in
theorem Wf.filterMap {t : ℕ → List ε} (h : Wf key hash t) {f : ε → Option ε}
    (hf : ∀ e e', f e = some e' → key e' = key e) : Wf key hash fun i => (t i).filterMap f where
  place i d hd := by
    obtain ⟨e, he, hfe⟩ := List.mem_filterMap.mp hd
    rw [hf e d hfe]
    exact h.place i e he
  nodup i := (map_key_filterMap hf (t i)).nodup (h.nodup i)

variable [DecidableEq κ]

def get (t : ℕ → List ε) (k : κ) : Option ε := (t (hash k)).find? fun e => key e = k

def add (t : ℕ → List ε) (e : ε) : ℕ → List ε := Function.update t (hash (key e)) (e :: t (hash (key e)))

variable {key hash} {t : ℕ → List ε} {k : κ} {e : ε}

theorem key_get (h : get key hash t k = some e) : key e = k := by simpa using List.find?_some h

theorem find?_key_iff {l : List ε} (h : (l.map key).Nodup) :
    (l.find? fun e => key e = k) = some e ↔ e ∈ l ∧ key e = k := by
  constructor
  · intro hfind
    exact ⟨List.mem_of_find?_eq_some hfind, by simpa using List.find?_some hfind⟩
  · rintro ⟨hmem, hkey⟩
    have hsome : (l.find? fun e => key e = k).isSome = true := by
      rw [List.find?_isSome]
      exact ⟨e, hmem, decide_eq_true hkey⟩
    obtain ⟨d, hd⟩ := Option.isSome_iff_exists.mp hsome
    have hdk : key d = k := by simpa using List.find?_some hd
    have hde : d = e := List.inj_on_of_nodup_map h (List.mem_of_find?_eq_some hd) hmem (hdk.trans hkey.symm)
    rw [hd, hde]

theorem Wf.get_iff (h : Wf key hash t) : get key hash t k = some e ↔ (∃ i, e ∈ t i) ∧ key e = k := by
  rw [get, find?_key_iff (h.nodup _)]
  constructor
  · rintro ⟨hmem, hkey⟩
    exact ⟨⟨_, hmem⟩, hkey⟩
  · rintro ⟨⟨i, hmem⟩, rfl⟩
    exact ⟨by rwa [h.place i e hmem], rfl⟩

theorem Wf.add (h : Wf key hash t) (hnew : get key hash t (key e) = none) : Wf key hash (add key hash t e) where
  place i d hd := by
    rw [Chained.add, Function.update_apply] at hd
    split_ifs at hd with hi
    · rcases List.mem_cons.mp hd with rfl | hd
      · exact hi.symm
      · exact hi ▸ h.place _ d hd
    · exact h.place i d hd
  nodup i := by
    rw [Chained.add, Function.update_apply]
    split_ifs with hi
    · rw [List.map_cons, List.nodup_cons]
      refine ⟨fun hmem => ?_, h.nodup _⟩
      obtain ⟨d, hd, hkey⟩ := List.mem_map.mp hmem
      rw [get, List.find?_eq_none] at hnew
      exact hnew d hd (decide_eq_true hkey)
    · exact h.nodup i

theorem get_add : get key hash (add key hash t e) k = if k = key e then some e else get key hash t k := by
  rw [get, Chained.add, Function.update_apply]
  split_ifs with hhash hk hk
  · exact List.find?_cons_of_pos (by simpa using hk.symm)
  · rw [List.find?_cons_of_neg (by simpa using Ne.symm hk), ← hhash]
    rfl
  · exact absurd (congrArg hash hk) hhash
  · rfl

theorem Wf.get_filterMap (h : Wf key hash t) {f : ε → Option ε} (hf : ∀ e e', f e = some e' → key e' = key e) (k : κ) :
    get key hash (fun i => (t i).filterMap f) k = (get key hash t k).bind f := by
  apply Option.ext
  intro d
  rw [(h.filterMap hf).get_iff, Option.bind_eq_some_iff]
  constructor
  · rintro ⟨⟨i, hd⟩, hkey⟩
    obtain ⟨e, he, hfe⟩ := List.mem_filterMap.mp hd
    exact ⟨e, h.get_iff.mpr ⟨⟨i, he⟩, (hf e d hfe).symm.trans hkey⟩, hfe⟩
  · rintro ⟨e, he, hfe⟩
    obtain ⟨⟨i, hmem⟩, hkey⟩ := h.get_iff.mp he
    exact ⟨⟨i, List.mem_filterMap.mpr ⟨e, hmem, hfe⟩⟩, (hf e d hfe).trans hkey⟩

variable {P : ε → Bool} {f : ε → Option ε} {i : ℕ} {e₀ : ε}

theorem filterMap_of_notMem {l : List ε} (h : key e₀ ∉ l.map key) :
    (l.filterMap fun e => if key e = key e₀ then f e else some e) = l := by
  have hcongr : (l.filterMap fun e => if key e = key e₀ then f e else some e) = l.filterMap some := by
    apply List.filterMap_congr
    intro e he
    have hkey : key e ≠ key e₀ := fun hkey => h (hkey ▸ List.mem_map_of_mem he)
    rw [if_neg hkey]
  rw [hcongr, List.filterMap_some]

theorem alterFirst_eq_filterMap {l : List ε} (hl : (l.map key).Nodup) (h₀ : l.find? P = some e₀) :
    alterFirst P f l = l.filterMap fun e => if key e = key e₀ then f e else some e := by
  obtain ⟨l₁, l₂, rfl, halter⟩ := alterFirst_of_find? (f := f) h₀
  rw [List.map_append, List.map_cons, List.nodup_middle, List.nodup_cons, List.mem_append, not_or] at hl
  rw [halter, List.filterMap_append, List.filterMap_cons, if_pos rfl, filterMap_of_notMem hl.1.1,
    filterMap_of_notMem hl.1.2]
  cases f e₀ <;> rfl

theorem Wf.alter_eq (h : Wf key hash t) (h₀ : (t i).find? P = some e₀) :
    Function.update t i (alterFirst P f (t i)) =
      fun j => (t j).filterMap fun e => if key e = key e₀ then f e else some e := by
  funext j
  rw [Function.update_apply]
  split_ifs with hj
  · rw [hj, alterFirst_eq_filterMap (h.nodup i) h₀]
  · rw [filterMap_of_notMem]
    intro hmem
    obtain ⟨e, he, hkey⟩ := List.mem_map.mp hmem
    exact hj ((h.place j e he).symm.trans ((congrArg hash hkey).trans (h.place i e₀ (List.mem_of_find?_eq_some h₀))))

end

end Wap610n.Chained
