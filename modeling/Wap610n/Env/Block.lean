import Wap610n.Env.Setenv

namespace Wap610n.Env

open Bytes CString

structure Var where
  key : List UInt8
  value : List UInt8
  keyClean : ∀ c ∈ key, c ≠ 0 ∧ c ≠ 61
  valueClean : ∀ c ∈ value, c ≠ 0

namespace Var

variable (v : Var)

def text : List UInt8 := v.key ++ 61 :: v.value

theorem text_length : v.text.length = v.key.length + v.value.length + 1 := by
  simp only [text, List.length_append, List.length_cons]
  omega

theorem text_clean : ∀ c ∈ v.text, c ≠ 0 := by
  intro c hc
  rcases List.mem_append.mp hc with hk | hv
  · exact (v.keyClean c hk).1
  · rcases List.mem_cons.mp hv with rfl | hv
    · decide
    · exact v.valueClean c hv

theorem text_ne_nil : v.text ≠ [] := by simp [text]

end Var

def texts (vs : List Var) : List UInt8 := zstrings (vs.map Var.text)

theorem texts_cons (v : Var) (vs : List Var) : texts (v :: vs) = v.text ++ 0 :: texts vs := zstrings_cons _ _

theorem texts_append (as bs : List Var) : texts (as ++ bs) = texts as ++ texts bs := by
  rw [texts, List.map_append, zstrings_append]
  rfl

theorem texts_ne_nil {vs : List Var} (h : vs ≠ []) : texts vs ≠ [] := by
  cases vs with
  | nil => exact absurd rfl h
  | cons v vs => simp [texts_cons]

theorem length_le_texts (vs : List Var) : vs.length ≤ (texts vs).length := by
  simpa [texts] using length_le_zstrings (vs.map Var.text)

/-- The strings and the empty one at their end, which takes two bytes if it stands alone. -/
def block (vs : List Var) : List UInt8 := if vs = [] then [0, 0] else texts vs ++ [0]

def Solid : List UInt8 → Prop
  | [] => False
  | [c] => c = 0
  | c :: d :: l => (c ≠ 0 ∨ d ≠ 0) ∧ Solid (d :: l)

theorem Solid.append {cs l : List UInt8} (hcs : ∀ c ∈ cs, c ≠ 0) (h : Solid l) : Solid (cs ++ l) := by
  induction cs with
  | nil => exact h
  | cons c cs ih =>
    have htail := ih fun d hd => hcs d (List.mem_cons_of_mem _ hd)
    cases hl : cs ++ l with
    | nil => rw [hl] at htail; exact htail.elim
    | cons d r =>
      rw [hl] at htail
      rw [List.cons_append, hl]
      exact ⟨Or.inl (hcs c List.mem_cons_self), htail⟩

theorem Solid.cons_zero {c : UInt8} {l : List UInt8} (hc : c ≠ 0) (h : Solid (c :: l)) : Solid (0 :: c :: l) :=
  ⟨Or.inr hc, h⟩

theorem solid_texts {vs : List Var} (h : vs ≠ []) : Solid (texts vs) := by
  induction vs with
  | nil => exact absurd rfl h
  | cons v vs ih =>
    rw [texts_cons]
    apply Solid.append v.text_clean
    cases vs with
    | nil => exact rfl
    | cons w ws =>
      have htail := ih (by simp)
      obtain ⟨c, cs, hc⟩ := List.exists_cons_of_ne_nil w.text_ne_nil
      rw [texts_cons, hc, List.cons_append] at htail ⊢
      exact htail.cons_zero (w.text_clean c (hc ▸ List.mem_cons_self))

section

variable {data : ℕ → UInt8} {i fuel : ℕ}

theorem strEnd_text {cs : List UInt8} (hcs : ∀ c ∈ cs, c ≠ 0) (h : Holds data i (cs ++ [0])) (hf : cs.length < fuel) :
    strEnd data fuel i = some (i + cs.length) := by
  induction cs generalizing i fuel with
  | nil =>
    obtain ⟨fuel, rfl⟩ : ∃ k, fuel = k + 1 := ⟨fuel - 1, by omega⟩
    rw [List.nil_append, holds_cons] at h
    rw [strEnd, if_pos h.1]
    rfl
  | cons c cs ih =>
    rw [List.length_cons] at hf
    obtain ⟨fuel, rfl⟩ : ∃ k, fuel = k + 1 := ⟨fuel - 1, by omega⟩
    rw [List.cons_append, holds_cons] at h
    rw [strEnd, h.1, if_neg (hcs c List.mem_cons_self),
      ih (fun x hx => hcs x (List.mem_cons_of_mem _ hx)) h.2 (by omega), List.length_cons]
    congr 1
    omega

theorem envmatch_upTo (name : List UInt8) (i : ℕ) : envmatch data name i = envmatch data (upTo 61 name) i := by
  induction name generalizing i with
  | nil => rfl
  | cons c s ih =>
    by_cases hc : c = 61
    · subst hc
      simp [envmatch, upTo, eq_comm]
    · have hcons : upTo 61 (c :: s) = c :: upTo 61 s := List.takeWhile_cons_of_pos (decide_eq_true hc)
      rw [hcons, envmatch, envmatch, ih]

theorem envmatch_var {v : Var} (name : List UInt8) (h : Holds data i v.text) :
    (envmatch data name i) = if upTo 61 name = v.key then some (i + v.key.length + 1) else none := by
  rw [envmatch_upTo]
  apply envmatch_name
  · intro c hc
    simpa using List.mem_takeWhile_imp hc
  · intro c hc
    exact (v.keyClean c hc).2
  · have hsplit : v.text = (v.key ++ [61]) ++ v.value := by simp [Var.text]
    rw [hsplit] at h
    exact (holds_append.mp h).1

theorem holds_texts_cons {v : Var} {vs : List Var} {l : List UInt8} (h : Holds data i (texts (v :: vs) ++ l)) :
    Holds data i (v.text ++ [0]) ∧ Holds data (i + v.text.length + 1) (texts vs ++ l) := by
  have hsplit : texts (v :: vs) ++ l = (v.text ++ [0]) ++ (texts vs ++ l) := by
    simp [texts_cons]
  rw [hsplit, holds_append] at h
  simpa [Nat.add_assoc] using h

theorem ne_zero_of_holds_text {v : Var} {l : List UInt8} (h : Holds data i (v.text ++ l)) : data i ≠ 0 := by
  obtain ⟨c, cs, hc⟩ := List.exists_cons_of_ne_nil v.text_ne_nil
  rw [hc, List.cons_append, holds_cons] at h
  rw [h.1]
  exact v.text_clean c (hc ▸ List.mem_cons_self)

theorem search_none {vs : List Var} {name : List UInt8} (h : Holds data i (texts vs ++ [0]))
    (hsize : (texts vs).length ≤ cfgEnvSize) (hf : vs.length < fuel) (hnot : ∀ v ∈ vs, v.key ≠ upTo 61 name) :
    search data name fuel i = some none := by
  induction vs generalizing i fuel with
  | nil =>
    obtain ⟨fuel, rfl⟩ : ∃ k, fuel = k + 1 := ⟨fuel - 1, by omega⟩
    have hzero : data i = 0 := (holds_cons.mp h).1
    rw [search, if_pos hzero]
  | cons v vs ih =>
    rw [List.length_cons] at hf
    obtain ⟨fuel, rfl⟩ : ∃ k, fuel = k + 1 := ⟨fuel - 1, by omega⟩
    obtain ⟨htext, hrest⟩ := holds_texts_cons h
    have hlen : (texts (v :: vs)).length = v.text.length + 1 + (texts vs).length := by simp [texts_cons]; omega
    have hkey : upTo 61 name ≠ v.key := Ne.symm (hnot v List.mem_cons_self)
    rw [search, if_neg (ne_zero_of_holds_text htext), strEnd_text v.text_clean htext (by omega), Option.bind_some,
      envmatch_var name (holds_append.mp htext).1, if_neg hkey]
    exact ih hrest (by omega) (by omega) fun w hw => hnot w (List.mem_cons_of_mem _ hw)

theorem search_some {pre post : List Var} {v : Var} {name : List UInt8} (h : Holds data i (texts (pre ++ v :: post) ++ [0]))
    (hsize : (texts (pre ++ v :: post)).length ≤ cfgEnvSize) (hf : pre.length < fuel)
    (hpre : ∀ w ∈ pre, w.key ≠ upTo 61 name) (hkey : v.key = upTo 61 name) :
    search data name fuel i = some (some (i + (texts pre).length, i + (texts pre).length + v.text.length)) := by
  induction pre generalizing i fuel with
  | nil =>
    obtain ⟨fuel, rfl⟩ : ∃ k, fuel = k + 1 := ⟨fuel - 1, by omega⟩
    obtain ⟨htext, -⟩ := holds_texts_cons h
    have hlen : (texts (v :: post)).length = v.text.length + 1 + (texts post).length := by simp [texts_cons]; omega
    rw [List.nil_append] at hsize
    rw [search, if_neg (ne_zero_of_holds_text htext), strEnd_text v.text_clean htext (by omega), Option.bind_some,
      envmatch_var name (holds_append.mp htext).1, if_pos hkey.symm]
    rfl
  | cons w pre ih =>
    rw [List.length_cons] at hf
    obtain ⟨fuel, rfl⟩ : ∃ k, fuel = k + 1 := ⟨fuel - 1, by omega⟩
    rw [List.cons_append] at h hsize
    obtain ⟨htext, hrest⟩ := holds_texts_cons h
    have hlen : (texts (w :: (pre ++ v :: post))).length = w.text.length + 1 + (texts (pre ++ v :: post)).length := by
      simp [texts_cons]; omega
    have hnot : upTo 61 name ≠ w.key := Ne.symm (hpre w List.mem_cons_self)
    rw [search, if_neg (ne_zero_of_holds_text htext), strEnd_text w.text_clean htext (by omega), Option.bind_some,
      envmatch_var name (holds_append.mp htext).1, if_neg hnot]
    have hfound := ih hrest (by omega) (Nat.lt_of_succ_lt_succ hf) fun u hu => hpre u (List.mem_cons_of_mem _ hu)
    have hpos : i + (texts (w :: pre)).length = i + w.text.length + 1 + (texts pre).length := by simp [texts_cons]; omega
    rw [hpos]
    exact hfound

theorem shiftLoop_solid {l : List UInt8} {env nxt : ℕ} (hl : Solid l) (h : Holds data nxt (l ++ [0])) (hlt : env < nxt)
    (hf : l.length ≤ fuel) : shiftLoop data fuel env nxt = some (store data env l, env + l.length - 1) := by
  induction l generalizing data env nxt fuel with
  | nil => exact hl.elim
  | cons c l ih =>
    rw [List.length_cons] at hf
    obtain ⟨fuel, rfl⟩ : ∃ k, fuel = k + 1 := ⟨fuel - 1, by omega⟩
    rw [List.cons_append, holds_cons] at h
    obtain ⟨hc, hrest⟩ := h
    have hat : store data env [c] env = c := store_in (i := 0) (by simp)
    have hkept : Holds (store data env [c]) (nxt + 1) (l ++ [0]) := by
      apply hrest.store_out
      right
      simp
      omega
    have hnext : ∀ d r, l ++ [0] = d :: r → store data env [c] (nxt + 1) = d := by
      intro d r hdr
      rw [hdr, holds_cons] at hkept
      exact hkept.1
    rw [shiftLoop, hc, hat]
    cases l with
    | nil =>
      have hzero : c = 0 := hl
      rw [if_pos ⟨hzero, hnext 0 [] rfl⟩]
      rfl
    | cons d l =>
      have hgo : ¬(c = 0 ∧ store data env [c] (nxt + 1) = 0) := by
        rw [hnext d (l ++ [0]) rfl]
        rintro ⟨h0, h1⟩
        exact hl.1.elim (absurd h0) (absurd h1)
      rw [if_neg hgo, ih hl.2 hkept (by omega) (by simpa using hf)]
      have hstore : store (store data env [c]) (env + 1) (d :: l) = store data env (c :: d :: l) :=
        store_append data env [c] (d :: l)
      rw [hstore]
      congr 2
      simp only [List.length_cons]
      omega

theorem envEnd_solid {l : List UInt8} (hl : Solid l) (h : Holds data i (l ++ [0])) (hi : 0 < i + l.length - 1)
    (hf : l.length ≤ fuel) : envEnd data fuel i = some (i + l.length) := by
  induction l generalizing i fuel with
  | nil => exact hl.elim
  | cons c l ih =>
    rw [List.length_cons] at hf hi
    obtain ⟨fuel, rfl⟩ : ∃ k, fuel = k + 1 := ⟨fuel - 1, by omega⟩
    rw [List.cons_append, holds_cons] at h
    obtain ⟨hc, hrest⟩ := h
    rw [envEnd, hc]
    cases l with
    | nil =>
      have hzero : c = 0 := hl
      have hnext : data (i + 1) = 0 := (holds_cons.mp hrest).1
      rw [if_neg (by simp [hzero, hnext]), if_pos (by simpa using hi)]
      rfl
    | cons d l =>
      have hnext : data (i + 1) = d := (holds_cons.mp hrest).1
      rw [if_pos (by rw [hnext]; exact hl.1), ih hl.2 hrest (by simp) (by simpa using hf)]
      congr 1
      simp only [List.length_cons]
      omega

theorem deleteAt_eq {pre post : List Var} {v : Var} (h : Holds data 0 (block (pre ++ v :: post)))
    (hsize : (block (pre ++ v :: post)).length ≤ cfgEnvSize) :
    ∃ tail, deleteAt data (texts pre).length ((texts pre).length + v.text.length) =
        some (store data (texts pre).length tail) ∧ block (pre ++ post) = texts pre ++ tail ∧
      (texts pre).length + tail.length ≤ (block (pre ++ v :: post)).length := by
  have hblock : block (pre ++ v :: post) = (texts pre ++ (v.text ++ [0])) ++ (texts post ++ [0]) := by
    simp [block, texts_append, texts_cons]
  rw [hblock] at h hsize ⊢
  obtain ⟨-, hpost⟩ := holds_append.mp h
  simp only [List.length_append, List.length_singleton] at hpost hsize ⊢
  rw [Nat.zero_add, ← Nat.add_assoc] at hpost
  have hlen := v.text_length
  by_cases hend : post = []
  · subst hend
    have hzero : data ((texts pre).length + v.text.length + 1) = 0 := (holds_cons.mp hpost).1
    rw [List.append_nil, deleteAt, closeGap, if_pos hzero]
    by_cases hpre : pre = []
    · subst hpre
      refine ⟨[0, 0], ?_, rfl, by simp; omega⟩
      exact congrArg some (store_append data 0 [0] [0])
    · have hpos := List.length_pos_iff.mpr (texts_ne_nil hpre)
      refine ⟨[0], ?_, by simp [block, hpre], by rw [List.length_singleton]; omega⟩
      rw [if_pos hpos, Option.map_some]
      congr 2
      omega
  · obtain ⟨w, ws, rfl⟩ := List.exists_cons_of_ne_nil hend
    have hnz : data ((texts pre).length + v.text.length + 1) ≠ 0 := by
      have hw := (holds_texts_cons hpost).1
      exact ne_zero_of_holds_text hw
    refine ⟨texts (w :: ws) ++ [0], ?_, by simp [block, texts_append], by simp⟩
    rw [deleteAt, closeGap, if_neg hnz, shiftLoop_solid (solid_texts hend) hpost (by omega) (by omega), Option.map_some,
      ← store_append]
    have hpos := List.length_pos_iff.mpr (texts_ne_nil hend)
    congr 2
    omega

theorem envEnd_block {vs : List Var} (h : Holds data 0 (block vs)) (hsize : (block vs).length ≤ cfgEnvSize) :
    envEnd data cfgEnvSize 0 = some (texts vs).length := by
  by_cases hvs : vs = []
  · subst hvs
    have hfirst : data 0 = 0 := (holds_cons.mp h).1
    have hsecond : data 1 = 0 := (holds_cons.mp (holds_cons.mp h).2).1
    rw [cfgEnvSize, envEnd, if_neg (by simp [hfirst, hsecond])]
    rfl
  · rw [block, if_neg hvs] at h hsize
    obtain ⟨v, ws, rfl⟩ := List.exists_cons_of_ne_nil hvs
    have hlen : (texts (v :: ws)).length = v.text.length + 1 + (texts ws).length := by simp [texts_cons]; omega
    have htext := v.text_length
    rw [List.length_append, List.length_singleton] at hsize
    rw [envEnd_solid (solid_texts hvs) h (by omega) (by omega), Nat.zero_add]

end

def joined (sep : UInt8) : List (List UInt8) → List UInt8
  | [] => []
  | val :: vals => sep :: (val ++ joined 32 vals)

theorem joined_length (sep : UInt8) (args : List (List UInt8)) :
    (joined sep args).length = (args.map fun val => val.length + 1).sum := by
  induction args generalizing sep with
  | nil => rfl
  | cons val vals ih =>
    rw [joined, List.length_cons, List.length_append, ih, List.map_cons, List.sum_cons]
    omega

theorem copyArgs_eq (data : ℕ → UInt8) (p : ℕ) (a : List UInt8) (sep : UInt8) (args : List (List UInt8)) :
    copyArgs (store data p (a ++ [0])) (p + a.length) sep args =
      (store data p (a ++ joined sep args ++ [0]), p + (a ++ joined sep args).length) := by
  induction args generalizing a sep with
  | nil => rw [copyArgs, joined, List.append_nil]
  | cons val vals ih =>
    have hstore : store (store data p (a ++ [0])) (p + a.length) (sep :: (val ++ [0])) =
        store data p ((a ++ sep :: val) ++ [0]) := by
      rw [← store_append, store_store (by simp), store_append]
      simp
    have hpos : p + a.length + val.length + 1 = p + (a ++ sep :: val).length := by simp; omega
    rw [copyArgs, hstore, hpos, ih, joined]
    simp

theorem defineAt_eq (data : ℕ → UInt8) (env : ℕ) (name : List UInt8) (args : List (List UInt8)) :
    defineAt data env name args = store data env (name ++ joined 61 args ++ [0, 0]) := by
  have hsplit : name ++ joined 61 args ++ [0, 0] = (name ++ joined 61 args ++ [0]) ++ [0] := by simp
  have hpos : env + (name ++ joined 61 args).length + 1 = env + (name ++ joined 61 args ++ [0]).length := by simp; omega
  rw [defineAt, copyArgs_eq, hsplit]
  dsimp only
  rw [hpos, store_append]

end Wap610n.Env
