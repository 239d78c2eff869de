import Mathlib.Data.List.Induction
import Mathlib.Logic.Basic

/-!
Runs of a partial step function. The relation `ok` selects the events a run may meet in a state.
-/

namespace Wap610n.Transition

variable {σ ε : Type*}

inductive Run (step : σ → ε → Option σ) (ok : σ → ε → Prop) (s₀ : σ) : σ → Prop
  | refl : Run step ok s₀ s₀
  | tail {s s' : σ} {e : ε} : Run step ok s₀ s → ok s e → step s e = some s' → Run step ok s₀ s'

theorem Run.invariant {step : σ → ε → Option σ} {ok : σ → ε → Prop} {s₀ s : σ} (Inv : σ → Prop)
    (h₀ : Inv s₀) (hstep : ∀ s e s', Inv s → ok s e → step s e = some s' → Inv s')
    (h : Run step ok s₀ s) : Inv s := by
  induction h with
  | refl => exact h₀
  | tail _ hok hs ih => exact hstep _ _ _ ih hok hs

def exec (step : σ → ε → Option σ) : σ → List ε → Option σ
  | s, [] => some s
  | s, e :: es => (step s e).bind fun s' => exec step s' es

theorem Run.exec {step : σ → ε → Option σ} {ok : σ → ε → Prop} {s₀ : σ} (hok : ∀ s e, ok s e)
    {s s' : σ} {es : List ε} (h : Run step ok s₀ s) (he : exec step s es = some s') : Run step ok s₀ s' := by
  induction es generalizing s with
  | nil => exact Option.some.inj he ▸ h
  | cons e es ih =>
    obtain ⟨u, hu, hr⟩ := Option.bind_eq_some_iff.mp he
    exact ih (h.tail (hok s e) hu) hr

theorem Run.exec_of_mem {step : σ → ε → Option σ} {ok : σ → ε → Prop} {s₀ s s' : σ} {es : List ε}
    (hok : ∀ e ∈ es, ∀ s, ok s e) (h : Run step ok s₀ s) (he : Transition.exec step s es = some s') : Run step ok s₀ s' := by
  induction es generalizing s with
  | nil => exact Option.some.inj he ▸ h
  | cons e es ih =>
    obtain ⟨u, hu, hr⟩ := Option.bind_eq_some_iff.mp he
    exact ih (fun e' he' => hok e' (List.mem_cons_of_mem _ he')) (h.tail (hok e List.mem_cons_self s) hu) hr

def execIf (step : σ → ε → Option σ) (ok : σ → ε → Prop) [∀ s e, Decidable (ok s e)] : σ → List ε → Option σ
  | s, [] => some s
  | s, e :: es => if ok s e then (step s e).bind fun s' => execIf step ok s' es else none

theorem Run.execIf {step : σ → ε → Option σ} {ok : σ → ε → Prop} [∀ s e, Decidable (ok s e)] {s₀ s s' : σ}
    {es : List ε} (h : Run step ok s₀ s) (he : execIf step ok s es = some s') : Run step ok s₀ s' := by
  induction es generalizing s with
  | nil => exact Option.some.inj he ▸ h
  | cons e es ih =>
    rw [Transition.execIf] at he
    split_ifs at he with hok
    obtain ⟨u, hu, hr⟩ := Option.bind_eq_some_iff.mp he
    exact ih (h.tail hok hu) hr

theorem exec_append (step : σ → ε → Option σ) (s : σ) (es fs : List ε) :
    exec step s (es ++ fs) = (exec step s es).bind fun s' => exec step s' fs := by
  induction es generalizing s with
  | nil => rfl
  | cons e es ih =>
    rw [List.cons_append, exec, exec]
    cases step s e with
    | none => rfl
    | some s' => exact ih s'

theorem exec_snoc {step : σ → ε → Option σ} {s s' : σ} {es : List ε} {e : ε} (h : exec step s es = some s') :
    exec step s (es ++ [e]) = step s' e := by
  rw [exec_append, h, Option.bind_some, exec]
  cases step s' e <;> rfl

section Track

variable {α : Type*}

def track (step : σ → ε → Option σ) (note : σ → ε → α → α) : σ → List ε → α → α
  | _, [], a => a
  | s, e :: es, a =>
    match step s e with
    | some s' => track step note s' es (note s e a)
    | none => a

theorem exec_track {step : σ → ε → Option σ} (note : σ → ε → α → α) (Inv : σ → α → Prop) {s s' : σ} {a : α}
    {es : List ε} (h₀ : Inv s a)
    (hstep : ∀ s e s' a, e ∈ es → Inv s a → step s e = some s' → Inv s' (note s e a))
    (h : exec step s es = some s') : Inv s' (track step note s es a) := by
  induction es generalizing s a with
  | nil => exact Option.some.inj h ▸ h₀
  | cons e es ih =>
    obtain ⟨u, hu, hr⟩ := Option.bind_eq_some_iff.mp h
    rw [track, hu]
    apply ih (hstep s e u a List.mem_cons_self h₀ hu) _ hr
    intro s e s' a he
    exact hstep s e s' a (List.mem_cons_of_mem _ he)

end Track

section Safe

variable {step : σ → ε → Option σ} {s₀ : σ} {Inv P : σ → Prop} {ok : σ → ε → Prop}

theorem exec_inv (h₀ : Inv s₀) (hstep : ∀ s e s', Inv s → step s e = some s' → ok s e → Inv s') {es : List ε}
    (hok : ∀ pre e s s', pre ++ [e] <+: es → exec step s₀ pre = some s → Inv s → step s e = some s' → ok s e)
    {s : σ} (h : exec step s₀ es = some s) : Inv s := by
  induction es using List.reverseRecOn generalizing s with
  | nil => exact Option.some.inj h ▸ h₀
  | append_singleton es e ih =>
    obtain ⟨u, hu, -⟩ := Option.bind_eq_some_iff.mp ((exec_append step s₀ es [e]).symm.trans h)
    have he : step u e = some s := (exec_snoc hu).symm.trans h
    have hinv : Inv u := by
      apply ih _ hu
      intro pre e' t t' hpre
      exact hok pre e' t t' (hpre.trans (List.prefix_append es [e]))
    exact hstep u e s hinv he (hok es e u s List.prefix_rfl hu hinv he)

theorem exec_safe_iff (h₀ : Inv s₀) (hsafe : ∀ s, Inv s → P s)
    (hstep : ∀ s e s', Inv s → step s e = some s' → (ok s e → Inv s') ∧ (P s' → ok s e)) (es : List ε) :
    (∀ pre s, pre <+: es → exec step s₀ pre = some s → P s) ↔
      ∀ pre e s s', pre ++ [e] <+: es → exec step s₀ pre = some s → step s e = some s' → ok s e := by
  have hkeep : ∀ s e s', Inv s → step s e = some s' → ok s e → Inv s' :=
    fun s e s' hinv he => (hstep s e s' hinv he).1
  constructor
  · intro hall pre e s s' hpre hs he
    have hok : ∀ pre e s s', pre ++ [e] <+: es → exec step s₀ pre = some s → Inv s → step s e = some s' → ok s e := by
      intro pre e s s' hpre hs hinv he
      exact (hstep s e s' hinv he).2 (hall _ s' hpre ((exec_snoc hs).trans he))
    have hinv : Inv s := by
      apply exec_inv h₀ hkeep _ hs
      intro pre' e' t t' h
      exact hok pre' e' t t' ((h.trans (List.prefix_append pre [e])).trans hpre)
    exact hok pre e s s' hpre hs hinv he
  · intro hok pre s hpre hs
    apply hsafe
    apply exec_inv h₀ hkeep _ hs
    intro pre' e t t' h ht _
    exact hok pre' e t t' (h.trans hpre) ht

end Safe

section Fair

variable {step : σ → ε → Option σ} {Inv P : σ → Prop} {progress : ε → Prop}

theorem exec_map_add (s : σ) (es : ℕ → ε) (n m : ℕ) : exec step s ((List.range (n + m)).map es) =
    (exec step s ((List.range n).map es)).bind fun s' => exec step s' ((List.range m).map fun i => es (n + i)) := by
  rw [List.range_add, List.map_append, exec_append, List.map_map]
  rfl

theorem exec_map_one {s s' : σ} {es : ℕ → ε} (h : step s (es 0) = some s') :
    exec step s ((List.range 1).map es) = some s' := by
  simp only [List.range_one, List.map_cons, List.map_nil, exec, h, Option.bind_some]

variable (rank : σ → ℕ) (hstep : ∀ s e, Inv s → ¬P s → ∃ s', step s e = some s' ∧ Inv s' ∧ rank s' ≤ rank s ∧
  (progress e → rank s' < rank s))
include hstep

theorem exec_advances {j : ℕ} {es : ℕ → ε} (hj : progress (es j)) {s : σ} (h : Inv s) :
    ∃ n s', exec step s ((List.range n).map es) = some s' ∧ Inv s' ∧ (P s' ∨ rank s' < rank s) := by
  induction j generalizing s es with
  | zero =>
    by_cases hP : P s
    · exact ⟨0, s, rfl, h, Or.inl hP⟩
    obtain ⟨s', hs', hinv, -, hlt⟩ := hstep s (es 0) h hP
    exact ⟨1, s', exec_map_one hs', hinv, Or.inr (hlt hj)⟩
  | succ j ih =>
    by_cases hP : P s
    · exact ⟨0, s, rfl, h, Or.inl hP⟩
    obtain ⟨s', hs', hinv, hle, -⟩ := hstep s (es 0) h hP
    have hj' : progress (es (1 + j)) := by rwa [Nat.add_comm j 1] at hj
    obtain ⟨n, t, ht, hinv', hdone⟩ := @ih (fun i => es (1 + i)) hj' s' hinv
    refine ⟨1 + n, t, ?_, hinv', hdone.imp_right fun hlt => Nat.lt_of_lt_of_le hlt hle⟩
    rw [exec_map_add, exec_map_one hs', Option.bind_some, ht]

theorem exec_reaches {es : ℕ → ε} (hfair : ∀ k, ∃ j, progress (es (k + j))) {s : σ} (h : Inv s) :
    ∃ n s', exec step s ((List.range n).map es) = some s' ∧ Inv s' ∧ P s' := by
  induction hr : rank s using Nat.strongRecOn generalizing s es with
  | ind r ih =>
    obtain ⟨j, hj⟩ := hfair 0
    obtain ⟨n, s', hs', hinv, hP | hlt⟩ := exec_advances rank hstep hj h
    · exact ⟨_, s', hs', hinv, hP⟩
    · have hfair' : ∀ k, ∃ j, progress (es (n + (k + j))) := by
        intro k
        obtain ⟨j, hj⟩ := hfair (n + k)
        exact ⟨j, by rwa [Nat.add_assoc] at hj⟩
      obtain ⟨m, t, ht, hdone⟩ := @ih (rank s') (hr ▸ hlt) (fun i => es (n + i)) hfair' s' hinv rfl
      refine ⟨n + m, t, ?_, hdone⟩
      rw [exec_map_add, hs', Option.bind_some, ht]

end Fair

section Inevitable

variable {step : σ → ε → Option σ} {ok : σ → ε → Prop} {P Safe : σ → Prop} {s s' u : σ} {e : ε}

/-- Whatever allowed events come, none is missing and `P` is reached after finitely many of them. -/
inductive Inevitable (step : σ → ε → Option σ) (ok : σ → ε → Prop) (P : σ → Prop) : σ → Prop
  | now {s : σ} : P s → Inevitable step ok P s
  | next {s : σ} : (∃ e s', ok s e ∧ step s e = some s') →
    (∀ e s', ok s e → step s e = some s' → Inevitable step ok P s') → Inevitable step ok P s

theorem Inevitable.after (h : Inevitable step ok P s) (hP : ¬P s) (hok : ok s e) (hs : step s e = some s') :
    Inevitable step ok P s' := by
  cases h with
  | now hnow => exact absurd hnow hP
  | next _ hall => exact hall e s' hok hs

theorem Inevitable.of_stuck (h : Inevitable step ok P s) (hstuck : ∀ e, step s e = none) : P s := by
  cases h with
  | now hnow => exact hnow
  | next hcan _ =>
    obtain ⟨e, s', -, hs⟩ := hcan
    exact absurd ((hstuck e).symm.trans hs) (by simp)

theorem Run.head (hok : ok s e) (hs : step s e = some s') (h : Run step ok s' u) : Run step ok s u := by
  induction h with
  | refl => exact Run.refl.tail hok hs
  | tail _ hok' hs' ih => exact ih.tail hok' hs'

theorem Run.cases_head (h : Run step ok s u) :
    u = s ∨ ∃ e s', ok s e ∧ step s e = some s' ∧ Run step ok s' u := by
  induction h with
  | refl => exact Or.inl rfl
  | tail _ hok hs ih =>
    right
    rcases ih with rfl | ⟨e, s', hok', hs', hrun⟩
    · exact ⟨_, _, hok, hs, .refl⟩
    · exact ⟨e, s', hok', hs', hrun.tail hok hs⟩

structure Secured (step : σ → ε → Option σ) (ok : σ → ε → Prop) (P Safe : σ → Prop) (s : σ) : Prop where
  inevitable : Inevitable step ok P s
  safe : ∀ u, Run step ok s u → Safe u

theorem Secured.after (h : Secured step ok P Safe s) (hP : ¬P s) (hok : ok s e) (hs : step s e = some s') :
    Secured step ok P Safe s' :=
  ⟨h.inevitable.after hP hok hs, fun u hrun => h.safe u (hrun.head hok hs)⟩

theorem Secured.next (hsafe : Safe s) (hcan : ∃ e s', ok s e ∧ step s e = some s')
    (hall : ∀ e s', ok s e → step s e = some s' → Secured step ok P Safe s') : Secured step ok P Safe s := by
  refine ⟨.next hcan fun e s' hok hs => (hall e s' hok hs).inevitable, fun u hrun => ?_⟩
  rcases hrun.cases_head with rfl | ⟨e, s', hok, hs, hrun⟩
  · exact hsafe
  · exact (hall e s' hok hs).safe u hrun

theorem Secured.of_stuck (hsafe : Safe s) (hP : P s) (hstuck : ∀ e, step s e = none) :
    Secured step ok P Safe s := by
  refine ⟨.now hP, fun u hrun => ?_⟩
  rcases hrun.cases_head with rfl | ⟨e, s', -, hs, -⟩
  · exact hsafe
  · exact absurd ((hstuck e).symm.trans hs) (by simp)

theorem secured_iff_of_step (hP : ¬P s) (hok : ok s e) (hs : step s e = some s')
    (hunique : ∀ e' t, ok s e' → step s e' = some t → t = s') :
    Secured step ok P Safe s ↔ Safe s ∧ Secured step ok P Safe s' := by
  constructor
  · intro h
    exact ⟨h.safe s .refl, h.after hP hok hs⟩
  · rintro ⟨hsafe, h⟩
    refine .next hsafe ⟨e, s', hok, hs⟩ fun e' t hok' hs' => ?_
    rwa [hunique e' t hok' hs']

end Inevitable

end Wap610n.Transition
