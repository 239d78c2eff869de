import Mathlib.Algebra.BigOperators.Group.Finset.Basic
import Mathlib.Algebra.Order.Ring.Int
import Wap610n.Burn.Machine

/-!
The upload branch of `websReadEvent`. A stream `offers` says what the socket has at each read: the size of
the next piece, 0 for no data or end of file, -1 for an error.
-/

namespace Wap610n.Web

open Finset Burn

def maxLine : ℤ := 1024

def websSocketBufsiz : ℤ := 1024

def socketRead (offer bufsize : ℤ) : ℤ := min offer bufsize

structure Receiving where
  clen : ℤ
  lenPostData : ℤ
deriving DecidableEq, Repr

def acceptRead (wp : Receiving) (offer : ℤ) : Receiving :=
  let nbytes := socketRead offer wp.clen
  ⟨wp.clen - nbytes, wp.lenPostData + nbytes⟩

def discardRead (wp : Receiving) (offer : ℤ) : Receiving :=
  let nbytes := socketRead offer maxLine
  ⟨wp.clen - nbytes, wp.lenPostData⟩

def readWhile (read : Receiving → ℤ → Receiving) (offers : ℕ → ℤ) (wp : Receiving) : ℕ → Option Receiving
  | 0 => some wp
  | k + 1 => (readWhile read offers wp k).bind fun wp => if wp.clen > 0 then some (read wp (offers k)) else none

structure UploadRequest where
  burnState : BurnState
  fileContentLen : ℤ
  clen : ℤ
  announced : 0 < clen
  flashSize : ℤ
  hnapFwUpgrade : Bool
  malloced : Bool

namespace UploadRequest

def refused (u : UploadRequest) : Bool :=
  u.burnState.busy ∨ u.fileContentLen < 0 ∨
    (u.clen > u.flashSize ∧ u.hnapFwUpgrade = false ∨ u.clen > u.flashSize + 0x50000 ∧ u.hnapFwUpgrade = true) ∨
    u.malloced = false

def firstBytes (u : UploadRequest) (offers : ℕ → ℤ) : ℤ := socketRead (offers 0) (min u.clen websSocketBufsiz)

def start (u : UploadRequest) (offers : ℕ → ℤ) : Option Receiving :=
  if u.firstBytes offers ≤ 0 then none
  else some ⟨u.clen - u.firstBytes offers, if u.refused then 0 else u.firstBytes offers⟩

def run (u : UploadRequest) (offers : ℕ → ℤ) (k : ℕ) : Option Receiving :=
  (u.start offers).bind fun wp =>
    readWhile (if u.refused then discardRead else acceptRead) (fun i => offers (i + 1)) wp k

end UploadRequest

def Closes (offers : ℕ → ℤ) : Prop := ∃ k₀, ∀ k ≥ k₀, offers k ≤ 0

structure UploadEnds (u : UploadRequest) (offers : ℕ → ℤ) : Prop where
  stops : Closes offers → u.start offers ≠ none → ∃ k wp, u.run offers k = some wp ∧ wp.clen ≤ 0
  bounded : ∀ k wp, u.run offers k = some wp → wp.lenPostData ≤ u.clen
  monotone : ∀ k wp wp', u.run offers k = some wp → u.run offers (k + 1) = some wp' →
    wp.lenPostData ≤ wp'.lenPostData

def SocketOk (u : UploadRequest) (offers : ℕ → ℤ) : Prop :=
  let left := u.clen - u.firstBytes offers
  offers 0 ≤ 0 ∨
  if u.refused then Closes offers → ∃ m, left ≤ ∑ i ∈ range m, socketRead (offers (i + 1)) maxLine
  else (∀ k, offers (k + 1) < 0 → ∃ m ≤ k, left ≤ ∑ i ∈ range m, offers (i + 1)) ∧
    (Closes offers → ∃ m, left ≤ ∑ i ∈ range m, offers (i + 1))

variable {offers : ℕ → ℤ} {wp wp' : Receiving} {k : ℕ}

theorem readWhile_succ {read : Receiving → ℤ → Receiving} (h : readWhile read offers wp k = some wp')
    (hc : 0 < wp'.clen) : readWhile read offers wp (k + 1) = some (read wp' (offers k)) := by
  rw [readWhile, h, Option.bind_some, if_pos hc]

theorem readWhile_pred {read : Receiving → ℤ → Receiving} (h : readWhile read offers wp (k + 1) = some wp') :
    ∃ wp₁, readWhile read offers wp k = some wp₁ ∧ 0 < wp₁.clen ∧ wp' = read wp₁ (offers k) := by
  rw [readWhile] at h
  obtain ⟨wp₁, h₁, h₂⟩ := Option.bind_eq_some_iff.mp h
  split_ifs at h₂ with hc
  exact ⟨wp₁, h₁, hc, (Option.some.inj h₂).symm⟩

theorem readWhile_pos {read : Receiving → ℤ → Receiving} {j : ℕ} {wp₁ : Receiving}
    (h : readWhile read offers wp (k + 1) = some wp') (hj : j ≤ k) (h₁ : readWhile read offers wp j = some wp₁) :
    0 < wp₁.clen := by
  induction k generalizing wp' with
  | zero =>
    obtain ⟨wp₂, h₂, hc, -⟩ := readWhile_pred h
    obtain rfl := Nat.le_zero.mp hj
    exact Option.some.inj (h₁.symm.trans h₂) ▸ hc
  | succ k ih =>
    obtain ⟨wp₂, h₂, hc, -⟩ := readWhile_pred h
    rcases Nat.lt_or_ge k j with hk | hk
    · obtain rfl : j = k + 1 := by omega
      exact Option.some.inj (h₁.symm.trans h₂) ▸ hc
    · exact ih h₂ hk

theorem readWhile_invariant {read : Receiving → ℤ → Receiving} (Inv : ℕ → Receiving → Prop) (h₀ : Inv 0 wp)
    (hstep : ∀ k wp, Inv k wp → 0 < wp.clen → Inv (k + 1) (read wp (offers k)))
    (h : readWhile read offers wp k = some wp') : Inv k wp' := by
  induction k generalizing wp' with
  | zero => exact Option.some.inj h ▸ h₀
  | succ k ih =>
    obtain ⟨wp₁, h₁, hc, rfl⟩ := readWhile_pred h
    exact hstep k wp₁ (ih h₁) hc

theorem accept_total (h : readWhile acceptRead offers wp k = some wp') (h₀ : 0 ≤ wp.clen) :
    wp'.clen + wp'.lenPostData = wp.clen + wp.lenPostData ∧ 0 ≤ wp'.clen := by
  apply readWhile_invariant (fun _ s => s.clen + s.lenPostData = wp.clen + wp.lenPostData ∧ 0 ≤ s.clen) ⟨rfl, h₀⟩ _ h
  rintro k s ⟨hsum, hs⟩ -
  simp only [acceptRead, socketRead]
  omega

theorem discard_clen (h : readWhile discardRead offers wp k = some wp') :
    wp'.clen = wp.clen - ∑ i ∈ range k, socketRead (offers i) maxLine ∧ wp'.lenPostData = wp.lenPostData := by
  apply readWhile_invariant (fun k s => s.clen = wp.clen - ∑ i ∈ range k, socketRead (offers i) maxLine ∧
    s.lenPostData = wp.lenPostData) ⟨by simp, rfl⟩ _ h
  rintro k s ⟨hc, hl⟩ -
  simp only [discardRead, sum_range_succ]
  omega

theorem discard_runs (h : ∀ m < k, ∑ i ∈ range m, socketRead (offers i) maxLine < wp.clen) :
    ∃ wp', readWhile discardRead offers wp k = some wp' := by
  induction k with
  | zero => exact ⟨wp, rfl⟩
  | succ k ih =>
    obtain ⟨wp', hwp'⟩ := ih fun m hm => h m (by omega)
    have hsum := h k (by omega)
    have hc := (discard_clen hwp').1
    exact ⟨_, readWhile_succ hwp' (by omega)⟩

theorem accept_runs (hnn : ∀ i < k, 0 ≤ offers i) (h : ∑ i ∈ range k, offers i < wp.clen) :
    readWhile acceptRead offers wp k =
      some ⟨wp.clen - ∑ i ∈ range k, offers i, wp.lenPostData + ∑ i ∈ range k, offers i⟩ := by
  induction k with
  | zero => simp [readWhile]
  | succ k ih =>
    have hk := hnn k (by omega)
    rw [sum_range_succ] at h ⊢
    have hrun := ih (fun i hi => hnn i (by omega)) (by omega)
    rw [readWhile_succ hrun (by dsimp only; omega)]
    simp only [acceptRead, socketRead, Option.some.injEq, Receiving.mk.injEq]
    omega

theorem accept_stops (hneg : ∀ k, offers k < 0 → ∃ m ≤ k, wp.clen ≤ ∑ i ∈ range m, offers i) {m : ℕ}
    (hm : wp.clen ≤ ∑ i ∈ range m, offers i) :
    ∃ k ≤ m, ∃ wp', readWhile acceptRead offers wp k = some wp' ∧ wp'.clen ≤ 0 := by
  induction m using Nat.strong_induction_on with
  | _ m ih =>
    by_cases hless : ∃ j < m, wp.clen ≤ ∑ i ∈ range j, offers i
    · obtain ⟨j, hj, hsum⟩ := hless
      obtain ⟨k, hk, hstop⟩ := ih j hj hsum
      exact ⟨k, by omega, hstop⟩
    push Not at hless
    cases m with
    | zero => exact ⟨0, le_rfl, wp, rfl, hm⟩
    | succ m =>
      have hnn : ∀ i < m + 1, 0 ≤ offers i := by
        intro i hi
        by_contra hlt
        obtain ⟨j, hj, hsum⟩ := hneg i (by omega)
        exact absurd (hless j (by omega)) (by omega)
      have hlt := hless m (by omega)
      have hrun := accept_runs (fun i hi => hnn i (by omega)) hlt
      rw [sum_range_succ] at hm
      refine ⟨m + 1, le_rfl, _, readWhile_succ hrun (by dsimp only; omega), ?_⟩
      simp only [acceptRead, socketRead]
      omega

theorem accept_shrinks (h : offers k < 0) (hless : ∀ m ≤ k, ∑ i ∈ range m, offers i < wp.clen) :
    ∃ j wp₁ wp₂, readWhile acceptRead offers wp j = some wp₁ ∧ readWhile acceptRead offers wp (j + 1) = some wp₂ ∧
      wp₂.lenPostData < wp₁.lenPostData := by
  induction k using Nat.strong_induction_on with
  | _ k ih =>
    by_cases hearlier : ∃ j < k, offers j < 0
    · obtain ⟨j, hj, hneg⟩ := hearlier
      exact ih j hj hneg fun m hm => hless m (by omega)
    push Not at hearlier
    have hlt := hless k le_rfl
    have hrun := accept_runs hearlier hlt
    refine ⟨k, _, _, hrun, readWhile_succ hrun (by dsimp only; omega), ?_⟩
    simp only [acceptRead, socketRead]
    omega

theorem accept_grows (hneg : ∀ k, offers k < 0 → ∃ m ≤ k, wp.clen ≤ ∑ i ∈ range m, offers i) {wp₁ wp₂ : Receiving}
    (h₁ : readWhile acceptRead offers wp k = some wp₁) (h₂ : readWhile acceptRead offers wp (k + 1) = some wp₂) :
    wp₁.lenPostData ≤ wp₂.lenPostData := by
  obtain ⟨wp', h', hpos, rfl⟩ := readWhile_pred h₂
  obtain rfl := Option.some.inj (h₁.symm.trans h')
  have hnn : 0 ≤ offers k := by
    by_contra hlt
    obtain ⟨m, hm, hsum⟩ := hneg k (by omega)
    obtain ⟨j, hj, wp', hrun, hle⟩ := accept_stops hneg hsum
    exact absurd (readWhile_pos h₂ (by omega) hrun) (by omega)
  simp only [acceptRead, socketRead]
  omega

theorem accept_complete (hneg : ∀ k, offers k < 0 → ∃ m ≤ k, wp.clen ≤ ∑ i ∈ range m, offers i)
    (hrun : readWhile acceptRead offers wp k = some wp') (hle : wp'.clen ≤ 0) :
    ∃ m, wp.clen ≤ ∑ i ∈ range m, offers i := by
  by_contra hnot
  push Not at hnot
  have hnn : ∀ i < k, 0 ≤ offers i := by
    intro i _
    by_contra hlt
    obtain ⟨m, -, hsum⟩ := hneg i (by omega)
    exact absurd (hnot m) (by omega)
  have hlt := hnot k
  rw [accept_runs hnn hlt, Option.some.injEq] at hrun
  subst hrun
  dsimp only at hle
  omega

theorem accept_ends_iff (offers : ℕ → ℤ) (wp : Receiving) (closes : Prop) :
    (closes → ∃ k wp', readWhile acceptRead offers wp k = some wp' ∧ wp'.clen ≤ 0) ∧
      (∀ k wp₁ wp₂, readWhile acceptRead offers wp k = some wp₁ → readWhile acceptRead offers wp (k + 1) = some wp₂ →
        wp₁.lenPostData ≤ wp₂.lenPostData) ↔
    (∀ k, offers k < 0 → ∃ m ≤ k, wp.clen ≤ ∑ i ∈ range m, offers i) ∧
      (closes → ∃ m, wp.clen ≤ ∑ i ∈ range m, offers i) := by
  constructor
  · rintro ⟨hstops, hmono⟩
    have hneg : ∀ k, offers k < 0 → ∃ m ≤ k, wp.clen ≤ ∑ i ∈ range m, offers i := by
      intro k hk
      by_contra hnot
      push Not at hnot
      obtain ⟨j, wp₁, wp₂, h₁, h₂, hlt⟩ := accept_shrinks hk hnot
      exact absurd (hmono j wp₁ wp₂ h₁ h₂) (by omega)
    refine ⟨hneg, fun hc => ?_⟩
    obtain ⟨k, wp', hrun, hle⟩ := hstops hc
    exact accept_complete hneg hrun hle
  · rintro ⟨hneg, hsum⟩
    refine ⟨fun hc => ?_, fun k wp₁ wp₂ h₁ h₂ => accept_grows hneg h₁ h₂⟩
    obtain ⟨m, hm⟩ := hsum hc
    obtain ⟨k, -, hstop⟩ := accept_stops hneg hm
    exact ⟨k, hstop⟩

theorem discard_stops {m : ℕ} (hm : wp.clen ≤ ∑ i ∈ range m, socketRead (offers i) maxLine) :
    ∃ k wp', readWhile discardRead offers wp k = some wp' ∧ wp'.clen ≤ 0 := by
  induction m using Nat.strong_induction_on with
  | _ m ih =>
    by_cases hless : ∃ j < m, wp.clen ≤ ∑ i ∈ range j, socketRead (offers i) maxLine
    · obtain ⟨j, hj, hsum⟩ := hless
      exact ih j hj hsum
    push Not at hless
    obtain ⟨wp', hrun⟩ := discard_runs hless
    have hc := (discard_clen hrun).1
    exact ⟨m, wp', hrun, by omega⟩

theorem discard_ends_iff (offers : ℕ → ℤ) (wp : Receiving) (closes : Prop) :
    (closes → ∃ k wp', readWhile discardRead offers wp k = some wp' ∧ wp'.clen ≤ 0) ↔
      (closes → ∃ m, wp.clen ≤ ∑ i ∈ range m, socketRead (offers i) maxLine) := by
  refine ⟨fun h hc => ?_, fun h hc => ?_⟩
  · obtain ⟨k, wp', hrun, hle⟩ := h hc
    have heq := (discard_clen hrun).1
    exact ⟨k, by omega⟩
  · obtain ⟨m, hm⟩ := h hc
    exact discard_stops hm

end Wap610n.Web
