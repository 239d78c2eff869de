import Wap610n.Gsw.Transmit

namespace Wap610n.Gsw.Tx

open RingBuffer Transition

structure Owned (s : Tx) (first last : ℕ) : Prop where
  cur : s.curIndex = last % starGswMaxTfdNum
  hw : s.hwIndex = first % starGswMaxTfdNum
  le : first ≤ last
  cap : last ≤ first + starGswMaxTfdNum
  own : ∀ i < starGswMaxTfdNum, (s.txdesc i).cown = false ↔ Filled starGswMaxTfdNum first last i

section Ring

variable {s s' : Tx} {first last : ℕ}

theorem maxTfdNum_pos : 0 < starGswMaxTfdNum := by decide

theorem Owned.cur_lt (h : s.Owned first last) : s.curIndex < starGswMaxTfdNum :=
  h.cur ▸ Nat.mod_lt _ maxTfdNum_pos

theorem Owned.hw_lt (h : s.Owned first last) : s.hwIndex < starGswMaxTfdNum :=
  h.hw ▸ Nat.mod_lt _ maxTfdNum_pos

theorem owned_bufferAlloc (tsDmaControl : Bool) : (bufferAlloc tsDmaControl).Owned 0 0 where
  cur := rfl
  hw := rfl
  le := le_rfl
  cap := Nat.zero_le _
  own _ _ := iff_of_false Bool.noConfusion not_filled_self

theorem Owned.congr (h : s.Owned first last) (hd : s'.txdesc = s.txdesc) (hc : s'.curIndex = s.curIndex)
    (hh : s'.hwIndex = s.hwIndex) : s'.Owned first last where
  cur := hc.trans h.cur
  hw := hh.trans h.hw
  le := h.le
  cap := h.cap
  own := hd ▸ h.own

theorem Owned.pending_iff (h : s.Owned first last) : s.Pending ↔ first < last := by
  constructor
  · rintro ⟨i, hi, hown⟩
    obtain ⟨k, hk, hlt, -⟩ := (h.own i hi).mp hown
    omega
  · intro hlt
    exact ⟨s.hwIndex, h.hw_lt, (h.own _ h.hw_lt).mpr (h.hw ▸ filled_first.mpr hlt)⟩

theorem Owned.full_iff (h : s.Owned first last) :
    (s.txdesc s.curIndex).cown = false ↔ last = first + starGswMaxTfdNum := by
  rw [h.own _ h.cur_lt, h.cur]
  exact filled_last h.le h.cap maxTfdNum_pos

theorem queue_full (skb : Skb) (h : (s.txdesc s.curIndex).cown = false) :
    s.queue skb = { s with call := .returned 1 } := if_pos h

theorem Owned.queue (h : s.Owned first last) (skb : Skb) (hfree : (s.txdesc s.curIndex).cown = true) :
    (s.queue skb).Owned first (last + 1) := by
  have hroom : last ≠ first + starGswMaxTfdNum := by
    rw [Ne, ← h.full_iff, hfree]
    decide
  have hcap := h.cap
  have hle := h.le
  unfold Tx.queue
  rw [if_neg (by rw [hfree]; decide)]
  refine ⟨?_, h.hw, by omega, by omega, fun i hi => ?_⟩
  · dsimp only
    rw [h.cur, advance_mod maxTfdNum_pos]
  · dsimp only
    rw [filled_push h.le, ← h.cur, ← h.own i hi]
    by_cases heq : i = s.curIndex
    · simp [heq]
    · simp [heq, Ne.symm heq]

theorem Owned.complete (h : s.Owned first last) (hown : (s.txdesc s.hwIndex).cown = false) :
    s.complete.Owned (first + 1) last := by
  have hlt : first < last := h.pending_iff.mp ⟨s.hwIndex, h.hw_lt, hown⟩
  have hcap := h.cap
  refine ⟨h.cur, ?_, hlt, by omega, fun i hi => ?_⟩
  · unfold Tx.complete
    dsimp only
    rw [h.hw, advance_mod maxTfdNum_pos]
  · unfold Tx.complete
    dsimp only
    rw [filled_pop h.cap, ← h.hw, ← h.own i hi]
    split_ifs with heq
    · simp [heq]
    · simp [Ne.symm heq]

def Ready (s : Tx) : Prop := s.call = .none ∨ ∃ value, s.call = .returned value

theorem Owned.send (h : s.Owned first last) (hready : s.Ready) (hfree : (s.txdesc s.curIndex).cown = true)
    (skb : Skb) :
    ∃ s', exec step s (sendEvents skb) = some s' ∧ s'.Owned first (last + 1) ∧ s'.call = .returned 0 := by
  have hqueue : ∃ s', exec step s (sendEvents skb) = some s' ∧ s'.txdesc = (s.queue skb).txdesc ∧
      s'.curIndex = (s.queue skb).curIndex ∧ s'.hwIndex = (s.queue skb).hwIndex ∧ s'.call = .returned 0 := by
    rcases hready with hcall | ⟨value, hcall⟩
    · simp [sendEvents, exec, step, hcall, Tx.queue, hfree]
    · simp [sendEvents, exec, step, hcall, Tx.queue, hfree]
  obtain ⟨s', hexec, hd, hc, hh, hcall⟩ := hqueue
  exact ⟨s', hexec, (h.queue skb hfree).congr hd hc hh, hcall⟩

theorem Owned.drains (h : s.Owned first last) {value : ℕ} (hcall : s.call = .returned value)
    (hrun : s.Pending → s.tsDmaControl = true) : s.Drains := by
  obtain ⟨d, hd⟩ := Nat.exists_eq_add_of_le h.le
  induction d generalizing s first with
  | zero =>
    have hnone : ¬s.Pending := by
      rw [h.pending_iff]
      omega
    have hfree : (s.txdesc s.curIndex).cown = true := by
      by_contra hc
      exact hnone ⟨s.curIndex, h.cur_lt, Bool.eq_false_iff.mpr hc⟩
    refine ⟨0, s, rfl, hnone, fun skb => ?_⟩
    obtain ⟨s', hexec, -, hret⟩ := h.send (Or.inr ⟨value, hcall⟩) hfree skb
    exact ⟨s', hexec, hret⟩
  | succ d ih =>
    have hp : s.Pending := h.pending_iff.mpr (by omega)
    have hown : (s.txdesc s.hwIndex).cown = false := (h.own _ h.hw_lt).mpr (h.hw ▸ filled_first.mpr (by omega))
    have hstep : step s .complete = some s.complete := if_pos ⟨hrun hp, hown⟩
    obtain ⟨n, s', hexec, hrest⟩ := ih (h.complete hown) hcall (fun _ => hrun hp) (by omega)
    exact ⟨n + 1, s', by rw [List.replicate_succ, exec, hstep, Option.bind_some, hexec], hrest⟩

end Ring

structure Inv (s : Tx) : Prop where
  owned : ∃ first last, s.Owned first last
  running : ¬s.call.Halts → s.Pending → s.tsDmaControl = true
  stopped : s.call.Halts → s.tsDmaControl = false

theorem Inv.returnsRunning {s : Tx} (h : s.Inv) : s.ReturnsRunning := by
  intro value hcall
  obtain ⟨first, last, hown⟩ := h.owned
  have hrun := h.running (by rw [hcall]; exact not_false)
  exact ⟨hrun, hown.drains hcall hrun⟩

theorem step_cases {s s' : Tx} {e : TxEvent} (he : s.step e = some s') :
    (∃ skb, e = .send skb ∧ s' = { s with tsDmaControl := false, call := .stopped skb }) ∨
    (∃ skb, e = .queue ∧ s.call = .stopped skb ∧ s' = s.queue skb) ∨
    (∃ skbFree, e = .start ∧ s' = { s with tsDmaControl := true, call := .started skbFree }) ∨
    (∃ skbFree, e = .leave ∧ s.call = .started skbFree ∧
      s' = { s with freed := s.freed ++ skbFree.toList, call := .returned 0 }) ∨
    (e = .complete ∧ s.tsDmaControl = true ∧ (s.txdesc s.hwIndex).cown = false ∧ s' = s.complete) := by
  cases e with
  | send skb =>
    cases hcall : s.call with
    | none => exact Or.inl ⟨skb, rfl, by simpa [step, hcall] using he.symm⟩
    | returned value => exact Or.inl ⟨skb, rfl, by simpa [step, hcall] using he.symm⟩
    | _ => simp [step, hcall] at he
  | queue =>
    cases hcall : s.call with
    | stopped skb => exact Or.inr (Or.inl ⟨skb, rfl, rfl, by simpa [step, hcall] using he.symm⟩)
    | _ => simp [step, hcall] at he
  | start =>
    cases hcall : s.call with
    | queued skbFree => exact Or.inr (Or.inr (Or.inl ⟨skbFree, rfl, by simpa [step, hcall] using he.symm⟩))
    | _ => simp [step, hcall] at he
  | leave =>
    cases hcall : s.call with
    | started skbFree =>
      exact Or.inr (Or.inr (Or.inr (Or.inl ⟨skbFree, rfl, rfl, by simpa [step, hcall] using he.symm⟩)))
    | _ => simp [step, hcall] at he
  | complete =>
    unfold step at he
    dsimp only at he
    split_ifs at he with h
    exact Or.inr (Or.inr (Or.inr (Or.inr ⟨rfl, h.1, h.2, (Option.some.inj he).symm⟩)))

theorem slotFree_of_ne {s : Tx} {e : TxEvent} (h : e ≠ .queue) : s.SlotFree e := fun heq => absurd heq h

theorem Inv.step {s s' : Tx} {e : TxEvent} (h : s.Inv) (he : s.step e = some s') :
    (s.SlotFree e → s'.Inv) ∧ (s'.ReturnsRunning → s.SlotFree e) := by
  obtain ⟨first, last, hown⟩ := h.owned
  rcases step_cases he with ⟨skb, rfl, rfl⟩ | ⟨skb, rfl, hcall, rfl⟩ | ⟨skbFree, rfl, rfl⟩ |
    ⟨skbFree, rfl, hcall, rfl⟩ | ⟨rfl, hrun, hcown, rfl⟩
  · refine ⟨fun _ => ?_, fun _ => slotFree_of_ne (by simp)⟩
    exact ⟨⟨first, last, hown.congr rfl rfl rfl⟩, fun hh => absurd trivial hh, fun _ => rfl⟩
  · have hstop : s.tsDmaControl = false := h.stopped (by rw [hcall]; exact trivial)
    constructor
    · intro hfree
      have hq := hfree rfl
      have hcall' : ∃ skbFree, (s.queue skb).call = .queued skbFree ∧ (s.queue skb).tsDmaControl = s.tsDmaControl := by
        unfold Tx.queue
        rw [if_neg (by rw [hq]; decide)]
        exact ⟨_, rfl, rfl⟩
      obtain ⟨skbFree, hc, hr⟩ := hcall'
      refine ⟨⟨first, last + 1, hown.queue skb hq⟩, fun hh => absurd ?_ hh, fun _ => hr.trans hstop⟩
      rw [hc]
      exact trivial
    · intro hret _
      by_contra hfull
      rw [Bool.not_eq_true] at hfull
      rw [queue_full skb hfull] at hret
      have hreg := (hret 1 rfl).1 ⟨s.curIndex, hown.cur_lt, hfull⟩
      exact absurd (hreg.symm.trans hstop) (by decide)
  · refine ⟨fun _ => ?_, fun _ => slotFree_of_ne (by simp)⟩
    exact ⟨⟨first, last, hown.congr rfl rfl rfl⟩, fun _ _ => rfl, False.elim⟩
  · refine ⟨fun _ => ?_, fun _ => slotFree_of_ne (by simp)⟩
    refine ⟨⟨first, last, hown.congr rfl rfl rfl⟩, fun _ hp => ?_, False.elim⟩
    exact h.running (by rw [hcall]; exact not_false) hp
  · refine ⟨fun _ => ?_, fun _ => slotFree_of_ne (by simp)⟩
    refine ⟨⟨first + 1, last, hown.complete hcown⟩, fun _ _ => hrun, fun hh => ?_⟩
    exact absurd (hrun.symm.trans (h.stopped hh)) (by decide)

theorem returnsRunning_iff (tsDmaControl : Bool) (es : List TxEvent) :
    (∀ pre s, pre <+: es → exec step (bufferAlloc tsDmaControl) pre = some s → s.ReturnsRunning) ↔
      ∀ pre e s s', pre ++ [e] <+: es → exec step (bufferAlloc tsDmaControl) pre = some s → s.step e = some s' →
        s.SlotFree e := by
  have h₀ : (bufferAlloc tsDmaControl).Inv := by
    refine ⟨⟨0, 0, owned_bufferAlloc tsDmaControl⟩, fun _ hp => ?_, False.elim⟩
    exact absurd ((owned_bufferAlloc tsDmaControl).pending_iff.mp hp) (lt_irrefl 0)
  exact exec_safe_iff h₀ (fun s h => h.returnsRunning) (fun s e s' h he => h.step he) es

theorem exec_sends (tsDmaControl : Bool) (skb : Skb) {k : ℕ} (hk : k ≤ starGswMaxTfdNum) :
    ∃ s, exec step (bufferAlloc tsDmaControl) (List.replicate k (sendEvents skb)).flatten = some s ∧
      s.Owned 0 k ∧ s.Ready := by
  induction k with
  | zero => exact ⟨_, rfl, owned_bufferAlloc tsDmaControl, Or.inl rfl⟩
  | succ k ih =>
    obtain ⟨s, hexec, hown, hready⟩ := ih (by omega)
    have hfree : (s.txdesc s.curIndex).cown = true := by
      by_contra hc
      exact absurd (hown.full_iff.mp (Bool.eq_false_iff.mpr hc)) (by omega)
    obtain ⟨s', hexec', hown', hcall⟩ := hown.send hready hfree skb
    refine ⟨s', ?_, hown', Or.inr ⟨0, hcall⟩⟩
    rw [List.replicate_succ', List.flatten_append, List.flatten_singleton, exec_append, hexec, Option.bind_some, hexec']

theorem fullRing_stops : ∃ s, exec step (bufferAlloc true)
    ((List.replicate starGswMaxTfdNum (sendEvents ⟨4096, 60⟩)).flatten ++ [.send ⟨4096, 60⟩, .queue]) = some s ∧
    s.call = .returned 1 ∧ s.Pending ∧ s.step .complete = none ∧ ¬s.ReturnsRunning := by
  obtain ⟨s, hexec, hown, hready⟩ := exec_sends true ⟨4096, 60⟩ le_rfl
  have hfull : (s.txdesc s.curIndex).cown = false := hown.full_iff.mpr (Nat.zero_add _).symm
  have hsend : exec step s [.send ⟨4096, 60⟩, .queue] =
      some { s with tsDmaControl := false, call := .returned 1 } := by
    rcases hready with hcall | ⟨value, hcall⟩
    · simp [exec, step, hcall, queue, hfull]
    · simp [exec, step, hcall, queue, hfull]
  have hpending : ({ s with tsDmaControl := false, call := .returned 1 } : Tx).Pending :=
    ⟨s.curIndex, hown.cur_lt, hfull⟩
  refine ⟨_, by rw [exec_append, hexec, Option.bind_some, hsend], rfl, hpending, by simp [step], fun h => ?_⟩
  exact absurd ((h 1 rfl).1 hpending) (by simp)

end Wap610n.Gsw.Tx
