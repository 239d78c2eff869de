import Mathlib.Algebra.Order.BigOperators.Group.Finset
import Wap610n.Gsw.SendersInv

namespace Wap610n.Gsw.Senders

open Function RingBuffer Transition

variable {n : ℕ} {s s' : Senders n}

theorem inv_of_exec {tsDmaControl : Bool} {es : List (SendEvent n)}
    (h : exec step (bufferAlloc n tsDmaControl) es = some s) : s.Inv :=
  exec_inv (inv_bufferAlloc tsDmaControl) (fun _ _ _ hi he _ => hi.step he) (fun _ _ _ _ _ _ _ _ => trivial) h

theorem Inv.freed_le (h : s.Inv) (skb : Buffer) :
    s.freed.count skb ≤ (s.accepted.take s.sent.length).count skb := by
  have hsub : (s.accepted.take (s.accepted.length - starGswMaxTfdNum)).Sublist (s.accepted.take s.sent.length) := by
    apply List.take_sublist_take_left
    have hcap := h.owned.cap
    omega
  have hle := hsub.count_le skb
  have hfreed := h.freed skb
  omega

theorem Inv.sent_prefix_accepted (h : s.Inv) : s.sent <+: s.accepted.map Buffer.frame := by
  rw [h.sent, List.map_take]
  exact List.take_prefix _ _

theorem Inv.slots_count (h : s.Inv) (skb : Buffer) :
    s.slots.count skb = (window starGswMaxTfdNum s.accepted).count skb :=
  (h.slots.slots_perm Tx.maxTfdNum_pos h.window_nodup).count_eq skb

theorem Inv.accepted_count (h : s.Inv) (skb : Buffer) :
    s.accepted.count skb = s.freed.count skb + s.holding skb + s.slots.count skb := by
  have hsplit := congrArg (List.count skb)
    (List.take_append_drop (s.accepted.length - starGswMaxTfdNum) s.accepted)
  rw [List.count_append] at hsplit
  rw [← hsplit, h.freed skb]
  exact congrArg _ (h.slots_count skb).symm

theorem holding_pos {c : Fin n} {skb : Buffer} (h : skb ∈ (s.calls c).held) : 0 < s.holding skb := by
  apply Finset.sum_pos'
  · intro c _
    exact Nat.zero_le _
  · exact ⟨c, Finset.mem_univ c, List.count_pos_iff.mpr h⟩

theorem Inv.slots_iff (h : s.Inv) :
    (∀ skb, skb ∈ s.slots ↔ s.freed.count skb < s.accepted.count skb) ↔ ∀ c, (s.calls c).held = [] := by
  constructor
  · intro hslots c
    apply List.eq_nil_iff_forall_not_mem.mpr
    intro skb hheld
    have hpos := holding_pos hheld
    have hcount := h.accepted_count skb
    have hdistinct := h.distinct skb
    have hmem : 0 < s.slots.count skb := by
      apply List.count_pos_iff.mpr
      apply (hslots skb).mpr
      omega
    rw [h.slots_count] at hmem
    omega
  · intro hnone skb
    have hholding : s.holding skb = 0 := by
      apply Finset.sum_eq_zero
      intro c _
      rw [hnone c, List.count_nil]
    have hcount := h.accepted_count skb
    rw [← List.count_pos_iff]
    omega

theorem refused_keeps {c : Fin n} (h : s.step (.queue c) = some s') (hrefused : s'.calls c = .returned 1) :
    s'.txdesc = s.txdesc ∧ s'.skbPtr = s.skbPtr ∧ s'.curIndex = s.curIndex := by
  rcases step_cases h with ⟨c', skb, he, -⟩ | ⟨c', skb, he, -, rfl⟩ | ⟨c', skbFree, he, -⟩ | ⟨c', skbFree, he, -⟩ |
    ⟨he, -⟩
  · cases he
  · cases he
    cases hown : (s.txdesc s.curIndex).cown with
    | false =>
      rw [queue_refused c skb hown]
      exact ⟨rfl, rfl, rfl⟩
    | true =>
      rw [queue_accepted c skb hown] at hrefused
      dsimp only at hrefused
      rw [update_self] at hrefused
      cases hrefused
  · cases he
  · cases he
  · cases he

theorem buffers_accounted {tsDmaControl : Bool} {es : List (SendEvent n)}
    (h : exec step (bufferAlloc n tsDmaControl) es = some s) :
    (∀ skb, s.freed.count skb ≤ (s.accepted.take s.sent.length).count skb) ∧
      s.sent <+: s.accepted.map Buffer.frame ∧
      (∀ c s', s.step (.queue c) = some s' → s'.calls c = .returned 1 →
        s'.txdesc = s.txdesc ∧ s'.skbPtr = s.skbPtr ∧ s'.curIndex = s.curIndex) ∧
      (∀ skb, s.accepted.count skb = s.freed.count skb + s.holding skb + s.slots.count skb) ∧ s.slots.Nodup ∧
      ((∀ skb, skb ∈ s.slots ↔ s.freed.count skb < s.accepted.count skb) ↔ ∀ c, (s.calls c).held = []) := by
  have hinv := inv_of_exec h
  refine ⟨hinv.freed_le, hinv.sent_prefix_accepted, ?_, hinv.accepted_count, ?_, hinv.slots_iff⟩
  · intro c s' hstep hrefused
    exact refused_keeps hstep hrefused
  · exact hinv.slots.slots_nodup hinv.window_nodup

def twoFrames : List (SendEvent 2) :=
  [.send 0 ⟨1, 4096, 60, by decide⟩, .queue 0, .start 0, .send 1 ⟨2, 8192, 60, by decide⟩, .complete, .queue 1, .start 1,
    .leave 1, .complete, .leave 0]

theorem two_frames_accounted : ∃ s : Senders 2, exec step (bufferAlloc 2 true) twoFrames = some s ∧
      (∀ skb, s.freed.count skb ≤ (s.accepted.take s.sent.length).count skb) ∧
      s.sent <+: s.accepted.map Buffer.frame ∧
      (∀ c s', s.step (.queue c) = some s' → s'.calls c = .returned 1 →
        s'.txdesc = s.txdesc ∧ s'.skbPtr = s.skbPtr ∧ s'.curIndex = s.curIndex) ∧
      (∀ skb, s.accepted.count skb = s.freed.count skb + s.holding skb + s.slots.count skb) ∧ s.slots.Nodup ∧
      ((∀ skb, skb ∈ s.slots ↔ s.freed.count skb < s.accepted.count skb) ↔ ∀ c, (s.calls c).held = []) := by
  obtain ⟨s, hs⟩ : ∃ s : Senders 2, exec step (bufferAlloc 2 true) twoFrames = some s :=
    Option.isSome_iff_exists.mp (by decide +kernel)
  exact ⟨s, hs, buffers_accounted hs⟩

def numbered (i : ℕ) : Buffer := ⟨i, i + 1, 60, Nat.succ_ne_zero i⟩

def lap (k : ℕ) : List (SendEvent 1) :=
  (List.range k).flatMap fun i => [.send 0 (numbered i), .queue 0, .start 0, .complete, .leave 0]

theorem taken_out_not_yet_freed : ∃ s,
    exec step (bufferAlloc 1 true) (lap 40 ++ [.send 0 (numbered 40), .queue 0, .start 0]) = some s ∧
      numbered 0 ∈ s.accepted ∧ numbered 0 ∉ s.freed ∧ numbered 0 ∉ s.slots := by
  have hrun : ((exec step (bufferAlloc 1 true) (lap 40 ++ [.send 0 (numbered 40), .queue 0, .start 0])).any fun s =>
      decide (numbered 0 ∈ s.accepted ∧ numbered 0 ∉ s.freed ∧ numbered 0 ∉ s.slots)) = true := by
    decide +kernel
  obtain ⟨s, hs, hnumbered⟩ := (Option.any_eq_true _ _).mp hrun
  exact ⟨s, hs, of_decide_eq_true hnumbered⟩

end Wap610n.Gsw.Senders
