import Wap610n.Gsw.Senders

namespace Wap610n.Gsw.Senders

open Function RingBuffer

variable {n : ℕ}

def ring (s : Senders n) (call : Call) : Tx where
  txdesc := s.txdesc
  skbPtr i := (s.skbPtr i).map Buffer.skb
  curIndex := s.curIndex
  tsDmaControl := s.tsDmaControl
  hwIndex := s.hwIndex
  freed := s.freed.map Buffer.skb
  call := call

def view (s : Senders n) (c : Fin n) : Tx := s.ring (s.calls c).call

variable {s s' : Senders n} {e : SendEvent n}

theorem ring_queue (call : Call) (c : Fin n) (skb : Buffer) :
    (s.ring call).queue skb.skb = (s.queue c skb).ring ((s.queue c skb).calls c).call := by
  cases hown : (s.txdesc s.curIndex).cown with
  | false =>
    have hring : ((s.ring call).txdesc (s.ring call).curIndex).cown = false := hown
    rw [Tx.queue_full skb.skb hring, queue_refused c skb hown, refuse]
    dsimp only
    rw [update_self]
    rfl
  | true =>
    have hring : ((s.ring call).txdesc (s.ring call).curIndex).cown ≠ false := by
      change (s.txdesc s.curIndex).cown ≠ false
      rw [hown]
      decide
    rw [queue_accepted c skb hown, Tx.queue, if_neg hring]
    unfold ring skbFree
    dsimp only
    rw [update_self]
    congr 1
    · funext i
      rw [update_apply]
      rfl
    · funext i
      rw [update_apply]
      split_ifs <;> rfl
    · dsimp only [SendCall.call]
      split_ifs <;> rfl

theorem ring_complete (s : Senders n) (call : Call) : s.complete.ring call = (s.ring call).complete := by
  unfold Tx.complete complete ring
  dsimp only
  congr 1
  funext i
  rw [update_apply]
  split_ifs with hi
  · rw [hi]
  · rfl

/-- Each step of a call is the step of `star_gsw_send_packet` on the ring as this call sees it, and a completion is
that of the ring as each call sees it. -/
theorem step_refines (h : s.step e = some s') :
    (∃ c, e.caller = some c ∧ (s.view c).step e.event = some (s'.view c)) ∨
      e = .complete ∧ ∀ call, ((s.ring call).txdesc (s.ring call).hwIndex).cown = false ∧
        s'.ring call = (s.ring call).complete := by
  rcases step_cases h with ⟨c, skb, rfl, hcall, -, rfl⟩ | ⟨c, skb, rfl, hcall, rfl⟩ | ⟨c, skbFree, rfl, hcall, rfl⟩ |
    ⟨c, skbFree, rfl, hcall, rfl⟩ | ⟨rfl, hown, rfl⟩
  · refine Or.inl ⟨c, rfl, ?_⟩
    unfold view ring SendEvent.event
    rcases hcall with hcall | ⟨value, hcall⟩
    · simp [hcall, stop, SendCall.call, Tx.step]
    · simp [hcall, stop, SendCall.call, Tx.step]
  · refine Or.inl ⟨c, rfl, ?_⟩
    unfold view SendEvent.event
    rw [← ring_queue (s.calls c).call c skb, Tx.step]
    unfold ring
    rw [hcall]
    rfl
  · refine Or.inl ⟨c, rfl, ?_⟩
    unfold view ring SendEvent.event
    simp [hcall, start, SendCall.call, Tx.step]
  · refine Or.inl ⟨c, rfl, ?_⟩
    unfold view ring SendEvent.event
    cases skbFree with
    | none => simp [hcall, leave, SendCall.call, Tx.step]
    | some skb => simp [hcall, leave, SendCall.call, Tx.step]
  · refine Or.inr ⟨rfl, ?_⟩
    intro call
    exact ⟨hown, s.ring_complete call⟩

end Wap610n.Gsw.Senders
