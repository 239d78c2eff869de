import Mathlib.Algebra.BigOperators.Group.Finset.Basic
import Mathlib.Data.Fintype.Basic
import Wap610n.Gsw.TransmitRun
import Wap610n.Lib.RingWindow

/-!
`star_gsw_send_packet` called from several places at once. The DMA is stopped before `star_gsw_send_lock` is taken,
and the buffer taken out of a slot is freed after the lock is released.
-/

namespace Wap610n.Gsw

open Function RingBuffer Transition

/-- An `sk_buff`: clones share their data but not their address. No data lies at the physical address 0, which holds
the exception vectors. -/
structure Buffer where
  addr : ℕ
  data : ℕ
  len : ℕ
  data_ne : data ≠ 0
deriving DecidableEq

def Buffer.skb (b : Buffer) : Skb := ⟨b.data, b.len⟩

def Buffer.frame (b : Buffer) : ℕ × ℕ := (b.data, if b.len < minPacketLen then minPacketLen else b.len)

inductive SendCall
  | none
  | stopped (skb : Buffer)
  | queued (skbFree : Option Buffer)
  | started (skbFree : Option Buffer)
  | returned (value : ℕ)
deriving DecidableEq

namespace SendCall

def sending : SendCall → List Buffer
  | stopped skb => [skb]
  | _ => []

def held : SendCall → List Buffer
  | queued skbFree => skbFree.toList
  | started skbFree => skbFree.toList
  | _ => []

def call : SendCall → Call
  | none => .none
  | stopped skb => .stopped skb.skb
  | queued skbFree => .queued (skbFree.map Buffer.skb)
  | started skbFree => .started (skbFree.map Buffer.skb)
  | returned value => .returned value

end SendCall

/-- The ring, the callers and the lock; as history, the buffers accepted, what the hardware has sent and the buffers
freed. -/
structure Senders (n : ℕ) where
  txdesc : ℕ → TxDesc
  skbPtr : ℕ → Option Buffer
  curIndex : ℕ
  tsDmaControl : Bool
  hwIndex : ℕ
  lock : Option (Fin n)
  calls : Fin n → SendCall
  accepted : List Buffer
  sent : List (ℕ × ℕ)
  freed : List Buffer

inductive SendEvent (n : ℕ)
  | send (c : Fin n) (skb : Buffer)
  | queue (c : Fin n)
  | start (c : Fin n)
  | leave (c : Fin n)
  | complete
deriving DecidableEq

def SendEvent.caller {n : ℕ} : SendEvent n → Option (Fin n)
  | send c _ | queue c | start c | leave c => some c
  | complete => none

def SendEvent.event {n : ℕ} : SendEvent n → TxEvent
  | send _ skb => .send skb.skb
  | queue _ => .queue
  | start _ => .start
  | leave _ => .leave
  | complete => .complete

namespace Senders

variable {n : ℕ}

def bufferAlloc (n : ℕ) (tsDmaControl : Bool) : Senders n where
  txdesc _ := ⟨true, 0, 0⟩
  skbPtr _ := none
  curIndex := 0
  tsDmaControl := tsDmaControl
  hwIndex := 0
  lock := none
  calls _ := .none
  accepted := []
  sent := []
  freed := []

def Owns (s : Senders n) (skb : Buffer) : Prop :=
  (∀ i < starGswMaxTfdNum, s.skbPtr i ≠ some skb) ∧ ∀ c, skb ∉ (s.calls c).sending ∧ skb ∉ (s.calls c).held

instance (s : Senders n) (skb : Buffer) : Decidable (s.Owns skb) := inferInstanceAs (Decidable (_ ∧ _))

def stop (s : Senders n) (c : Fin n) (skb : Buffer) : Senders n :=
  { s with tsDmaControl := false, calls := update s.calls c (.stopped skb) }

def refuse (s : Senders n) (c : Fin n) : Senders n := { s with calls := update s.calls c (.returned 1) }

def queue (s : Senders n) (c : Fin n) (skb : Buffer) : Senders n :=
  let desc := s.txdesc s.curIndex
  if desc.cown = false then s.refuse c
  else
    { s with
      txdesc := update s.txdesc s.curIndex ⟨false, skb.frame.1, skb.frame.2⟩
      skbPtr := update s.skbPtr s.curIndex (some skb)
      curIndex := advance starGswMaxTfdNum s.curIndex
      lock := some c
      calls := update s.calls c (.queued (if desc.dataPtr ≠ 0 then s.skbPtr s.curIndex else none))
      accepted := s.accepted ++ [skb] }

def start (s : Senders n) (c : Fin n) (skbFree : Option Buffer) : Senders n :=
  { s with tsDmaControl := true, lock := none, calls := update s.calls c (.started skbFree) }

def leave (s : Senders n) (c : Fin n) (skbFree : Option Buffer) : Senders n :=
  { s with freed := s.freed ++ skbFree.toList, calls := update s.calls c (.returned 0) }

def complete (s : Senders n) : Senders n :=
  { s with
    txdesc := update s.txdesc s.hwIndex { s.txdesc s.hwIndex with cown := true }
    hwIndex := advance starGswMaxTfdNum s.hwIndex
    sent := s.sent ++ [((s.txdesc s.hwIndex).dataPtr, (s.txdesc s.hwIndex).length)] }

def step (s : Senders n) : SendEvent n → Option (Senders n)
  | .send c skb =>
    match s.calls c with
    | .none | .returned _ => if s.Owns skb then some (s.stop c skb) else none
    | _ => none
  | .queue c =>
    match s.calls c, s.lock with
    | .stopped skb, none => some (s.queue c skb)
    | _, _ => none
  | .start c =>
    match s.calls c with
    | .queued skbFree => some (s.start c skbFree)
    | _ => none
  | .leave c =>
    match s.calls c with
    | .started skbFree => some (s.leave c skbFree)
    | _ => none
  -- a transfer under way when the DMA is stopped may still complete
  | .complete => if (s.txdesc s.hwIndex).cown = false then some s.complete else none

def slots (s : Senders n) : List Buffer := (List.range starGswMaxTfdNum).filterMap s.skbPtr

def holding (s : Senders n) (skb : Buffer) : ℕ := ∑ c, (s.calls c).held.count skb

variable {s s' : Senders n} {e : SendEvent n}

theorem step_cases (h : s.step e = some s') :
    (∃ c skb, e = .send c skb ∧ (s.calls c = .none ∨ ∃ value, s.calls c = .returned value) ∧ s.Owns skb ∧
      s' = s.stop c skb) ∨
    (∃ c skb, e = .queue c ∧ s.calls c = .stopped skb ∧ s' = s.queue c skb) ∨
    (∃ c skbFree, e = .start c ∧ s.calls c = .queued skbFree ∧ s' = s.start c skbFree) ∨
    (∃ c skbFree, e = .leave c ∧ s.calls c = .started skbFree ∧ s' = s.leave c skbFree) ∨
    (e = .complete ∧ (s.txdesc s.hwIndex).cown = false ∧ s' = s.complete) := by
  unfold step at h
  split at h
  · rename_i c skb
    split at h
    · rename_i hcall
      split_ifs at h with howns
      exact Or.inl ⟨c, skb, rfl, Or.inl hcall, howns, (Option.some.inj h).symm⟩
    · rename_i value hcall
      split_ifs at h with howns
      exact Or.inl ⟨c, skb, rfl, Or.inr ⟨value, hcall⟩, howns, (Option.some.inj h).symm⟩
    · cases h
  · rename_i c
    split at h
    · rename_i skb hcall hlock
      exact Or.inr (Or.inl ⟨c, skb, rfl, hcall, (Option.some.inj h).symm⟩)
    · cases h
  · rename_i c
    split at h
    · rename_i skbFree hcall
      exact Or.inr (Or.inr (Or.inl ⟨c, skbFree, rfl, hcall, (Option.some.inj h).symm⟩))
    · cases h
  · rename_i c
    split at h
    · rename_i skbFree hcall
      exact Or.inr (Or.inr (Or.inr (Or.inl ⟨c, skbFree, rfl, hcall, (Option.some.inj h).symm⟩)))
    · cases h
  · split_ifs at h with hown
    exact Or.inr (Or.inr (Or.inr (Or.inr ⟨rfl, hown, (Option.some.inj h).symm⟩)))

theorem queue_refused (c : Fin n) (skb : Buffer) (h : (s.txdesc s.curIndex).cown = false) :
    s.queue c skb = s.refuse c := if_pos h

def skbFree (s : Senders n) : Option Buffer :=
  if (s.txdesc s.curIndex).dataPtr ≠ 0 then s.skbPtr s.curIndex else none

theorem queue_accepted (c : Fin n) (skb : Buffer) (h : (s.txdesc s.curIndex).cown = true) :
    s.queue c skb = { s with
      txdesc := update s.txdesc s.curIndex ⟨false, skb.frame.1, skb.frame.2⟩
      skbPtr := update s.skbPtr s.curIndex (some skb)
      curIndex := advance starGswMaxTfdNum s.curIndex
      lock := some c
      calls := update s.calls c (.queued s.skbFree)
      accepted := s.accepted ++ [skb] } :=
  if_neg (by rw [h]; decide)

end Senders

end Wap610n.Gsw
