import Wap610n.Lib.RingBuffer
import Wap610n.Lib.Transition

namespace Wap610n.Gsw

open RingBuffer Transition

def starGswMaxTfdNum : ℕ := 40

def minPacketLen : ℕ := 60

structure Skb where
  data : ℕ
  len : ℕ
deriving DecidableEq, Repr

structure TxDesc where
  cown : Bool
  dataPtr : ℕ
  length : ℕ
deriving DecidableEq, Repr

/-- Where a call of `star_gsw_send_packet` is: after the stop of the DMA, after the descriptor is handed over,
after the start of the DMA, or returned. -/
inductive Call
  | none
  | stopped (skb : Skb)
  | queued (skbFree : Option Skb)
  | started (skbFree : Option Skb)
  | returned (value : ℕ)
deriving DecidableEq, Repr

def Call.Halts : Call → Prop
  | .stopped _ | .queued _ => True
  | .none | .started _ | .returned _ => False

structure Tx where
  txdesc : ℕ → TxDesc
  skbPtr : ℕ → Option Skb
  curIndex : ℕ
  tsDmaControl : Bool
  hwIndex : ℕ
  freed : List Skb
  call : Call

inductive TxEvent
  | send (skb : Skb)
  | queue
  | start
  | leave
  | complete
deriving DecidableEq, Repr

namespace Tx

def bufferAlloc (tsDmaControl : Bool) : Tx where
  txdesc _ := ⟨true, 0, 0⟩
  skbPtr _ := none
  curIndex := 0
  tsDmaControl := tsDmaControl
  hwIndex := 0
  freed := []
  call := .none

/-- The part of the call under `star_gsw_send_lock`, up to the start of the DMA. -/
def queue (s : Tx) (skb : Skb) : Tx :=
  let desc := s.txdesc s.curIndex
  if desc.cown = false then { s with call := .returned 1 }
  else
    let length := if skb.len < minPacketLen then minPacketLen else skb.len
    { s with
      txdesc := fun i => if i = s.curIndex then ⟨false, skb.data, length⟩ else s.txdesc i
      skbPtr := fun i => if i = s.curIndex then some skb else s.skbPtr i
      curIndex := advance starGswMaxTfdNum s.curIndex
      call := .queued (if desc.dataPtr ≠ 0 then s.skbPtr s.curIndex else none) }

def complete (s : Tx) : Tx :=
  { s with
    txdesc := fun i => if i = s.hwIndex then { s.txdesc i with cown := true } else s.txdesc i
    hwIndex := advance starGswMaxTfdNum s.hwIndex }

def step (s : Tx) : TxEvent → Option Tx
  | .send skb =>
    match s.call with
    | .none | .returned _ => some { s with tsDmaControl := false, call := .stopped skb }
    | _ => none
  | .queue =>
    match s.call with
    | .stopped skb => some (s.queue skb)
    | _ => none
  | .start =>
    match s.call with
    | .queued skbFree => some { s with tsDmaControl := true, call := .started skbFree }
    | _ => none
  | .leave =>
    match s.call with
    | .started skbFree => some { s with freed := s.freed ++ skbFree.toList, call := .returned 0 }
    | _ => none
  | .complete =>
    if s.tsDmaControl = true ∧ (s.txdesc s.hwIndex).cown = false then some s.complete else none

def Pending (s : Tx) : Prop := ∃ i < starGswMaxTfdNum, (s.txdesc i).cown = false

def sendEvents (skb : Skb) : List TxEvent := [.send skb, .queue, .start, .leave]

def Drains (s : Tx) : Prop :=
  ∃ n s', exec step s (List.replicate n .complete) = some s' ∧ ¬s'.Pending ∧
    ∀ skb, ∃ s'', exec step s' (sendEvents skb) = some s'' ∧ s''.call = .returned 0

def ReturnsRunning (s : Tx) : Prop :=
  ∀ value, s.call = .returned value → (s.Pending → s.tsDmaControl = true) ∧ s.Drains

def SlotFree (s : Tx) (e : TxEvent) : Prop := e = .queue → (s.txdesc s.curIndex).cown = true

end Tx

end Wap610n.Gsw
