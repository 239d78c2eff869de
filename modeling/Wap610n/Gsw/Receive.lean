import Mathlib.Data.Finset.Basic
import Wap610n.Lib.RingBuffer
import Wap610n.Lib.Transition

namespace Wap610n.Gsw

open RingBuffer Transition

def starGswMaxRfdNum : ℕ := 48

def maxPacketLen : ℕ := 1536

structure RxDesc where
  cown : Bool
  dataPtr : ℕ
  length : ℕ

/-- A store of the hardware that is half done: FSSD is advanced and `cown` not set yet, or the other way round. -/
inductive Store
  | idle
  | fssdFirst (frame : List UInt8)
  | cownFirst

inductive Receive
  | out
  | loop (i rxcount workDone : ℕ) (workToDo : ℤ)
  | done (workDone : ℕ)

/-- The ring, the FSSD register, the descriptor the hardware fills next, the contents of the buffers, the buffers
that are allocated and those of them the network stack holds, and the frames stored and taken so far. -/
structure Rx where
  rxdesc : ℕ → RxDesc
  skbPtr : ℕ → ℕ
  curIndex : ℕ
  phyAddr : ℕ
  fssd : ℕ
  hwIndex : ℕ
  store : Store
  mem : ℕ → List UInt8
  live : Finset ℕ
  up : Finset ℕ
  receive : Receive
  stored : List (List UInt8)
  taken : List (List UInt8)

inductive RxEvent
  | storeFssd (frame : List UInt8)
  | storeCown (frame : List UInt8)
  | finish
  | poll (workToDo : ℤ)
  | pass (alloc : Option ℕ)
  | leave
  | free (skb : ℕ)
  | write (skb : ℕ) (bytes : List UInt8)

namespace Rx

def ringAddr (s : Rx) (i : ℕ) : ℕ := s.phyAddr + 16 * i

def allocLoop (phyAddr : ℕ) (mem : ℕ → List UInt8) (alloc : ℕ → Option ℕ) : ℕ → Option Rx
  | 0 => some {
      rxdesc := fun _ => ⟨false, 0, 0⟩
      skbPtr := fun _ => 0
      curIndex := 0
      phyAddr := phyAddr
      fssd := phyAddr
      hwIndex := 0
      store := .idle
      mem := mem
      live := ∅
      up := ∅
      receive := .out
      stored := []
      taken := [] }
  | i + 1 => (allocLoop phyAddr mem alloc i).bind fun s => (alloc i).map fun skb => { s with
      skbPtr := fun j => if j = i then skb else s.skbPtr j
      rxdesc := fun j => if j = i then { s.rxdesc j with dataPtr := skb, length := maxPacketLen } else s.rxdesc j
      live := insert skb s.live }

def bufferAlloc (phyAddr : ℕ) (mem : ℕ → List UInt8) (alloc : ℕ → Option ℕ) : Option Rx :=
  allocLoop phyAddr mem alloc starGswMaxRfdNum

def writeFrame (s : Rx) (frame : List UInt8) : Rx :=
  let buf := (s.rxdesc s.hwIndex).dataPtr
  { s with mem := fun b => if b = buf then frame ++ (s.mem b).drop frame.length else s.mem b }

def handOver (s : Rx) (frame : List UInt8) : Rx :=
  { s with
    rxdesc := fun i =>
      if i = s.hwIndex then { s.rxdesc i with cown := true, length := frame.length } else s.rxdesc i
    hwIndex := advance starGswMaxRfdNum s.hwIndex
    stored := s.stored ++ [frame] }

def rxcount (s : Rx) : Option ℕ :=
  let fssdIndex := (s.fssd - s.phyAddr) >>> 4
  if fssdIndex > s.curIndex then some (fssdIndex - s.curIndex)
  else if fssdIndex < s.curIndex then some (starGswMaxRfdNum - s.curIndex + fssdIndex)
  else if (s.rxdesc s.curIndex).cown = false then none
  else some starGswMaxRfdNum

section

variable (accepts : List UInt8 → Bool)

/-- The frame goes to the network stack, or is freed where the checks on it fail. -/
def getRfdBuff (s : Rx) (index : ℕ) : Rx :=
  let skb := s.skbPtr index
  let frame := (s.mem skb).take (s.rxdesc index).length
  { s with
    up := if accepts frame then insert skb s.up else s.up
    live := if accepts frame then s.live else s.live.erase skb
    taken := s.taken ++ [frame] }

def takeFrame (s : Rx) (skb : ℕ) : Rx :=
  let s := getRfdBuff accepts { s with live := insert skb s.live } s.curIndex
  { s with
    skbPtr := fun i => if i = s.curIndex then skb else s.skbPtr i
    rxdesc := fun i => if i = s.curIndex then ⟨false, skb, maxPacketLen⟩ else s.rxdesc i
    curIndex := advance starGswMaxRfdNum s.curIndex }

def pass (s : Rx) (alloc : Option ℕ) : Option Rx :=
  match s.receive with
  | .loop i rxcount workDone workToDo =>
    if ¬i < rxcount ∨ workDone ≥ workToDo ∨ (s.rxdesc s.curIndex).cown = false then
      some { s with receive := .done workDone }
    else
      match alloc with
      | none => some { s with receive := .done workDone }
      | some skb =>
        if skb ∈ s.live then none
        else some { s.takeFrame accepts skb with receive := .loop (i + 1) rxcount (workDone + 1) workToDo }
  | _ => none

def step (s : Rx) : RxEvent → Option Rx
  | .storeFssd frame =>
    match s.store with
    | .idle =>
      if (s.rxdesc s.hwIndex).cown = false then
        some { s.writeFrame frame with
          fssd := s.ringAddr (advance starGswMaxRfdNum s.hwIndex), store := .fssdFirst frame }
      else none
    | _ => none
  | .storeCown frame =>
    match s.store with
    | .idle =>
      if (s.rxdesc s.hwIndex).cown = false then some { (s.writeFrame frame).handOver frame with store := .cownFirst }
      else none
    | _ => none
  | .finish =>
    match s.store with
    | .fssdFirst frame => some { s.handOver frame with store := .idle }
    | .cownFirst => some { s with fssd := s.ringAddr s.hwIndex, store := .idle }
    | .idle => none
  | .poll workToDo =>
    match s.receive with
    | .out => some { s with receive :=
        match s.rxcount with
        | none => .done 0
        | some rxcount => .loop 0 rxcount 0 workToDo }
    | _ => none
  | .pass alloc => s.pass accepts alloc
  | .leave =>
    match s.receive with
    | .done _ => some { s with receive := .out }
    | _ => none
  | .free skb => if skb ∈ s.up then some { s with up := s.up.erase skb, live := s.live.erase skb } else none
  | .write skb bytes =>
    if skb ∈ s.up ∨ skb ∉ s.live then some { s with mem := fun b => if b = skb then bytes else s.mem b } else none

end

structure Slots (s : Rx) : Prop where
  data : ∀ i < starGswMaxRfdNum, (s.rxdesc i).dataPtr = s.skbPtr i
  live : ∀ i < starGswMaxRfdNum, s.skbPtr i ∈ s.live
  notUp : ∀ i < starGswMaxRfdNum, s.skbPtr i ∉ s.up
  inj : ∀ i < starGswMaxRfdNum, ∀ j < starGswMaxRfdNum, s.skbPtr i = s.skbPtr j → i = j

end Rx

end Wap610n.Gsw
