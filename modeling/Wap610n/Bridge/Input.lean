import Mathlib.Data.Fintype.Pi
import Mathlib.Data.List.Nodup
import Wap610n.Lib.Bytes

/-!
The bridge's path of a received frame: `br_handle_frame`, `br_handle_frame_finish`, `br_fdb_update`, `br_flood`,
`br_forward` and `br_make_blocking`. Received is buffer 0, and call `n` of `skb_clone` makes buffer `n + 1`.
-/

namespace Wap610n.Bridge

open Bytes

abbrev EthAddr := Fin 6 → UInt8

def isZeroEtherAddr (a : EthAddr) : Bool := a 0 ||| a 1 ||| a 2 ||| a 3 ||| a 4 ||| a 5 == 0

def isMulticastEtherAddr (a : EthAddr) : Bool := 0x01 &&& a 0 != 0

def isBroadcastEtherAddr (a : EthAddr) : Bool := a 0 &&& a 1 &&& a 2 &&& a 3 &&& a 4 &&& a 5 == 0xff

def isValidEtherAddr (a : EthAddr) : Bool := !isMulticastEtherAddr a && !isZeroEtherAddr a

def isUpnpEtherAddr (a : EthAddr) : Bool :=
  a 0 == 0x01 && a 1 == 0x00 && a 2 == 0x5e && a 3 == 127 && a 4 == 255 && a 5 == 250

def isLinkLocal (a : EthAddr) : Bool :=
  a 0 == 0x01 && a 1 == 0x80 && a 2 == 0xc2 && a 3 == 0x00 && a 4 == 0x00 && a 5 &&& 0xf0 == 0

inductive PortState
  | disabled
  | listening
  | learning
  | forwarding
  | blocking
deriving DecidableEq, Repr

/-- Devices are told apart by their names. -/
structure Port where
  dev : List UInt8
  state : PortState
deriving DecidableEq, Repr

structure FdbEntry where
  addr : EthAddr
  dst : List UInt8
  isLocal : Bool
  isStatic : Bool
  ageingTimer : BitVec 32

structure NetBridge where
  ports : List Port
  fdb : List FdbEntry
  promisc : Bool
  stpEnabled : Bool
  loopBreaking : Bool
  isRoot : Bool
  topologyChange : Bool
  topologyChangeDetected : Bool
  forwardDelay : BitVec 32
  ageingTime : BitVec 32
  jiffies : BitVec 32
  nodup : (ports.map Port.dev).Nodup

structure Frame where
  source : EthAddr
  dest : EthAddr

inductive Action
  | forward (dev : List UInt8) (buf : ℕ)
  | passUp (buf : ℕ)
  | handleBpdu (buf : ℕ)
  | kfree (buf : ℕ)
deriving DecidableEq, Repr

def eth0 : List UInt8 := text "eth0"

namespace NetBridge

variable (b : NetBridge)

def port (dev : List UInt8) : Option Port := b.ports.find? fun p => p.dev = dev

def state (dev : List UInt8) : Option PortState := (b.port dev).map Port.state

theorem nodup_setState (dev : List UInt8) (state : PortState) :
    ((b.ports.map fun p => if p.dev = dev then { p with state := state } else p).map Port.dev).Nodup := by
  have hdev : (b.ports.map fun p => if p.dev = dev then { p with state := state } else p).map Port.dev =
      b.ports.map Port.dev := by
    rw [List.map_map]
    apply List.map_congr_left
    intro p _
    rw [Function.comp_apply]
    split_ifs <;> rfl
  rw [hdev]
  exact b.nodup

def setState (dev : List UInt8) (state : PortState) : NetBridge :=
  { b with
    ports := b.ports.map fun p => if p.dev = dev then { p with state := state } else p
    nodup := b.nodup_setState dev state }

def holdTime : BitVec 32 := if b.topologyChange then b.forwardDelay else b.ageingTime

/-- `time_before_eq(fdb->ageing_timer + hold_time(br), jiffies)` compares the signed difference with 0. -/
def hasExpired (fdb : FdbEntry) : Bool :=
  !fdb.isStatic && decide (0 ≤ (b.jiffies - (fdb.ageingTimer + b.holdTime)).toInt)

def fdbFind (addr : EthAddr) : Option FdbEntry := b.fdb.find? fun fdb => fdb.addr = addr

def brFdbGet (addr : EthAddr) : Option FdbEntry := (b.fdbFind addr).filter fun fdb => !b.hasExpired fdb

def brTopologyChangeDetection : NetBridge :=
  { b with topologyChange := b.isRoot || b.topologyChange, topologyChangeDetected := true }

def brMakeBlocking (dev : List UInt8) : NetBridge :=
  match b.state dev with
  | some .disabled | some .blocking | none => b
  | some .listening => b.setState dev .blocking
  | some .forwarding | some .learning => b.brTopologyChangeDetection.setState dev .blocking

def fdbCreate (source : List UInt8) (addr : EthAddr) : NetBridge :=
  { b with fdb := ⟨addr, source, false, false, b.jiffies⟩ :: b.fdb }

/-- `alloc` is whether `fdb_create` gets its memory. -/
def brFdbUpdate (source : List UInt8) (addr : EthAddr) (alloc : Bool) : NetBridge :=
  if b.holdTime = 0 then b
  else
    match b.fdbFind addr with
    | some fdb =>
      if fdb.isLocal then if b.loopBreaking ∧ source = eth0 then b.brMakeBlocking source else b
      else
        { b with
          fdb := b.fdb.replaceF fun e =>
            if e.addr = addr then some { e with dst := source, ageingTimer := b.jiffies } else none }
    | none => if alloc then b.fdbCreate source addr else b

end NetBridge

def shouldDeliver (indev : List UInt8) (p : Port) : Bool := p.dev ≠ indev ∧ p.state = .forwarding

def floodLoop (clone : ℕ → Bool) (indev : List UInt8) (skb : ℕ) : ℕ → Option Port → List Port → List Action
  | _, none, [] => [.kfree skb]
  | _, some prev, [] => [.forward prev.dev skb]
  | n, none, p :: ports =>
    if shouldDeliver indev p then floodLoop clone indev skb n (some p) ports
    else floodLoop clone indev skb n none ports
  | n, some prev, p :: ports =>
    if shouldDeliver indev p then
      if clone n then .forward prev.dev (n + 1) :: floodLoop clone indev skb (n + 1) (some p) ports
      else [.kfree skb]
    else floodLoop clone indev skb n (some prev) ports

def brFlood (clone : ℕ → Bool) (indev : List UInt8) (n skb : ℕ) (ports : List Port) (copy : Bool) : List Action :=
  if copy then if clone n then floodLoop clone indev (n + 1) (n + 1) none ports else []
  else floodLoop clone indev skb n none ports

namespace NetBridge

variable (b : NetBridge)

def brForward (indev dst : List UInt8) (skb : ℕ) : List Action :=
  match b.port dst with
  | some p => if shouldDeliver indev p then [.forward dst skb] else [.kfree skb]
  | none => [.kfree skb]

/-- The part of `br_handle_frame_finish` behind the test for the learning state. -/
def relay (indev : List UInt8) (f : Frame) (clone : ℕ → Bool) : List Action :=
  let up := b.promisc && clone 0
  let n := if b.promisc then 1 else 0
  (if up then [.passUp 1] else []) ++
    if isMulticastEtherAddr f.dest then
      let passedup := up || !(isBroadcastEtherAddr f.dest || isUpnpEtherAddr f.dest)
      brFlood clone indev n 0 b.ports (!passedup) ++ if passedup then [] else [.passUp 0]
    else
      match b.brFdbGet f.dest with
      | some dst => if dst.isLocal then if up then [.kfree 0] else [.passUp 0] else b.brForward indev dst.dst 0
      | none => brFlood clone indev n 0 b.ports false

def brHandleFrameFinish (indev : List UInt8) (f : Frame) (clone : ℕ → Bool) (alloc : Bool) :
    NetBridge × List Action :=
  match b.state indev with
  | none | some .disabled => (b, [.kfree 0])
  | some _ =>
    let b := b.brFdbUpdate indev f.source alloc
    (b, if b.state indev = some .learning then [.kfree 0] else b.relay indev f clone)

/-- No hook of a bridging router is installed. -/
def brHandleFrame (indev : List UInt8) (f : Frame) (clone : ℕ → Bool) (alloc : Bool) : NetBridge × List Action :=
  match b.state indev with
  | none => (b, [])
  | some state =>
    if state = .disabled ∨ isValidEtherAddr f.source = false then (b, [.kfree 0])
    else if b.stpEnabled ∧ isLinkLocal f.dest then (b, [if f.dest 5 = 0 then .handleBpdu 0 else .kfree 0])
    else if state = .forwarding ∨ state = .learning then b.brHandleFrameFinish indev f clone alloc
    else (b, [.kfree 0])

end NetBridge

end Wap610n.Bridge
