import Wap610n.Bridge.Input
import Wap610n.Lib.Chained
import Wap610n.Lib.Transition

/-!
The forwarding database in its hash chains: `br_fdb_insert`, `br_fdb_update`, `br_fdb_changeaddr`, `br_fdb_cleanup`,
`br_fdb_delete_by_port` and `__br_fdb_get`, with the operations on the bridge's ports that call them.
-/

namespace Wap610n.Bridge

open Bytes Chained

def jhashGoldenRatio : BitVec 32 := 0x9e3779b9

structure JhashState where
  a : BitVec 32
  b : BitVec 32
  c : BitVec 32

def jhashMix (s : JhashState) : JhashState :=
  let a := (s.a - s.b - s.c) ^^^ s.c >>> 13
  let b := (s.b - s.c - a) ^^^ a <<< 8
  let c := (s.c - a - b) ^^^ b >>> 13
  let a := (a - b - c) ^^^ c >>> 12
  let b := (b - c - a) ^^^ a <<< 16
  let c := (c - a - b) ^^^ b >>> 5
  let a := (a - b - c) ^^^ c >>> 3
  let b := (b - c - a) ^^^ a <<< 10
  let c := (c - a - b) ^^^ b >>> 15
  ⟨a, b, c⟩

def jhashWord (k : List UInt8) (i : ℕ) : BitVec 32 :=
  leWord (k.getD i 0) (k.getD (i + 1) 0) (k.getD (i + 2) 0) (k.getD (i + 3) 0)

def jhashLoop (s : JhashState) : List UInt8 → JhashState × List UInt8
  | k₀ :: k₁ :: k₂ :: k₃ :: k₄ :: k₅ :: k₆ :: k₇ :: k₈ :: k₉ :: k₁₀ :: k₁₁ :: k =>
    jhashLoop (jhashMix ⟨s.a + leWord k₀ k₁ k₂ k₃, s.b + leWord k₄ k₅ k₆ k₇, s.c + leWord k₈ k₉ k₁₀ k₁₁⟩) k
  | k => (s, k)

/-- The last word holds the length in its low byte, and the key's last three bytes above it. -/
def jhash (key : List UInt8) (initval : BitVec 32) : BitVec 32 :=
  let (s, k) := jhashLoop ⟨jhashGoldenRatio, jhashGoldenRatio, initval⟩ key
  (jhashMix ⟨s.a + jhashWord k 0, s.b + jhashWord k 4,
    s.c + BitVec.ofNat 32 key.length + leWord 0 (k.getD 8 0) (k.getD 9 0) (k.getD 10 0)⟩).c

def brHashSize : ℕ := 256

def brMacHash (mac : EthAddr) : ℕ := (jhash (List.ofFn mac) 0 &&& 0xff#32).toNat

structure FdbPort where
  dev : List UInt8
  portNo : ℕ
  addr : EthAddr
deriving DecidableEq

structure FdbTimes where
  topologyChange : Bool
  forwardDelay : BitVec 32
  ageingTime : BitVec 32
  jiffies : BitVec 32

namespace FdbTimes

variable (t : FdbTimes)

def holdTime : BitVec 32 := if t.topologyChange then t.forwardDelay else t.ageingTime

def hasExpired (fdb : FdbEntry) : Bool :=
  !fdb.isStatic && decide (0 ≤ (t.jiffies - (fdb.ageingTimer + t.holdTime)).toInt)

end FdbTimes

structure FdbTable extends FdbTimes where
  hash : ℕ → List FdbEntry
  portList : List FdbPort

def reassign (portList : List FdbPort) (p : List UInt8) (f : FdbEntry) : Option FdbEntry :=
  (portList.find? fun op => op.dev ≠ p ∧ op.addr = f.addr).map fun op => { f with dst := op.dev }

def setAddr (portList : List FdbPort) (p : List UInt8) (newaddr : EthAddr) : List FdbPort :=
  portList.map fun op => if op.dev = p then { op with addr := newaddr } else op

def forget (portList : List FdbPort) (p : List UInt8) (f : FdbEntry) : Option FdbEntry :=
  if f.dst ≠ p then some f else if f.isLocal then reassign portList p f else none

def learnt (source : List UInt8) (jiffies : BitVec 32) (f : FdbEntry) : FdbEntry :=
  { f with dst := source, ageingTimer := jiffies }

namespace FdbTable

variable (t : FdbTable)

def fdbFind (addr : EthAddr) : Option FdbEntry := get FdbEntry.addr brMacHash t.hash addr

def brFdbGet (addr : EthAddr) : Option FdbEntry := (t.fdbFind addr).filter fun fdb => !t.hasExpired fdb

def alter (i : ℕ) (P : FdbEntry → Bool) (f : FdbEntry → Option FdbEntry) : FdbTable :=
  { t with hash := Function.update t.hash i (alterFirst P f (t.hash i)) }

def fdbCreate (source : List UInt8) (addr : EthAddr) (isLocal : Bool) : FdbTable :=
  { t with hash := add FdbEntry.addr brMacHash t.hash ⟨addr, source, isLocal, isLocal, t.jiffies⟩ }

/-- `alloc` is whether `fdb_create` gets its memory. The second value is whether no error is returned. -/
def fdbInsert (source : List UInt8) (addr : EthAddr) (alloc : Bool) : FdbTable × Bool :=
  if isValidEtherAddr addr then
    match t.fdbFind addr with
    | some fdb =>
      if fdb.isLocal then (t, true)
      else
        let t := t.alter (brMacHash addr) (fun f => f.addr = addr) fun _ => none
        if alloc then (t.fdbCreate source addr true, true) else (t, false)
    | none => if alloc then (t.fdbCreate source addr true, true) else (t, false)
  else (t, false)

def brFdbUpdate (source : List UInt8) (addr : EthAddr) (alloc : Bool) : FdbTable :=
  if t.holdTime = 0 then t
  else
    match t.fdbFind addr with
    | some fdb =>
      if fdb.isLocal then t
      else t.alter (brMacHash addr) (fun f => f.addr = addr) fun f => some (learnt source t.jiffies f)
    | none => if alloc then t.fdbCreate source addr false else t

def isLocalOf (p : List UInt8) (f : FdbEntry) : Bool := f.dst = p ∧ f.isLocal

def brFdbChangeaddr (p : List UInt8) (newaddr : EthAddr) (alloc : Bool) : FdbTable :=
  let t' :=
    match (List.range brHashSize).find? fun i => (t.hash i).any (isLocalOf p) with
    | some i => t.alter i (isLocalOf p) (reassign t.portList p)
    | none => t
  (t'.fdbInsert p newaddr alloc).1

def brFdbCleanup : FdbTable := { t with hash := fun i => (t.hash i).filter fun f => !t.hasExpired f }

def brFdbDeleteByPort (p : List UInt8) : FdbTable :=
  { t with hash := fun i => (t.hash i).filterMap (forget t.portList p) }

def hasPort (p : List UInt8) : Bool := t.portList.any fun op => op.dev = p

/-- `sysfs` is whether `br_sysfs_addif` succeeds. -/
def brAddIf (p : FdbPort) (alloc sysfs : Bool) : FdbTable :=
  if t.hasPort p.dev then t
  else
    let (t, ok) := t.fdbInsert p.dev p.addr alloc
    if ok then if sysfs then { t with portList := p :: t.portList } else t.brFdbDeleteByPort p.dev else t

def brDelIf (p : List UInt8) : FdbTable :=
  if t.hasPort p then { t.brFdbDeleteByPort p with portList := t.portList.filter fun op => op.dev ≠ p } else t

/-- The device has its new address when the bridge is told. -/
def changeAddr (p : List UInt8) (newaddr : EthAddr) (alloc : Bool) : FdbTable :=
  if t.hasPort p then { t with portList := setAddr t.portList p newaddr }.brFdbChangeaddr p newaddr alloc else t

end FdbTable

inductive FdbEvent
  | addIf (p : FdbPort) (alloc sysfs : Bool)
  | delIf (p : List UInt8)
  | changeAddr (p : List UInt8) (newaddr : EthAddr) (alloc : Bool)
  | learn (p : List UInt8) (source : EthAddr) (alloc : Bool)
  | cleanup
  | times (times : FdbTimes)

/-- A frame is looked at only while its device is a port. -/
def FdbTable.step (t : FdbTable) : FdbEvent → FdbTable
  | .addIf p alloc sysfs => t.brAddIf p alloc sysfs
  | .delIf p => t.brDelIf p
  | .changeAddr p newaddr alloc => t.changeAddr p newaddr alloc
  | .learn p source alloc => if t.hasPort p then t.brFdbUpdate p source alloc else t
  | .cleanup => t.brFdbCleanup
  | .times times => { t with toFdbTimes := times }

def newTable (times : FdbTimes) : FdbTable := { times with hash := fun _ => [], portList := [] }

end Wap610n.Bridge
