import Wap610n.Stp.Roles

/-!
The spanning tree protocol of the bridge: `br_stp.c`, `br_stp_timer.c` and `br_stp_if.c`. A frame that is handed to a
device is noted in `sent`; a frame for which `br_send_bpdu` finds no memory is like one that gets lost on its way.
-/

namespace Wap610n.Stp

open Bridge (EthAddr PortState)

/-- `expires` is kept when a timer is deleted or has run out. -/
structure Timer where
  pending : Bool
  expires : BitVec 32

def Timer.mod (expires : BitVec 32) : Timer := ⟨true, expires⟩

def Timer.del (t : Timer) : Timer := { t with pending := false }

def Timer.due (t : Timer) (jiffies : BitVec 32) : Bool := t.pending ∧ jiffies - t.expires < 0x80000000

structure PortWork where
  devAddr : EthAddr
  priority : BitVec 8
  topologyChangeAck : Bool
  configPending : Bool
  forwardDelayTimer : Timer
  holdTimer : Timer
  messageAgeTimer : Timer

structure Times where
  maxAge : BitVec 32
  helloTime : BitVec 32
  forwardDelay : BitVec 32

/-- What other bridges and the frames that pass through can notice. The kernel has come to its end in `oops` when a port
is used that `br_get_port` has not found. -/
structure View extends Roles where
  stpEnabled : Bool
  sent : List (ℕ × List UInt8)
  oops : Bool

/-- `times` are those of the root, `bridgeTimes` those the bridge uses when it is the root itself. -/
structure NetBridge extends View where
  work : ℕ → PortWork
  times : Times
  bridgeTimes : Times
  up : Bool
  topologyChange : Bool
  topologyChangeDetected : Bool
  helloTimer : Timer
  tcnTimer : Timer
  topologyChangeTimer : Timer
  jiffies : BitVec 32

def brHoldTime : BitVec 32 := 1 * hz

def messageAgeIncr : BitVec 32 := 1

namespace NetBridge

variable (br : NetBridge)

def setWork (n : ℕ) (w : PortWork) : NetBridge := { br with work := Function.update br.work n w }

@[simp] theorem setWork_work_self {n : ℕ} {w : PortWork} : (br.setWork n w).work n = w := Function.update_self ..

theorem setWork_work_of_ne {n m : ℕ} {w : PortWork} (h : m ≠ n) : (br.setWork n w).work m = br.work m :=
  Function.update_of_ne h ..

def setRoles (r : Roles) : NetBridge := { br with toRoles := r }

def setState (n : ℕ) (state : PortState) : NetBridge := br.setRoles (br.toRoles.setState n state)

def forEachPort (f : NetBridge → ℕ → NetBridge) : NetBridge := br.portList.foldl f br

def brSendConfigBpdu (n : ℕ) (bpdu : ConfigBpdu) : NetBridge :=
  if br.stpEnabled then { br with sent := br.sent ++ [(n, brSendBpdu (br.work n).devAddr bpdu.buf)] } else br

def brSendTcnBpdu (n : ℕ) : NetBridge :=
  if br.stpEnabled then { br with sent := br.sent ++ [(n, brSendBpdu (br.work n).devAddr tcnBuf)] } else br

def messageAge : BitVec 32 :=
  if br.brIsRootBridge then 0
  else br.times.maxAge - ((br.work br.rootPort).messageAgeTimer.expires - br.jiffies) + messageAgeIncr

def configBpdu (n : ℕ) : ConfigBpdu where
  topologyChange := br.topologyChange
  topologyChangeAck := (br.work n).topologyChangeAck
  root := br.designatedRoot
  rootPathCost := br.rootPathCost
  bridgeId := br.bridgeId
  portId := (br.port n).portId
  messageAge := br.messageAge
  maxAge := br.times.maxAge
  helloTime := br.times.helloTime
  forwardDelay := br.times.forwardDelay

def brTransmitConfig (n : ℕ) : NetBridge :=
  let w := br.work n
  if w.holdTimer.pending then br.setWork n { w with configPending := true }
  else if !br.brIsRootBridge ∧ br.rootPort ∉ br.portList then { br with oops := true }
  else if br.messageAge < br.times.maxAge then
    (br.brSendConfigBpdu n (br.configBpdu n)).setWork n
      { w with topologyChangeAck := false, configPending := false, holdTimer := .mod (br.jiffies + brHoldTime) }
  else br

def brTransmitTcn : NetBridge :=
  if br.rootPort ∈ br.portList then br.brSendTcnBpdu br.rootPort else { br with oops := true }

def brTopologyChangeDetection : NetBridge :=
  let br' :=
    if br.brIsRootBridge then
      { br with
        topologyChange := true
        topologyChangeTimer := .mod (br.jiffies + br.bridgeTimes.forwardDelay + br.bridgeTimes.maxAge) }
    else if !br.topologyChangeDetected then
      { br.brTransmitTcn with tcnTimer := .mod (br.jiffies + br.bridgeTimes.helloTime) }
    else br
  { br' with topologyChangeDetected := true }

def brConfigBpduGeneration : NetBridge :=
  br.forEachPort fun br n =>
    if (br.port n).state ≠ .disabled ∧ br.brIsDesignatedPort (br.port n) then br.brTransmitConfig n else br

def brBecomeRootBridge : NetBridge :=
  let br := ({ br with times := br.bridgeTimes } : NetBridge).brTopologyChangeDetection
  let br := { br with tcnTimer := br.tcnTimer.del }
  if br.up then
    let br := br.brConfigBpduGeneration
    { br with helloTimer := .mod (br.jiffies + br.times.helloTime) }
  else br

def brRecordConfigInformation (n : ℕ) (bpdu : ConfigBpdu) : NetBridge :=
  let br := br.setRoles (br.toRoles.setPort n ((br.port n).brRecordConfigInformation bpdu))
  br.setWork n { br.work n with messageAgeTimer := .mod (br.jiffies + (br.times.maxAge - bpdu.messageAge)) }

def brRecordConfigTimeoutValues (bpdu : ConfigBpdu) : NetBridge :=
  { br with
    times := ⟨bpdu.maxAge, bpdu.helloTime, bpdu.forwardDelay⟩
    topologyChange := bpdu.topologyChange }

def brTopologyChangeAcknowledged : NetBridge :=
  { br with topologyChangeDetected := false, tcnTimer := br.tcnTimer.del }

def brMakeBlocking (n : ℕ) : NetBridge :=
  let state := (br.port n).state
  if state ≠ .disabled ∧ state ≠ .blocking then
    let br := if state = .forwarding ∨ state = .learning then br.brTopologyChangeDetection else br
    (br.setState n .blocking).setWork n { br.work n with forwardDelayTimer := (br.work n).forwardDelayTimer.del }
  else br

def brMakeForwarding (n : ℕ) : NetBridge :=
  if (br.port n).state = .blocking then
    (br.setState n (if br.stpEnabled then .listening else .learning)).setWork n
      { br.work n with forwardDelayTimer := .mod (br.jiffies + br.times.forwardDelay) }
  else br

def selectPort (n : ℕ) : NetBridge :=
  let w := br.work n
  if (br.port n).state ≠ .disabled then
    if n = br.rootPort then
      (br.setWork n { w with configPending := false, topologyChangeAck := false }).brMakeForwarding n
    else if br.brIsDesignatedPort (br.port n) then
      (br.setWork n { w with messageAgeTimer := w.messageAgeTimer.del }).brMakeForwarding n
    else (br.setWork n { w with configPending := false, topologyChangeAck := false }).brMakeBlocking n
  else br

def brPortStateSelection : NetBridge := br.forEachPort selectPort

def brTopologyChangeAcknowledge (n : ℕ) : NetBridge :=
  (br.setWork n { br.work n with topologyChangeAck := true }).brTransmitConfig n

def brConfigurationUpdate : NetBridge := br.setRoles br.toRoles.brConfigurationUpdate

/-- The part of `br_received_config_bpdu` for a bridge that may have ceased to be the root. -/
def yieldRoot (wasRoot : Bool) : NetBridge :=
  if !br.brIsRootBridge ∧ wasRoot then
    let br := { br with helloTimer := br.helloTimer.del }
    if br.topologyChangeDetected then
      let br := { br with topologyChangeTimer := br.topologyChangeTimer.del }
      { br.brTransmitTcn with tcnTimer := .mod (br.jiffies + br.bridgeTimes.helloTime) }
    else br
  else br

/-- The part of `br_received_config_bpdu` for what the root port hears. -/
def followRoot (n : ℕ) (bpdu : ConfigBpdu) : NetBridge :=
  if n = br.rootPort then
    let br := (br.brRecordConfigTimeoutValues bpdu).brConfigBpduGeneration
    if bpdu.topologyChangeAck then br.brTopologyChangeAcknowledged else br
  else br

def brReceivedConfigBpdu (n : ℕ) (bpdu : ConfigBpdu) : NetBridge :=
  let wasRoot := br.brIsRootBridge
  if br.brSupersedesPortInfo (br.port n) bpdu then
    let br := (br.brRecordConfigInformation n bpdu).brConfigurationUpdate.brPortStateSelection
    (br.yieldRoot wasRoot).followRoot n bpdu
  else if br.brIsDesignatedPort (br.port n) then br.brTransmitConfig n
  else br

def brReceivedTcnBpdu (n : ℕ) : NetBridge :=
  if br.brIsDesignatedPort (br.port n) then br.brTopologyChangeDetection.brTopologyChangeAcknowledge n else br

/-- The source address is learnt in the forwarding database, which is not part of this state. -/
def brStpHandleBpdu (n : ℕ) (frame : List UInt8) : NetBridge :=
  if (br.port n).state = .disabled ∨ !br.up ∨ !br.stpEnabled then br
  else
    match readBpdu frame with
    | some (.config bpdu) => br.brReceivedConfigBpdu n bpdu
    | some .tcn => br.brReceivedTcnBpdu n
    | none => br

def brHelloTimerExpired : NetBridge :=
  if br.up then
    let br := br.brConfigBpduGeneration
    { br with helloTimer := .mod (br.jiffies + br.times.helloTime) }
  else br

def brTakeRoles (wasRoot : Bool) : NetBridge :=
  let br := br.brConfigurationUpdate.brPortStateSelection
  if br.brIsRootBridge ∧ !wasRoot then br.brBecomeRootBridge else br

def brMessageAgeTimerExpired (n : ℕ) : NetBridge :=
  if (br.port n).state = .disabled then br
  else (br.setRoles (br.toRoles.becomeDesignated n)).brTakeRoles br.brIsRootBridge

def brForwardDelayTimerExpired (n : ℕ) : NetBridge :=
  if (br.port n).state = .listening then
    (br.setState n .learning).setWork n { br.work n with forwardDelayTimer := .mod (br.jiffies + br.times.forwardDelay) }
  else if (br.port n).state = .learning then
    let br := br.setState n .forwarding
    if br.brIsDesignatedForSomePort then br.brTopologyChangeDetection else br
  else br

def brTcnTimerExpired : NetBridge :=
  if br.up then { br.brTransmitTcn with tcnTimer := .mod (br.jiffies + br.bridgeTimes.helloTime) } else br

def brTopologyChangeTimerExpired : NetBridge := { br with topologyChangeDetected := false, topologyChange := false }

def brHoldTimerExpired (n : ℕ) : NetBridge := if (br.work n).configPending then br.brTransmitConfig n else br

def brInitPort (n : ℕ) : NetBridge :=
  let br := br.setRoles (br.toRoles.initPort n (brMakePortId (br.work n).priority n))
  br.setWork n { br.work n with topologyChangeAck := false, configPending := false }

def brStpEnablePort (n : ℕ) : NetBridge := (br.brInitPort n).brPortStateSelection

def brStpDisablePort (n : ℕ) : NetBridge :=
  let w := br.work n
  let off := (br.setRoles ((br.toRoles.becomeDesignated n).setState n .disabled)).setWork n
    { w with
      topologyChangeAck := false
      configPending := false
      messageAgeTimer := w.messageAgeTimer.del
      forwardDelayTimer := w.forwardDelayTimer.del
      holdTimer := w.holdTimer.del }
  off.brTakeRoles br.brIsRootBridge

/-- `ready` are the ports whose devices are up and have a carrier. -/
def brStpEnableBridge (ready : ℕ → Bool) : NetBridge :=
  let br := { br with helloTimer := .mod (br.jiffies + br.times.helloTime) }
  let br := br.brConfigBpduGeneration.forEachPort fun br n => if ready n then br.brStpEnablePort n else br
  { br with up := true }

def brStpDisableBridge : NetBridge :=
  let br := br.forEachPort fun br n => if (br.port n).state ≠ .disabled then br.brStpDisablePort n else br
  { br with
    up := false
    topologyChange := false
    topologyChangeDetected := false
    helloTimer := br.helloTimer.del
    topologyChangeTimer := br.topologyChangeTimer.del
    tcnTimer := br.tcnTimer.del }

def brStpChangeBridgeId (addr : EthAddr) : NetBridge :=
  (br.setRoles (br.toRoles.changeBridgeAddr addr)).brTakeRoles br.brIsRootBridge

/-- Without `CONFIG_BRIDGE_ID_POLICY_MINIMUM` the address of the last port is taken. -/
def brStpRecalculateBridgeId : NetBridge :=
  let addr := match br.portList.getLast? with
    | some n => (br.work n).devAddr
    | none => fun _ => 0
  if br.bridgeId.addr ≠ addr then br.brStpChangeBridgeId addr else br

def brStpSetBridgePriority (newprio : BitVec 16) : NetBridge :=
  (br.setRoles (br.toRoles.changePriority newprio)).brTakeRoles br.brIsRootBridge

def brStpSetPortPriority (n : ℕ) (newprio : BitVec 8) : NetBridge :=
  let br := br.setRoles (br.toRoles.setPortId n (brMakePortId newprio n))
  let br := br.setWork n { br.work n with priority := newprio }
  let p := br.port n
  if br.bridgeId.cmp p.designatedBridge = .eq ∧ p.portId < p.designatedPort then
    (br.setRoles (br.toRoles.becomeDesignated n)).brPortStateSelection
  else br

def brStpSetPathCost (n : ℕ) (pathCost : BitVec 32) : NetBridge :=
  (br.setRoles (br.toRoles.setPort n { br.port n with pathCost })).brConfigurationUpdate.brPortStateSelection

def findZeroBit (n : ℕ) : ℕ → ℕ
  | 0 => n
  | k + 1 => if n ∈ br.portList then findZeroBit (n + 1) k else n

def findPortno : ℕ := br.findZeroBit 1 1023

def brAddIf (devAddr : EthAddr) (pathCost : BitVec 32) : NetBridge :=
  let n := br.findPortno
  if n = 1024 then br
  else
    let off : Timer := ⟨false, 0⟩
    let br := br.setWork n
      { devAddr, priority := 0x20, topologyChangeAck := false, configPending := false, forwardDelayTimer := off,
        holdTimer := off, messageAgeTimer := off }
    (br.setRoles (br.toRoles.addPort n (brMakePortId 0x20 n) pathCost)).brStpRecalculateBridgeId

def brDelIf (n : ℕ) : NetBridge :=
  let br := br.brStpDisablePort n
  (br.setRoles { br.toRoles with portList := br.portList.erase n }).brStpRecalculateBridgeId

/-- `cost` is the cost of a device that has a carrier. -/
def portCarrierCheck (n : ℕ) (cost : Option (BitVec 32)) : NetBridge :=
  match cost with
  | some pathCost =>
    let br := br.setRoles (br.toRoles.setPort n { br.port n with pathCost })
    if br.up ∧ (br.port n).state = .disabled then br.brStpEnablePort n else br
  | none => if br.up ∧ (br.port n).state ≠ .disabled then br.brStpDisablePort n else br

def brSetMacAddress (addr : EthAddr) : NetBridge :=
  if br.portList.any fun n => (br.work n).devAddr = addr then br.brStpChangeBridgeId addr else br

end NetBridge

inductive Parm
  | maxAge | helloTime | forwardDelay

def Times.set (t : Times) (val : BitVec 32) : Parm → Times
  | .maxAge => { t with maxAge := val }
  | .helloTime => { t with helloTime := val }
  | .forwardDelay => { t with forwardDelay := val }

/-- The attributes in sysfs set the time in use, and the bridge's own one only at the root. -/
def NetBridge.storeBridgeParm (br : NetBridge) (parm : Parm) (val : BitVec 32) : NetBridge :=
  { br with
    times := br.times.set val parm
    bridgeTimes := if br.brIsRootBridge then br.bridgeTimes.set val parm else br.bridgeTimes }

/-- The calls of `old_dev_ioctl` set the bridge's own time, and the one in use only at the root. -/
def NetBridge.oldDevIoctl (br : NetBridge) (parm : Parm) (val : BitVec 32) : NetBridge :=
  { br with
    times := if br.brIsRootBridge then br.times.set val parm else br.times
    bridgeTimes := br.bridgeTimes.set val parm }

def newBridgeDev (jiffies : BitVec 32) : NetBridge where
  bridgeId := ⟨Roles.priorityBytes 0x8000, fun _ => 0⟩
  designatedRoot := ⟨Roles.priorityBytes 0x8000, fun _ => 0⟩
  rootPathCost := 0
  rootPort := 0
  portList := []
  port _ := ⟨.disabled, 0, 0, ⟨fun _ => 0, fun _ => 0⟩, ⟨fun _ => 0, fun _ => 0⟩, 0, 0⟩
  stpEnabled := false
  sent := []
  oops := false
  work _ := ⟨fun _ => 0, 0, false, false, ⟨false, 0⟩, ⟨false, 0⟩, ⟨false, 0⟩⟩
  times := ⟨20 * hz, 2 * hz, 15 * hz⟩
  bridgeTimes := ⟨20 * hz, 2 * hz, 15 * hz⟩
  up := false
  topologyChange := false
  topologyChangeDetected := false
  helloTimer := ⟨false, 0⟩
  tcnTimer := ⟨false, 0⟩
  topologyChangeTimer := ⟨false, 0⟩
  jiffies := jiffies

/-- What a bridge may meet. A timer runs out some time after it is due; `makeBlocking` is what the forwarding database
asks for when a port hears the address of another one. -/
inductive Event
  | tick
  | receive (n : ℕ) (frame : List UInt8)
  | helloTimer
  | tcnTimer
  | topologyChangeTimer
  | messageAgeTimer (n : ℕ)
  | forwardDelayTimer (n : ℕ)
  | holdTimer (n : ℕ)
  | devOpen (ready : ℕ → Bool)
  | devStop
  | addIf (devAddr : EthAddr) (pathCost : BitVec 32)
  | delIf (n : ℕ)
  | carrierCheck (n : ℕ) (cost : Option (BitVec 32))
  | netdevUp (n : ℕ) (carrier : Bool)
  | netdevDown (n : ℕ)
  | changeAddr (n : ℕ) (addr : EthAddr)
  | setMacAddress (addr : EthAddr)
  | setBridgePriority (newprio : BitVec 16)
  | setPortPriority (n : ℕ) (newprio : BitVec 8)
  | setPathCost (n : ℕ) (pathCost : BitVec 32)
  | storeParm (parm : Parm) (val : BitVec 32)
  | ioctlParm (parm : Parm) (val : BitVec 32)
  | setStpState (on : Bool)
  | makeBlocking (n : ℕ)

namespace NetBridge

variable (br : NetBridge)

def onPort (n : ℕ) (br' : NetBridge) : Option NetBridge := if n ∈ br.portList then some br' else none

def onTimer (t : Timer) (br' : NetBridge) : Option NetBridge := if t.due br.jiffies then some br' else none

/-- A timer is no longer pending when its function is called. -/
def handle : Event → Option NetBridge
  | .tick => some { br with jiffies := br.jiffies + 1 }
  | .receive n frame => br.onPort n (br.brStpHandleBpdu n frame)
  | .helloTimer => br.onTimer br.helloTimer
    ({ br with helloTimer := br.helloTimer.del } : NetBridge).brHelloTimerExpired
  | .tcnTimer => br.onTimer br.tcnTimer ({ br with tcnTimer := br.tcnTimer.del } : NetBridge).brTcnTimerExpired
  | .topologyChangeTimer => br.onTimer br.topologyChangeTimer
    ({ br with topologyChangeTimer := br.topologyChangeTimer.del } : NetBridge).brTopologyChangeTimerExpired
  | .messageAgeTimer n => (br.onTimer (br.work n).messageAgeTimer <|
      (br.setWork n { br.work n with messageAgeTimer := (br.work n).messageAgeTimer.del }).brMessageAgeTimerExpired n).bind
    (br.onPort n)
  | .forwardDelayTimer n => (br.onTimer (br.work n).forwardDelayTimer <|
      (br.setWork n { br.work n with forwardDelayTimer := (br.work n).forwardDelayTimer.del }).brForwardDelayTimerExpired n).bind
    (br.onPort n)
  | .holdTimer n => (br.onTimer (br.work n).holdTimer <|
      (br.setWork n { br.work n with holdTimer := (br.work n).holdTimer.del }).brHoldTimerExpired n).bind (br.onPort n)
  | .devOpen ready => if br.up then none else some (br.brStpEnableBridge ready)
  | .devStop => if br.up then some br.brStpDisableBridge else none
  | .addIf devAddr pathCost => some (br.brAddIf devAddr pathCost)
  | .delIf n => br.onPort n (br.brDelIf n)
  | .carrierCheck n cost => br.onPort n (br.portCarrierCheck n cost)
  | .netdevUp n carrier => br.onPort n (if carrier ∧ br.up then br.brStpEnablePort n else br)
  | .netdevDown n => br.onPort n (if br.up then br.brStpDisablePort n else br)
  | .changeAddr n addr => br.onPort n (br.setWork n { br.work n with devAddr := addr }).brStpRecalculateBridgeId
  | .setMacAddress addr => some (br.brSetMacAddress addr)
  | .setBridgePriority newprio => some (br.brStpSetBridgePriority newprio)
  | .setPortPriority n newprio => br.onPort n (br.brStpSetPortPriority n newprio)
  | .setPathCost n pathCost => br.onPort n (br.brStpSetPathCost n pathCost)
  | .storeParm parm val => some (br.storeBridgeParm parm val)
  | .ioctlParm parm val => some (br.oldDevIoctl parm val)
  | .setStpState on => some { br with stpEnabled := on }
  | .makeBlocking n => br.onPort n (br.brMakeBlocking n)

def step (e : Event) : Option NetBridge := if br.oops then none else br.handle e

end NetBridge

end Wap610n.Stp
