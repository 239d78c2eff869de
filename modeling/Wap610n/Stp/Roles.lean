import Mathlib.Logic.Function.Basic
import Wap610n.Stp.Bpdu

/-!
The part of the bridge and of its ports that decides which ports take part: the priority vectors and the states.
A port is known by its number, 0 stands for no port.
-/

namespace Wap610n.Stp

open Bridge (EthAddr PortState)

@[ext] structure Port where
  state : PortState
  portId : BitVec 16
  designatedPort : BitVec 16
  designatedRoot : BridgeId
  designatedBridge : BridgeId
  pathCost : BitVec 32
  designatedCost : BitVec 32

instance : DecidableEq Port := fun _ _ => decidable_of_iff' _ Port.ext_iff

@[ext] structure Root where
  bridgeId : BridgeId
  designatedRoot : BridgeId
  rootPathCost : BitVec 32
  rootPort : ℕ

instance : DecidableEq Root := fun _ _ => decidable_of_iff' _ Root.ext_iff

def brMakePortId (priority : BitVec 8) (n : ℕ) : BitVec 16 :=
  priority.setWidth 16 <<< 10 ||| BitVec.ofNat 16 n &&& 0x3ff

namespace Root

variable (br : Root) (p : Port)

def brIsRootBridge : Bool := br.bridgeId.cmp br.designatedRoot = .eq

def brIsDesignatedPort : Bool := p.designatedBridge.cmp br.bridgeId = .eq ∧ p.designatedPort = p.portId

/-- `rp` is the port with the number `rootPort`, if there is one. -/
def brShouldBecomeRootPort (rootPort : ℕ) (rp : Port) : Bool :=
  if p.state = .disabled ∨ br.brIsDesignatedPort p then false
  else if br.bridgeId.cmp p.designatedRoot ≠ .gt then false
  else if rootPort = 0 then true
  else
    match p.designatedRoot.cmp rp.designatedRoot with
    | .lt => true
    | .gt => false
    | .eq =>
      if p.designatedCost + p.pathCost < rp.designatedCost + rp.pathCost then true
      else if p.designatedCost + p.pathCost > rp.designatedCost + rp.pathCost then false
      else
        match p.designatedBridge.cmp rp.designatedBridge with
        | .lt => true
        | .gt => false
        | .eq =>
          if p.designatedPort < rp.designatedPort then true
          else if p.designatedPort > rp.designatedPort then false
          else p.portId < rp.portId

def brShouldBecomeDesignatedPort : Bool :=
  if br.brIsDesignatedPort p then true
  else if p.designatedRoot.cmp br.designatedRoot ≠ .eq then true
  else if br.rootPathCost < p.designatedCost then true
  else if br.rootPathCost > p.designatedCost then false
  else
    match br.bridgeId.cmp p.designatedBridge with
    | .lt => true
    | .gt => false
    | .eq => p.portId < p.designatedPort

def brBecomeDesignatedPort : Port :=
  { p with
    designatedRoot := br.designatedRoot
    designatedCost := br.rootPathCost
    designatedBridge := br.bridgeId
    designatedPort := p.portId }

def brSupersedesPortInfo (bpdu : ConfigBpdu) : Bool :=
  match bpdu.root.cmp p.designatedRoot with
  | .lt => true
  | .gt => false
  | .eq =>
    if bpdu.rootPathCost < p.designatedCost then true
    else if bpdu.rootPathCost > p.designatedCost then false
    else
      match bpdu.bridgeId.cmp p.designatedBridge with
      | .lt => true
      | .gt => false
      | .eq => if bpdu.bridgeId.cmp br.bridgeId ≠ .eq then true else bpdu.portId ≤ p.designatedPort

end Root

def Port.brRecordConfigInformation (p : Port) (bpdu : ConfigBpdu) : Port :=
  { p with
    designatedRoot := bpdu.root
    designatedCost := bpdu.rootPathCost
    designatedBridge := bpdu.bridgeId
    designatedPort := bpdu.portId }

structure Roles extends Root where
  portList : List ℕ
  port : ℕ → Port

namespace Roles

variable (br : Roles)

def setPort (n : ℕ) (p : Port) : Roles := { br with port := Function.update br.port n p }

def setState (n : ℕ) (state : PortState) : Roles := br.setPort n { br.port n with state := state }

def forEachPort (f : Root → ℕ → Port → Port) : Roles :=
  br.portList.foldl (fun br n => br.setPort n (f br.toRoot n (br.port n))) br

def selectRootPort : ℕ :=
  br.portList.foldl
    (fun rootPort n => if br.brShouldBecomeRootPort (br.port n) rootPort (br.port rootPort) then n else rootPort) 0

def brRootSelection : Roles :=
  let rootPort := br.selectRootPort
  if rootPort = 0 then { br with rootPort, designatedRoot := br.bridgeId, rootPathCost := 0 }
  else
    let p := br.port rootPort
    { br with rootPort, designatedRoot := p.designatedRoot, rootPathCost := p.designatedCost + p.pathCost }

def brDesignatedPortSelection : Roles :=
  br.forEachPort fun br _ p =>
    if p.state ≠ .disabled ∧ br.brShouldBecomeDesignatedPort p then br.brBecomeDesignatedPort p else p

def brConfigurationUpdate : Roles := br.brRootSelection.brDesignatedPortSelection

def brIsDesignatedForSomePort : Bool :=
  br.portList.any fun n => (br.port n).state ≠ .disabled ∧ (br.port n).designatedBridge.cmp br.bridgeId = .eq

def becomeDesignated (n : ℕ) : Roles := br.setPort n (br.brBecomeDesignatedPort (br.port n))

def initPort (n : ℕ) (portId : BitVec 16) : Roles :=
  br.setPort n { br.brBecomeDesignatedPort { br.port n with portId } with state := .blocking }

def addPort (n : ℕ) (portId : BitVec 16) (pathCost : BitVec 32) : Roles :=
  let br := br.setPort n { br.port n with pathCost }
  let br := (br.initPort n portId).setState n .disabled
  { br with portList := n :: br.portList }

def setPortId (n : ℕ) (portId : BitVec 16) : Roles :=
  let p := br.port n
  br.setPort n { p with portId, designatedPort := if br.brIsDesignatedPort p then portId else p.designatedPort }

def changeAddr (oldaddr addr : EthAddr) (id : BridgeId) : BridgeId :=
  if id.addr = oldaddr then { id with addr := addr } else id

def changeBridgeAddr (addr : EthAddr) : Roles :=
  let oldaddr := br.bridgeId.addr
  ({ br with bridgeId := { br.bridgeId with addr := addr } } : Roles).forEachPort fun _ _ p =>
    { p with
      designatedBridge := changeAddr oldaddr addr p.designatedBridge
      designatedRoot := changeAddr oldaddr addr p.designatedRoot }

def priorityBytes (newprio : BitVec 16) : Fin 2 → UInt8
  | 0 => octet newprio 8
  | 1 => octet newprio 0

def changePriority (newprio : BitVec 16) : Roles :=
  let br := br.forEachPort fun br _ p =>
    if p.state ≠ .disabled ∧ br.brIsDesignatedPort p then
      { p with designatedBridge := { p.designatedBridge with prio := priorityBytes newprio } }
    else p
  { br with bridgeId := { br.bridgeId with prio := priorityBytes newprio } }

def makeBlocking (p : Port) : Port :=
  if p.state ≠ .disabled ∧ p.state ≠ .blocking then { p with state := .blocking } else p

def makeForwarding (stp : Bool) (p : Port) : Port :=
  if p.state = .blocking then { p with state := if stp then .listening else .learning } else p

def selectState (stp : Bool) (br : Root) (n : ℕ) (p : Port) : Port :=
  if p.state ≠ .disabled then
    if n = br.rootPort then makeForwarding stp p
    else if br.brIsDesignatedPort p then makeForwarding stp p
    else makeBlocking p
  else p

def brPortStateSelection (stp : Bool) : Roles := br.forEachPort (selectState stp)

def reselect (stp : Bool) : Roles := br.brConfigurationUpdate.brPortStateSelection stp

variable {br} {n m : ℕ} {p : Port}

@[simp] theorem setPort_toRoot : (br.setPort n p).toRoot = br.toRoot := rfl

@[simp] theorem setPort_port_self : (br.setPort n p).port n = p := Function.update_self ..

@[simp] theorem setPort_self : br.setPort n (br.port n) = br := by
  rw [setPort, Function.update_eq_self]

theorem setPort_port_of_ne (h : m ≠ n) : (br.setPort n p).port m = br.port m := Function.update_of_ne h ..

def mapPorts (br : Roles) (f : ℕ → Port → Port) : Roles :=
  { br with port := fun n => if n ∈ br.portList then f n (br.port n) else br.port n }

theorem foldl_setPort {f : Root → ℕ → Port → Port} (hf : ∀ b n p, f b n (f b n p) = f b n p) (l : List ℕ) (br : Roles) :
    l.foldl (fun br n => br.setPort n (f br.toRoot n (br.port n))) br =
      { br with port := fun n => if n ∈ l then f br.toRoot n (br.port n) else br.port n } := by
  induction l generalizing br with
  | nil => simp
  | cons m l ih =>
    rw [List.foldl_cons, ih]
    have hport : ∀ n, (if n ∈ l then f br.toRoot n ((br.setPort m (f br.toRoot m (br.port m))).port n)
          else (br.setPort m (f br.toRoot m (br.port m))).port n) =
        if n ∈ m :: l then f br.toRoot n (br.port n) else br.port n := by
      intro n
      by_cases hn : n = m
      · subst hn
        simp [hf]
      · simp [setPort_port_of_ne hn, hn]
    simp only [setPort_toRoot, hport]
    rfl

theorem forEachPort_eq_mapPorts {f : Root → ℕ → Port → Port} (hf : ∀ b n p, f b n (f b n p) = f b n p) (br : Roles) :
    br.forEachPort f = br.mapPorts (f br.toRoot) := foldl_setPort hf br.portList br

end Roles

namespace Root

variable {br : Root} {p : Port}

theorem brIsRootBridge_iff : br.brIsRootBridge = true ↔ br.designatedRoot = br.bridgeId := by
  rw [brIsRootBridge, decide_eq_true_iff, BridgeId.cmp_eq_iff, eq_comm]

theorem brIsDesignatedPort_iff :
    br.brIsDesignatedPort p = true ↔ p.designatedBridge = br.bridgeId ∧ p.designatedPort = p.portId := by
  simp [brIsDesignatedPort, BridgeId.cmp_eq_iff]

end Root

namespace Roles

theorem brDesignatedPortSelection_eq (br : Roles) : br.brDesignatedPortSelection = br.mapPorts fun _ p =>
    if p.state ≠ .disabled ∧ br.brShouldBecomeDesignatedPort p then br.brBecomeDesignatedPort p else p := by
  apply forEachPort_eq_mapPorts
  intro b n p
  split_ifs <;> rfl

/-- The ports that are to forward. -/
def active (br : Root) (n : ℕ) (p : Port) : Bool := n = br.rootPort || br.brIsDesignatedPort p

def nextState (stp active : Bool) : PortState → PortState
  | .disabled => .disabled
  | .blocking => if active then if stp then .listening else .learning else .blocking
  | state => if active then state else .blocking

theorem nextState_idem (stp active : Bool) (state : PortState) :
    nextState stp active (nextState stp active state) = nextState stp active state := by
  cases stp <;> cases active <;> cases state <;> rfl

theorem selectState_eq (stp : Bool) (br : Root) (n : ℕ) (p : Port) :
    selectState stp br n p = { p with state := nextState stp (active br n p) p.state } := by
  rw [selectState, makeForwarding, makeBlocking, active]
  cases p with
  | mk state =>
    by_cases hroot : n = br.rootPort
    · cases state <;> simp [hroot, nextState]
    · cases state <;> cases hd : br.brIsDesignatedPort _ <;> simp [hroot, nextState]

theorem brPortStateSelection_eq (br : Roles) (stp : Bool) : br.brPortStateSelection stp = br.mapPorts fun n p =>
    { p with state := nextState stp (active br.toRoot n p) p.state } := by
  rw [brPortStateSelection, forEachPort_eq_mapPorts]
  · congr 1
    funext n p
    exact selectState_eq ..
  · intro b n p
    have hactive : active b n (selectState stp b n p) = active b n p := by rw [selectState_eq]; rfl
    rw [selectState_eq stp b n (selectState stp b n p), hactive, selectState_eq stp b n p]
    exact congrArg (fun state => { p with state := state }) (nextState_idem ..)

theorem foldl_setPort_toRoot (f : Root → ℕ → Port → Port) (l : List ℕ) (br : Roles) :
    (l.foldl (fun br n => br.setPort n (f br.toRoot n (br.port n))) br).toRoot = br.toRoot := by
  induction l generalizing br with
  | nil => rfl
  | cons n l ih => exact ih _

theorem foldl_setPort_portList (f : Root → ℕ → Port → Port) (l : List ℕ) (br : Roles) :
    (l.foldl (fun br n => br.setPort n (f br.toRoot n (br.port n))) br).portList = br.portList := by
  induction l generalizing br with
  | nil => rfl
  | cons n l ih => exact ih _

@[simp] theorem forEachPort_toRoot (br : Roles) (f : Root → ℕ → Port → Port) :
    (br.forEachPort f).toRoot = br.toRoot := foldl_setPort_toRoot f br.portList br

@[simp] theorem forEachPort_portList (br : Roles) (f : Root → ℕ → Port → Port) :
    (br.forEachPort f).portList = br.portList := foldl_setPort_portList f br.portList br

@[simp] theorem brPortStateSelection_toRoot (br : Roles) (stp : Bool) :
    (br.brPortStateSelection stp).toRoot = br.toRoot := forEachPort_toRoot ..

@[simp] theorem brPortStateSelection_portList (br : Roles) (stp : Bool) :
    (br.brPortStateSelection stp).portList = br.portList := forEachPort_portList ..

@[simp] theorem brConfigurationUpdate_toRoot (br : Roles) :
    br.brConfigurationUpdate.toRoot = br.brRootSelection.toRoot := forEachPort_toRoot ..

@[simp] theorem brRootSelection_portList (br : Roles) : br.brRootSelection.portList = br.portList := by
  rw [brRootSelection]
  dsimp only
  split_ifs <;> rfl

@[simp] theorem brRootSelection_port (br : Roles) : br.brRootSelection.port = br.port := by
  rw [brRootSelection]
  dsimp only
  split_ifs <;> rfl

@[simp] theorem brConfigurationUpdate_portList (br : Roles) : br.brConfigurationUpdate.portList = br.portList :=
  (forEachPort_portList ..).trans br.brRootSelection_portList

theorem brConfigurationUpdate_port (br : Roles) (n : ℕ) : br.brConfigurationUpdate.port n = br.port n ∨
    br.brConfigurationUpdate.port n = br.brRootSelection.brBecomeDesignatedPort (br.port n) := by
  rw [brConfigurationUpdate, brDesignatedPortSelection_eq]
  simp only [mapPorts, brRootSelection_port]
  split_ifs
  · exact Or.inr rfl
  · exact Or.inl rfl
  · exact Or.inl rfl

theorem brConfigurationUpdate_state (br : Roles) (n : ℕ) :
    (br.brConfigurationUpdate.port n).state = (br.port n).state := by
  rcases br.brConfigurationUpdate_port n with h | h
  · rw [h]
  · rw [h]
    rfl

theorem reselect_port_of_disabled {br : Roles} {n : ℕ} (h : (br.port n).state = .disabled) (stp : Bool) :
    (br.reselect stp).port n = br.port n := by
  rw [reselect, brPortStateSelection_eq, brConfigurationUpdate, brDesignatedPortSelection_eq]
  simp only [mapPorts, brRootSelection_portList, brRootSelection_port]
  split_ifs with hn hd
  · exact absurd h hd.1
  · have hstate (active : Bool) : nextState stp active (br.port n).state = (br.port n).state := by rw [h]; rfl
    exact congrArg (fun state => { br.port n with state := state }) (hstate _)
  · rfl

def Eligible (br : Roles) (n : ℕ) : Prop :=
  n ∈ br.portList ∧ (br.port n).state ≠ .disabled ∧ br.brIsDesignatedPort (br.port n) = false ∧
    (br.port n).designatedRoot.value < br.bridgeId.value

theorem Eligible.of_should {br : Roles} {n rootPort : ℕ} {rp : Port} (hn : n ∈ br.portList)
    (h : br.brShouldBecomeRootPort (br.port n) rootPort rp = true) : br.Eligible n := by
  rw [Root.brShouldBecomeRootPort] at h
  split_ifs at h with h₁ h₂
  all_goals
    rw [not_or, Bool.not_eq_true] at h₁
    exact ⟨hn, h₁.1, h₁.2, BridgeId.cmp_gt_iff.mp (not_not.mp h₂)⟩

theorem selectRootPort_eligible (br : Roles) : br.selectRootPort = 0 ∨ br.Eligible br.selectRootPort := by
  suffices h : ∀ (l : List ℕ) (rp : ℕ), (∀ n ∈ l, n ∈ br.portList) → (rp = 0 ∨ br.Eligible rp) →
      let rootPort := l.foldl (fun rootPort n =>
        if br.brShouldBecomeRootPort (br.port n) rootPort (br.port rootPort) then n else rootPort) rp
      rootPort = 0 ∨ br.Eligible rootPort from h br.portList 0 (fun _ => id) (Or.inl rfl)
  intro l
  induction l with
  | nil => exact fun rp _ hrp => hrp
  | cons n l ih =>
    intro rp hl hrp
    apply ih _ (fun m hm => hl m (List.mem_cons_of_mem _ hm))
    dsimp only
    split_ifs with h
    · exact Or.inr (Eligible.of_should (hl n List.mem_cons_self) h)
    · exact hrp

end Roles

end Wap610n.Stp
