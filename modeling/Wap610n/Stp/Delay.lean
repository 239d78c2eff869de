import Mathlib.Data.List.Infix
import Wap610n.Stp.Sound

/-!
How long a port takes from blocking to forwarding.
-/

namespace Wap610n.Stp

open Bridge (EthAddr PortState)
open Transition (Run)

def Event.isTick : Event → Bool
  | .tick => true
  | _ => false

namespace NetBridge

variable {b b' b'' : NetBridge} {n m : ℕ} {w : PortWork}

def stage (b : NetBridge) (n : ℕ) : PortState × BitVec 32 :=
  ((b.port n).state, (b.work n).forwardDelayTimer.expires)

def Moved (D : BitVec 32 → Prop) (jiffies : BitVec 32) (s s' : PortState × BitVec 32) : Prop :=
  s' = s ∨ s'.1 = .disabled ∨ s'.1 = .blocking ∨ s'.1 = .listening ∧ ∃ d, D d ∧ s'.2 = jiffies + d

theorem Moved.trans {D : BitVec 32 → Prop} {jiffies : BitVec 32} {s s' s'' : PortState × BitVec 32}
    (h : Moved D jiffies s s') (h' : Moved D jiffies s' s'') : Moved D jiffies s s'' := by
  rcases h' with rfl | h'
  · exact h
  · exact Or.inr h'

def Delays (D : BitVec 32 → Prop) (b : NetBridge) : Prop :=
  b.stpEnabled = true ∧ D b.times.forwardDelay ∧ D b.bridgeTimes.forwardDelay

def Paces (D : BitVec 32 → Prop) (n : ℕ) (b b' : NetBridge) : Prop :=
  Delays D b → Delays D b' ∧ b'.jiffies = b.jiffies ∧ Moved D b.jiffies (b.stage n) (b'.stage n)

variable {D : BitVec 32 → Prop}

theorem Paces.refl (b : NetBridge) : b.Paces D n b := fun h => ⟨h, rfl, Or.inl rfl⟩

theorem Paces.trans (h : Paces D n b b') (h' : Paces D n b' b'') : Paces D n b b'' := by
  intro hd
  obtain ⟨hd', hj, hmoved⟩ := h hd
  obtain ⟨hd'', hj', hmoved'⟩ := h' hd'
  exact ⟨hd'', hj'.trans hj, hmoved.trans (hj ▸ hmoved')⟩

def SameStage (n : ℕ) (b b' : NetBridge) : Prop :=
  b'.stpEnabled = b.stpEnabled ∧ b'.times = b.times ∧ b'.bridgeTimes = b.bridgeTimes ∧
    b'.jiffies = b.jiffies ∧ b'.stage n = b.stage n

theorem SameStage.refl (b : NetBridge) : b.SameStage n b := ⟨rfl, rfl, rfl, rfl, rfl⟩

theorem SameStage.trans (h : SameStage n b b') (h' : SameStage n b' b'') : SameStage n b b'' :=
  ⟨h'.1.trans h.1, h'.2.1.trans h.2.1, h'.2.2.1.trans h.2.2.1, h'.2.2.2.1.trans h.2.2.2.1, h'.2.2.2.2.trans h.2.2.2.2⟩

theorem SameStage.paces (h : SameStage n b b') : Paces D n b b' := by
  obtain ⟨hstp, htimes, hbridge, hj, hstage⟩ := h
  rintro ⟨h₁, h₂, h₃⟩
  exact ⟨⟨hstp.trans h₁, htimes ▸ h₂, hbridge ▸ h₃⟩, hj, Or.inl hstage⟩

theorem stage_setWork (h : w.forwardDelayTimer.expires = (b.work m).forwardDelayTimer.expires) :
    (b.setWork m w).stage n = b.stage n := by
  by_cases hn : n = m
  · subst hn
    exact Prod.ext rfl ((congrArg (fun w => w.forwardDelayTimer.expires) (setWork_work_self b)).trans h)
  · exact Prod.ext rfl (congrArg (fun w => w.forwardDelayTimer.expires) (setWork_work_of_ne b hn))

theorem SameStage.setWork (b : NetBridge) (h : w.forwardDelayTimer.expires = (b.work m).forwardDelayTimer.expires) :
    b.SameStage n (b.setWork m w) := ⟨rfl, rfl, rfl, rfl, stage_setWork h⟩

theorem brTransmitConfig_stage (m : ℕ) : b.SameStage n (b.brTransmitConfig m) := by
  rw [brTransmitConfig]
  split_ifs
  · exact SameStage.setWork b (by rfl)
  · exact .refl b
  · rw [brSendConfigBpdu]
    split_ifs
    · exact SameStage.setWork { b with sent := _ } (by rfl)
    · exact SameStage.setWork b (by rfl)
  · exact .refl b

theorem brTransmitTcn_stage : b.SameStage n b.brTransmitTcn := by
  rw [brTransmitTcn, brSendTcnBpdu]
  split_ifs
  all_goals exact .refl b

theorem brTopologyChangeDetection_stage : b.SameStage n b.brTopologyChangeDetection := by
  rw [brTopologyChangeDetection]
  dsimp only
  split_ifs
  · exact .refl b
  · exact brTransmitTcn_stage (b := b)
  · exact .refl b

theorem brConfigBpduGeneration_stage : b.SameStage n b.brConfigBpduGeneration := by
  apply forEachPort_trans .refl .trans
  intro b m
  split_ifs
  · exact brTransmitConfig_stage m
  · exact .refl b

theorem stage_setState_of_ne (h : n ≠ m) (state : PortState) : (b.setState m state).stage n = b.stage n :=
  Prod.ext (congrArg Port.state (Roles.setPort_port_of_ne h)) rfl

theorem stage_setState_self (state : PortState) : ((b.setState n state).stage n).1 = state :=
  congrArg Port.state Roles.setPort_port_self

theorem brMakeForwarding_paces (m : ℕ) : b.Paces D n (b.brMakeForwarding m) := by
  rintro ⟨hstp, htimes, hbridge⟩
  rw [brMakeForwarding]
  split_ifs
  · refine ⟨⟨hstp, htimes, hbridge⟩, rfl, ?_⟩
    by_cases hn : n = m
    · subst hn
      refine Or.inr (Or.inr (Or.inr ⟨stage_setState_self _, _, htimes, ?_⟩))
      exact congrArg (fun w => w.forwardDelayTimer.expires) (setWork_work_self _)
    · refine Or.inl (Prod.ext ?_ ?_)
      · exact congrArg Port.state (Roles.setPort_port_of_ne hn)
      · exact congrArg (fun w => w.forwardDelayTimer.expires) (setWork_work_of_ne _ hn)
  · exact ⟨⟨hstp, htimes, hbridge⟩, rfl, Or.inl rfl⟩

theorem blocked_paces (m : ℕ) : b.Paces D n ((b.setState m .blocking).setWork m
    { b.work m with forwardDelayTimer := (b.work m).forwardDelayTimer.del }) := by
  intro hd
  refine ⟨hd, rfl, ?_⟩
  rw [stage_setWork (by rfl)]
  by_cases hn : n = m
  · subst hn
    exact Or.inr (Or.inr (Or.inl (stage_setState_self _)))
  · exact Or.inl (stage_setState_of_ne hn _)

theorem brMakeBlocking_paces (m : ℕ) : b.Paces D n (b.brMakeBlocking m) := by
  rw [brMakeBlocking]
  dsimp only
  split_ifs
  · exact brTopologyChangeDetection_stage.paces.trans (blocked_paces m)
  · exact blocked_paces m
  · exact .refl b

theorem brPortStateSelection_paces : b.Paces D n b.brPortStateSelection := by
  apply forEachPort_trans .refl .trans
  intro b m
  rw [selectPort]
  split_ifs
  · exact (SameStage.setWork b (by rfl)).paces.trans (brMakeForwarding_paces m)
  · exact (SameStage.setWork b (by rfl)).paces.trans (brMakeForwarding_paces m)
  · exact (SameStage.setWork b (by rfl)).paces.trans (brMakeBlocking_paces m)
  · exact .refl b

theorem brConfigurationUpdate_stage : b.SameStage n b.brConfigurationUpdate :=
  ⟨rfl, rfl, rfl, rfl, Prod.ext (Roles.brConfigurationUpdate_state ..) rfl⟩

theorem brBecomeRootBridge_paces : b.Paces D n b.brBecomeRootBridge := by
  have htimes : b.Paces D n { b with times := b.bridgeTimes } :=
    fun hd => ⟨⟨hd.1, hd.2.2, hd.2.2⟩, rfl, Or.inl rfl⟩
  have hchanged : b.Paces D n ({ b with times := b.bridgeTimes } : NetBridge).brTopologyChangeDetection :=
    htimes.trans brTopologyChangeDetection_stage.paces
  rw [brBecomeRootBridge]
  dsimp only
  generalize ({ b with times := b.bridgeTimes } : NetBridge).brTopologyChangeDetection = changed at hchanged ⊢
  have hgen : changed.SameStage n ({ changed with tcnTimer := changed.tcnTimer.del } : NetBridge).brConfigBpduGeneration :=
    brConfigBpduGeneration_stage (b := { changed with tcnTimer := changed.tcnTimer.del })
  split_ifs
  · exact hchanged.trans hgen.paces
  · exact hchanged

theorem brTakeRoles_paces (wasRoot : Bool) : b.Paces D n (b.brTakeRoles wasRoot) := by
  have hselect : b.Paces D n b.brConfigurationUpdate.brPortStateSelection :=
    brConfigurationUpdate_stage.paces.trans brPortStateSelection_paces
  rw [brTakeRoles]
  split_ifs
  · exact hselect.trans brBecomeRootBridge_paces
  · exact hselect

theorem Paces.of_roles {r : Roles} (h : (r.port n).state = (b.port n).state ∨ (r.port n).state = .disabled ∨
    (r.port n).state = .blocking) : b.Paces D n (b.setRoles r) := by
  intro hd
  refine ⟨hd, rfl, ?_⟩
  rcases h with h | h | h
  · exact Or.inl (Prod.ext h rfl)
  · exact Or.inr (Or.inl h)
  · exact Or.inr (Or.inr (Or.inl h))

theorem setPort_state {r : Roles} {p : Port} (h : p.state = (r.port m).state ∨ p.state = .disabled ∨ p.state = .blocking) :
    ((r.setPort m p).port n).state = (r.port n).state ∨ ((r.setPort m p).port n).state = .disabled ∨
      ((r.setPort m p).port n).state = .blocking := by
  by_cases hn : n = m
  · subst hn
    rwa [Roles.setPort_port_self]
  · rw [Roles.setPort_port_of_ne hn]
    exact Or.inl rfl

theorem forEachPort_state {r : Roles} {f : Root → ℕ → Port → Port} (hf : ∀ b m p, (f b m p).state = p.state) :
    ((r.forEachPort f).port n).state = (r.port n).state := by
  suffices h : ∀ (l : List ℕ) (r : Roles),
      ((l.foldl (fun r m => r.setPort m (f r.toRoot m (r.port m))) r).port n).state = (r.port n).state from h r.portList r
  intro l
  induction l with
  | nil => exact fun _ => rfl
  | cons m l ih =>
    intro r
    rw [List.foldl_cons, ih]
    by_cases hn : n = m
    · subst hn
      rw [Roles.setPort_port_self, hf]
    · rw [Roles.setPort_port_of_ne hn]

theorem brStpEnablePort_paces (m : ℕ) : b.Paces D n (b.brStpEnablePort m) := by
  have hinit : b.Paces D n (b.brInitPort m) :=
    Paces.trans (.of_roles (setPort_state (Or.inr (Or.inr rfl)))) (SameStage.setWork (b.setRoles _) (by rfl)).paces
  exact hinit.trans brPortStateSelection_paces

theorem brStpDisablePort_paces (m : ℕ) : b.Paces D n (b.brStpDisablePort m) := by
  have hdesignated : b.Paces D n (b.setRoles (b.toRoles.becomeDesignated m)) :=
    .of_roles (setPort_state (Or.inl rfl))
  have hdisabled : b.Paces D n (b.setRoles ((b.toRoles.becomeDesignated m).setState m .disabled)) :=
    hdesignated.trans (.of_roles (setPort_state (Or.inr (Or.inl rfl))))
  rw [brStpDisablePort]
  exact (hdisabled.trans (SameStage.setWork (b.setRoles _) (by rfl)).paces).trans (brTakeRoles_paces _)

theorem brStpEnableBridge_paces (ready : ℕ → Bool) : b.Paces D n (b.brStpEnableBridge ready) := by
  have hgen : b.Paces D n
      ({ b with helloTimer := .mod (b.jiffies + b.times.helloTime) } : NetBridge).brConfigBpduGeneration :=
    SameStage.paces (brConfigBpduGeneration_stage (b := { b with helloTimer := _ }))
  refine hgen.trans (forEachPort_trans (R := Paces D n) (f := fun b m => if ready m then b.brStpEnablePort m else b)
    .refl .trans ?_)
  intro b m
  split_ifs
  · exact brStpEnablePort_paces m
  · exact .refl b

theorem brStpDisableBridge_paces : b.Paces D n b.brStpDisableBridge := by
  refine forEachPort_trans (R := Paces D n)
    (f := fun b m => if (b.port m).state ≠ .disabled then b.brStpDisablePort m else b) .refl .trans ?_
  intro b m
  split_ifs
  · exact brStpDisablePort_paces m
  · exact .refl b

theorem brStpChangeBridgeId_paces (addr : EthAddr) : b.Paces D n (b.brStpChangeBridgeId addr) := by
  have hroles : b.Paces D n (b.setRoles (b.toRoles.changeBridgeAddr addr)) := by
    refine .of_roles (Or.inl ?_)
    rw [Roles.changeBridgeAddr, forEachPort_state]
    exact fun _ _ _ => rfl
  exact hroles.trans (brTakeRoles_paces _)

theorem brStpRecalculateBridgeId_paces : b.Paces D n b.brStpRecalculateBridgeId := by
  rw [brStpRecalculateBridgeId]
  split_ifs
  · exact brStpChangeBridgeId_paces _
  · exact .refl b

theorem brStpSetBridgePriority_paces (newprio : BitVec 16) : b.Paces D n (b.brStpSetBridgePriority newprio) := by
  have hroles : b.Paces D n (b.setRoles (b.toRoles.changePriority newprio)) := by
    refine .of_roles (Or.inl (forEachPort_state ?_))
    intro b m p
    split_ifs <;> rfl
  exact hroles.trans (brTakeRoles_paces _)

theorem brStpSetPortPriority_paces (m : ℕ) (newprio : BitVec 8) : b.Paces D n (b.brStpSetPortPriority m newprio) := by
  have hroles : b.Paces D n (b.setRoles (b.toRoles.setPortId m (brMakePortId newprio m))) :=
    .of_roles (setPort_state (Or.inl rfl))
  let b' := (b.setRoles (b.toRoles.setPortId m (brMakePortId newprio m))).setWork m { b.work m with priority := newprio }
  have hid : b.Paces D n b' := hroles.trans (SameStage.setWork (b.setRoles _) (by exact rfl)).paces
  have hdesignated : b'.Paces D n (b'.setRoles (b'.toRoles.becomeDesignated m)) :=
    .of_roles (setPort_state (Or.inl rfl))
  rw [brStpSetPortPriority]
  dsimp only
  split_ifs
  · exact (hid.trans hdesignated).trans brPortStateSelection_paces
  · exact hid

theorem brStpSetPathCost_paces (m : ℕ) (pathCost : BitVec 32) : b.Paces D n (b.brStpSetPathCost m pathCost) := by
  have hcost : b.Paces D n (b.setRoles (b.toRoles.setPort m { b.port m with pathCost })) :=
    .of_roles (setPort_state (Or.inl rfl))
  exact hcost.trans (brConfigurationUpdate_stage.paces.trans brPortStateSelection_paces)

theorem brDelIf_paces (m : ℕ) : b.Paces D n (b.brDelIf m) := by
  have herase (off : NetBridge) :
      off.Paces D n (off.setRoles { off.toRoles with portList := off.portList.erase m }) := .of_roles (Or.inl rfl)
  rw [brDelIf]
  exact ((brStpDisablePort_paces m).trans (herase _)).trans brStpRecalculateBridgeId_paces

theorem addPort_state {r : Roles} (portId : BitVec 16) (pathCost : BitVec 32) :
    n = m ∧ ((r.addPort m portId pathCost).port n).state = .disabled ∨
      n ≠ m ∧ (r.addPort m portId pathCost).port n = r.port n := by
  by_cases hn : n = m
  · subst hn
    exact Or.inl ⟨rfl, congrArg Port.state Roles.setPort_port_self⟩
  · exact Or.inr ⟨hn, (Roles.setPort_port_of_ne hn).trans
      ((Roles.setPort_port_of_ne hn).trans (Roles.setPort_port_of_ne hn))⟩

theorem brAddIf_paces (devAddr : EthAddr) (pathCost : BitVec 32) : b.Paces D n (b.brAddIf devAddr pathCost) := by
  rw [brAddIf]
  dsimp only
  generalize b.findPortno = m
  split_ifs
  · exact .refl b
  · refine Paces.trans ?_ brStpRecalculateBridgeId_paces
    refine fun hd => ⟨hd, rfl, ?_⟩
    rcases addPort_state (n := n) (m := m) (r := b.toRoles) (brMakePortId 0x20 m) pathCost
      with ⟨-, hstate⟩ | ⟨hn, hport⟩
    · exact Or.inr (Or.inl hstate)
    · refine Or.inl (Prod.ext (congrArg Port.state hport) ?_)
      exact congrArg (fun w => w.forwardDelayTimer.expires) (setWork_work_of_ne _ hn)

theorem portCarrierCheck_paces (m : ℕ) (cost : Option (BitVec 32)) : b.Paces D n (b.portCarrierCheck m cost) := by
  cases cost with
  | none =>
    rw [portCarrierCheck]
    split_ifs
    · exact brStpDisablePort_paces m
    · exact .refl b
  | some pathCost =>
    have hcost : b.Paces D n (b.setRoles (b.toRoles.setPort m { b.port m with pathCost })) :=
      .of_roles (setPort_state (Or.inl rfl))
    rw [portCarrierCheck]
    dsimp only
    split_ifs
    · exact hcost.trans (brStpEnablePort_paces m)
    · exact hcost

theorem brRecordConfigInformation_paces (m : ℕ) (bpdu : ConfigBpdu) : b.Paces D n (b.brRecordConfigInformation m bpdu) := by
  have hroles : b.Paces D n (b.setRoles (b.toRoles.setPort m ((b.port m).brRecordConfigInformation bpdu))) :=
    .of_roles (setPort_state (Or.inl rfl))
  exact hroles.trans (SameStage.setWork (b.setRoles _) (by exact rfl)).paces

theorem yieldRoot_stage (wasRoot : Bool) : b.SameStage n (b.yieldRoot wasRoot) := by
  rw [yieldRoot]
  dsimp only
  split_ifs
  · exact brTransmitTcn_stage
      (b := { b with helloTimer := b.helloTimer.del, topologyChangeTimer := b.topologyChangeTimer.del })
  · exact .refl b
  · exact .refl b

theorem brReceivedTcnBpdu_stage (m : ℕ) : b.SameStage n (b.brReceivedTcnBpdu m) := by
  rw [brReceivedTcnBpdu]
  split_ifs
  · exact (brTopologyChangeDetection_stage.trans (SameStage.setWork _ (by exact rfl))).trans (brTransmitConfig_stage m)
  · exact .refl b

def Ends (D : BitVec 32 → Prop) (n : ℕ) (b b' : NetBridge) : Prop :=
  Delays D b → b'.jiffies = b.jiffies ∧ Moved D b.jiffies (b.stage n) (b'.stage n)

theorem Paces.ends (h : Paces D n b b') : Ends D n b b' := fun hd => (h hd).2

theorem Paces.trans_ends (h : Paces D n b b') (h' : Ends D n b' b'') : Ends D n b b'' := by
  intro hd
  obtain ⟨hd', hj, hmoved⟩ := h hd
  obtain ⟨hj', hmoved'⟩ := h' hd'
  exact ⟨hj'.trans hj, hmoved.trans (hj ▸ hmoved')⟩

theorem followRoot_ends (m : ℕ) (bpdu : ConfigBpdu) : b.Ends D n (b.followRoot m bpdu) := by
  intro _
  have hgen := brConfigBpduGeneration_stage (n := n) (b := b.brRecordConfigTimeoutValues bpdu)
  rw [followRoot]
  split_ifs
  · exact ⟨hgen.2.2.2.1, Or.inl hgen.2.2.2.2⟩
  · exact ⟨hgen.2.2.2.1, Or.inl hgen.2.2.2.2⟩
  · exact ⟨rfl, Or.inl rfl⟩

theorem brReceivedConfigBpdu_ends (m : ℕ) (bpdu : ConfigBpdu) : b.Ends D n (b.brReceivedConfigBpdu m bpdu) := by
  rw [brReceivedConfigBpdu]
  dsimp only
  split_ifs
  · have hrecord := (brRecordConfigInformation_paces (b := b) (D := D) (n := n) m bpdu).trans
      (brConfigurationUpdate_stage.paces.trans brPortStateSelection_paces)
    exact (hrecord.trans (yieldRoot_stage _).paces).trans_ends (followRoot_ends m bpdu)
  · exact (brTransmitConfig_stage m).paces.ends
  · exact (Paces.refl b).ends

theorem brStpHandleBpdu_ends (m : ℕ) (frame : List UInt8) : b.Ends D n (b.brStpHandleBpdu m frame) := by
  rw [brStpHandleBpdu]
  split_ifs
  · exact (Paces.refl b).ends
  · split
    · exact brReceivedConfigBpdu_ends m _
    · exact (brReceivedTcnBpdu_stage m).paces.ends
    · exact (Paces.refl b).ends

theorem brMessageAgeTimerExpired_paces (m : ℕ) : b.Paces D n (b.brMessageAgeTimerExpired m) := by
  have hroles : b.Paces D n (b.setRoles (b.toRoles.becomeDesignated m)) := .of_roles (setPort_state (Or.inl rfl))
  rw [brMessageAgeTimerExpired]
  split_ifs
  · exact .refl b
  · exact hroles.trans (brTakeRoles_paces _)

theorem brForwardDelayTimerExpired_stage_of_ne (hn : n ≠ m) : b.SameStage n (b.brForwardDelayTimerExpired m) := by
  have hset (state : PortState) : b.SameStage n (b.setState m state) :=
    ⟨rfl, rfl, rfl, rfl, stage_setState_of_ne hn state⟩
  rw [brForwardDelayTimerExpired]
  dsimp only
  split_ifs
  · refine ⟨rfl, rfl, rfl, rfl, Prod.ext (congrArg Port.state (Roles.setPort_port_of_ne hn)) ?_⟩
    exact congrArg (fun w => w.forwardDelayTimer.expires) (setWork_work_of_ne _ hn)
  · exact (hset .forwarding).trans brTopologyChangeDetection_stage
  · exact hset .forwarding
  · exact .refl b

theorem handle_ends {e : Event} (h : b.handle e = some b') (htick : e ≠ .tick) (hn : e ≠ .forwardDelayTimer n) :
    b.Ends D n b' := by
  have hrefl : b.Ends D n b := (Paces.refl b).ends
  cases e with
  | tick => exact absurd rfl htick
  | setStpState _ | storeParm _ _ | ioctlParm _ _ =>
    obtain rfl := Option.some.inj h
    exact hrefl
  | receive m frame =>
    obtain ⟨-, rfl⟩ := onPort_eq_some h
    exact brStpHandleBpdu_ends m frame
  | helloTimer =>
    obtain ⟨-, rfl⟩ := onTimer_eq_some h
    rw [brHelloTimerExpired]
    split_ifs
    · exact (SameStage.paces (brConfigBpduGeneration_stage (b := { b with helloTimer := b.helloTimer.del }))).ends
    · exact hrefl
  | tcnTimer =>
    obtain ⟨-, rfl⟩ := onTimer_eq_some h
    rw [brTcnTimerExpired]
    split_ifs
    · exact (SameStage.paces (brTransmitTcn_stage (b := { b with tcnTimer := b.tcnTimer.del }))).ends
    · exact hrefl
  | topologyChangeTimer =>
    obtain ⟨-, rfl⟩ := onTimer_eq_some h
    exact hrefl
  | messageAgeTimer m =>
    obtain ⟨-, rfl⟩ := onTimer_bind_onPort h
    exact ((SameStage.setWork b (by rfl)).paces.trans (brMessageAgeTimerExpired_paces m)).ends
  | forwardDelayTimer m =>
    obtain ⟨-, rfl⟩ := onTimer_bind_onPort h
    have hne : n ≠ m := fun heq => hn (heq ▸ rfl)
    exact ((SameStage.setWork b (by rfl)).trans (brForwardDelayTimerExpired_stage_of_ne hne)).paces.ends
  | holdTimer m =>
    obtain ⟨-, rfl⟩ := onTimer_bind_onPort h
    rw [brHoldTimerExpired]
    split_ifs
    · exact ((SameStage.setWork b (by rfl)).trans (brTransmitConfig_stage m)).paces.ends
    · exact (SameStage.setWork b (by rfl)).paces.ends
  | devOpen ready =>
    rw [handle] at h
    split_ifs at h
    obtain rfl := Option.some.inj h
    exact (brStpEnableBridge_paces ready).ends
  | devStop =>
    rw [handle] at h
    split_ifs at h
    obtain rfl := Option.some.inj h
    exact brStpDisableBridge_paces.ends
  | addIf devAddr pathCost =>
    obtain rfl := Option.some.inj h
    exact (brAddIf_paces devAddr pathCost).ends
  | delIf m =>
    obtain ⟨-, rfl⟩ := onPort_eq_some h
    exact (brDelIf_paces m).ends
  | carrierCheck m cost =>
    obtain ⟨-, rfl⟩ := onPort_eq_some h
    exact (portCarrierCheck_paces m cost).ends
  | netdevUp m carrier =>
    obtain ⟨-, rfl⟩ := onPort_eq_some h
    split_ifs
    · exact (brStpEnablePort_paces m).ends
    · exact hrefl
  | netdevDown m =>
    obtain ⟨-, rfl⟩ := onPort_eq_some h
    split_ifs
    · exact (brStpDisablePort_paces m).ends
    · exact hrefl
  | changeAddr m addr =>
    obtain ⟨-, rfl⟩ := onPort_eq_some h
    exact ((SameStage.setWork b (by rfl)).paces.trans brStpRecalculateBridgeId_paces).ends
  | setMacAddress addr =>
    obtain rfl := Option.some.inj h
    rw [brSetMacAddress]
    split_ifs
    · exact (brStpChangeBridgeId_paces addr).ends
    · exact hrefl
  | setBridgePriority newprio =>
    obtain rfl := Option.some.inj h
    exact (brStpSetBridgePriority_paces newprio).ends
  | setPortPriority m newprio =>
    obtain ⟨-, rfl⟩ := onPort_eq_some h
    exact (brStpSetPortPriority_paces m newprio).ends
  | setPathCost m pathCost =>
    obtain ⟨-, rfl⟩ := onPort_eq_some h
    exact (brStpSetPathCost_paces m pathCost).ends
  | makeBlocking m =>
    obtain ⟨-, rfl⟩ := onPort_eq_some h
    exact (brMakeBlocking_paces m).ends

def left (jiffies expires : BitVec 32) : ℕ := if jiffies - expires < 0x80000000 then 0 else (expires - jiffies).toNat

theorem left_tick (jiffies expires : BitVec 32) : left jiffies expires ≤ left (jiffies + 1) expires + 1 := by
  rw [left, left]
  split_ifs with h h'
  · omega
  all_goals
    simp only [BitVec.lt_def, BitVec.toNat_sub, BitVec.toNat_add, BitVec.reduceToNat] at *
    omega

theorem left_arm {F : ℕ} {d : BitVec 32} (jiffies : BitVec 32) (hF : F ≤ d.toNat) (hd : d.toNat ≤ 2 ^ 31) :
    F ≤ left jiffies (jiffies + d) := by
  rw [left]
  split_ifs with h
  all_goals
    simp only [BitVec.lt_def, BitVec.toNat_sub, BitVec.toNat_add, BitVec.reduceToNat] at *
    omega

/-- A delay that lasts at least `F` jiffies and is not taken for one that is over. -/
def Slow (F : ℕ) (d : BitVec 32) : Prop := F ≤ d.toNat ∧ d.toNat ≤ 2 ^ 31

instance (F : ℕ) : DecidablePred (Slow F) := fun _ => inferInstanceAs (Decidable (_ ∧ _))

instance [DecidablePred D] : Decidable (Delays D b) := inferInstanceAs (Decidable (_ ∧ _ ∧ _))

def Earned (F ticks : ℕ) (jiffies : BitVec 32) (s : PortState × BitVec 32) : Prop :=
  match s.1 with
  | .disabled | .blocking => True
  | .listening => F ≤ ticks + left jiffies s.2
  | .learning => 2 * F ≤ ticks + left jiffies s.2
  | .forwarding => 2 * F ≤ ticks

theorem Earned.moved {F ticks : ℕ} {jiffies : BitVec 32} {s s' : PortState × BitVec 32} (h : Earned F ticks jiffies s)
    (hmoved : Moved (Slow F) jiffies s s') : Earned F ticks jiffies s' := by
  rcases hmoved with rfl | hs | hs | ⟨hs, d, ⟨hF, hd⟩, hexpires⟩
  · exact h
  · rw [Earned, hs]
    trivial
  · rw [Earned, hs]
    trivial
  · rw [Earned, hs]
    dsimp only
    rw [hexpires]
    exact Nat.le_add_left_of_le (left_arm jiffies hF hd)

theorem Earned.tick {F ticks : ℕ} {jiffies : BitVec 32} {s : PortState × BitVec 32} (h : Earned F ticks jiffies s) :
    Earned F (ticks + 1) (jiffies + 1) s := by
  have hleft := left_tick jiffies s.2
  rw [Earned] at h ⊢
  split at h
  · trivial
  · trivial
  · omega
  · omega
  · omega

theorem brForwardDelayTimerExpired_earned {F ticks : ℕ} (hd : Delays (Slow F) b)
    (hdue : b.jiffies - (b.stage n).2 < 0x80000000) (h : Earned F ticks b.jiffies (b.stage n)) :
    (b.brForwardDelayTimerExpired n).jiffies = b.jiffies ∧
      Earned F ticks b.jiffies ((b.brForwardDelayTimerExpired n).stage n) := by
  have hzero : left b.jiffies (b.stage n).2 = 0 := if_pos hdue
  have hforward : (b.setState n .forwarding).stage n = (.forwarding, (b.stage n).2) :=
    Prod.ext (stage_setState_self _) rfl
  rw [Earned, hzero] at h
  rw [brForwardDelayTimerExpired]
  dsimp only
  split_ifs with h₁ h₂ h₃
  · refine ⟨rfl, ?_⟩
    have hlearn : ((b.setState n .learning).setWork n
        { b.work n with forwardDelayTimer := .mod (b.jiffies + b.times.forwardDelay) }).stage n =
          (.learning, b.jiffies + b.times.forwardDelay) :=
      Prod.ext (stage_setState_self _) (congrArg (fun w => w.forwardDelayTimer.expires) (setWork_work_self _))
    have hstate : (b.stage n).1 = .listening := h₁
    rw [hstate] at h
    rw [hlearn, Earned]
    have harm := left_arm b.jiffies hd.2.1.1 hd.2.1.2
    dsimp only at h ⊢
    omega
  · have hsame := brTopologyChangeDetection_stage (b := b.setState n .forwarding) (n := n)
    have hstate : (b.stage n).1 = .learning := h₂
    rw [hstate] at h
    refine ⟨hsame.2.2.2.1, ?_⟩
    rw [hsame.2.2.2.2, hforward]
    exact h
  · have hstate : (b.stage n).1 = .learning := h₂
    rw [hstate] at h
    refine ⟨rfl, ?_⟩
    rw [hforward]
    exact h
  · refine ⟨rfl, ?_⟩
    rwa [Earned, hzero]

theorem handle_earned {F ticks : ℕ} {e : Event} (h : b.handle e = some b') (hd : Delays (Slow F) b)
    (hearned : Earned F ticks b.jiffies (b.stage n)) :
    Earned F (ticks + if e.isTick then 1 else 0) b'.jiffies (b'.stage n) := by
  by_cases htick : e = .tick
  · subst htick
    obtain rfl := Option.some.inj h
    exact hearned.tick
  have hzero : (if e.isTick then 1 else 0) = 0 := by
    cases e <;> first | exact absurd rfl htick | rfl
  rw [hzero, Nat.add_zero]
  by_cases hn : e = .forwardDelayTimer n
  · subst hn
    obtain ⟨u, hu, hport⟩ := Option.bind_eq_some_iff.mp h
    obtain ⟨hdue, rfl⟩ := onTimer_eq_some hu
    obtain ⟨-, rfl⟩ := onPort_eq_some hport
    have hsame := SameStage.setWork (n := n) (m := n) b
      (w := { b.work n with forwardDelayTimer := (b.work n).forwardDelayTimer.del }) rfl
    have hexpired := brForwardDelayTimerExpired_earned (b := b.setWork n _) (n := n) (F := F) hd
      (by rw [hsame.2.2.2.2]; exact (of_decide_eq_true hdue).2) (by rw [hsame.2.2.2.2]; exact hearned)
    rw [hexpired.1]
    exact hexpired.2
  · obtain ⟨hj, hmoved⟩ := handle_ends h htick hn hd
    rw [hj]
    exact hearned.moved hmoved

theorem forwarding_delayed {F : ℕ} {es : List Event} (hexec : Transition.exec step b es = some b')
    (hdelays : ∀ pre s, pre <+: es → Transition.exec step b pre = some s → Delays (Slow F) s)
    (hstart : (b.port n).state = .disabled ∨ (b.port n).state = .blocking)
    (hend : (b'.port n).state = .forwarding) : 2 * F ≤ es.countP Event.isTick := by
  suffices hearned : ∀ (es : List Event) (ticks : ℕ) (b : NetBridge), Transition.exec step b es = some b' →
      (∀ pre s, pre <+: es → Transition.exec step b pre = some s → Delays (Slow F) s) →
      Earned F ticks b.jiffies (b.stage n) → Earned F (ticks + es.countP Event.isTick) b'.jiffies (b'.stage n) by
    have hfirst : Earned F 0 b.jiffies (b.stage n) := by
      rw [Earned]
      rcases hstart with hs | hs
      all_goals
        have hstage : (b.stage n).1 = _ := hs
        rw [hstage]
        trivial
    have hlast := hearned es 0 b hexec hdelays hfirst
    have hstage : (b'.stage n).1 = .forwarding := hend
    rw [Earned, hstage] at hlast
    simpa using hlast
  intro es
  induction es with
  | nil =>
    intro ticks b hexec _ h
    obtain rfl := Option.some.inj hexec
    exact h
  | cons e es ih =>
    intro ticks b hexec hdelays h
    obtain ⟨u, hu, hrest⟩ := Option.bind_eq_some_iff.mp hexec
    have hstep := handle_earned (step_eq_some hu).2 (hdelays [] b List.nil_prefix rfl) h
    have hrun := ih _ u hrest (fun pre s hpre hs => hdelays (e :: pre) s (List.cons_prefix_cons.mpr ⟨rfl, hpre⟩)
      (by rw [Transition.exec, hu]; exact hs)) hstep
    rw [List.countP_cons]
    convert hrun using 1
    omega

theorem forwarding_delayed_one : ∃ b b' es, (b.port 1).state = .disabled ∧ (b'.port 1).state = .forwarding ∧
    Transition.exec step b es = some b' ∧ 2 * 1 ≤ es.countP Event.isTick := by
  let es : List Event := [.devOpen fun _ => true, .tick, .forwardDelayTimer 1, .tick, .forwardDelayTimer 1]
  obtain ⟨b, -, hb⟩ := exists_reachable [.addIf (fun _ => 1) 100, .ioctlParm .forwardDelay 1, .setStpState true]
    (fun b => (b.port 1).state = .disabled ∧ (∀ pre ∈ es.inits, (Transition.exec step b pre).all fun s => Delays (Slow 1) s) ∧
      (Transition.exec step b es).any fun b' => (b'.port 1).state = .forwarding) (by decide +kernel)
  obtain ⟨hstart, hslow, hany⟩ := of_decide_eq_true hb
  cases hexec : Transition.exec step b es with
  | none =>
    rw [hexec] at hany
    cases hany
  | some b' =>
    rw [hexec] at hany
    have hend : (b'.port 1).state = .forwarding := of_decide_eq_true hany
    refine ⟨b, b', es, hstart, hend, hexec, forwarding_delayed hexec ?_ (Or.inl hstart) hend⟩
    intro pre s hpre hs
    have hall := hslow pre ((List.mem_inits _ _).mpr hpre)
    rw [hs] at hall
    exact of_decide_eq_true hall

end NetBridge

end Wap610n.Stp
