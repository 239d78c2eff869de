import Mathlib.Logic.Relation
import Wap610n.Stp.Protocol

/-!
What a step does to the view of a bridge: it works on the roles in one of a few ways, and what it then sends tells of the
new roles.
-/

namespace Wap610n.Stp

open Bridge (EthAddr PortState)

def Root.Tells (b : Root) (frame : List UInt8) : Prop :=
  readBpdu frame = some .tcn ∨ ∃ bpdu, readBpdu frame = some (.config bpdu) ∧
    bpdu.root = b.designatedRoot ∧ bpdu.rootPathCost = b.rootPathCost ∧ bpdu.bridgeId = b.bridgeId

def Event.KeepsId : Event → Prop
  | .addIf .. | .delIf .. | .changeAddr .. | .setMacAddress .. | .setBridgePriority .. => False
  | _ => True

inductive RoleStep (e : Event) (stp : Bool) (r : Roles) : Roles → Prop
  | same : RoleStep e stp r r
  | hear {n : ℕ} {frame : List UInt8} {bpdu : ConfigBpdu} (he : e = .receive n frame)
    (hbpdu : readBpdu frame = some (.config bpdu)) (hn : n ∈ r.portList)
    (hsup : r.brSupersedesPortInfo (r.port n) bpdu = true) :
    RoleStep e stp r ((r.setPort n ((r.port n).brRecordConfigInformation bpdu)).reselect stp)
  | age (n : ℕ) : RoleStep e stp r ((r.becomeDesignated n).reselect stp)
  | disable (n : ℕ) : RoleStep e stp r (((r.becomeDesignated n).setState n .disabled).reselect stp)
  | enable (n : ℕ) (priority : BitVec 8) :
    RoleStep e stp r ((r.initPort n (brMakePortId priority n)).brPortStateSelection stp)
  | block (n : ℕ) : RoleStep e stp r (r.setPort n (Roles.makeBlocking (r.port n)))
  | learn {n : ℕ} (he : e = .forwardDelayTimer n) (hstate : (r.port n).state = .listening) :
    RoleStep e stp r (r.setState n .learning)
  | forward {n : ℕ} (he : e = .forwardDelayTimer n) (hstate : (r.port n).state = .learning) :
    RoleStep e stp r (r.setState n .forwarding)
  | portId (n : ℕ) (priority : BitVec 8) : RoleStep e stp r (r.setPortId n (brMakePortId priority n))
  | takeLan (n : ℕ) (priority : BitVec 8) :
    RoleStep e stp r (((r.setPortId n (brMakePortId priority n)).becomeDesignated n).brPortStateSelection stp)
  | cost {n : ℕ} {pathCost : BitVec 32} (he : e = .carrierCheck n (some pathCost)) :
    RoleStep e stp r (r.setPort n { r.port n with pathCost })
  | pathCost {n : ℕ} {pathCost : BitVec 32} (he : e = .setPathCost n pathCost) :
    RoleStep e stp r ((r.setPort n { r.port n with pathCost }).reselect stp)
  | changeAddr (addr : EthAddr) (he : ¬e.KeepsId) : RoleStep e stp r ((r.changeBridgeAddr addr).reselect stp)
  | changePriority (newprio : BitVec 16) (he : ¬e.KeepsId) : RoleStep e stp r ((r.changePriority newprio).reselect stp)
  | add {n : ℕ} (priority : BitVec 8) (pathCost : BitVec 32) (he : ¬e.KeepsId) (hpos : n ≠ 0) (hlt : n < 1024)
    (hn : n ∉ r.portList) : RoleStep e stp r (r.addPort n (brMakePortId priority n) pathCost)
  | remove {n : ℕ} (he : ¬e.KeepsId) (hn : (r.port n).state = .disabled) :
    RoleStep e stp r { r with portList := r.portList.erase n }

namespace View

/-- The roles become `r` and frames are sent that tell of them. The root port is looked up only by a bridge that is not
the root. -/
def Becomes (v : View) (r : Roles) (v' : View) : Prop :=
  v'.toRoles = r ∧ v'.stpEnabled = v.stpEnabled ∧ (∀ f ∈ v'.sent, f ∈ v.sent ∨ r.toRoot.Tells f.2) ∧
    (v'.oops = true → v.oops = true ∨ r.brIsRootBridge = false ∧ r.rootPort ∉ r.portList)

variable {v v' v'' : View} {r r' : Roles}

theorem Becomes.toRoles (h : v.Becomes r v') : v'.toRoles = r := h.1

theorem Becomes.stpEnabled (h : v.Becomes r v') : v'.stpEnabled = v.stpEnabled := h.2.1

theorem Becomes.sent (h : v.Becomes r v') : ∀ f ∈ v'.sent, f ∈ v.sent ∨ r.toRoot.Tells f.2 := h.2.2.1

theorem Becomes.oops (h : v.Becomes r v') :
    v'.oops = true → v.oops = true ∨ r.brIsRootBridge = false ∧ r.rootPort ∉ r.portList := h.2.2.2

theorem Becomes.of_roles (v : View) (r : Roles) : v.Becomes r { v with toRoles := r } :=
  ⟨rfl, rfl, fun _ => Or.inl, Or.inl⟩

theorem Becomes.refl (v : View) : v.Becomes v.toRoles v := .of_roles v v.toRoles

theorem Becomes.trans (h : v.Becomes r v') (h' : v'.Becomes r' v'') (hroot : r'.toRoot = r.toRoot)
    (hlist : r'.portList = r.portList) : v.Becomes r' v'' := by
  refine ⟨h'.toRoles, h'.stpEnabled.trans h.stpEnabled, fun f hf => ?_, fun hoops => ?_⟩
  · rcases h'.sent f hf with hf | htells
    · exact (h.sent f hf).imp_right fun htells => hroot ▸ htells
    · exact Or.inr htells
  · rcases h'.oops hoops with hoops | hmissing
    · exact (h.oops hoops).imp_right fun hmissing => hroot ▸ hlist ▸ hmissing
    · exact Or.inr hmissing

theorem Becomes.sends (h : v.Becomes r v') (h' : v'.Becomes v'.toRoles v'') : v.Becomes r v'' :=
  h.toRoles ▸ h.trans h' (by rw [h.toRoles]) (by rw [h.toRoles])

end View

namespace NetBridge

variable (b : NetBridge)

abbrev Sends (b b' : NetBridge) : Prop := b.toView.Becomes b.toRoles b'.toView

variable {b} {b' b'' : NetBridge}

theorem Sends.trans (h : b.Sends b') (h' : b'.Sends b'') : b.Sends b'' := View.Becomes.sends h h'

theorem Sends.of_eq (h : b'.toView = b.toView) : b.Sends b' := by
  rw [Sends, h]
  exact .refl _

theorem Sends.snoc {f : ℕ × List UInt8} (hf : b.Tells f.2) : b.Sends { b with sent := b.sent ++ [f] } := by
  refine ⟨rfl, rfl, fun f' hf' => ?_, Or.inl⟩
  rcases List.mem_append.mp hf' with hold | hnew
  · exact Or.inl hold
  · exact Or.inr (List.mem_singleton.mp hnew ▸ hf)

theorem Sends.oops (hroot : b.brIsRootBridge = false) (hport : b.rootPort ∉ b.portList) :
    b.Sends { b with oops := true } := ⟨rfl, rfl, fun _ => Or.inl, fun _ => Or.inr ⟨hroot, hport⟩⟩

theorem forEachPort_trans {R : NetBridge → NetBridge → Prop} (hrefl : ∀ b, R b b)
    (htrans : ∀ {b b' b''}, R b b' → R b' b'' → R b b'') {f : NetBridge → ℕ → NetBridge}
    (hf : ∀ b n, R b (f b n)) : R b (b.forEachPort f) := by
  suffices h : ∀ (l : List ℕ) (b : NetBridge), R b (l.foldl f b) from h b.portList b
  intro l
  induction l with
  | nil => exact hrefl
  | cons n l ih => exact fun b => htrans (hf b n) (ih _)

theorem forEachPort_sends {f : NetBridge → ℕ → NetBridge} (hf : ∀ (b : NetBridge) (n : ℕ), b.Sends (f b n)) :
    b.Sends (b.forEachPort f) := forEachPort_trans (R := Sends) (fun _ => .refl _) .trans hf

theorem brSendConfigBpdu_sends (n m : ℕ) : b.Sends (b.brSendConfigBpdu n (b.configBpdu m)) := by
  rw [brSendConfigBpdu]
  split_ifs
  · exact .snoc (Or.inr ⟨_, readBpdu_config .., rfl, rfl, rfl⟩)
  · exact .refl _

theorem brTransmitTcn_sends (hroot : b.brIsRootBridge = false ∨ b.rootPort ∈ b.portList) :
    b.Sends b.brTransmitTcn := by
  rw [brTransmitTcn, brSendTcnBpdu]
  split_ifs with hport
  · exact .snoc (Or.inl (readBpdu_tcn _))
  · exact .refl _
  · exact .oops (hroot.resolve_right hport) hport

theorem brTransmitConfig_sends (n : ℕ) : b.Sends (b.brTransmitConfig n) := by
  rw [brTransmitConfig]
  split_ifs with hhold hmissing
  · exact .refl _
  · exact .oops (by simpa using hmissing.1) hmissing.2
  · exact brSendConfigBpdu_sends n n
  · exact .refl _

theorem brTopologyChangeDetection_sends : b.Sends b.brTopologyChangeDetection := by
  rw [brTopologyChangeDetection]
  dsimp only
  split_ifs with hroot
  · exact .refl _
  · exact brTransmitTcn_sends (b := b) (Or.inl (Bool.not_eq_true _ ▸ hroot))
  · exact .refl _

theorem brConfigBpduGeneration_sends : b.Sends b.brConfigBpduGeneration := by
  apply forEachPort_sends
  intro b n
  split_ifs
  · exact brTransmitConfig_sends n
  · exact .refl _

theorem brBecomeRootBridge_sends : b.Sends b.brBecomeRootBridge := by
  rw [brBecomeRootBridge]
  let changed := ({ b with times := b.bridgeTimes } : NetBridge).brTopologyChangeDetection
  have h : b.Sends changed := brTopologyChangeDetection_sends (b := { b with times := b.bridgeTimes })
  have h' : changed.Sends ({ changed with tcnTimer := changed.tcnTimer.del } : NetBridge).brConfigBpduGeneration :=
    brConfigBpduGeneration_sends (b := { changed with tcnTimer := changed.tcnTimer.del })
  dsimp only
  split_ifs
  · exact h.trans h'
  · exact h

theorem brMakeBlocking_becomes (n : ℕ) :
    b.toView.Becomes (b.toRoles.setPort n (Roles.makeBlocking (b.port n))) (b.brMakeBlocking n).toView := by
  rw [brMakeBlocking, Roles.makeBlocking]
  dsimp only
  split_ifs with h h'
  · have hsend := brTopologyChangeDetection_sends (b := b)
    refine View.Becomes.trans hsend ?_ rfl rfl
    change View.Becomes _ (b.toRoles.setState n .blocking)
      { b.brTopologyChangeDetection.toView with toRoles := b.brTopologyChangeDetection.toRoles.setState n .blocking }
    rw [hsend.toRoles]
    exact .of_roles ..
  · exact .of_roles ..
  · rw [Roles.setPort_self]
    exact .refl _

theorem brMakeForwarding_becomes (n : ℕ) :
    b.toView.Becomes (b.toRoles.setPort n (Roles.makeForwarding b.stpEnabled (b.port n)))
      (b.brMakeForwarding n).toView := by
  rw [brMakeForwarding, Roles.makeForwarding]
  split_ifs with h
  · exact .of_roles ..
  · exact .of_roles ..
  · rw [Roles.setPort_self]
    exact .refl _

theorem selectPort_becomes (n : ℕ) : b.toView.Becomes
    (b.toRoles.setPort n (Roles.selectState b.stpEnabled b.toRoot n (b.port n))) (b.selectPort n).toView := by
  rw [selectPort, Roles.selectState]
  split_ifs with h₁ h₂ h₃
  · exact brMakeForwarding_becomes (b := b.setWork n _) n
  · exact brMakeForwarding_becomes (b := b.setWork n _) n
  · exact brMakeBlocking_becomes (b := b.setWork n _) n
  · rw [Roles.setPort_self]
    exact .refl _

theorem brPortStateSelection_becomes :
    b.toView.Becomes (b.toRoles.brPortStateSelection b.stpEnabled) b.brPortStateSelection.toView := by
  suffices h : ∀ (l : List ℕ) (b : NetBridge), b.toView.Becomes
      (l.foldl (fun r n => r.setPort n (Roles.selectState b.stpEnabled r.toRoot n (r.port n))) b.toRoles)
      (l.foldl selectPort b).toView from h b.portList b
  intro l
  induction l with
  | nil => exact fun b => .refl _
  | cons n l ih =>
    intro b
    have h := selectPort_becomes (b := b) n
    have hrest := ih (b.selectPort n)
    rw [h.toRoles, h.stpEnabled] at hrest
    exact h.trans hrest (Roles.foldl_setPort_toRoot ..) (Roles.foldl_setPort_portList ..)

theorem reselect_becomes : b.toView.Becomes (b.toRoles.reselect b.stpEnabled)
    b.brConfigurationUpdate.brPortStateSelection.toView :=
  brPortStateSelection_becomes (b := b.brConfigurationUpdate)

theorem brTakeRoles_becomes (wasRoot : Bool) :
    b.toView.Becomes (b.toRoles.reselect b.stpEnabled) (b.brTakeRoles wasRoot).toView := by
  rw [brTakeRoles]
  split_ifs
  · exact reselect_becomes.sends brBecomeRootBridge_sends
  · exact reselect_becomes

theorem brTakeRoles_becomes_of_view {r : Roles} (hview : b'.toView = { b.toView with toRoles := r }) (wasRoot : Bool) :
    b.toView.Becomes (r.reselect b.stpEnabled) (b'.brTakeRoles wasRoot).toView := by
  have h := brTakeRoles_becomes (b := b') wasRoot
  rw [hview] at h
  exact h

theorem yieldRoot_sends (wasRoot : Bool) : b.Sends (b.yieldRoot wasRoot) := by
  rw [yieldRoot]
  dsimp only
  split_ifs with hroot
  · exact brTransmitTcn_sends (b := { b with helloTimer := _, topologyChangeTimer := _ })
      (Or.inl (by simpa using hroot.1))
  · exact .refl _
  · exact .refl _

theorem followRoot_sends (n : ℕ) (bpdu : ConfigBpdu) : b.Sends (b.followRoot n bpdu) := by
  rw [followRoot]
  split_ifs
  · exact brConfigBpduGeneration_sends (b := b.brRecordConfigTimeoutValues bpdu)
  · exact brConfigBpduGeneration_sends (b := b.brRecordConfigTimeoutValues bpdu)
  · exact .refl _

end NetBridge

open Relation (ReflTransGen)

def View.Act (e : Event) (v v' : View) : Prop := ∃ r, RoleStep e v.stpEnabled v.toRoles r ∧ v.Becomes r v'

namespace NetBridge

variable {b b' b'' : NetBridge} {e : Event}

abbrev Acts (e : Event) (b b' : NetBridge) : Prop := ReflTransGen (View.Act e) b.toView b'.toView

theorem Acts.of_step {r : Roles} (h : RoleStep e b.stpEnabled b.toRoles r) (hbr : b.toView.Becomes r b'.toView) :
    b.Acts e b' := .single ⟨r, h, hbr⟩

theorem Acts.of_sends (h : b.Sends b') : b.Acts e b' := .of_step .same h

theorem brReceivedConfigBpdu_acts {n : ℕ} {frame : List UInt8} {bpdu : ConfigBpdu} (he : e = .receive n frame)
    (hbpdu : readBpdu frame = some (.config bpdu)) (hn : n ∈ b.portList) : b.Acts e (b.brReceivedConfigBpdu n bpdu) := by
  rw [brReceivedConfigBpdu]
  by_cases hsup : b.brSupersedesPortInfo (b.port n) bpdu = true
  · rw [if_pos hsup]
    refine .of_step (.hear he hbpdu hn hsup) ?_
    have h := reselect_becomes (b := b.brRecordConfigInformation n bpdu)
    exact (h.sends (yieldRoot_sends _)).sends (followRoot_sends n bpdu)
  · rw [if_neg hsup]
    split_ifs
    · exact .of_sends (brTransmitConfig_sends n)
    · exact .refl

theorem brTopologyChangeAcknowledge_sends (n : ℕ) : b.Sends (b.brTopologyChangeAcknowledge n) := by
  have hwork : b.Sends (b.setWork n { b.work n with topologyChangeAck := true }) := .of_eq rfl
  exact hwork.trans (brTransmitConfig_sends n)

theorem brReceivedTcnBpdu_sends (n : ℕ) : b.Sends (b.brReceivedTcnBpdu n) := by
  rw [brReceivedTcnBpdu]
  split_ifs
  · exact brTopologyChangeDetection_sends.trans (brTopologyChangeAcknowledge_sends n)
  · exact .refl _

theorem brStpHandleBpdu_acts {n : ℕ} {frame : List UInt8} (he : e = .receive n frame) (hn : n ∈ b.portList) :
    b.Acts e (b.brStpHandleBpdu n frame) := by
  rw [brStpHandleBpdu]
  split_ifs
  · exact .refl
  · split
    · next bpdu hbpdu => exact brReceivedConfigBpdu_acts he hbpdu hn
    · exact .of_sends (brReceivedTcnBpdu_sends n)
    · exact .refl

theorem brStpEnablePort_acts (n : ℕ) : b.Acts e (b.brStpEnablePort n) :=
  .of_step (.enable n _) (brPortStateSelection_becomes (b := b.brInitPort n))

theorem brStpDisablePort_becomes (n : ℕ) : b.toView.Becomes
    (((b.toRoles.becomeDesignated n).setState n .disabled).reselect b.stpEnabled) (b.brStpDisablePort n).toView := by
  rw [brStpDisablePort]
  exact brTakeRoles_becomes_of_view rfl _

theorem brStpDisablePort_acts (n : ℕ) : b.Acts e (b.brStpDisablePort n) :=
  .of_step (.disable n) (brStpDisablePort_becomes n)

theorem brStpChangeBridgeId_acts (addr : EthAddr) (he : ¬e.KeepsId) : b.Acts e (b.brStpChangeBridgeId addr) := by
  rw [brStpChangeBridgeId]
  exact .of_step (.changeAddr addr he) (brTakeRoles_becomes_of_view rfl _)

theorem brStpRecalculateBridgeId_acts (he : ¬e.KeepsId) : b.Acts e b.brStpRecalculateBridgeId := by
  rw [brStpRecalculateBridgeId]
  split_ifs
  · exact brStpChangeBridgeId_acts _ he
  · exact .refl

theorem forEachPort_acts {f : NetBridge → ℕ → NetBridge} (hf : ∀ (b : NetBridge) (n : ℕ), b.Acts e (f b n)) :
    b.Acts e (b.forEachPort f) := forEachPort_trans (R := Acts e) (fun _ => .refl) .trans hf

theorem brMessageAgeTimerExpired_acts (n : ℕ) : b.Acts e (b.brMessageAgeTimerExpired n) := by
  rw [brMessageAgeTimerExpired]
  split_ifs
  · exact .refl
  · exact .of_step (.age n) (brTakeRoles_becomes_of_view rfl _)

theorem brForwardDelayTimerExpired_acts {n : ℕ} (he : e = .forwardDelayTimer n) :
    b.Acts e (b.brForwardDelayTimerExpired n) := by
  rw [brForwardDelayTimerExpired]
  dsimp only
  split_ifs with h₁ h₂
  · exact .of_step (.learn he h₁) (.of_roles ..)
  · refine .of_step (.forward he h₂) ?_
    exact (View.Becomes.of_roles ..).sends (brTopologyChangeDetection_sends (b := b.setState n .forwarding))
  · exact .of_step (.forward he h₂) (.of_roles ..)
  · exact .refl

theorem brHelloTimerExpired_sends : b.Sends b.brHelloTimerExpired := by
  rw [brHelloTimerExpired]
  split_ifs
  · exact brConfigBpduGeneration_sends
  · exact .refl _

theorem brTcnTimerExpired_sends (hport : b.up = false ∨ b.rootPort ∈ b.portList) :
    b.Sends b.brTcnTimerExpired := by
  rw [brTcnTimerExpired]
  split_ifs with hup
  · exact brTransmitTcn_sends (Or.inr (hport.resolve_left (by simp [hup])))
  · exact .refl _

theorem brHoldTimerExpired_sends (n : ℕ) : b.Sends (b.brHoldTimerExpired n) := by
  rw [brHoldTimerExpired]
  split_ifs
  · exact brTransmitConfig_sends n
  · exact .refl _

theorem brStpEnableBridge_acts (ready : ℕ → Bool) : b.Acts e (b.brStpEnableBridge ready) := by
  have h : b.Acts e ({ b with helloTimer := .mod (b.jiffies + b.times.helloTime) } : NetBridge).brConfigBpduGeneration :=
    .of_sends (brConfigBpduGeneration_sends (b := { b with helloTimer := _ }))
  refine h.trans (forEachPort_acts (f := fun b n => if ready n then b.brStpEnablePort n else b) ?_)
  intro b n
  split_ifs
  · exact brStpEnablePort_acts n
  · exact .refl

theorem brStpDisableBridge_acts : b.Acts e b.brStpDisableBridge := by
  refine forEachPort_acts (f := fun b n => if (b.port n).state ≠ .disabled then b.brStpDisablePort n else b) ?_
  intro b n
  split_ifs
  · exact brStpDisablePort_acts n
  · exact .refl

theorem findZeroBit_spec (n k : ℕ) :
    b.findZeroBit n k = n + k ∨ n ≤ b.findZeroBit n k ∧ b.findZeroBit n k < n + k ∧ b.findZeroBit n k ∉ b.portList := by
  induction k generalizing n with
  | zero => exact Or.inl rfl
  | succ k ih =>
    rw [findZeroBit]
    split_ifs with h
    · rcases ih (n + 1) with hfull | ⟨hle, hlt, hnew⟩
      · exact Or.inl (by omega)
      · exact Or.inr ⟨by omega, by omega, hnew⟩
    · exact Or.inr ⟨le_refl n, by omega, h⟩

theorem findPortno_spec : b.findPortno = 1024 ∨ b.findPortno ≠ 0 ∧ b.findPortno < 1024 ∧ b.findPortno ∉ b.portList :=
  (findZeroBit_spec 1 1023).imp_right fun ⟨hpos, hrest⟩ => ⟨Nat.one_le_iff_ne_zero.mp hpos, hrest⟩

theorem brAddIf_acts (devAddr : EthAddr) (pathCost : BitVec 32) (he : ¬e.KeepsId) :
    b.Acts e (b.brAddIf devAddr pathCost) := by
  rw [brAddIf]
  dsimp only
  split_ifs with hfull
  · exact .refl
  · obtain ⟨hpos, hlt, hn⟩ := (findPortno_spec (b := b)).resolve_left hfull
    refine .trans ?_ (brStpRecalculateBridgeId_acts he)
    exact Acts.of_step (.add _ pathCost he hpos hlt hn) (.of_roles ..)

theorem brDelIf_acts (n : ℕ) (he : ¬e.KeepsId) : b.Acts e (b.brDelIf n) := by
  have hdisabled : ((b.brStpDisablePort n).port n).state = .disabled := by
    rw [(brStpDisablePort_becomes n).toRoles, Roles.reselect_port_of_disabled]
    all_goals exact congrArg Port.state Roles.setPort_port_self
  have hremove : (b.brStpDisablePort n).Acts e ((b.brStpDisablePort n).setRoles
      { (b.brStpDisablePort n).toRoles with portList := (b.brStpDisablePort n).portList.erase n }) :=
    .of_step (.remove he hdisabled) (.of_roles ..)
  rw [brDelIf]
  exact ((brStpDisablePort_acts n).trans hremove).trans (brStpRecalculateBridgeId_acts he)

theorem brStpSetPortPriority_acts (n : ℕ) (newprio : BitVec 8) : b.Acts e (b.brStpSetPortPriority n newprio) := by
  rw [brStpSetPortPriority]
  dsimp only
  split_ifs
  · exact .of_step (.takeLan n _) (brPortStateSelection_becomes (b := (NetBridge.setWork _ n _).setRoles _))
  · exact .of_step (.portId n _) (.of_roles ..)

theorem portCarrierCheck_acts {n : ℕ} {cost : Option (BitVec 32)} (he : e = .carrierCheck n cost) :
    b.Acts e (b.portCarrierCheck n cost) := by
  cases cost with
  | none =>
    rw [portCarrierCheck]
    split_ifs
    · exact brStpDisablePort_acts n
    · exact .refl
  | some pathCost =>
    have h : b.Acts e (b.setRoles (b.toRoles.setPort n { b.port n with pathCost })) :=
      .of_step (.cost he) (.of_roles ..)
    rw [portCarrierCheck]
    dsimp only
    split_ifs
    · exact h.trans (brStpEnablePort_acts n)
    · exact h

theorem onPort_eq_some {n : ℕ} (h : b.onPort n b' = some b'') : n ∈ b.portList ∧ b' = b'' := by
  rw [onPort] at h
  split_ifs at h with hn
  exact ⟨hn, Option.some.inj h⟩

theorem onTimer_eq_some {t : Timer} (h : b.onTimer t b' = some b'') : t.due b.jiffies = true ∧ b' = b'' := by
  rw [onTimer] at h
  split_ifs at h with hn
  exact ⟨hn, Option.some.inj h⟩

theorem onTimer_bind_onPort {n : ℕ} {t : Timer} (h : (b.onTimer t b').bind (b.onPort n) = some b'') :
    n ∈ b.portList ∧ b' = b'' := by
  obtain ⟨u, hu, h⟩ := Option.bind_eq_some_iff.mp h
  obtain ⟨hn, rfl⟩ := onPort_eq_some h
  exact ⟨hn, (onTimer_eq_some hu).2⟩

def LosesRootPort (e : Event) (b : NetBridge) : Prop := e = .tcnTimer ∧ b.up = true ∧ b.rootPort ∉ b.portList

theorem handle_acts (h : b.handle e = some b') (htcn : ¬b.LosesRootPort e) :
    b.Acts e b' ∨ ∃ on, e = .setStpState on ∧ b'.toView = { b.toView with stpEnabled := on } := by
  cases e with
  | setStpState on =>
    obtain rfl := Option.some.inj h
    exact Or.inr ⟨on, rfl, rfl⟩
  | tick | storeParm parm val | ioctlParm parm val =>
    obtain rfl := Option.some.inj h
    exact Or.inl .refl
  | receive n frame =>
    obtain ⟨hn, rfl⟩ := onPort_eq_some h
    exact Or.inl (brStpHandleBpdu_acts rfl hn)
  | helloTimer =>
    obtain ⟨-, rfl⟩ := onTimer_eq_some h
    exact Or.inl (.of_sends (brHelloTimerExpired_sends (b := { b with helloTimer := _ })))
  | tcnTimer =>
    obtain ⟨-, rfl⟩ := onTimer_eq_some h
    have hport : b.up = false ∨ b.rootPort ∈ b.portList := by
      by_contra hmissing
      rw [not_or, Bool.not_eq_false] at hmissing
      exact htcn ⟨rfl, hmissing⟩
    exact Or.inl (.of_sends (brTcnTimerExpired_sends (b := { b with tcnTimer := _ }) hport))
  | topologyChangeTimer =>
    obtain ⟨-, rfl⟩ := onTimer_eq_some h
    exact Or.inl .refl
  | messageAgeTimer n =>
    obtain ⟨-, rfl⟩ := onTimer_bind_onPort h
    exact Or.inl (brMessageAgeTimerExpired_acts (b := b.setWork n _) n)
  | forwardDelayTimer n =>
    obtain ⟨-, rfl⟩ := onTimer_bind_onPort h
    exact Or.inl (brForwardDelayTimerExpired_acts (b := b.setWork n _) rfl)
  | holdTimer n =>
    obtain ⟨-, rfl⟩ := onTimer_bind_onPort h
    exact Or.inl (.of_sends (brHoldTimerExpired_sends (b := b.setWork n _) n))
  | devOpen ready =>
    rw [handle] at h
    split_ifs at h
    obtain rfl := Option.some.inj h
    exact Or.inl (brStpEnableBridge_acts ready)
  | devStop =>
    rw [handle] at h
    split_ifs at h
    obtain rfl := Option.some.inj h
    exact Or.inl brStpDisableBridge_acts
  | addIf devAddr pathCost =>
    obtain rfl := Option.some.inj h
    exact Or.inl (brAddIf_acts devAddr pathCost id)
  | delIf n =>
    obtain ⟨-, rfl⟩ := onPort_eq_some h
    exact Or.inl (brDelIf_acts n id)
  | carrierCheck n cost =>
    obtain ⟨-, rfl⟩ := onPort_eq_some h
    exact Or.inl (portCarrierCheck_acts rfl)
  | netdevUp n carrier =>
    obtain ⟨-, rfl⟩ := onPort_eq_some h
    split_ifs
    · exact Or.inl (brStpEnablePort_acts n)
    · exact Or.inl .refl
  | netdevDown n =>
    obtain ⟨-, rfl⟩ := onPort_eq_some h
    split_ifs
    · exact Or.inl (brStpDisablePort_acts n)
    · exact Or.inl .refl
  | changeAddr n addr =>
    obtain ⟨-, rfl⟩ := onPort_eq_some h
    exact Or.inl (brStpRecalculateBridgeId_acts (b := b.setWork n _) id)
  | setMacAddress addr =>
    obtain rfl := Option.some.inj h
    rw [brSetMacAddress]
    split_ifs
    · exact Or.inl (brStpChangeBridgeId_acts addr id)
    · exact Or.inl .refl
  | setBridgePriority newprio =>
    obtain rfl := Option.some.inj h
    rw [brStpSetBridgePriority]
    exact Or.inl (.of_step (.changePriority newprio id) (brTakeRoles_becomes_of_view rfl _))
  | setPortPriority n newprio =>
    obtain ⟨-, rfl⟩ := onPort_eq_some h
    exact Or.inl (brStpSetPortPriority_acts n newprio)
  | setPathCost n pathCost =>
    obtain ⟨-, rfl⟩ := onPort_eq_some h
    exact Or.inl (.of_step (.pathCost rfl) (reselect_becomes (b := b.setRoles _)))
  | makeBlocking n =>
    obtain ⟨-, rfl⟩ := onPort_eq_some h
    exact Or.inl (.of_step (.block n) (brMakeBlocking_becomes n))

end NetBridge

end Wap610n.Stp
