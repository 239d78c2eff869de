import Wap610n.Lib.Transition
import Wap610n.Stp.Step

/-!
The roles of the ports stay sound over every run: a bridge that is not the root has a root port, and a port that is
neither the root port nor designated is blocked.
-/

namespace Wap610n.Stp

open Bridge (EthAddr PortState)
open Transition (Run exec)

namespace Roles

structure Rooted (r : Roles) : Prop where
  pos : 0 ∉ r.portList
  own : r.rootPort = 0 → r.designatedRoot = r.bridgeId ∧ r.rootPathCost = 0
  better : r.rootPort ≠ 0 →
    r.rootPort ∈ r.portList ∧ (r.port r.rootPort).state ≠ .disabled ∧ r.designatedRoot.value < r.bridgeId.value

structure Sound (r : Roles) : Prop extends Rooted r where
  live : ∀ n ∈ r.portList, (r.port n).state ≠ .disabled → (r.port n).state ≠ .blocking → active r.toRoot n (r.port n) = true

variable {r : Roles}

theorem nextState_eq_disabled_iff {stp active : Bool} {state : PortState} :
    nextState stp active state = .disabled ↔ state = .disabled := by
  cases stp <;> cases active <;> cases state <;> decide

theorem nextState_inactive (stp : Bool) (state : PortState) :
    nextState stp false state = .disabled ∨ nextState stp false state = .blocking := by
  cases state <;> simp [nextState]

theorem brPortStateSelection_port (r : Roles) (stp : Bool) {n : ℕ} (hn : n ∈ r.portList) :
    (r.brPortStateSelection stp).port n =
      { r.port n with state := nextState stp (active r.toRoot n (r.port n)) (r.port n).state } := by
  rw [brPortStateSelection_eq]
  exact if_pos hn

theorem Rooted.select (h : r.Rooted) (stp : Bool) : (r.brPortStateSelection stp).Sound where
  pos := by simpa using h.pos
  own := by simpa using h.own
  better := by
    rw [brPortStateSelection_toRoot, brPortStateSelection_portList]
    intro hroot
    obtain ⟨hmem, hstate, hlt⟩ := h.better hroot
    refine ⟨hmem, ?_, hlt⟩
    rw [brPortStateSelection_port r stp hmem]
    exact fun hdis => hstate (nextState_eq_disabled_iff.mp hdis)
  live := by
    rw [brPortStateSelection_portList, brPortStateSelection_toRoot]
    intro n hn
    rw [brPortStateSelection_port r stp hn]
    intro hdis hblock
    change active r.toRoot n (r.port n) = true
    by_contra hinactive
    rw [Bool.not_eq_true] at hinactive
    rw [hinactive] at hdis hblock
    exact (nextState_inactive stp (r.port n).state).elim hdis hblock

theorem rooted_update (hpos : 0 ∉ r.portList) : r.brConfigurationUpdate.Rooted := by
  have hroot : r.brConfigurationUpdate.rootPort = r.selectRootPort := by
    rw [brConfigurationUpdate_toRoot, brRootSelection]
    dsimp only
    split_ifs <;> rfl
  constructor
  · simpa using hpos
  · rw [hroot, brConfigurationUpdate_toRoot, brRootSelection]
    intro hnone
    simp [hnone]
  · rw [hroot]
    intro hsome
    obtain ⟨hmem, hstate, -, hlt⟩ := r.selectRootPort_eligible.resolve_left hsome
    rw [brConfigurationUpdate_portList, brConfigurationUpdate_state, brConfigurationUpdate_toRoot]
    refine ⟨hmem, hstate, ?_⟩
    simp only [brRootSelection, hsome, if_false]
    exact hlt

theorem sound_reselect (hpos : 0 ∉ r.portList) (stp : Bool) : (r.reselect stp).Sound := (rooted_update hpos).select stp

theorem Rooted.setPort (h : r.Rooted) {n : ℕ} {p : Port} (hp : p.state = .disabled → (r.port n).state = .disabled) :
    (r.setPort n p).Rooted := by
  refine ⟨h.pos, h.own, fun hroot => ?_⟩
  obtain ⟨hmem, hstate, hlt⟩ := h.better hroot
  refine ⟨hmem, ?_, hlt⟩
  by_cases hn : r.rootPort = n
  · subst hn
    rw [setPort_toRoot, setPort_port_self]
    exact fun hdis => hstate (hp hdis)
  · rwa [setPort_toRoot, setPort_port_of_ne hn]

theorem Sound.setPort (h : r.Sound) {n : ℕ} {p : Port} (hp : p.state = .disabled ↔ (r.port n).state = .disabled)
    (hblock : (r.port n).state = .blocking → p.state = .blocking)
    (hactive : p.state ≠ .blocking → active r.toRoot n (r.port n) = true → active r.toRoot n p = true) :
    (r.setPort n p).Sound := by
  refine ⟨h.toRooted.setPort hp.mp, fun m hm => ?_⟩
  by_cases hn : m = n
  · subst hn
    rw [setPort_toRoot, setPort_port_self]
    intro hdis hnot
    exact hactive hnot (h.live m hm (fun hold => hdis (hp.mpr hold)) (fun hold => hnot (hblock hold)))
  · rw [setPort_toRoot, setPort_port_of_ne hn]
    exact h.live m hm

theorem makeBlocking_state (p : Port) : (makeBlocking p).state = if p.state = .disabled then .disabled else .blocking := by
  rw [makeBlocking]
  cases hs : p.state <;> simp [hs]

theorem Sound.block (h : r.Sound) (n : ℕ) : (r.setPort n (makeBlocking (r.port n))).Sound := by
  apply h.setPort
  · rw [makeBlocking_state]
    split_ifs with hdis
    · exact iff_of_true rfl hdis
    · exact iff_of_false nofun hdis
  · intro hblock
    rw [makeBlocking_state, if_neg (by simp [hblock])]
  · intro hnot
    rw [makeBlocking_state] at hnot
    split_ifs at hnot with hdis
    · rw [makeBlocking, if_neg (by simp [hdis])]
      exact id
    · exact absurd rfl hnot

theorem Sound.setState (h : r.Sound) {n : ℕ} {state : PortState} (hold : (r.port n).state ≠ .disabled)
    (hnot : (r.port n).state ≠ .blocking) (hnew : state ≠ .disabled) : (r.setState n state).Sound := by
  apply h.setPort
  · exact iff_of_false hnew hold
  · exact fun hblock => absurd hblock hnot
  · exact fun _ => id

theorem Sound.setPortId (h : r.Sound) (n : ℕ) (portId : BitVec 16) : (r.setPortId n portId).Sound := by
  refine h.setPort (by rfl) (by exact id) fun _ hactive => ?_
  rw [active, Bool.or_eq_true] at hactive ⊢
  refine hactive.imp_right fun hd => ?_
  rw [Root.brIsDesignatedPort_iff]
  exact ⟨(Root.brIsDesignatedPort_iff.mp hd).1, if_pos hd⟩

theorem Sound.addPort (h : r.Sound) {n : ℕ} (hpos : n ≠ 0) (hn : n ∉ r.portList) (portId : BitVec 16)
    (pathCost : BitVec 32) : (r.addPort n portId pathCost).Sound := by
  have hport : ∀ m ∈ r.portList, (r.addPort n portId pathCost).port m = r.port m := by
    intro m hm
    have hne : m ≠ n := fun h => hn (h ▸ hm)
    exact (setPort_port_of_ne hne).trans ((setPort_port_of_ne hne).trans (setPort_port_of_ne hne))
  have hnew : ((r.addPort n portId pathCost).port n).state = .disabled := congrArg Port.state setPort_port_self
  refine ⟨⟨?_, h.own, fun hroot => ?_⟩, fun m hm => ?_⟩
  · rw [Roles.addPort, List.mem_cons, not_or]
    exact ⟨hpos.symm, h.pos⟩
  · obtain ⟨hmem, hstate, hlt⟩ := h.better hroot
    refine ⟨List.mem_cons_of_mem _ hmem, ?_, hlt⟩
    exact (hport _ hmem).symm ▸ hstate
  · rcases List.mem_cons.mp hm with rfl | hm
    · exact fun hdis => absurd hnew hdis
    · rw [hport m hm]
      exact h.live m hm

theorem Sound.erase (h : r.Sound) {n : ℕ} (hn : (r.port n).state = .disabled) :
    ({ r with portList := r.portList.erase n } : Roles).Sound := by
  refine ⟨⟨fun hmem => h.pos (List.mem_of_mem_erase hmem), h.own, fun hroot => ?_⟩, fun m hm => ?_⟩
  · obtain ⟨hmem, hstate, hlt⟩ := h.better hroot
    refine ⟨(List.mem_erase_of_ne ?_).mpr hmem, hstate, hlt⟩
    intro heq
    exact hstate ((congrArg (fun m => (r.port m).state) heq).trans hn)
  · exact h.live m (List.mem_of_mem_erase hm)

theorem Sound.roleStep {e : Event} {stp : Bool} {r' : Roles} (h : r.Sound) (hstep : RoleStep e stp r r') : r'.Sound := by
  cases hstep with
  | same => exact h
  | hear | age | disable | pathCost => exact sound_reselect (by exact h.pos) stp
  | enable n priority =>
    apply Rooted.select
    exact h.toRooted.setPort (by rintro ⟨⟩)
  | block n => exact h.block n
  | learn he hstate => exact h.setState (by simp [hstate]) (by simp [hstate]) nofun
  | forward he hstate => exact h.setState (by simp [hstate]) (by simp [hstate]) nofun
  | portId n priority => exact h.setPortId n _
  | takeLan n priority =>
    apply Rooted.select
    exact (h.setPortId n _).toRooted.setPort (by exact id)
  | cost => exact h.setPort (by rfl) (by exact id) fun _ => id
  | changeAddr addr => exact sound_reselect (by simpa [changeBridgeAddr] using h.pos) stp
  | changePriority newprio => exact sound_reselect (by simpa [Roles.changePriority] using h.pos) stp
  | add priority pathCost he hpos hlt hn => exact h.addPort hpos hn _ pathCost
  | remove he hn => exact h.erase hn

theorem Sound.brIsRootBridge_iff (h : r.Sound) : r.brIsRootBridge = true ↔ r.rootPort = 0 := by
  rw [Root.brIsRootBridge_iff]
  refine ⟨fun hown => ?_, fun hnone => (h.own hnone).1⟩
  by_contra hsome
  have hlt := (h.better hsome).2.2
  rw [hown] at hlt
  exact absurd hlt (lt_irrefl _)

theorem Sound.rootPort_mem_iff (h : r.Sound) : r.rootPort ∈ r.portList ↔ r.rootPort ≠ 0 :=
  ⟨fun hmem hnone => h.pos (hnone ▸ hmem), fun hsome => (h.better hsome).1⟩

theorem Sound.rootPort_mem (h : r.Sound) (hroot : r.brIsRootBridge = false) : r.rootPort ∈ r.portList := by
  rw [h.rootPort_mem_iff]
  intro hnone
  simp [h.brIsRootBridge_iff.mpr hnone] at hroot

def Numbered (r : Roles) : Prop := ∀ n ∈ r.portList, n < 1024 ∧ ∃ priority, (r.port n).portId = brMakePortId priority n

theorem Numbered.of_portId (h : r.Numbered) {r' : Roles} (hlist : r'.portList = r.portList)
    (hid : ∀ n, (r'.port n).portId = (r.port n).portId) : r'.Numbered := by
  intro n hn
  rw [hid]
  exact h n (hlist ▸ hn)

theorem Numbered.forEachPort (h : r.Numbered) {f : Root → ℕ → Port → Port}
    (hf : ∀ b n p, (f b n p).portId = p.portId) : (r.forEachPort f).Numbered := by
  apply h.of_portId (forEachPort_portList r f)
  intro n
  rw [Roles.forEachPort]
  generalize r.portList = l
  clear h
  induction l generalizing r with
  | nil => rfl
  | cons m l ih =>
    rw [List.foldl_cons, ih]
    by_cases hn : n = m
    · subst hn
      rw [setPort_port_self, hf]
    · rw [setPort_port_of_ne hn]

theorem Numbered.setPort (h : r.Numbered) {n : ℕ} {p : Port}
    (hp : p.portId = (r.port n).portId ∨ ∃ priority, p.portId = brMakePortId priority n) : (r.setPort n p).Numbered := by
  intro m hm
  by_cases hmn : m = n
  · subst hmn
    rw [setPort_port_self]
    refine ⟨(h m hm).1, ?_⟩
    rcases hp with heq | hnew
    · rw [heq]
      exact (h m hm).2
    · exact hnew
  · rw [setPort_port_of_ne hmn]
    exact h m hm

theorem Numbered.select (h : r.Numbered) (stp : Bool) : (r.brPortStateSelection stp).Numbered := by
  apply h.forEachPort
  intro b n p
  rw [selectState_eq]

theorem Numbered.reselect (h : r.Numbered) (stp : Bool) : (r.reselect stp).Numbered := by
  apply Numbered.select
  apply h.of_portId (brConfigurationUpdate_portList r)
  intro n
  rcases r.brConfigurationUpdate_port n with heq | heq
  · rw [heq]
  · rw [heq]
    rfl

theorem Numbered.addPort (h : r.Numbered) {n : ℕ} (hlt : n < 1024) (hn : n ∉ r.portList) (priority : BitVec 8)
    (pathCost : BitVec 32) : (r.addPort n (brMakePortId priority n) pathCost).Numbered := by
  intro m hm
  rcases List.mem_cons.mp hm with rfl | hm
  · exact ⟨hlt, priority, by simp [Roles.addPort, initPort, setState, Root.brBecomeDesignatedPort]⟩
  · have hne : m ≠ n := fun heq => hn (heq ▸ hm)
    have hport : (r.addPort n (brMakePortId priority n) pathCost).port m = r.port m :=
      (setPort_port_of_ne hne).trans ((setPort_port_of_ne hne).trans (setPort_port_of_ne hne))
    rw [hport]
    exact h m hm

theorem Numbered.roleStep {e : Event} {stp : Bool} {r' : Roles} (h : r.Numbered) (hstep : RoleStep e stp r r') :
    r'.Numbered := by
  cases hstep with
  | same => exact h
  | hear | age | pathCost =>
    apply Numbered.reselect
    exact h.setPort (Or.inl rfl)
  | disable n =>
    apply Numbered.reselect
    have hdesignated : (r.becomeDesignated n).Numbered := h.setPort (Or.inl rfl)
    exact hdesignated.setPort (Or.inl rfl)
  | enable n priority =>
    apply Numbered.select
    exact h.setPort (Or.inr ⟨priority, rfl⟩)
  | block n =>
    apply h.setPort
    rw [makeBlocking]
    split_ifs
    · exact Or.inl rfl
    · exact Or.inl rfl
  | learn | forward | cost => exact h.setPort (Or.inl rfl)
  | portId n priority => exact h.setPort (Or.inr ⟨priority, rfl⟩)
  | takeLan n priority =>
    apply Numbered.select
    have hid : (r.setPortId n (brMakePortId priority n)).Numbered := h.setPort (Or.inr ⟨priority, rfl⟩)
    exact hid.setPort (Or.inl rfl)
  | changeAddr addr =>
    apply Numbered.reselect
    rw [changeBridgeAddr]
    apply Numbered.forEachPort
    · exact h
    · exact fun _ _ _ => rfl
  | changePriority newprio =>
    apply Numbered.reselect
    refine h.forEachPort (f := fun br _ p => if p.state ≠ .disabled ∧ br.brIsDesignatedPort p then
      { p with designatedBridge := { p.designatedBridge with prio := priorityBytes newprio } } else p) ?_
    intro b n p
    split_ifs
    · rfl
    · rfl
  | add priority pathCost he hpos hlt hn => exact h.addPort hlt hn priority pathCost
  | remove => exact fun n hn => h n (List.mem_of_mem_erase hn)

theorem brMakePortId_getLsbD (priority : BitVec 8) {n i : ℕ} (hi : i < 10) :
    (brMakePortId priority n).getLsbD i = n.testBit i := by
  have hlow : BitVec.getLsbD (0x3ff : BitVec 16) i = true := by
    interval_cases i <;> decide
  rw [brMakePortId, BitVec.getLsbD_or, BitVec.getLsbD_and, BitVec.getLsbD_shiftLeft, BitVec.getLsbD_ofNat, hlow]
  simp [hi, Nat.lt_trans hi (by decide : 10 < 16)]

theorem Numbered.portId_inj (h : r.Numbered) {n m : ℕ} (hn : n ∈ r.portList) (hm : m ∈ r.portList)
    (heq : (r.port n).portId = (r.port m).portId) : n = m := by
  obtain ⟨hn, p, hp⟩ := h n hn
  obtain ⟨hm, q, hq⟩ := h m hm
  apply Nat.eq_of_testBit_eq
  intro i
  by_cases hi : i < 10
  · rw [← brMakePortId_getLsbD p hi, ← brMakePortId_getLsbD q hi, ← hp, ← hq, heq]
  · have hle : 2 ^ 10 ≤ 2 ^ i := Nat.pow_le_pow_right (by decide) (Nat.not_lt.mp hi)
    rw [Nat.testBit_lt_two_pow (Nat.lt_of_lt_of_le hn hle), Nat.testBit_lt_two_pow (Nat.lt_of_lt_of_le hm hle)]

end Roles

namespace NetBridge

variable {b b' : NetBridge} {e : Event}

theorem Acts.roles {P : Roles → Prop} (hP : ∀ {stp r r'}, P r → RoleStep e stp r r' → P r') (h : b.Acts e b')
    (hs : P b.toRoles) : P b'.toRoles := by
  suffices hv : ∀ v, Relation.ReflTransGen (View.Act e) b.toView v → P v.toRoles from hv _ h
  intro v hv
  induction hv with
  | refl => exact hs
  | tail _ hact ih =>
    obtain ⟨r, hstep, hbecomes⟩ := hact
    rw [hbecomes.toRoles]
    exact hP ih hstep

theorem Acts.oops (h : b.Acts e b') (hs : b.toRoles.Sound) (hoops : b.oops = false) : b'.oops = false := by
  suffices hv : ∀ v, Relation.ReflTransGen (View.Act e) b.toView v → v.toRoles.Sound ∧ v.oops = false from (hv _ h).2
  intro v hv
  induction hv with
  | refl => exact ⟨hs, hoops⟩
  | @tail v v' _ hact ih =>
    obtain ⟨r, hstep, hbecomes⟩ := hact
    have hsound : r.Sound := ih.1.roleStep hstep
    refine ⟨hbecomes.toRoles.symm ▸ hsound, ?_⟩
    by_contra hbad
    rcases hbecomes.oops (Bool.not_eq_false _ ▸ hbad) with hbad | ⟨hroot, hmissing⟩
    · exact absurd (ih.2.symm.trans hbad) nofun
    · exact hmissing (hsound.rootPort_mem hroot)

theorem brTcnTimerExpired_loses (h : b.handle e = some b') (htcn : b.LosesRootPort e) :
    b'.toView = { b.toView with oops := true } := by
  obtain ⟨rfl, hup, hmissing⟩ := htcn
  obtain ⟨-, rfl⟩ := onTimer_eq_some h
  rw [brTcnTimerExpired, if_pos hup, brTransmitTcn, if_neg hmissing]

theorem handle_roles {P : Roles → Prop} (hP : ∀ {stp r r'}, P r → RoleStep e stp r r' → P r')
    (h : b.handle e = some b') (hs : P b.toRoles) : P b'.toRoles := by
  by_cases htcn : b.LosesRootPort e
  · rw [brTcnTimerExpired_loses h htcn]
    exact hs
  · rcases handle_acts h htcn with hacts | ⟨on, -, hview⟩
    · exact hacts.roles hP hs
    · rw [hview]
      exact hs

theorem handle_sound (h : b.handle e = some b') (hs : b.toRoles.Sound) : b'.toRoles.Sound :=
  handle_roles Roles.Sound.roleStep h hs

theorem step_eq_some (h : b.step e = some b') : b.oops = false ∧ b.handle e = some b' := by
  rw [step] at h
  split_ifs at h with hoops
  exact ⟨Bool.not_eq_true _ ▸ hoops, h⟩

abbrev Reachable (jiffies : BitVec 32) : NetBridge → Prop := Run step (fun _ _ => True) (newBridgeDev jiffies)

theorem newBridgeDev_sound (jiffies : BitVec 32) : (newBridgeDev jiffies).toRoles.Sound where
  pos := nofun
  own := fun _ => ⟨rfl, rfl⟩
  better := fun h => absurd rfl h
  live := nofun

theorem Reachable.sound {jiffies : BitVec 32} (h : Reachable jiffies b) : b.toRoles.Sound := by
  apply h.invariant (fun b => b.toRoles.Sound) (newBridgeDev_sound jiffies)
  intro b e b' hs _ hstep
  exact handle_sound (step_eq_some hstep).2 hs

theorem Reachable.numbered {jiffies : BitVec 32} (h : Reachable jiffies b) : b.toRoles.Numbered := by
  apply h.invariant (fun b => b.toRoles.Numbered) nofun
  intro b e b' hs _ hstep
  exact handle_roles Roles.Numbered.roleStep (step_eq_some hstep).2 hs

theorem exists_reachable (es : List Event) (P : NetBridge → Bool) (h : (exec step (newBridgeDev 0) es).any P = true) :
    ∃ b, Reachable 0 b ∧ P b = true := by
  cases hb : exec step (newBridgeDev 0) es with
  | none =>
    rw [hb] at h
    cases h
  | some b =>
    rw [hb] at h
    exact ⟨b, .exec (fun _ _ => trivial) .refl hb, h⟩

/-- In every state that any sequence of events leads to, a bridge is the root exactly when it has no root port, its root
port is there and takes part, and a port that is neither the root port nor designated does not take part. -/
theorem reachable_roles {jiffies : BitVec 32} (h : Reachable jiffies b) :
    (b.brIsRootBridge = true ↔ b.rootPort = 0) ∧
    (b.rootPort ≠ 0 → b.rootPort ∈ b.portList ∧ (b.port b.rootPort).state ≠ .disabled ∧
      b.designatedRoot.value < b.bridgeId.value) ∧
    ∀ n ∈ b.portList, n ≠ b.rootPort → b.brIsDesignatedPort (b.port n) = false →
      (b.port n).state = .disabled ∨ (b.port n).state = .blocking := by
  have hsound := h.sound
  refine ⟨hsound.brIsRootBridge_iff, hsound.better, fun n hn hroot hnot => ?_⟩
  by_contra hlive
  rw [not_or] at hlive
  have hactive := hsound.live n hn hlive.1 hlive.2
  rw [Roles.active, hnot, Bool.or_false, decide_eq_true_iff] at hactive
  exact hroot hactive

def plainBpdu (root bridgeId : BridgeId) (portId : BitVec 16) : ConfigBpdu :=
  ⟨false, false, root, 0, bridgeId, portId, 0, 20 * hz, 2 * hz, 15 * hz⟩

def joining : List Event :=
  [.addIf (fun _ => 1) 100, .ioctlParm .helloTime 0, .ioctlParm .forwardDelay 0, .setStpState true,
    .devOpen fun _ => true, .forwardDelayTimer 1, .forwardDelayTimer 1,
    .receive 1 (brSendBpdu (fun _ => 2) (plainBpdu ⟨fun _ => 2, fun _ => 0⟩ ⟨fun _ => 2, fun _ => 0⟩ 0).buf)]

theorem reachable_roles_joining : ∃ b, Reachable 0 b ∧ b.rootPort = 1 ∧ b.brIsRootBridge = false := by
  obtain ⟨b, hreach, hroot⟩ := exists_reachable joining (fun b => b.rootPort = 1) (by decide +kernel)
  rw [decide_eq_true_iff] at hroot
  refine ⟨b, hreach, hroot, ?_⟩
  rw [← Bool.not_eq_true, (reachable_roles hreach).1, hroot]
  decide

/-- The only null pointer that any sequence of events can lead to is that of `br_tcn_timer_expired`, and it is met just
when the timer runs out at a bridge that is the root. -/
theorem step_oops_iff {jiffies : BitVec 32} (hreach : Reachable jiffies b) (hstep : b.step e = some b') :
    b'.oops = true ↔ e = .tcnTimer ∧ b.up = true ∧ b.rootPort = 0 := by
  obtain ⟨hoops, hhandle⟩ := step_eq_some hstep
  have hsound := hreach.sound
  have hloses : b.LosesRootPort e ↔ e = .tcnTimer ∧ b.up = true ∧ b.rootPort = 0 := by
    rw [LosesRootPort, hsound.rootPort_mem_iff, not_not]
  rw [← hloses]
  constructor
  · intro hbad
    by_contra htcn
    rcases handle_acts hhandle htcn with hacts | ⟨on, -, hview⟩
    · simp [hacts.oops hsound hoops] at hbad
    · rw [hview] at hbad
      simp [hoops] at hbad
  · intro htcn
    rw [brTcnTimerExpired_loses hhandle htcn]

/-- A message that claims to come from the port that hears it makes the bridge the root again, and the timer for
topology changes is left running. -/
theorem step_oops_forged : ∃ b b', Reachable 0 b ∧ b.step .tcnTimer = some b' ∧ b'.oops = true := by
  let forged := plainBpdu ⟨fun _ => 1, fun _ => 0⟩ ⟨Roles.priorityBytes 0x8000, fun _ => 1⟩ (brMakePortId 0x20 1)
  obtain ⟨b, hreach, hb⟩ := exists_reachable (joining ++ [.receive 1 (brSendBpdu (fun _ => 2) forged.buf)])
    (fun b => b.up ∧ b.rootPort = 0 ∧ (b.step .tcnTimer).isSome) (by decide +kernel)
  obtain ⟨hup, hroot, hsome⟩ := of_decide_eq_true hb
  obtain ⟨b', hb'⟩ := Option.isSome_iff_exists.mp hsome
  exact ⟨b, b', hreach, hb', (step_oops_iff hreach hb').mpr ⟨rfl, hup, hroot⟩⟩

end NetBridge

end Wap610n.Stp
