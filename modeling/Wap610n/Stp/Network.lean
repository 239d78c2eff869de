import Wap610n.Stp.Sound

/-!
Bridges on a fixed wiring. A frame that a bridge has sent may reach the other ports on the segment late, more than once
or never.
-/

namespace Wap610n.Stp

open Bridge (EthAddr PortState)
open Transition (Run)

/-- What a bridge may believe: `R` of itself, `L` of the segment at each port. -/
structure Belief (id : BridgeId) (ports : List ℕ) (cost : ℕ → BitVec 32) (R : BridgeId → BitVec 32 → Prop)
    (L : ℕ → BridgeId → BitVec 32 → Prop) : Prop where
  own : R id 0
  hop : ∀ n ∈ ports, ∀ root c, L n root c → R root (c + cost n)
  tell : ∀ n ∈ ports, ∀ root c, R root c → L n root c

section Belief

variable (id : BridgeId) (ports : List ℕ) (cost : ℕ → BitVec 32) (R : BridgeId → BitVec 32 → Prop)
  (L : ℕ → BridgeId → BitVec 32 → Prop)

structure Roles.Heard (r : Roles) : Prop where
  bridgeId : r.bridgeId = id
  portList : r.portList = ports
  pathCost : ∀ n, (r.port n).pathCost = cost n
  port : ∀ n ∈ ports, (r.port n).state ≠ .disabled → L n (r.port n).designatedRoot (r.port n).designatedCost

structure Roles.Honest (r : Roles) : Prop extends Roles.Heard id ports cost L r where
  root : R r.designatedRoot r.rootPathCost

variable {id ports cost R L} {r : Roles}

namespace Roles

theorem Heard.select (h : r.Heard id ports cost L) (stp : Bool) : (r.brPortStateSelection stp).Heard id ports cost L := by
  rw [brPortStateSelection_eq]
  refine ⟨h.bridgeId, h.portList, fun n => ?_, fun n hn hstate => ?_⟩
  · rw [← h.pathCost n, mapPorts]
    dsimp only
    split_ifs <;> rfl
  · have hmem : n ∈ r.portList := h.portList.symm ▸ hn
    simp only [mapPorts, if_pos hmem] at hstate ⊢
    exact h.port n hn fun hdis => hstate (nextState_eq_disabled_iff.mpr hdis)

theorem Honest.select (h : r.Honest id ports cost R L) (stp : Bool) :
    (r.brPortStateSelection stp).Honest id ports cost R L := by
  refine ⟨h.toHeard.select stp, ?_⟩
  rw [brPortStateSelection_toRoot]
  exact h.root

theorem Heard.root (hb : Belief id ports cost R L) (h : r.Heard id ports cost L) :
    R r.brRootSelection.designatedRoot r.brRootSelection.rootPathCost := by
  rw [brRootSelection]
  dsimp only
  split_ifs with hnone
  · exact h.bridgeId.symm ▸ hb.own
  · obtain ⟨hmem, hstate, -, -⟩ := r.selectRootPort_eligible.resolve_left hnone
    rw [h.portList] at hmem
    have hhop := hb.hop _ hmem _ _ (h.port _ hmem hstate)
    rwa [← h.pathCost] at hhop

theorem brRootSelection_bridgeId (r : Roles) : r.brRootSelection.bridgeId = r.bridgeId := by
  rw [brRootSelection]
  dsimp only
  split_ifs <;> rfl

theorem Heard.update (hb : Belief id ports cost R L) (h : r.Heard id ports cost L) :
    r.brConfigurationUpdate.Honest id ports cost R L := by
  have hroot := h.root hb
  refine ⟨⟨?_, ?_, fun n => ?_, fun n hn hstate => ?_⟩, ?_⟩
  · rw [brConfigurationUpdate_toRoot, brRootSelection_bridgeId, h.bridgeId]
  · rw [brConfigurationUpdate_portList, h.portList]
  · rw [← h.pathCost n]
    rcases r.brConfigurationUpdate_port n with hport | hport
    · rw [hport]
    · rw [hport]
      rfl
  · rw [brConfigurationUpdate_state] at hstate
    rcases r.brConfigurationUpdate_port n with hport | hport
    · rw [hport]
      exact h.port n hn hstate
    · rw [hport]
      exact hb.tell n hn _ _ hroot
  · rw [brConfigurationUpdate_toRoot]
    exact hroot

theorem Heard.reselect (hb : Belief id ports cost R L) (h : r.Heard id ports cost L) (stp : Bool) :
    (r.reselect stp).Honest id ports cost R L := (h.update hb).select stp

theorem Heard.setPort (h : r.Heard id ports cost L) {n : ℕ} {p : Port} (hcost : p.pathCost = cost n)
    (hp : n ∈ ports → p.state ≠ .disabled → L n p.designatedRoot p.designatedCost) :
    (r.setPort n p).Heard id ports cost L := by
  refine ⟨h.bridgeId, h.portList, fun m => ?_, fun m hm => ?_⟩
  · by_cases hmn : m = n
    · subst hmn
      rw [setPort_port_self, hcost]
    · rw [setPort_port_of_ne hmn, h.pathCost]
  · by_cases hmn : m = n
    · subst hmn
      rw [setPort_port_self]
      exact hp hm
    · rw [setPort_port_of_ne hmn]
      exact h.port m hm

theorem Honest.setPort (h : r.Honest id ports cost R L) {n : ℕ} {p : Port} (hcost : p.pathCost = cost n)
    (hp : n ∈ ports → p.state ≠ .disabled → L n p.designatedRoot p.designatedCost) :
    (r.setPort n p).Honest id ports cost R L := ⟨h.toHeard.setPort hcost hp, h.root⟩

theorem Honest.roleStep {e : Event} {stp : Bool} {r' : Roles} (hb : Belief id ports cost R L) (h : r.Honest id ports cost R L)
    (hkeeps : e.KeepsId)
    (hcost : ∀ n c, e = .setPathCost n c ∨ e = .carrierCheck n (some c) → c = cost n)
    (hheard : ∀ n frame bpdu, e = .receive n frame → readBpdu frame = some (.config bpdu) →
      L n bpdu.root bpdu.rootPathCost)
    (hstep : RoleStep e stp r r') : r'.Honest id ports cost R L := by
  have htell (n : ℕ) (hn : n ∈ ports) : L n r.designatedRoot r.rootPathCost := hb.tell n hn _ _ h.root
  cases hstep with
  | same => exact h
  | @hear n frame bpdu he hbpdu hn hsup =>
    apply Heard.reselect hb
    exact h.toHeard.setPort (h.pathCost n) fun _ _ => hheard n frame bpdu he hbpdu
  | age n =>
    apply Heard.reselect hb
    exact h.toHeard.setPort (h.pathCost n) fun hn _ => htell n hn
  | disable n =>
    apply Heard.reselect hb
    have hdesignated : (r.becomeDesignated n).Heard id ports cost L := h.toHeard.setPort (h.pathCost n) fun hn _ => htell n hn
    exact hdesignated.setPort (hdesignated.pathCost n) fun _ hdis => (hdis rfl).elim
  | enable n priority =>
    apply Honest.select
    exact h.setPort (h.pathCost n) fun hn _ => htell n hn
  | block n =>
    rw [makeBlocking]
    split_ifs with hlive
    · exact h.setPort (h.pathCost n) fun hn _ => h.port n hn hlive.1
    · rwa [setPort_self]
  | learn he hstate | forward he hstate =>
    exact h.setPort (h.pathCost _) fun hn _ => h.port _ hn (by simp [hstate])
  | portId n priority => exact h.setPort (h.pathCost n) fun hn hdis => h.port n hn hdis
  | takeLan n priority =>
    apply Honest.select
    have hid : (r.setPortId n (brMakePortId priority n)).Honest id ports cost R L :=
      h.setPort (h.pathCost n) fun hn hdis => h.port n hn hdis
    exact hid.setPort (hid.pathCost n) fun hn _ => htell n hn
  | @cost n c he =>
    exact h.setPort (hcost n c (Or.inr he)) fun hn hdis => h.port n hn hdis
  | @pathCost n c he =>
    apply Heard.reselect hb
    exact h.toHeard.setPort (hcost n c (Or.inl he)) fun hn hdis => h.port n hn hdis
  | changeAddr _ he => exact absurd hkeeps he
  | changePriority _ he => exact absurd hkeeps he
  | add _ _ he => exact absurd hkeeps he
  | remove he => exact absurd hkeeps he

end Roles

structure View.Honest (id : BridgeId) (ports : List ℕ) (cost : ℕ → BitVec 32) (R : BridgeId → BitVec 32 → Prop)
    (L : ℕ → BridgeId → BitVec 32 → Prop) (v : View) : Prop extends Roles.Honest id ports cost R L v.toRoles where
  sent : ∀ f ∈ v.sent, ∀ bpdu, readBpdu f.2 = some (.config bpdu) → R bpdu.root bpdu.rootPathCost

theorem View.Honest.becomes {v v' : View} (h : v.Honest id ports cost R L) (hr : r.Honest id ports cost R L)
    (hbecomes : v.Becomes r v') : v'.Honest id ports cost R L := by
  refine ⟨hbecomes.toRoles.symm ▸ hr, fun f hf bpdu hbpdu => ?_⟩
  rcases hbecomes.sent f hf with hold | htcn | ⟨bpdu', hbpdu', hroot, hcost, -⟩
  · exact h.sent f hold bpdu hbpdu
  · simp [htcn] at hbpdu
  · obtain rfl : bpdu' = bpdu := by simpa [hbpdu'] using hbpdu
    rw [hroot, hcost]
    exact hr.root

theorem NetBridge.handle_honest {br br' : NetBridge} {e : Event} (hb : Belief id ports cost R L)
    (h : br.toView.Honest id ports cost R L) (hkeeps : e.KeepsId)
    (hcost : ∀ n c, e = .setPathCost n c ∨ e = .carrierCheck n (some c) → c = cost n)
    (hheard : ∀ n frame bpdu, e = .receive n frame → readBpdu frame = some (.config bpdu) →
      L n bpdu.root bpdu.rootPathCost)
    (hstep : br.handle e = some br') : br'.toView.Honest id ports cost R L := by
  by_cases htcn : br.LosesRootPort e
  · rw [brTcnTimerExpired_loses hstep htcn]
    exact ⟨h.toHonest, h.sent⟩
  rcases handle_acts hstep htcn with hacts | ⟨on, -, hview⟩
  · suffices hv : ∀ v, Relation.ReflTransGen (View.Act e) br.toView v → v.Honest id ports cost R L from hv _ hacts
    intro v hv
    induction hv with
    | refl => exact h
    | tail _ hact ih =>
      obtain ⟨r, hrole, hbecomes⟩ := hact
      exact ih.becomes (ih.toHonest.roleStep hb hkeeps hcost hheard hrole) hbecomes
  · rw [hview]
    exact ⟨h.toHonest, h.sent⟩

end Belief

section Network

variable {β Λ : Type*} (lan : β → ℕ → Λ) (start : β → NetBridge)

/-- There is a way to a bridge with this identifier that costs so much, the sum taken as the bridges take it. -/
inductive Walk : β → BridgeId → BitVec 32 → Prop
  | own (b : β) : Walk b (start b).bridgeId 0
  | hop {b b' : β} {n n' : ℕ} {root : BridgeId} {cost : BitVec 32} (h : Walk b' root cost)
    (hn : n ∈ (start b).portList) (hn' : n' ∈ (start b').portList) (hlan : lan b' n' = lan b n) :
    Walk b root (cost + ((start b).port n).pathCost)

/-- The wiring, the identifiers and the costs are fixed, and no one else sends configuration messages. -/
structure Allowed (w : β → NetBridge) (act : β × Event) : Prop where
  keepsId : act.2.KeepsId
  cost : ∀ n c, act.2 = .setPathCost n c ∨ act.2 = .carrierCheck n (some c) → c = ((start act.1).port n).pathCost
  heard : ∀ n frame bpdu, act.2 = .receive n frame → readBpdu frame = some (.config bpdu) →
    ∃ b' n', n' ∈ (w b').portList ∧ (n', frame) ∈ (w b').sent ∧ lan b' n' = lan act.1 n

def netStep [DecidableEq β] (w : β → NetBridge) (act : β × Event) : Option (β → NetBridge) :=
  ((w act.1).step act.2).map (Function.update w act.1)

def OnLan (b : β) (n : ℕ) (root : BridgeId) (cost : BitVec 32) : Prop :=
  ∃ b' n', n' ∈ (start b').portList ∧ lan b' n' = lan b n ∧ Walk lan start b' root cost

def WorldHonest (w : β → NetBridge) : Prop := ∀ b, (w b).toRoles.Sound ∧
  (w b).toView.Honest (start b).bridgeId (start b).portList (fun n => ((start b).port n).pathCost) (Walk lan start b)
    (OnLan lan start b)

variable {lan start}

theorem belief (b : β) : Belief (start b).bridgeId (start b).portList (fun n => ((start b).port n).pathCost)
    (Walk lan start b) (OnLan lan start b) where
  own := .own b
  hop := by
    rintro n hn root c ⟨b', n', hn', hlan, hwalk⟩
    exact hwalk.hop hn hn' hlan
  tell := fun n hn root c hwalk => ⟨b, n, hn, rfl, hwalk⟩

theorem Walk.exists_bridge {b : β} {root : BridgeId} {cost : BitVec 32} (h : Walk lan start b root cost) :
    ∃ b', (start b').bridgeId = root := by
  induction h with
  | own b => exact ⟨b, rfl⟩
  | hop _ _ _ _ ih => exact ih

theorem netStep_honest [DecidableEq β] {w w' : β → NetBridge} {act : β × Event} (h : WorldHonest lan start w)
    (hallowed : Allowed lan start w act) (hstep : netStep w act = some w') : WorldHonest lan start w' := by
  obtain ⟨br', hbr', rfl⟩ := Option.map_eq_some_iff.mp hstep
  obtain ⟨-, hhandle⟩ := NetBridge.step_eq_some hbr'
  intro b
  by_cases hb : b = act.1
  · subst hb
    rw [Function.update_self]
    refine ⟨NetBridge.handle_sound hhandle (h _).1, ?_⟩
    apply NetBridge.handle_honest (belief act.1) (h _).2 hallowed.keepsId hallowed.cost _ hhandle
    intro n frame bpdu he hbpdu
    obtain ⟨b', n', hn', hsent, hlan⟩ := hallowed.heard n frame bpdu he hbpdu
    exact ⟨b', n', (h b').2.portList ▸ hn', hlan, (h b').2.sent _ hsent bpdu hbpdu⟩
  · rw [Function.update_of_ne hb]
    exact h b

structure NetBridge.Idle (br : NetBridge) : Prop where
  reachable : ∃ jiffies, NetBridge.Reachable jiffies br
  disabled : ∀ n ∈ br.portList, (br.port n).state = .disabled
  sent : br.sent = []

theorem worldHonest_of_idle (hidle : ∀ b, (start b).Idle) : WorldHonest lan start start := by
  intro b
  obtain ⟨⟨jiffies, hreach⟩, hdisabled, hsent⟩ := hidle b
  have hsound := hreach.sound
  have hroot : (start b).rootPort = 0 := by
    by_contra hsome
    obtain ⟨hmem, hstate, -⟩ := hsound.better hsome
    exact hstate (hdisabled _ hmem)
  obtain ⟨hown, hzero⟩ := hsound.own hroot
  refine ⟨hsound, ⟨⟨⟨rfl, rfl, fun _ => rfl, fun n hn hstate => absurd (hdisabled n hn) hstate⟩, ?_⟩, ?_⟩⟩
  · rw [hown, hzero]
    exact .own b
  · rw [hsent]
    nofun

/-- Whatever the order of events and whatever becomes of the frames, a bridge only believes in a root that is there and
in a cost that some way to it has, and the bridge with the least identifier never yields. -/
theorem network_roots [DecidableEq β] (hidle : ∀ b, (start b).Idle) {w : β → NetBridge}
    (hrun : Run netStep (Allowed lan start) start w) (b : β) :
    Walk lan start b (w b).designatedRoot (w b).rootPathCost ∧
      (w b).designatedRoot.value ≤ (start b).bridgeId.value ∧
      ((∀ b', (start b).bridgeId.value ≤ (start b').bridgeId.value) →
        (w b).designatedRoot = (start b).bridgeId ∧ (w b).rootPort = 0) := by
  have hworld : WorldHonest lan start w := by
    apply hrun.invariant (WorldHonest lan start) (worldHonest_of_idle hidle)
    intro w act w' h hallowed hstep
    exact netStep_honest h hallowed hstep
  obtain ⟨hsound, honest⟩ := hworld b
  have hle : (w b).designatedRoot.value ≤ (start b).bridgeId.value := by
    by_cases hroot : (w b).rootPort = 0
    · rw [(hsound.own hroot).1, honest.bridgeId]
    · have hlt := (hsound.better hroot).2.2
      rw [honest.bridgeId] at hlt
      exact hlt.le
  refine ⟨honest.root, hle, fun hleast => ?_⟩
  have hroot : (w b).rootPort = 0 := by
    by_contra hsome
    have hlt := (hsound.better hsome).2.2
    obtain ⟨b', hb'⟩ := honest.root.exists_bridge
    rw [honest.bridgeId, ← hb'] at hlt
    exact absurd (hleast b') (not_le.mpr hlt)
  exact ⟨(hsound.own hroot).1.trans honest.bridgeId, hroot⟩

end Network

theorem network_roots_two : ∃ (start w : Bool → NetBridge),
    Run netStep (Allowed (fun _ _ => ()) start) start w ∧ (w false).rootPort = 1 ∧
      Walk (fun _ _ => ()) start false (w false).designatedRoot (w false).rootPathCost ∧ (w true).rootPort = 0 := by
  let addr (c : Bool) : EthAddr := fun _ => if c then 1 else 2
  let setup (c : Bool) : List Event := [.addIf (addr c) 100, .ioctlParm .helloTime 0, .setStpState true]
  let start (c : Bool) : NetBridge := (Transition.exec NetBridge.step (newBridgeDev 0) (setup c)).getD (newBridgeDev 0)
  let id : BridgeId := ⟨Roles.priorityBytes 0x8000, addr true⟩
  let frame := brSendBpdu (addr true)
    (ConfigBpdu.buf ⟨false, false, id, 0, id, brMakePortId 0x20 1, 0, 20 * hz, 0, 15 * hz⟩)
  let acts : List (Bool × Event) := [(true, .devOpen fun _ => true), (false, .devOpen fun _ => true), (true, .helloTimer)]
  have hidle (c : Bool) : (start c).Idle := by
    have hsome : (Transition.exec NetBridge.step (newBridgeDev 0) (setup c)).isSome = true := by
      cases c <;> decide +kernel
    obtain ⟨br, hbr⟩ := Option.isSome_iff_exists.mp hsome
    have hstart : start c = br := congrArg (fun o => o.getD (newBridgeDev 0)) hbr
    refine ⟨⟨0, hstart ▸ .exec (fun _ _ => trivial) .refl hbr⟩, ?_, ?_⟩
    · cases c <;> decide +kernel
    · cases c <;> decide +kernel
  have hrun : (Transition.exec netStep start acts).any (fun w => (1, frame) ∈ (w true).sent ∧ 1 ∈ (w true).portList ∧
      (netStep w (false, .receive 1 frame)).any fun w' => (w' false).rootPort = 1) = true := by decide +kernel
  cases hw : Transition.exec netStep start acts with
  | none =>
    rw [hw] at hrun
    cases hrun
  | some w =>
    rw [hw] at hrun
    obtain ⟨hsent, hport, hany⟩ := of_decide_eq_true hrun
    cases hw' : netStep w (false, .receive 1 frame) with
    | none =>
      rw [hw'] at hany
      cases hany
    | some w' =>
      rw [hw'] at hany
      have hfirst : Run netStep (Allowed (fun _ _ => ()) start) start w := by
        refine .exec_of_mem ?_ .refl hw
        simp only [acts, List.forall_mem_cons, List.not_mem_nil, false_imp_iff, implies_true, and_true]
        refine ⟨fun w => ⟨trivial, nofun, nofun⟩, fun w => ⟨trivial, nofun, nofun⟩, fun w => ⟨trivial, nofun, nofun⟩⟩
      have hlast : Run netStep (Allowed (fun _ _ => ()) start) start w' := by
        refine hfirst.tail (e := (false, .receive 1 frame)) ⟨trivial, nofun, ?_⟩ hw'
        rintro n _ bpdu ⟨⟩ -
        exact ⟨true, 1, hport, hsent, rfl⟩
      refine ⟨start, w', hlast, of_decide_eq_true hany, (network_roots hidle hlast false).1, ?_⟩
      refine ((network_roots hidle hlast true).2.2 ?_).2
      decide +kernel

end Wap610n.Stp
