import Mathlib.Data.Int.Notation
import Wap610n.Stp.Sound

/-!
A network in which the bridges have nothing left to tell each other: its ports agree on the root, and what passes through
them cannot come back.
-/

namespace Wap610n.Stp

open Bridge (EthAddr PortState)
open Relation (TransGen)
open Transition (exec)

namespace Roles

def Enabled (r : Roles) (n : ℕ) : Prop := n ∈ r.portList ∧ (r.port n).state ≠ .disabled

def Designated (r : Roles) (n : ℕ) : Prop := r.Enabled n ∧ r.brIsDesignatedPort (r.port n) = true

instance (r : Roles) (n : ℕ) : Decidable (r.Enabled n) := inferInstanceAs (Decidable (_ ∧ _))

instance (r : Roles) (n : ℕ) : Decidable (r.Designated n) := inferInstanceAs (Decidable (_ ∧ _))

variable {r : Roles} {n : ℕ}

theorem settled_of_ports (hroot : r.brRootSelection.toRoot = r.toRoot)
    (hport : ∀ n ∈ r.portList, (r.port n).state ≠ .disabled ∧ r.brShouldBecomeDesignatedPort (r.port n) = true →
      r.brBecomeDesignatedPort (r.port n) = r.port n) : r.brConfigurationUpdate = r := by
  have hselect : r.brRootSelection = r := by
    calc r.brRootSelection = ⟨r.brRootSelection.toRoot, r.brRootSelection.portList, r.brRootSelection.port⟩ := rfl
      _ = ⟨r.toRoot, r.portList, r.port⟩ := by rw [hroot, brRootSelection_portList, brRootSelection_port]
  rw [brConfigurationUpdate, hselect, brDesignatedPortSelection_eq, mapPorts]
  refine congrArg (fun port => { r with port := port }) (funext fun n => ?_)
  split_ifs with hn hshould
  · exact hport n hn hshould
  · rfl
  · rfl

theorem brRootSelection_of_settled (h : r.brConfigurationUpdate = r) : r.brRootSelection.toRoot = r.toRoot := by
  rw [← brConfigurationUpdate_toRoot, h]

theorem port_of_settled (h : r.brConfigurationUpdate = r) (hn : r.Enabled n)
    (hshould : r.brShouldBecomeDesignatedPort (r.port n) = true) : r.port n = r.brBecomeDesignatedPort (r.port n) := by
  have hport : r.brConfigurationUpdate.port n = r.port n := by rw [h]
  rw [brConfigurationUpdate, brDesignatedPortSelection_eq, mapPorts] at hport
  dsimp only at hport
  rw [brRootSelection_portList, brRootSelection_port, brRootSelection_of_settled h, if_pos hn.1,
    if_pos ⟨hn.2, hshould⟩] at hport
  exact hport.symm

theorem Designated.port_eq (hd : r.Designated n) (h : r.brConfigurationUpdate = r) :
    r.port n = r.brBecomeDesignatedPort (r.port n) := by
  apply port_of_settled h hd.1
  rw [Root.brShouldBecomeDesignatedPort, if_pos hd.2]

theorem Enabled.designatedRoot (hn : r.Enabled n) (h : r.brConfigurationUpdate = r) :
    (r.port n).designatedRoot = r.designatedRoot := by
  by_contra hne
  have hshould : r.brShouldBecomeDesignatedPort (r.port n) = true := by
    simp [Root.brShouldBecomeDesignatedPort, BridgeId.cmp_eq_iff, hne]
  exact hne (congrArg Port.designatedRoot (port_of_settled h hn hshould))

theorem rootPort_of_settled (h : r.brConfigurationUpdate = r) (hroot : r.rootPort ≠ 0) :
    r.rootPathCost = (r.port r.rootPort).designatedCost + (r.port r.rootPort).pathCost := by
  have hsel := brRootSelection_of_settled h
  rw [brRootSelection] at hsel
  dsimp only at hsel
  split_ifs at hsel with hnone
  · exact absurd ((congrArg Root.rootPort hsel).symm.trans hnone) hroot
  · have hport : r.selectRootPort = r.rootPort := congrArg Root.rootPort hsel
    rw [← congrArg Root.rootPathCost hsel, hport]

end Roles

theorem BridgeId.cmp_swap (a b : BridgeId) : a.cmp b = (b.cmp a).swap := by
  cases h : b.cmp a with
  | lt => exact BridgeId.cmp_gt_iff.mpr (BridgeId.cmp_lt_iff.mp h)
  | gt => exact BridgeId.cmp_lt_iff.mpr (BridgeId.cmp_gt_iff.mp h)
  | eq => exact BridgeId.cmp_eq_iff.mpr (BridgeId.cmp_eq_iff.mp h).symm

theorem brSupersedesPortInfo_total (r r' : Root) {p p' : Port} {bpdu bpdu' : ConfigBpdu}
    (h : p.brRecordConfigInformation bpdu = p) (h' : p'.brRecordConfigInformation bpdu' = p') :
    r.brSupersedesPortInfo p bpdu' = true ∨ r'.brSupersedesPortInfo p' bpdu = true := by
  have hroot : bpdu.root = p.designatedRoot := congrArg Port.designatedRoot h
  have hcost : bpdu.rootPathCost = p.designatedCost := congrArg Port.designatedCost h
  have hbridge : bpdu.bridgeId = p.designatedBridge := congrArg Port.designatedBridge h
  have hport : bpdu.portId = p.designatedPort := congrArg Port.designatedPort h
  have hroot' : bpdu'.root = p'.designatedRoot := congrArg Port.designatedRoot h'
  have hcost' : bpdu'.rootPathCost = p'.designatedCost := congrArg Port.designatedCost h'
  have hbridge' : bpdu'.bridgeId = p'.designatedBridge := congrArg Port.designatedBridge h'
  have hport' : bpdu'.portId = p'.designatedPort := congrArg Port.designatedPort h'
  simp only [Root.brSupersedesPortInfo, hroot, hcost, hbridge, hport, hroot', hcost', hbridge', hport']
  rw [BridgeId.cmp_swap p.designatedRoot, BridgeId.cmp_swap p.designatedBridge]
  cases p'.designatedRoot.cmp p.designatedRoot with
  | lt => exact Or.inl rfl
  | gt => exact Or.inr rfl
  | eq =>
    rcases Nat.lt_trichotomy p'.designatedCost.toNat p.designatedCost.toNat with hlt | heq | hlt
    · exact Or.inl (if_pos (BitVec.lt_def.mpr hlt))
    · rw [BitVec.eq_of_toNat_eq heq]
      simp only [BitVec.lt_irrefl, if_false, Ordering.swap_eq, gt_iff_lt]
      cases p'.designatedBridge.cmp p.designatedBridge with
      | lt => exact Or.inl rfl
      | gt => exact Or.inr rfl
      | eq =>
        rcases Nat.le_total p'.designatedPort.toNat p.designatedPort.toNat with hle | hle
        · left
          simp [BitVec.le_def, hle]
        · right
          simp [BitVec.le_def, hle]
    · exact Or.inr (if_pos (BitVec.lt_def.mpr hlt))

section Stable

variable {β Λ : Type*} (lan : β → ℕ → Λ) (w : β → NetBridge)

def NetBridge.told (br : NetBridge) (n : ℕ) : ConfigBpdu := (br.configBpdu n).inFrame

structure Stable : Prop where
  reachable : ∀ b, ∃ jiffies, NetBridge.Reachable jiffies (w b)
  settled : ∀ b, (w b).toRoles.brConfigurationUpdate = (w b).toRoles
  /-- No message changes what a port knows. -/
  quiet : ∀ b n b' n', (w b).Enabled n → (w b').Designated n' → lan b' n' = lan b n →
    (w b).brSupersedesPortInfo ((w b).port n) ((w b').told n') = true →
    ((w b).port n).brRecordConfigInformation ((w b').told n') = (w b).port n
  /-- What a port knows is still being told, or else it would be forgotten. -/
  backed : ∀ b n, (w b).Enabled n → ∃ b' n', (w b').Designated n' ∧ lan b' n' = lan b n ∧
    ((w b).port n).brRecordConfigInformation ((w b').told n') = (w b).port n
  pathCost : ∀ b n, (w b).Enabled n → 0 < ((w b).port n).pathCost.toNat ∧
    ((w b).port n).designatedCost.toNat + ((w b).port n).pathCost.toNat < 2 ^ 32

variable {lan w}

namespace Stable

variable (h : Stable lan w) {b b' : β} {n n' m m' : ℕ}
include h

theorem sound (b : β) : (w b).toRoles.Sound := (h.reachable b).elim fun _ hreach => hreach.sound

theorem numbered (b : β) : (w b).toRoles.Numbered := (h.reachable b).elim fun _ hreach => hreach.numbered

theorem told_self (hd : (w b).Designated n) :
    ((w b).port n).brRecordConfigInformation ((w b).told n) = (w b).port n := (hd.port_eq (h.settled b)).symm

theorem told_unique (hd : (w b).Designated n) (hd' : (w b').Designated n') (hlan : lan b' n' = lan b n) :
    (w b').designatedRoot = (w b).designatedRoot ∧ (w b').rootPathCost = (w b).rootPathCost ∧
      (w b').bridgeId = (w b).bridgeId ∧ ((w b').port n').portId = ((w b).port n).portId := by
  rcases brSupersedesPortInfo_total (w b).toRoot (w b').toRoot (h.told_self hd) (h.told_self hd')
    with hsup | hsup
  · have hrec := (h.quiet b n b' n' hd.1 hd' hlan hsup).trans (h.told_self hd).symm
    exact ⟨congrArg Port.designatedRoot hrec, congrArg Port.designatedCost hrec, congrArg Port.designatedBridge hrec,
      congrArg Port.designatedPort hrec⟩
  · have hrec := (h.told_self hd').trans (h.quiet b' n' b n hd'.1 hd hlan.symm hsup).symm
    exact ⟨congrArg Port.designatedRoot hrec, congrArg Port.designatedCost hrec, congrArg Port.designatedBridge hrec,
      congrArg Port.designatedPort hrec⟩

theorem designated_unique (hids : Function.Injective fun b => (w b).bridgeId) (hd : (w b).Designated n)
    (hd' : (w b').Designated n') (hlan : lan b' n' = lan b n) : b' = b ∧ n' = n := by
  obtain ⟨-, -, hid, hport⟩ := h.told_unique hd hd' hlan
  obtain rfl := hids hid
  exact ⟨rfl, (h.numbered b').portId_inj hd'.1.1 hd.1.1 hport⟩

theorem port_of_designated (hn : (w b).Enabled n) (hd' : (w b').Designated n') (hlan : lan b' n' = lan b n) :
    ((w b).port n).designatedRoot = (w b').designatedRoot ∧ ((w b).port n).designatedCost = (w b').rootPathCost := by
  obtain ⟨b₁, n₁, hd₁, hlan₁, hrec⟩ := h.backed b n hn
  obtain ⟨hroot, hcost, -⟩ := h.told_unique hd' hd₁ (hlan₁.trans hlan.symm)
  exact ⟨(congrArg Port.designatedRoot hrec).symm.trans hroot, (congrArg Port.designatedCost hrec).symm.trans hcost⟩

theorem designatedRoot_of_designated (hn : (w b).Enabled n) (hd' : (w b').Designated n') (hlan : lan b' n' = lan b n) :
    (w b).designatedRoot = (w b').designatedRoot :=
  (hn.designatedRoot (h.settled b)).symm.trans (h.port_of_designated hn hd' hlan).1

theorem enabled_rootPort (hroot : (w b).rootPort ≠ 0) : (w b).Enabled (w b).rootPort :=
  ⟨((h.sound b).better hroot).1, ((h.sound b).better hroot).2.1⟩

theorem cost_lt (hroot : (w b).rootPort ≠ 0) (hd' : (w b').Designated n') (hlan : lan b' n' = lan b (w b).rootPort) :
    (w b').rootPathCost.toNat < (w b).rootPathCost.toNat := by
  have hn := h.enabled_rootPort hroot
  obtain ⟨hpos, hfits⟩ := h.pathCost b _ hn
  rw [Roles.rootPort_of_settled (h.settled b) hroot, BitVec.toNat_add, Nat.mod_eq_of_lt hfits,
    (h.port_of_designated hn hd' hlan).2]
  omega

end Stable

theorem stable_agree (h : Stable lan w) :
    (∀ b n b' n', (w b).Enabled n → (w b').Enabled n' → lan b' n' = lan b n →
      (w b).designatedRoot = (w b').designatedRoot) ∧
    ∀ b, ∃ b₀, (w b₀).rootPort = 0 ∧ (w b₀).designatedRoot = (w b₀).bridgeId ∧
      (w b).designatedRoot = (w b₀).bridgeId := by
  constructor
  · intro b n b' n' hn hn' hlan
    obtain ⟨b₁, n₁, hd₁, hlan₁, -⟩ := h.backed b n hn
    rw [h.designatedRoot_of_designated hn hd₁ hlan₁,
      h.designatedRoot_of_designated hn' hd₁ (hlan₁.trans hlan.symm)]
  · intro b
    induction hc : (w b).rootPathCost.toNat using Nat.strongRecOn generalizing b with
    | ind c ih =>
      by_cases hroot : (w b).rootPort = 0
      · obtain ⟨hown, -⟩ := (h.sound b).own hroot
        exact ⟨b, hroot, hown, hown⟩
      · have hn := h.enabled_rootPort hroot
        obtain ⟨b', n', hd', hlan', -⟩ := h.backed b _ hn
        obtain ⟨b₀, hroot₀, hown₀, heq⟩ := ih _ (hc ▸ h.cost_lt hroot hd' hlan') b' rfl
        exact ⟨b₀, hroot₀, hown₀, (h.designatedRoot_of_designated hn hd' hlan').trans heq⟩

def pairAddr (c : Bool) : EthAddr := fun _ => if c then 1 else 2

def pairRoot : BridgeId := ⟨Roles.priorityBytes 0x8000, pairAddr true⟩

def pairHello (n : ℕ) : List UInt8 :=
  brSendBpdu (pairAddr true) (ConfigBpdu.buf ⟨false, false, pairRoot, 0, pairRoot, brMakePortId 0x20 n, 0, 20 * hz, 0, 0⟩)

def pairEvents (c : Bool) : List Event :=
  List.replicate (if c then 2 else 3) (.addIf (pairAddr c) 100) ++
  [.ioctlParm .helloTime 0, .ioctlParm .forwardDelay 0, .setStpState true, .devOpen fun _ => true] ++
  (if c then [.helloTimer] else [.receive 1 (pairHello 1), .receive 2 (pairHello 2)]) ++
  [1, if c then 2 else 3].flatMap fun n => [.forwardDelayTimer n, .forwardDelayTimer n]

/-- Two bridges side by side on two segments. The second one blocks one of its ports there, and has a third segment of
its own. -/
def pair (c : Bool) : NetBridge := (exec NetBridge.step (newBridgeDev 0) (pairEvents c)).getD (newBridgeDev 0)

theorem pair_reachable (c : Bool) : NetBridge.Reachable 0 (pair c) := by
  have hsome : (exec NetBridge.step (newBridgeDev 0) (pairEvents c)).isSome = true := by cases c <;> decide +kernel
  obtain ⟨br, hbr⟩ := Option.isSome_iff_exists.mp hsome
  have hpair : pair c = br := congrArg (fun o => o.getD (newBridgeDev 0)) hbr
  exact hpair ▸ .exec (fun _ _ => trivial) .refl hbr

theorem pair_settled (c : Bool) : (pair c).toRoles.brConfigurationUpdate = (pair c).toRoles := by
  apply Roles.settled_of_ports
  · cases c <;> decide +kernel
  · cases c <;> decide +kernel

theorem pair_told (c : Bool) : ∀ n ∈ (pair c).portList,
    (∀ c', (pair c').Designated n → ((pair c).port n).brRecordConfigInformation ((pair c').told n) = (pair c).port n) ∧
    (∃ c', (pair c').Designated n) ∧ ((pair c).port n).pathCost = 100 ∧ ((pair c).port n).designatedCost ≤ 100 := by
  cases c <;> decide +kernel

theorem pair_stable : Stable (fun _ n => n) pair where
  reachable c := ⟨0, pair_reachable c⟩
  settled := pair_settled
  quiet := by
    rintro c n c' _ hn hd rfl -
    exact (pair_told c _ hn.1).1 c' hd
  backed c n hn := by
    obtain ⟨htold, ⟨c', hd⟩, -⟩ := pair_told c n hn.1
    exact ⟨c', n, hd, rfl, htold c' hd⟩
  pathCost c n hn := by
    obtain ⟨-, -, hcost, hle⟩ := pair_told c n hn.1
    rw [hcost]
    rw [BitVec.le_def] at hle
    exact ⟨by decide, Nat.lt_of_le_of_lt (Nat.add_le_add_right hle _) (by decide)⟩

theorem pair_ids : Function.Injective fun c => (pair c).bridgeId := by
  intro c c'
  cases c <;> cases c' <;> decide +kernel

theorem stable_agree_pair : (∀ n ∈ [1, 2], (n, pairHello n) ∈ (pair true).sent) ∧
    (pair false).designatedRoot = (pair true).designatedRoot ∧ (pair false).designatedRoot ≠ (pair false).bridgeId :=
  ⟨by decide +kernel, (stable_agree pair_stable).1 false 1 true 1 (by decide +kernel) (by decide +kernel) rfl,
    by decide +kernel⟩

variable (lan w) in
/-- A frame passes through the bridge `b`, from the port `n` to the port `m`. -/
structure Hop where
  b : β
  n : ℕ
  m : ℕ
  ne : n ≠ m
  inside : n ∈ (w b).portList ∧ m ∈ (w b).portList
  forwarding : ((w b).port n).state = .forwarding ∧ ((w b).port m).state = .forwarding

variable (lan) in
def Relay (x y : Hop w) : Prop := lan y.b y.n = lan x.b x.m ∧ (y.b, y.n) ≠ (x.b, x.m)

/-- On its way up a frame gets nearer to the root, and once it goes down it gets farther away at each hop. -/
def Hop.rank (x : Hop w) : ℤ :=
  if (w x.b).brIsDesignatedPort ((w x.b).port x.m) then (w x.b).rootPathCost.toNat
  else -(w x.b).rootPathCost.toNat - 1

theorem Stable.rootPort_of_forwarding (h : Stable lan w) {b : β} {n : ℕ} (hn : n ∈ (w b).portList)
    (hstate : ((w b).port n).state = .forwarding) (hnot : (w b).brIsDesignatedPort ((w b).port n) = false) :
    n = (w b).rootPort ∧ (w b).rootPort ≠ 0 := by
  have hactive := (h.sound b).live n hn (by simp [hstate]) (by simp [hstate])
  rw [Roles.active, hnot, Bool.or_false, decide_eq_true_iff] at hactive
  refine ⟨hactive, fun hzero => (h.sound b).pos ?_⟩
  rwa [← hzero, ← hactive]

theorem Stable.designated_of_forwarding {b : β} {n : ℕ} (hn : n ∈ (w b).portList)
    (hstate : ((w b).port n).state = .forwarding) (hd : (w b).brIsDesignatedPort ((w b).port n) = true) :
    (w b).Designated n := ⟨⟨hn, by simp [hstate]⟩, hd⟩

theorem Stable.rank_lt (h : Stable lan w) (hids : Function.Injective fun b => (w b).bridgeId) {x y : Hop w}
    (hr : Relay lan x y) : x.rank < y.rank := by
  obtain ⟨hlan, hne⟩ := hr
  rw [Hop.rank, Hop.rank]
  cases hx : (w x.b).brIsDesignatedPort ((w x.b).port x.m) with
  | true =>
    have hdx := designated_of_forwarding x.inside.2 x.forwarding.2 hx
    -- no other port on the segment is designated, so the frame comes in at a root port
    have hyn : (w y.b).brIsDesignatedPort ((w y.b).port y.n) = false := by
      by_contra hyn
      have hdy := designated_of_forwarding y.inside.1 y.forwarding.1 (Bool.not_eq_false _ ▸ hyn)
      obtain ⟨hb, hn⟩ := h.designated_unique hids hdx hdy hlan
      exact hne (Prod.ext hb hn)
    obtain ⟨hroot, hpos⟩ := h.rootPort_of_forwarding y.inside.1 y.forwarding.1 hyn
    have hym : (w y.b).brIsDesignatedPort ((w y.b).port y.m) = true := by
      by_contra hym
      have hm := h.rootPort_of_forwarding y.inside.2 y.forwarding.2 (Bool.not_eq_true _ ▸ hym)
      exact y.ne (hroot.trans hm.1.symm)
    have hlt := h.cost_lt hpos hdx (hroot ▸ hlan.symm)
    rw [if_pos rfl, if_pos hym]
    exact_mod_cast hlt
  | false =>
    obtain ⟨hroot, hpos⟩ := h.rootPort_of_forwarding x.inside.2 x.forwarding.2 hx
    rw [if_neg nofun]
    cases hym : (w y.b).brIsDesignatedPort ((w y.b).port y.m) with
    | true =>
      rw [if_pos rfl]
      omega
    | false =>
      have hm := h.rootPort_of_forwarding y.inside.2 y.forwarding.2 hym
      have hyn : (w y.b).brIsDesignatedPort ((w y.b).port y.n) = true := by
        by_contra hyn
        have hn := h.rootPort_of_forwarding y.inside.1 y.forwarding.1 (Bool.not_eq_true _ ▸ hyn)
        exact y.ne (hn.1.trans hm.1.symm)
      have hdy := designated_of_forwarding y.inside.1 y.forwarding.1 hyn
      have hlt := h.cost_lt hpos hdy (hroot ▸ hlan)
      rw [if_neg nofun]
      omega

theorem stable_no_loop (h : Stable lan w) (hids : Function.Injective fun b => (w b).bridgeId) (x : Hop w) :
    ¬TransGen (Relay lan) x x := by
  intro hloop
  have hlt : ∀ y, TransGen (Relay lan) x y → x.rank < y.rank := by
    intro y hy
    induction hy with
    | single hr => exact h.rank_lt hids hr
    | tail _ hr ih => exact ih.trans (h.rank_lt hids hr)
  exact absurd (hlt x hloop) (lt_irrefl _)

theorem stable_no_loop_pair : ∃ x y : Hop pair, Relay (fun _ n => n) x y ∧ ¬TransGen (Relay fun _ n => n) x x :=
  ⟨⟨true, 2, 1, by decide, by decide +kernel, by decide +kernel⟩,
    ⟨false, 1, 3, by decide, by decide +kernel, by decide +kernel⟩, ⟨rfl, by decide⟩,
    stable_no_loop pair_stable pair_ids _⟩

end Stable

end Wap610n.Stp
