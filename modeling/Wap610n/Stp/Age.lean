import Wap610n.Stp.Sound

/-!
The age of a message on its way through the bridges.
-/

namespace Wap610n.Stp

open Bridge (PortState)
open Relation (ReflTransGen)
open Transition (exec)

def IsTcn (frame : List UInt8) : Prop := readBpdu frame = some .tcn

namespace NetBridge

def Keeps (P : List UInt8 → Prop) (b b' : NetBridge) : Prop :=
  b'.jiffies = b.jiffies ∧ b'.times = b.times ∧
    (∀ n, (b'.work n).messageAgeTimer.expires = (b.work n).messageAgeTimer.expires) ∧
    ∃ new, b'.sent = b.sent ++ new ∧ ∀ f ∈ new, P f.2

variable {P : List UInt8 → Prop} {b b' b'' : NetBridge} {n : ℕ} {w : PortWork}

theorem Keeps.refl (b : NetBridge) : b.Keeps P b :=
  ⟨rfl, rfl, fun _ => rfl, [], (List.append_nil _).symm, nofun⟩

theorem Keeps.trans (h : b.Keeps P b') (h' : b'.Keeps P b'') : b.Keeps P b'' := by
  obtain ⟨hjiffies, htimes, hexpires, new, hsent, hnew⟩ := h
  obtain ⟨hjiffies', htimes', hexpires', new', hsent', hnew'⟩ := h'
  refine ⟨hjiffies'.trans hjiffies, htimes'.trans htimes, fun n => (hexpires' n).trans (hexpires n), new ++ new', ?_,
    List.forall_mem_append.mpr ⟨hnew, hnew'⟩⟩
  rw [hsent', hsent, List.append_assoc]

theorem Keeps.setWork (b : NetBridge) (h : w.messageAgeTimer.expires = (b.work n).messageAgeTimer.expires) :
    b.Keeps P (b.setWork n w) := by
  refine ⟨rfl, rfl, fun m => ?_, (Keeps.refl b).2.2.2⟩
  by_cases hm : m = n
  · subst hm
    rw [setWork_work_self, h]
  · rw [setWork_work_of_ne _ hm]

theorem Keeps.snoc {f : ℕ × List UInt8} (hf : P f.2) : b.Keeps P { b with sent := b.sent ++ [f] } :=
  ⟨rfl, rfl, fun _ => rfl, [f], rfl, List.forall_mem_singleton.mpr hf⟩

theorem brTransmitTcn_keeps : b.Keeps IsTcn b.brTransmitTcn := by
  rw [brTransmitTcn, brSendTcnBpdu]
  split_ifs
  · exact .snoc (readBpdu_tcn _)
  · exact .refl b
  · exact .refl b

theorem brTopologyChangeDetection_keeps : b.Keeps IsTcn b.brTopologyChangeDetection := by
  rw [brTopologyChangeDetection]
  dsimp only
  split_ifs
  · exact .refl b
  · exact brTransmitTcn_keeps (b := b)
  · exact .refl b

theorem brMakeForwarding_keeps (n : ℕ) : b.Keeps P (b.brMakeForwarding n) := by
  rw [brMakeForwarding]
  split_ifs
  · exact Keeps.setWork (b.setState n _) (by rfl)
  · exact Keeps.setWork (b.setState n _) (by rfl)
  · exact .refl b

theorem brMakeBlocking_keeps (n : ℕ) : b.Keeps IsTcn (b.brMakeBlocking n) := by
  rw [brMakeBlocking]
  dsimp only
  split_ifs
  · exact brTopologyChangeDetection_keeps.trans (Keeps.setWork (b.brTopologyChangeDetection.setState n _) (by rfl))
  · exact Keeps.setWork (b.setState n _) (by rfl)
  · exact .refl b

theorem brPortStateSelection_keeps : b.Keeps IsTcn b.brPortStateSelection := by
  apply forEachPort_trans .refl .trans
  intro b n
  rw [selectPort]
  split_ifs
  · exact (Keeps.setWork b (by rfl)).trans (brMakeForwarding_keeps n)
  · exact (Keeps.setWork b (by rfl)).trans (brMakeForwarding_keeps n)
  · exact (Keeps.setWork b (by rfl)).trans (brMakeBlocking_keeps n)
  · exact .refl b

theorem yieldRoot_keeps (wasRoot : Bool) : b.Keeps IsTcn (b.yieldRoot wasRoot) := by
  rw [yieldRoot]
  dsimp only
  split_ifs
  · exact brTransmitTcn_keeps
      (b := { b with helloTimer := b.helloTimer.del, topologyChangeTimer := b.topologyChangeTimer.del })
  · exact .refl b
  · exact .refl b

def TellsAge (age maxAge : BitVec 32) (frame : List UInt8) : Prop :=
  age < maxAge ∧ ∃ bpdu, readBpdu frame = some (.config bpdu) ∧ bpdu.messageAge = received age ∧
    bpdu.maxAge = received maxAge

theorem Keeps.messageAge (h : b.Keeps P b') (hroot : b'.toRoot = b.toRoot) : b'.messageAge = b.messageAge := by
  rw [NetBridge.messageAge, NetBridge.messageAge, hroot, h.1, h.2.1, h.2.2.1]

theorem brTransmitConfig_keeps (n : ℕ) :
    b.Keeps (TellsAge b.messageAge b.times.maxAge) (b.brTransmitConfig n) := by
  rw [brTransmitConfig]
  split_ifs with hhold hmissing hage
  · exact Keeps.setWork b (by rfl)
  · exact .refl b
  · rw [brSendConfigBpdu]
    split_ifs
    · refine Keeps.trans (.snoc (f := (n, brSendBpdu (b.work n).devAddr (b.configBpdu n).buf)) ?_)
        (Keeps.setWork _ (by rfl))
      exact ⟨hage, (b.configBpdu n).inFrame, readBpdu_config .., rfl, rfl⟩
    · exact Keeps.setWork b (by rfl)
  · exact .refl b

theorem brConfigBpduGeneration_keeps :
    b.Keeps (TellsAge b.messageAge b.times.maxAge) b.brConfigBpduGeneration := by
  let R (c c' : NetBridge) : Prop := c.toRoot = b.toRoot ∧ b.Keeps (TellsAge b.messageAge b.times.maxAge) c →
    c'.toRoot = b.toRoot ∧ b.Keeps (TellsAge b.messageAge b.times.maxAge) c'
  have hloop : R b b.brConfigBpduGeneration := by
    apply forEachPort_trans (R := R) (fun _ => id) (fun h h' => h' ∘ h)
    rintro c n ⟨hroot, hkeeps⟩
    split_ifs
    · have hsend := brTransmitConfig_keeps (b := c) n
      rw [hkeeps.messageAge hroot, hkeeps.2.1] at hsend
      exact ⟨(congrArg Roles.toRoot (brTransmitConfig_sends n).toRoles).trans hroot, hkeeps.trans hsend⟩
    · exact ⟨hroot, hkeeps⟩
  exact (hloop ⟨rfl, .refl b⟩).2

/-- The age is counted with the limit in force before, and told with the one of the message. -/
def relayedAge (maxAge : BitVec 32) (bpdu : ConfigBpdu) : BitVec 32 :=
  bpdu.maxAge - (maxAge - bpdu.messageAge) + messageAgeIncr

theorem followRoot_age (bpdu : ConfigBpdu) (hroot : b.rootPort = n) (hnot : b.brIsRootBridge = false) :
    ∃ new, (b.followRoot n bpdu).sent = b.sent ++ new ∧ ∀ f ∈ new,
      TellsAge (bpdu.maxAge - ((b.work n).messageAgeTimer.expires - b.jiffies) + messageAgeIncr) bpdu.maxAge f.2 := by
  have hsent : (b.followRoot n bpdu).sent = (b.brRecordConfigTimeoutValues bpdu).brConfigBpduGeneration.sent := by
    rw [followRoot, if_pos hroot.symm]
    dsimp only
    split_ifs <;> rfl
  have hage : (b.brRecordConfigTimeoutValues bpdu).messageAge =
      bpdu.maxAge - ((b.work n).messageAgeTimer.expires - b.jiffies) + messageAgeIncr := by
    subst hroot
    exact if_neg (by simp [hnot, brRecordConfigTimeoutValues])
  have hkeeps := brConfigBpduGeneration_keeps (b := b.brRecordConfigTimeoutValues bpdu)
  rw [hage] at hkeeps
  rw [hsent]
  exact hkeeps.2.2.2

def heard (b : NetBridge) (n : ℕ) (bpdu : ConfigBpdu) : NetBridge :=
  (b.brRecordConfigInformation n bpdu).brConfigurationUpdate.brPortStateSelection.yieldRoot b.brIsRootBridge

theorem heard_keeps (n : ℕ) (bpdu : ConfigBpdu) : (b.brRecordConfigInformation n bpdu).Keeps IsTcn (b.heard n bpdu) :=
  (brPortStateSelection_keeps (b := (b.brRecordConfigInformation n bpdu).brConfigurationUpdate)).trans
    (yieldRoot_keeps _)

theorem heard_sound {bpdu : ConfigBpdu} (hpos : 0 ∉ b.portList) : (b.heard n bpdu).toRoles.Sound := by
  have hbecomes := (reselect_becomes (b := b.brRecordConfigInformation n bpdu)).sends
    (yieldRoot_sends b.brIsRootBridge)
  have hsound : ((b.brRecordConfigInformation n bpdu).toRoles.reselect b.stpEnabled).Sound :=
    Roles.sound_reselect (by exact hpos) _
  exact hbecomes.toRoles.symm ▸ hsound

theorem brReceivedConfigBpdu_age {bpdu : ConfigBpdu} (hpos : 0 ∉ b.portList)
    (hsup : b.brSupersedesPortInfo (b.port n) bpdu = true) (hn : n ≠ 0)
    (hroot : (b.brReceivedConfigBpdu n bpdu).rootPort = n) :
    ∃ new, (b.brReceivedConfigBpdu n bpdu).sent = b.sent ++ new ∧ ∀ f ∈ new, IsTcn f.2 ∨
      TellsAge (relayedAge b.times.maxAge bpdu) bpdu.maxAge f.2 := by
  have hdef : b.brReceivedConfigBpdu n bpdu = (b.heard n bpdu).followRoot n bpdu := if_pos hsup
  have hkeeps := heard_keeps (b := b) n bpdu
  have hheard : (b.heard n bpdu).rootPort = n := by
    rwa [hdef, (followRoot_sends (b := b.heard n bpdu) n bpdu).toRoles] at hroot
  have hnot : (b.heard n bpdu).brIsRootBridge = false := by
    rw [← Bool.not_eq_true, (heard_sound hpos).brIsRootBridge_iff, hheard]
    exact hn
  have hexpires : ((b.heard n bpdu).work n).messageAgeTimer.expires =
      b.jiffies + (b.times.maxAge - bpdu.messageAge) := by
    rw [hkeeps.2.2.1 n]
    exact congrArg (fun w => w.messageAgeTimer.expires) (setWork_work_self _)
  have hjiffies : (b.heard n bpdu).jiffies = b.jiffies := hkeeps.1
  obtain ⟨tcns, htcns, htcn⟩ := hkeeps.2.2.2
  obtain ⟨configs, hconfigs, hage⟩ := followRoot_age bpdu hheard hnot
  rw [hexpires, hjiffies, BitVec.add_comm b.jiffies, BitVec.add_sub_cancel] at hage
  refine ⟨tcns ++ configs, ?_, List.forall_mem_append.mpr
    ⟨fun f hf => Or.inl (htcn f hf), fun f hf => Or.inr (hage f hf)⟩⟩
  rw [hdef, hconfigs, htcns, List.append_assoc]
  rfl

/-- A bridge hears the message `frame` at its root port and passes it on as `frame'`, while the clock stands still. -/
def Relays (frame frame' : List UInt8) : Prop :=
  ∃ jiffies b b' n m bpdu new, Reachable jiffies b ∧ readBpdu frame = some (.config bpdu) ∧
    b.brSupersedesPortInfo (b.port n) bpdu = true ∧ bpdu.maxAge = b.times.maxAge ∧
    b.step (.receive n frame) = some b' ∧ b'.rootPort = n ∧
    b'.sent = b.sent ++ new ∧ (m, frame') ∈ new ∧ ¬IsTcn frame'

theorem relayedAge_self {bpdu : ConfigBpdu} : relayedAge bpdu.maxAge bpdu = bpdu.messageAge + 1 := by
  rw [relayedAge, messageAgeIncr]
  bv_omega

end NetBridge

theorem brGetTicks_lt (c d : UInt8) : (brGetTicks c d).toNat < 25600 := by
  have hword (c : UInt8) : (word c).toNat < 256 := by
    rw [word, BitVec.toNat_setWidth]
    exact Nat.lt_of_le_of_lt (Nat.mod_le _ _) c.toBitVec.isLt
  have hhigh : (word c <<< 8).toNat < 2 ^ 16 := by
    have := hword c
    rw [BitVec.toNat_shiftLeft, Nat.shiftLeft_eq]
    omega
  have hticks : (word c <<< 8 ||| word d).toNat < 2 ^ 16 := by
    rw [BitVec.toNat_or]
    exact Nat.or_lt_two_pow hhigh (Nat.lt_trans (hword d) (by decide))
  rw [brGetTicks, ticksToJiffies, BitVec.toNat_ushiftRight, BitVec.toNat_mul, hz_toNat, Nat.shiftRight_eq_div_pow,
    Nat.mod_eq_of_lt (by omega)]
  omega

theorem readBpdu_lt {frame : List UInt8} {bpdu : ConfigBpdu} (h : readBpdu frame = some (.config bpdu)) :
    bpdu.messageAge.toNat < 25600 ∧ bpdu.maxAge.toNat < 25600 := by
  rw [readBpdu] at h
  dsimp only at h
  split_ifs at h
  · rw [← Bpdu.config.inj (Option.some.inj h)]
    exact ⟨brGetTicks_lt _ _, brGetTicks_lt _ _⟩
  · cases Option.some.inj h

namespace NetBridge

theorem Relays.age {frame frame' : List UInt8} (h : Relays frame frame') {bpdu : ConfigBpdu}
    (hbpdu : readBpdu frame = some (.config bpdu)) : ∃ bpdu', readBpdu frame' = some (.config bpdu') ∧
      bpdu'.messageAge.toNat =
        if 25 ∣ bpdu.messageAge.toNat + 1 then bpdu.messageAge.toNat + 1 else bpdu.messageAge.toNat := by
  obtain ⟨jiffies, b, b', n, m, bpdu₁, new, hreach, hbpdu₁, hsup, hmax, hstep, hroot, hnew, hmem, htcn⟩ := h
  obtain rfl : bpdu₁ = bpdu := by simpa [hbpdu₁] using hbpdu
  obtain ⟨hn, rfl⟩ := onPort_eq_some (step_eq_some hstep).2
  have hpos := hreach.sound.pos
  -- a frame is sent, so the bridge is up and the message is not dropped
  have hhandle : b.brStpHandleBpdu n frame = b.brReceivedConfigBpdu n bpdu₁ := by
    rw [brStpHandleBpdu, hbpdu₁] at hnew ⊢
    split_ifs at hnew ⊢ with hdrop
    · rw [List.self_eq_append_right.mp hnew] at hmem
      exact absurd hmem List.not_mem_nil
    · rfl
  rw [hhandle] at hnew hroot
  obtain ⟨new', hnew', hage'⟩ := brReceivedConfigBpdu_age hpos hsup (fun h => hpos (h ▸ hn)) hroot
  obtain rfl : new = new' := List.append_cancel_left (hnew.symm.trans hnew')
  obtain ⟨hlt, bpdu', hbpdu', hage, -⟩ := (hage' _ hmem).resolve_left htcn
  refine ⟨bpdu', hbpdu', ?_⟩
  rw [← hmax, relayedAge_self] at hage hlt
  obtain ⟨hageLt, hmaxLt⟩ := readBpdu_lt hbpdu₁
  have hone : (bpdu₁.messageAge + 1).toNat = bpdu₁.messageAge.toNat + 1 := by
    rw [BitVec.toNat_add_of_lt]
    · rfl
    · change bpdu₁.messageAge.toNat + 1 < 2 ^ 32
      omega
  rw [hage, received_toNat (by rw [BitVec.lt_def] at hlt; omega), hone]
  split_ifs <;> omega

/-- However many bridges pass a message on before the clock moves, it gets at most one jiffy older on its way. -/
theorem relays_age {frame frame' : List UInt8} (h : ReflTransGen Relays frame frame') {bpdu bpdu' : ConfigBpdu}
    (hbpdu : readBpdu frame = some (.config bpdu)) (hbpdu' : readBpdu frame' = some (.config bpdu')) :
    bpdu.messageAge.toNat ≤ bpdu'.messageAge.toNat ∧ bpdu'.messageAge.toNat ≤ bpdu.messageAge.toNat + 1 := by
  have hages : ∀ frame', ReflTransGen Relays frame frame' → ∃ bpdu', readBpdu frame' = some (.config bpdu') ∧
      (bpdu'.messageAge.toNat = bpdu.messageAge.toNat ∨
        25 ∣ bpdu.messageAge.toNat + 1 ∧ bpdu'.messageAge.toNat = bpdu.messageAge.toNat + 1) := by
    intro frame' h
    induction h with
    | refl => exact ⟨bpdu, hbpdu, Or.inl rfl⟩
    | tail _ hrelay ih =>
      obtain ⟨bpdu₁, hbpdu₁, hage⟩ := ih
      obtain ⟨bpdu₂, hbpdu₂, hage₂⟩ := hrelay.age hbpdu₁
      refine ⟨bpdu₂, hbpdu₂, ?_⟩
      split_ifs at hage₂ <;> omega
  obtain ⟨bpdu₁, hbpdu₁, hage⟩ := hages frame' h
  obtain rfl : bpdu₁ = bpdu' := by simpa [hbpdu₁] using hbpdu'
  omega

def hopBpdu (k : ℕ) : ConfigBpdu :=
  let root : BridgeId := ⟨fun _ => 2, fun _ => 0⟩
  if k = 0 then plainBpdu root root 0
  else
    { plainBpdu root ⟨Roles.priorityBytes 0x8000, fun _ => UInt8.ofNat k⟩ (brMakePortId 0x20 2) with
      rootPathCost := 100 * BitVec.ofNat 32 k
      messageAge := 1 }

def hopFrame (k : ℕ) : List UInt8 := brSendBpdu (fun _ => UInt8.ofNat (100 + k)) (hopBpdu k).buf

def hopEvents (k : ℕ) : List Event :=
  [.addIf (fun _ => UInt8.ofNat k) 100, .addIf (fun _ => UInt8.ofNat (100 + k)) 100, .setStpState true,
    .devOpen fun _ => true]

theorem hop_relays : ∀ k ∈ [0, 1], Relays (hopFrame k) (hopFrame (k + 1)) := by
  intro k hk
  have hcheck : ∀ k ∈ [0, 1], (exec step (newBridgeDev 0) (hopEvents (k + 1))).any (fun b =>
      b.brSupersedesPortInfo (b.port 1) (hopBpdu k).inFrame ∧ (hopBpdu k).inFrame.maxAge = b.times.maxAge ∧
      b.sent = [] ∧ (b.step (.receive 1 (hopFrame k))).any fun b' =>
        b'.rootPort = 1 ∧ (2, hopFrame (k + 1)) ∈ b'.sent) = true := by
    decide +kernel
  obtain ⟨b, hreach, hb⟩ := exists_reachable _ _ (hcheck k hk)
  obtain ⟨hsup, hmax, hsent, hany⟩ := of_decide_eq_true hb
  cases hstep : b.step (.receive 1 (hopFrame k)) with
  | none =>
    rw [hstep] at hany
    cases hany
  | some b' =>
    rw [hstep] at hany
    obtain ⟨hroot, hmem⟩ := of_decide_eq_true hany
    refine ⟨0, b, b', 1, 2, (hopBpdu k).inFrame, b'.sent, hreach, readBpdu_config .., hsup, hmax, hstep, hroot, ?_, hmem,
      by rw [IsTcn, hopFrame, readBpdu_config]; nofun⟩
    rw [hsent, List.nil_append]

theorem relays_age_two_hops : ReflTransGen Relays (hopFrame 0) (hopFrame 2) ∧
    (hopBpdu 2).inFrame.rootPathCost = (hopBpdu 0).inFrame.rootPathCost + 200 ∧
    (hopBpdu 2).inFrame.messageAge.toNat ≤ (hopBpdu 0).inFrame.messageAge.toNat + 1 := by
  have hrelays : ReflTransGen Relays (hopFrame 0) (hopFrame 2) :=
    .tail (.single (hop_relays 0 (by decide))) (hop_relays 1 (by decide))
  exact ⟨hrelays, by decide, (relays_age hrelays (readBpdu_config ..) (readBpdu_config ..)).2⟩

end NetBridge

end Wap610n.Stp
