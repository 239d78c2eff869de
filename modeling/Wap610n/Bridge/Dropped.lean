import Wap610n.Bridge.Copies

namespace Wap610n.Bridge

def Action.delivers : Action → Bool
  | .forward _ _ => true
  | .passUp _ => true
  | _ => false

def Dropped (acts : List Action) : Prop := ∀ a ∈ acts, a.delivers = false

namespace NetBridge

def floodTargets (b : NetBridge) : List Port := b.ports.filter (shouldDeliver eth0)

def FloodsNothing (b : NetBridge) (clone : ℕ → Bool) : Prop :=
  b.floodTargets = [] ∨ 2 ≤ b.floodTargets.length ∧ clone (if b.promisc then 1 else 0) = false

def Swallowed (b : NetBridge) (f : Frame) (clone : ℕ → Bool) : Prop :=
  (b.promisc = true → clone 0 = false) ∧
    if isMulticastEtherAddr f.dest then
      isBroadcastEtherAddr f.dest = false ∧ isUpnpEtherAddr f.dest = false ∧ b.FloodsNothing clone
    else
      match b.brFdbGet f.dest with
      | some fdb => fdb.isLocal = false ∧ ¬(fdb.dst ≠ eth0 ∧ b.state fdb.dst = some .forwarding)
      | none => b.FloodsNothing clone

section Dropping

variable {b : NetBridge} {f : Frame} {clone : ℕ → Bool} {alloc : Bool}

theorem dropped_append {x y : List Action} : Dropped (x ++ y) ↔ Dropped x ∧ Dropped y := List.forall_mem_append

theorem dropped_free (buf : ℕ) : Dropped [.kfree buf] := by
  intro a ha
  rw [List.mem_singleton.mp ha]
  rfl

theorem not_dropped {a : Action} {acts : List Action} (h : a ∈ acts) (ha : a.delivers = true) : ¬Dropped acts := by
  intro hd
  rw [hd a h] at ha
  cases ha

theorem dropped_floodOver (skb n : ℕ) (ports : List Port) :
    Dropped (floodOver clone skb n ports) ↔ ports = [] ∨ 2 ≤ ports.length ∧ clone n = false := by
  cases ports with
  | nil => exact iff_of_true (dropped_free skb) (Or.inl rfl)
  | cons p ports =>
    cases ports with
    | nil => exact iff_of_false (not_dropped List.mem_cons_self rfl) (by simp)
    | cons q ports =>
      rw [floodOver]
      by_cases h : clone n = true
      · rw [if_pos h]
        exact iff_of_false (not_dropped List.mem_cons_self rfl) (by simp [h])
      · rw [if_neg h]
        exact iff_of_true (dropped_free skb) (Or.inr ⟨by simp, Bool.eq_false_iff.mpr h⟩)

theorem dropped_flood (n : ℕ) : Dropped (brFlood clone eth0 n 0 b.ports false) ↔
    b.floodTargets = [] ∨ 2 ≤ b.floodTargets.length ∧ clone n = false := by
  rw [brFlood, if_neg Bool.false_ne_true, floodLoop_eq, Option.toList_none, List.nil_append]
  exact dropped_floodOver 0 n b.floodTargets

theorem dropped_brForward (dst : List UInt8) :
    Dropped (b.brForward eth0 dst 0) ↔ ¬(dst ≠ eth0 ∧ b.state dst = some .forwarding) := by
  unfold brForward state
  cases hp : b.port dst with
  | none => exact iff_of_true (dropped_free 0) (by simp)
  | some p =>
    have hdev : p.dev = dst := by simpa using List.find?_some hp
    dsimp only
    by_cases h : shouldDeliver eth0 p = true
    · have hd := of_decide_eq_true h
      rw [if_pos h]
      refine iff_of_false (not_dropped List.mem_cons_self rfl) ?_
      rw [not_not, ← hdev, Option.map_some, hd.2]
      exact ⟨hd.1, rfl⟩
    · rw [if_neg h]
      refine iff_of_true (dropped_free 0) ?_
      rintro ⟨hne, hstate⟩
      exact h (decide_eq_true ⟨hdev ▸ hne, Option.some.inj hstate⟩)

theorem dropped_relay (b : NetBridge) (f : Frame) (clone : ℕ → Bool) :
    Dropped (b.relay eth0 f clone) ↔ b.Swallowed f clone := by
  have hup : Dropped (if (b.promisc && clone 0) = true then [.passUp 1] else []) ↔
      (b.promisc = true → clone 0 = false) := by
    cases b.promisc <;> cases clone 0 <;> simp [Dropped, Action.delivers]
  unfold relay Swallowed
  dsimp only
  rw [dropped_append, hup]
  apply and_congr_right
  intro hclone
  have hfirst : (b.promisc && clone 0) = false := by
    rw [Bool.and_eq_false_imp]
    exact hclone
  rw [hfirst, Bool.false_or]
  by_cases hm : isMulticastEtherAddr f.dest = true
  · rw [if_pos hm, if_pos hm]
    cases hg : isBroadcastEtherAddr f.dest || isUpnpEtherAddr f.dest with
    | true =>
      have hlast : Action.passUp 0 ∈ brFlood clone eth0 (if b.promisc then 1 else 0) 0 b.ports (!!true) ++
        if (!true) = true then [] else [.passUp 0] := List.mem_append_right _ List.mem_cons_self
      refine iff_of_false (not_dropped hlast rfl) ?_
      rintro ⟨hb, hu, -⟩
      rw [hb, hu] at hg
      cases hg
    | false =>
      obtain ⟨hb, hu⟩ := Bool.or_eq_false_iff.mp hg
      rw [Bool.not_false, if_pos rfl, List.append_nil, Bool.not_true, dropped_flood, and_iff_right hb, and_iff_right hu]
      exact Iff.rfl
  · rw [if_neg hm, if_neg hm]
    cases b.brFdbGet f.dest with
    | none => exact dropped_flood _
    | some fdb =>
      dsimp only
      cases fdb.isLocal with
      | true => exact iff_of_false (not_dropped List.mem_cons_self rfl) (by simp)
      | false =>
        rw [if_neg Bool.false_ne_true, dropped_brForward]
        simp

theorem floodTargets_setState (b : NetBridge) (state : PortState) :
    (b.setState eth0 state).floodTargets = b.floodTargets := by
  unfold floodTargets setState
  dsimp only
  induction b.ports with
  | nil => rfl
  | cons p ports ih =>
    rw [List.map_cons, List.filter_cons, List.filter_cons, ih]
    by_cases hp : p.dev = eth0
    · rw [if_pos hp, if_neg (by simp [shouldDeliver, hp]), if_neg (by simp [shouldDeliver, hp])]
    · rw [if_neg hp]

theorem swallowed_setState (b : NetBridge) (state : PortState) (f : Frame) (clone : ℕ → Bool) :
    (b.setState eth0 state).Swallowed f clone ↔ b.Swallowed f clone := by
  have hget : (b.setState eth0 state).brFdbGet f.dest = b.brFdbGet f.dest := rfl
  have hpromisc : (b.setState eth0 state).promisc = b.promisc := rfl
  have hstate : ∀ dst, (dst ≠ eth0 ∧ (b.setState eth0 state).state dst = some .forwarding) ↔
      (dst ≠ eth0 ∧ b.state dst = some .forwarding) := by
    intro dst
    apply and_congr_right
    intro hne
    rw [state_setState_of_ne hne]
  unfold Swallowed FloodsNothing
  rw [hget, hpromisc, floodTargets_setState]
  simp only [hstate]

end Dropping

end NetBridge

end Wap610n.Bridge
