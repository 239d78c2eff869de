import Wap610n.Bridge.Copies

namespace Wap610n.Bridge.NetBridge

variable {b : NetBridge} {indev : List UInt8} {f : Frame}

structure Relayed (b : NetBridge) (indev : List UInt8) (f : Frame) (acts : List Action) : Prop where
  received : (acts.map Action.buf).count 0 = 1
  copies : ∀ dev, (acts.filterMap Action.target).count dev ≤ 1
  eligible : ∀ dev ∈ acts.filterMap Action.target, dev ≠ indev ∧ b.state dev = some .forwarding
  passUps : acts.countP Action.isPassUp ≤ 1
  restricted : isMulticastEtherAddr f.dest = true → isBroadcastEtherAddr f.dest = false →
    isUpnpEtherAddr f.dest = false → 0 < acts.countP Action.isPassUp → b.promisc = true

def upBefore (up : Bool) : List Action := if up then [.passUp 1] else []

def upAfter (last : Bool) : List Action := if last then [.passUp 0] else []

theorem Copied.relayed {k : ℕ} {acts : List Action} (h : b.Copied indev k acts) {up last : Bool}
    (hk : k + (if last then 1 else 0) = 1) (hone : up = false ∨ last = false)
    (hrestricted : isMulticastEtherAddr f.dest = true → isBroadcastEtherAddr f.dest = false →
      isUpnpEtherAddr f.dest = false → up = true ∨ last = true → b.promisc = true) :
    b.Relayed indev f (upBefore up ++ (acts ++ upAfter last)) := by
  have htargets : (upBefore up ++ (acts ++ upAfter last)).filterMap Action.target = acts.filterMap Action.target := by
    have hbefore : (upBefore up).filterMap Action.target = [] := by cases up <;> rfl
    have hafter : (upAfter last).filterMap Action.target = [] := by cases last <;> rfl
    rw [List.filterMap_append, List.filterMap_append, hbefore, hafter, List.nil_append, List.append_nil]
  have hpass : (upBefore up ++ (acts ++ upAfter last)).countP Action.isPassUp =
      (if up then 1 else 0) + if last then 1 else 0 := by
    rw [List.countP_append, List.countP_append, h.passUps]
    cases up <;> cases last <;> rfl
  refine ⟨?_, ?_, ?_, ?_, ?_⟩
  · rw [List.map_append, List.map_append, List.count_append, List.count_append, h.received, ← hk]
    cases up <;> cases last <;> simp [upBefore, upAfter, Action.buf]
  · rw [htargets]
    exact List.nodup_iff_count_le_one.mp h.copies
  · rw [htargets]
    exact h.eligible
  · rw [hpass]
    rcases hone with rfl | rfl
    · cases last <;> decide
    · cases up <;> decide
  · intro hm hb hu hpos
    apply hrestricted hm hb hu
    rw [hpass] at hpos
    cases up with
    | true => exact Or.inl rfl
    | false =>
      cases last with
      | true => exact Or.inr rfl
      | false => exact absurd hpos (by decide)

theorem Copied.relayed_all {acts : List Action} (h : b.Copied indev 1 acts) {up : Bool}
    (hup : up = true → b.promisc = true) : b.Relayed indev f (upBefore up ++ acts) := by
  have hall : b.Relayed indev f (upBefore up ++ (acts ++ upAfter false)) :=
    h.relayed rfl (Or.inr rfl) fun _ _ _ hor => hup (hor.resolve_right Bool.false_ne_true)
  rwa [upAfter, if_neg Bool.false_ne_true, List.append_nil] at hall

theorem relayed_relay (b : NetBridge) (indev : List UInt8) (f : Frame) (clone : ℕ → Bool) :
    b.Relayed indev f (b.relay indev f clone) := by
  have hup : (b.promisc && clone 0) = true → b.promisc = true := fun h => (Bool.and_eq_true_iff.mp h).1
  unfold relay
  dsimp only
  generalize (b.promisc && clone 0) = up at hup
  generalize (if b.promisc then 1 else 0) = n
  change b.Relayed indev f (upBefore up ++ _)
  by_cases hm : isMulticastEtherAddr f.dest = true
  · have hlast : ∀ passedup : Bool, (if passedup then [] else [Action.passUp 0]) = upAfter (!passedup) := by
      intro passedup
      cases passedup <;> rfl
    rw [if_pos hm, hlast]
    apply (copied_brFlood n _).relayed
    · cases up || !(isBroadcastEtherAddr f.dest || isUpnpEtherAddr f.dest) <;> rfl
    · cases up with
      | true => exact Or.inr rfl
      | false => exact Or.inl rfl
    · intro _ hb hu hor
      apply hup
      rcases hor with h | h
      · exact h
      · rw [hb, hu] at h
        cases up <;> cases h
  · rw [if_neg hm]
    cases b.brFdbGet f.dest with
    | none => exact (copied_brFlood n false).relayed_all hup
    | some dst =>
      dsimp only
      split
      swap
      · exact (copied_brForward dst.dst).relayed_all hup
      cases up with
      | true => exact copied_free.relayed_all hup
      | false =>
        have hnone : b.Copied indev 0 [] := ⟨rfl, List.nodup_nil, fun _ h => absurd h List.not_mem_nil, rfl⟩
        have hall : b.Relayed indev f (upBefore false ++ ([] ++ upAfter true)) :=
          hnone.relayed rfl (Or.inl rfl) fun h => absurd h hm
        exact hall

theorem brHandleFrameFinish_relayed (b : NetBridge) (indev : List UInt8) (f : Frame) (clone : ℕ → Bool)
    (alloc : Bool) : b.Relayed indev f (b.brHandleFrameFinish indev f clone alloc).2 := by
  have hfree : b.Relayed indev f (upBefore false ++ [.kfree 0]) :=
    copied_free.relayed_all fun h => absurd h Bool.false_ne_true
  unfold brHandleFrameFinish
  split
  · exact hfree
  · exact hfree
  dsimp only
  split
  · exact hfree
  have h := relayed_relay (b.brFdbUpdate indev f.source alloc) indev f clone
  obtain ⟨hstate, hpromisc⟩ := b.brFdbUpdate_keeps indev f.source alloc
  refine ⟨h.received, h.copies, ?_, h.passUps, ?_⟩
  · intro dev hdev
    obtain ⟨hne, hforward⟩ := h.eligible dev hdev
    exact ⟨hne, (hstate dev hne).symm.trans hforward⟩
  · intro hm hb hu hpos
    exact hpromisc.symm.trans (h.restricted hm hb hu hpos)

end Wap610n.Bridge.NetBridge
