import Wap610n.Bridge.Input

namespace Wap610n.Bridge

def Action.buf : Action → ℕ
  | .forward _ buf => buf
  | .passUp buf => buf
  | .handleBpdu buf => buf
  | .kfree buf => buf

def Action.target : Action → Option (List UInt8)
  | .forward dev _ => some dev
  | _ => none

def Action.isPassUp : Action → Bool
  | .passUp _ => true
  | _ => false

def floodOver (clone : ℕ → Bool) (skb : ℕ) : ℕ → List Port → List Action
  | _, [] => [.kfree skb]
  | _, [p] => [.forward p.dev skb]
  | n, p :: q :: ports =>
    if clone n then .forward p.dev (n + 1) :: floodOver clone skb (n + 1) (q :: ports) else [.kfree skb]

section Flood

variable (clone : ℕ → Bool) (indev : List UInt8) (skb : ℕ)

theorem floodLoop_eq (n : ℕ) (prev : Option Port) (ports : List Port) :
    floodLoop clone indev skb n prev ports =
      floodOver clone skb n (prev.toList ++ ports.filter (shouldDeliver indev)) := by
  induction ports generalizing n prev with
  | nil =>
    cases prev with
    | none => rfl
    | some prev => rfl
  | cons p ports ih =>
    rw [List.filter_cons]
    cases prev with
    | none =>
      rw [floodLoop]
      split_ifs
      · exact ih n (some p)
      · exact ih n none
    | some prev =>
      rw [floodLoop]
      split_ifs with _ hclone
      · rw [ih (n + 1) (some p), Option.toList_some, List.singleton_append, Option.toList_some, List.singleton_append,
          floodOver, if_pos hclone]
      · rw [Option.toList_some, List.singleton_append, floodOver, if_neg hclone]
      · exact ih n (some prev)

variable {skb}

theorem floodOver_targets (n : ℕ) (ports : List Port) :
    (floodOver clone skb n ports).filterMap Action.target <+: ports.map Port.dev := by
  induction ports generalizing n with
  | nil => exact List.prefix_rfl
  | cons p ports ih =>
    cases ports with
    | nil => exact List.prefix_rfl
    | cons q ports =>
      rw [floodOver]
      split_ifs
      · exact List.cons_prefix_cons.mpr ⟨rfl, ih (n + 1)⟩
      · exact List.nil_prefix

theorem floodOver_bufs {n buf : ℕ} (h : buf ≤ n) (ports : List Port) :
    ((floodOver clone skb n ports).map Action.buf).count buf = [skb].count buf := by
  induction ports generalizing n with
  | nil => rfl
  | cons p ports ih =>
    cases ports with
    | nil => rfl
    | cons q ports =>
      rw [floodOver]
      split_ifs
      · have hne : n + 1 ≠ buf := by omega
        exact (List.count_cons_of_ne hne).trans (ih (by omega))
      · rfl

theorem floodOver_passUps (n : ℕ) (ports : List Port) :
    (floodOver clone skb n ports).countP Action.isPassUp = 0 := by
  induction ports generalizing n with
  | nil => rfl
  | cons p ports ih =>
    cases ports with
    | nil => rfl
    | cons q ports =>
      rw [floodOver]
      split_ifs
      · rw [List.countP_cons_of_neg Bool.false_ne_true, ih (n + 1)]
      · rfl

end Flood

namespace NetBridge

variable {b : NetBridge} {indev : List UInt8} {f : Frame} {clone : ℕ → Bool} {alloc : Bool}

theorem state_of_mem {p : Port} (h : p ∈ b.ports) : b.state p.dev = some p.state := by
  unfold state port
  obtain ⟨q, hq⟩ : ∃ q, b.ports.find? (fun q => q.dev = p.dev) = some q := by
    rw [← Option.isSome_iff_exists, List.find?_isSome]
    exact ⟨p, h, decide_eq_true rfl⟩
  have hdev : q.dev = p.dev := by simpa using List.find?_some hq
  obtain rfl : q = p := List.inj_on_of_nodup_map b.nodup (List.mem_of_find?_eq_some hq) h hdev
  rw [hq]
  rfl

theorem state_setState_of_ne {dev dev' : List UInt8} (h : dev' ≠ dev) (state : PortState) :
    (b.setState dev state).state dev' = b.state dev' := by
  unfold NetBridge.state port setState
  dsimp only
  induction b.ports with
  | nil => rfl
  | cons p ports ih =>
    rw [List.map_cons, List.find?_cons, List.find?_cons]
    by_cases hp : p.dev = dev
    · rw [if_pos hp]
      dsimp only
      rw [decide_eq_false fun heq => h (heq.symm.trans hp)]
      exact ih
    · rw [if_neg hp]
      cases decide (p.dev = dev') with
      | true => rfl
      | false => exact ih

theorem brMakeBlocking_cases (b : NetBridge) (dev : List UInt8) : b.brMakeBlocking dev = b ∨
    ∃ change detected, b.brMakeBlocking dev =
      { b with topologyChange := change, topologyChangeDetected := detected }.setState dev .blocking := by
  unfold brMakeBlocking
  split
  · exact Or.inl rfl
  · exact Or.inl rfl
  · exact Or.inl rfl
  · exact Or.inr ⟨_, _, rfl⟩
  · exact Or.inr ⟨_, _, rfl⟩
  · exact Or.inr ⟨_, _, rfl⟩

theorem brFdbUpdate_cases (b : NetBridge) (source : List UInt8) (addr : EthAddr) (alloc : Bool) :
    b.brFdbUpdate source addr alloc = b.brMakeBlocking source ∨
      ∃ fdb, b.brFdbUpdate source addr alloc = { b with fdb := fdb } := by
  unfold brFdbUpdate
  split
  · exact Or.inr ⟨_, rfl⟩
  split
  · split
    · split
      · exact Or.inl rfl
      · exact Or.inr ⟨_, rfl⟩
    · exact Or.inr ⟨_, rfl⟩
  · split
    · exact Or.inr ⟨_, rfl⟩
    · exact Or.inr ⟨_, rfl⟩

theorem brFdbUpdate_keeps (b : NetBridge) (source : List UInt8) (addr : EthAddr) (alloc : Bool) :
    (∀ dev ≠ source, (b.brFdbUpdate source addr alloc).state dev = b.state dev) ∧
      (b.brFdbUpdate source addr alloc).promisc = b.promisc := by
  rcases b.brFdbUpdate_cases source addr alloc with h | ⟨fdb, h⟩
  · rcases b.brMakeBlocking_cases source with hb | ⟨change, detected, hb⟩
    · rw [h, hb]
      exact ⟨fun _ _ => rfl, rfl⟩
    · rw [h, hb]
      exact ⟨fun _ hne => state_setState_of_ne hne _, rfl⟩
  · rw [h]
    exact ⟨fun _ _ => rfl, rfl⟩

structure Copied (b : NetBridge) (indev : List UInt8) (k : ℕ) (acts : List Action) : Prop where
  received : (acts.map Action.buf).count 0 = k
  copies : (acts.filterMap Action.target).Nodup
  eligible : ∀ dev ∈ acts.filterMap Action.target, dev ≠ indev ∧ b.state dev = some .forwarding
  passUps : acts.countP Action.isPassUp = 0

theorem eligible_of_shouldDeliver {p : Port} (hp : p ∈ b.ports) (h : shouldDeliver indev p = true) :
    p.dev ≠ indev ∧ b.state p.dev = some .forwarding := by
  obtain ⟨hdev, hstate⟩ := of_decide_eq_true h
  exact ⟨hdev, by rw [state_of_mem hp, hstate]⟩

theorem copied_floodLoop (skb n : ℕ) :
    b.Copied indev ([skb].count 0) (floodLoop clone indev skb n none b.ports) := by
  have htargets : (floodOver clone skb n (b.ports.filter (shouldDeliver indev))).filterMap Action.target <+: _ :=
    floodOver_targets clone n _
  have hsub : ((b.ports.filter (shouldDeliver indev)).map Port.dev).Sublist (b.ports.map Port.dev) :=
    List.filter_sublist.map _
  rw [floodLoop_eq, Option.toList_none, List.nil_append]
  refine ⟨floodOver_bufs clone (Nat.zero_le n) _, b.nodup.sublist (htargets.sublist.trans hsub), ?_,
    floodOver_passUps clone n _⟩
  intro dev hdev
  obtain ⟨p, hp, rfl⟩ := List.mem_map.mp (htargets.subset hdev)
  obtain ⟨hmem, hdeliver⟩ := List.mem_filter.mp hp
  exact eligible_of_shouldDeliver hmem hdeliver

theorem copied_free : b.Copied indev 1 [.kfree 0] :=
  ⟨rfl, List.nodup_nil, fun _ hdev => absurd hdev List.not_mem_nil, rfl⟩

theorem copied_brFlood (n : ℕ) (copy : Bool) :
    b.Copied indev (if copy then 0 else 1) (brFlood clone indev n 0 b.ports copy) := by
  unfold brFlood
  cases copy with
  | true =>
    rw [if_pos rfl, if_pos rfl]
    split_ifs
    · exact copied_floodLoop (n + 1) (n + 1)
    · exact ⟨rfl, List.nodup_nil, fun _ hdev => absurd hdev List.not_mem_nil, rfl⟩
  | false => exact copied_floodLoop 0 n

theorem copied_brForward (dst : List UInt8) : b.Copied indev 1 (b.brForward indev dst 0) := by
  unfold brForward
  split
  · rename_i p hport
    split_ifs with hdeliver
    · have hp : p ∈ b.ports := List.mem_of_find?_eq_some hport
      have hdev : p.dev = dst := by simpa using List.find?_some hport
      refine ⟨rfl, List.nodup_singleton _, ?_, rfl⟩
      intro dev hmem
      rw [List.mem_singleton.mp hmem, ← hdev]
      exact eligible_of_shouldDeliver hp hdeliver
    · exact copied_free
  · exact copied_free

end NetBridge

end Wap610n.Bridge
