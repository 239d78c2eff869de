import Wap610n.Gsw.ReceiveRing

namespace Wap610n.Gsw.Rx

open RingBuffer Transition

variable {s s' : Rx}

theorem Slots.handOver (h : s.Slots) (frame : List UInt8) : (s.handOver frame).Slots := by
  refine ⟨fun i hi => ?_, h.live, h.notUp, h.inj⟩
  unfold Rx.handOver
  dsimp only
  split_ifs
  · exact h.data i hi
  · exact h.data i hi

theorem Inv.storeFssd (h : s.Inv) (hfree : (s.rxdesc s.hwIndex).cown = false) (frame : List UInt8) (fssd : ℕ) :
    ({ s.writeFrame frame with fssd := fssd, store := .fssdFirst frame } : Rx).Inv := by
  obtain ⟨hframes, hmem⟩ := h.writeFrame hfree frame
  refine ⟨⟨h.slots.data, h.slots.live, h.slots.notUp, h.slots.inj⟩, h.upLive, ?_, ?_⟩
  · exact ⟨hframes.cur, hframes.hw, hframes.le, hframes.cap, hframes.own, hframes.took, hframes.content⟩
  · rintro f ⟨⟩
    exact ⟨hfree, hmem⟩

theorem Inv.storeCown (h : s.Inv) (hfree : (s.rxdesc s.hwIndex).cown = false) (frame : List UInt8) :
    ({ (s.writeFrame frame).handOver frame with store := .cownFirst } : Rx).Inv := by
  obtain ⟨hframes, hmem⟩ := h.writeFrame hfree frame
  have hslots : (s.writeFrame frame).Slots := ⟨h.slots.data, h.slots.live, h.slots.notUp, h.slots.inj⟩
  have hs := hslots.handOver frame
  have hf := hframes.handOver hfree hmem
  refine ⟨⟨hs.data, hs.live, hs.notUp, hs.inj⟩, h.upLive, ?_, ?_⟩
  · exact ⟨hf.cur, hf.hw, hf.le, hf.cap, hf.own, hf.took, hf.content⟩
  · rintro f ⟨⟩

theorem Inv.finish (h : s.Inv) {frame : List UInt8} (hst : s.store = .fssdFirst frame) :
    ({ s.handOver frame with store := .idle } : Rx).Inv := by
  obtain ⟨hfree, hmem⟩ := h.half frame hst
  have hs := h.slots.handOver frame
  have hf := h.frames.handOver hfree hmem
  refine ⟨⟨hs.data, hs.live, hs.notUp, hs.inj⟩, h.upLive, ?_, ?_⟩
  · exact ⟨hf.cur, hf.hw, hf.le, hf.cap, hf.own, hf.took, hf.content⟩
  · rintro f ⟨⟩

theorem Inv.idle (h : s.Inv) (fssd : ℕ) : ({ s with fssd := fssd, store := .idle } : Rx).Inv := by
  refine ⟨⟨h.slots.data, h.slots.live, h.slots.notUp, h.slots.inj⟩, h.upLive, ?_, ?_⟩
  · exact ⟨h.frames.cur, h.frames.hw, h.frames.le, h.frames.cap, h.frames.own, h.frames.took, h.frames.content⟩
  · rintro f ⟨⟩

theorem Inv.receive (h : s.Inv) (r : Receive) : ({ s with receive := r } : Rx).Inv := by
  refine ⟨⟨h.slots.data, h.slots.live, h.slots.notUp, h.slots.inj⟩, h.upLive, ?_, h.half⟩
  exact ⟨h.frames.cur, h.frames.hw, h.frames.le, h.frames.cap, h.frames.own, h.frames.took, h.frames.content⟩

theorem Inv.free (h : s.Inv) {skb : ℕ} (hskb : skb ∈ s.up) :
    ({ s with up := s.up.erase skb, live := s.live.erase skb } : Rx).Inv := by
  refine ⟨⟨h.slots.data, fun i hi => ?_, fun i hi => ?_, h.slots.inj⟩, Finset.erase_subset_erase skb h.upLive, ?_, h.half⟩
  · exact Finset.mem_erase.mpr ⟨fun heq => h.slots.notUp i hi (heq ▸ hskb), h.slots.live i hi⟩
  · exact fun hmem => h.slots.notUp i hi (Finset.mem_of_mem_erase hmem)
  · exact ⟨h.frames.cur, h.frames.hw, h.frames.le, h.frames.cap, h.frames.own, h.frames.took, h.frames.content⟩

theorem Inv.write (h : s.Inv) {skb : ℕ} (hskb : skb ∈ s.up ∨ skb ∉ s.live) (bytes : List UInt8) :
    ({ s with mem := fun b => if b = skb then bytes else s.mem b } : Rx).Inv := by
  have hne : ∀ i < starGswMaxRfdNum, s.skbPtr i ≠ skb := by
    rintro i hi rfl
    exact hskb.elim (h.slots.notUp i hi) fun hl => hl (h.slots.live i hi)
  refine ⟨⟨h.slots.data, h.slots.live, h.slots.notUp, h.slots.inj⟩, h.upLive, ?_, fun f hf => ?_⟩
  · refine ⟨h.frames.cur, h.frames.hw, h.frames.le, h.frames.cap, h.frames.own, h.frames.took, fun k f hk hf => ?_⟩
    dsimp only
    rw [if_neg (hne _ (Nat.mod_lt _ maxRfdNum_pos))]
    exact h.frames.content k f hk hf
  · dsimp only
    rw [if_neg (hne _ h.frames.hw_lt)]
    exact h.half f hf

theorem Inv.pass {accepts : List UInt8 → Bool} {alloc : Option ℕ} (h : s.Inv) (he : s.pass accepts alloc = some s') :
    s'.Inv := by
  unfold Rx.pass at he
  split at he
  · split_ifs at he with hstop
    · exact Option.some.inj he ▸ h.receive _
    · push Not at hstop
      split at he
      · exact Option.some.inj he ▸ h.receive _
      · split_ifs at he with hlive
        exact Option.some.inj he ▸ (h.takeFrame (Bool.eq_true_of_not_eq_false hstop.2.2) hlive).receive _
  · exact absurd he (by simp)

theorem Inv.step {accepts : List UInt8 → Bool} {e : RxEvent} (h : s.Inv) (he : s.step accepts e = some s') :
    s'.Inv := by
  unfold Rx.step at he
  split at he
  · split at he
    · split_ifs at he with hfree
      exact Option.some.inj he ▸ h.storeFssd hfree _ _
    · exact absurd he (by simp)
  · split at he
    · split_ifs at he with hfree
      exact Option.some.inj he ▸ h.storeCown hfree _
    · exact absurd he (by simp)
  · split at he
    · exact Option.some.inj he ▸ h.finish ‹_›
    · exact Option.some.inj he ▸ h.idle _
    · exact absurd he (by simp)
  · split at he
    · exact Option.some.inj he ▸ h.receive _
    · exact absurd he (by simp)
  · exact h.pass he
  · split at he
    · exact Option.some.inj he ▸ h.receive _
    · exact absurd he (by simp)
  · split_ifs at he with hup
    exact Option.some.inj he ▸ h.free hup
  · split_ifs at he with hup
    exact Option.some.inj he ▸ h.write hup _

section Alloc

variable {phyAddr n : ℕ} {mem : ℕ → List UInt8} {alloc : ℕ → Option ℕ}

structure Filling (alloc : ℕ → Option ℕ) (n : ℕ) (s : Rx) : Prop where
  slot : ∀ i < n, alloc i = some (s.skbPtr i) ∧ (s.rxdesc i).dataPtr = s.skbPtr i ∧ s.skbPtr i ∈ s.live
  free : ∀ i, (s.rxdesc i).cown = false
  blank : s.up = ∅ ∧ s.stored = [] ∧ s.taken = [] ∧ s.curIndex = 0 ∧ s.hwIndex = 0 ∧ s.store = .idle ∧
    s.receive = .out

theorem filling_allocLoop (h : allocLoop phyAddr mem alloc n = some s) : Filling alloc n s := by
  induction n generalizing s with
  | zero =>
    cases h
    exact ⟨fun i hi => absurd hi (Nat.not_lt_zero i), fun _ => rfl, rfl, rfl, rfl, rfl, rfl, rfl, rfl⟩
  | succ n ih =>
    obtain ⟨t, ht, hrest⟩ := Option.bind_eq_some_iff.mp h
    obtain ⟨skb, hskb, rfl⟩ := Option.map_eq_some_iff.mp hrest
    have hfill := ih ht
    refine ⟨fun i hi => ?_, fun i => ?_, hfill.blank⟩
    · dsimp only
      by_cases hin : i = n
      · subst hin
        rw [if_pos rfl, if_pos rfl]
        exact ⟨hskb, rfl, Finset.mem_insert_self skb t.live⟩
      · rw [if_neg hin, if_neg hin]
        obtain ⟨h1, h2, h3⟩ := hfill.slot i (by omega)
        exact ⟨h1, h2, Finset.mem_insert_of_mem h3⟩
    · dsimp only
      split_ifs
      · exact hfill.free i
      · exact hfill.free i

theorem receive_bufferAlloc (h : bufferAlloc phyAddr mem alloc = some s) : s.receive = .out := by
  obtain ⟨-, -, -, -, -, -, hr⟩ := (filling_allocLoop h).blank
  exact hr

theorem inv_bufferAlloc (halloc : ∀ i j skb, alloc i = some skb → alloc j = some skb → i = j)
    (h : bufferAlloc phyAddr mem alloc = some s) : s.Inv := by
  have hfill := filling_allocLoop h
  obtain ⟨hup, hstored, htaken, hcur, hhw, hst, -⟩ := hfill.blank
  refine ⟨⟨fun i hi => (hfill.slot i hi).2.1, fun i hi => (hfill.slot i hi).2.2, fun i _ => ?_, ?_⟩, ?_, ?_, ?_⟩
  · rw [hup]
    exact Finset.notMem_empty _
  · intro i hi j hj heq
    exact halloc i j _ (heq ▸ (hfill.slot i hi).1) (hfill.slot j hj).1
  · rw [hup]
    exact Finset.empty_subset _
  · refine ⟨by rw [hcur, htaken]; rfl, by rw [hhw, hstored]; rfl, by rw [htaken, hstored], by simp [hstored], ?_,
      by simp [htaken], fun k f _ hf => ?_⟩
    · intro i _
      rw [hfill.free i, htaken, hstored]
      exact iff_of_false Bool.false_ne_true not_filled_self
    · rw [hstored, List.getElem?_nil] at hf
      exact absurd hf (by simp)
  · intro f hf
    rw [hst] at hf
    exact absurd hf (by simp)

end Alloc

theorem receives_in_order {phyAddr : ℕ} {mem : ℕ → List UInt8} {alloc : ℕ → Option ℕ} {s₀ : Rx}
    (halloc : ∀ i j skb, alloc i = some skb → alloc j = some skb → i = j)
    (h₀ : bufferAlloc phyAddr mem alloc = some s₀) (accepts : List UInt8 → Bool)
    (h : Run (step accepts) (fun _ _ => True) s₀ s) : s.taken <+: s.stored ∧ s.Slots := by
  have hinv : s.Inv := by
    apply Run.invariant Inv (inv_bufferAlloc halloc h₀) _ h
    intro s e s' hs _ he
    exact hs.step he
  refine ⟨?_, hinv.slots⟩
  rw [hinv.frames.took]
  exact List.take_prefix _ _

def twoFrames : List RxEvent :=
  [.storeFssd [1, 2], .finish, .storeCown [3], .poll 16, .pass none, .leave, .finish, .poll 16, .pass (some 100),
    .pass (some 101), .pass none, .leave, .free 0]

theorem receives_twoFrames : ∃ s₀ s, bufferAlloc 4096 (fun _ => []) some = some s₀ ∧
    exec (step fun frame => frame.length = 2) s₀ twoFrames = some s ∧ s.taken = [[1, 2], [3]] ∧ s.taken <+: s.stored ∧
      s.Slots := by
  have hrun : ((bufferAlloc 4096 (fun _ => []) some).bind fun s₀ =>
      exec (step fun frame => frame.length = 2) s₀ twoFrames).map taken = some [[1, 2], [3]] := by
    decide +kernel
  obtain ⟨s, hs, ht⟩ := Option.map_eq_some_iff.mp hrun
  obtain ⟨s₀, h₀, hs⟩ := Option.bind_eq_some_iff.mp hs
  have halloc : ∀ i j skb : ℕ, some i = some skb → some j = some skb → i = j :=
    fun i j skb hi hj => Option.some.inj (hi.trans hj.symm)
  exact ⟨s₀, s, h₀, hs, ht, receives_in_order halloc h₀ _ (Run.refl.exec (fun _ _ => trivial) hs)⟩

end Wap610n.Gsw.Rx
