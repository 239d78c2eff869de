import Wap610n.Gsw.Receive

namespace Wap610n.Gsw.Rx

open RingBuffer

structure Frames (s : Rx) : Prop where
  cur : s.curIndex = s.taken.length % starGswMaxRfdNum
  hw : s.hwIndex = s.stored.length % starGswMaxRfdNum
  le : s.taken.length ≤ s.stored.length
  cap : s.stored.length ≤ s.taken.length + starGswMaxRfdNum
  own : ∀ i < starGswMaxRfdNum, (s.rxdesc i).cown = true ↔
    Filled starGswMaxRfdNum s.taken.length s.stored.length i
  took : s.taken = s.stored.take s.taken.length
  content : ∀ k f, s.taken.length ≤ k → s.stored[k]? = some f →
    (s.mem (s.skbPtr (k % starGswMaxRfdNum))).take (s.rxdesc (k % starGswMaxRfdNum)).length = f

structure Inv (s : Rx) : Prop where
  slots : s.Slots
  upLive : s.up ⊆ s.live
  frames : s.Frames
  half : ∀ f, s.store = .fssdFirst f → (s.rxdesc s.hwIndex).cown = false ∧
    (s.mem (s.skbPtr s.hwIndex)).take f.length = f

variable {s : Rx}

theorem maxRfdNum_pos : 0 < starGswMaxRfdNum := by decide

theorem Frames.cur_lt (h : s.Frames) : s.curIndex < starGswMaxRfdNum := h.cur ▸ Nat.mod_lt _ maxRfdNum_pos

theorem Frames.hw_lt (h : s.Frames) : s.hwIndex < starGswMaxRfdNum := h.hw ▸ Nat.mod_lt _ maxRfdNum_pos

theorem Frames.room (h : s.Frames) (hfree : (s.rxdesc s.hwIndex).cown = false) :
    s.stored.length < s.taken.length + starGswMaxRfdNum := by
  have hcap := h.cap
  have hfull := (h.own _ h.hw_lt).not.mp (by rw [hfree]; decide)
  rw [h.hw, filled_last h.le h.cap maxRfdNum_pos] at hfull
  omega

theorem Frames.filled (h : s.Frames) {k : ℕ} {f : List UInt8} (hk : s.taken.length ≤ k) (hf : s.stored[k]? = some f) :
    (s.rxdesc (k % starGswMaxRfdNum)).cown = true := by
  obtain ⟨hlt, -⟩ := List.getElem?_eq_some_iff.mp hf
  exact (h.own _ (Nat.mod_lt _ maxRfdNum_pos)).mpr ⟨k, hk, hlt, rfl⟩

theorem Inv.writeFrame (h : s.Inv) (hfree : (s.rxdesc s.hwIndex).cown = false) (frame : List UInt8) :
    (s.writeFrame frame).Frames ∧ ((s.writeFrame frame).mem (s.skbPtr s.hwIndex)).take frame.length = frame := by
  have hdata := h.slots.data s.hwIndex h.frames.hw_lt
  constructor
  · refine ⟨h.frames.cur, h.frames.hw, h.frames.le, h.frames.cap, h.frames.own, h.frames.took, ?_⟩
    intro k f hk hf
    have hne : s.skbPtr (k % starGswMaxRfdNum) ≠ (s.rxdesc s.hwIndex).dataPtr := by
      rw [hdata]
      intro heq
      have hslot := h.slots.inj _ (Nat.mod_lt _ maxRfdNum_pos) _ h.frames.hw_lt heq
      have hown := h.frames.filled hk hf
      rw [hslot, hfree] at hown
      exact absurd hown (by decide)
    unfold Rx.writeFrame
    dsimp only
    rw [if_neg hne]
    exact h.frames.content k f hk hf
  · unfold Rx.writeFrame
    dsimp only
    rw [if_pos hdata.symm, List.take_left]

theorem Frames.handOver (h : s.Frames) (hfree : (s.rxdesc s.hwIndex).cown = false) {frame : List UInt8}
    (hmem : (s.mem (s.skbPtr s.hwIndex)).take frame.length = frame) : (s.handOver frame).Frames := by
  have hroom := h.room hfree
  have hle := h.le
  unfold Rx.handOver
  refine ⟨h.cur, ?_, ?_, ?_, ?_, ?_, ?_⟩
  · dsimp only
    rw [h.hw, advance_mod maxRfdNum_pos, List.length_append, List.length_singleton]
  · dsimp only
    rw [List.length_append, List.length_singleton]
    omega
  · dsimp only
    rw [List.length_append, List.length_singleton]
    omega
  · intro i hi
    dsimp only
    rw [List.length_append, List.length_singleton, filled_push h.le, ← h.hw, ← h.own i hi]
    by_cases heq : i = s.hwIndex
    · simp [heq]
    · simp [heq, Ne.symm heq]
  · dsimp only
    rw [List.take_append_of_le_length h.le]
    exact h.took
  · intro k f hk hf
    dsimp only at hk hf ⊢
    rcases Nat.lt_or_ge k s.stored.length with hlt | hge
    · rw [List.getElem?_append_left hlt] at hf
      have hne : k % starGswMaxRfdNum ≠ s.hwIndex := by
        intro heq
        have hown := h.filled hk hf
        rw [heq, hfree] at hown
        exact absurd hown (by decide)
      rw [if_neg hne]
      exact h.content k f hk hf
    · obtain rfl : k = s.stored.length := by
        have hlt := (List.getElem?_eq_some_iff.mp hf).1
        rw [List.length_append, List.length_singleton] at hlt
        omega
      rw [List.getElem?_concat_length, Option.some.injEq] at hf
      rw [← h.hw, if_pos rfl, ← hf]
      exact hmem

section Take

variable {accepts : List UInt8 → Bool} {skb : ℕ}

theorem Frames.takeFrame (h : s.Frames) (hown : (s.rxdesc s.curIndex).cown = true) :
    (s.takeFrame accepts skb).Frames := by
  have hlt : s.taken.length < s.stored.length := by
    have hfilled := (h.own _ h.cur_lt).mp hown
    rwa [h.cur, filled_first] at hfilled
  have hcap := h.cap
  have hhead : s.stored[s.taken.length]? = some s.stored[s.taken.length] := List.getElem?_eq_getElem hlt
  have hframe := h.content _ _ le_rfl hhead
  rw [← h.cur] at hframe
  unfold Rx.takeFrame getRfdBuff
  refine ⟨?_, h.hw, ?_, ?_, ?_, ?_, ?_⟩
  · dsimp only
    rw [List.length_append, List.length_singleton, h.cur, advance_mod maxRfdNum_pos]
  · dsimp only
    rw [List.length_append, List.length_singleton]
    omega
  · dsimp only
    rw [List.length_append, List.length_singleton]
    omega
  · intro i hi
    dsimp only
    rw [List.length_append, List.length_singleton, filled_pop h.cap, ← h.cur, ← h.own i hi]
    by_cases heq : i = s.curIndex
    · simp [heq]
    · simp [heq, Ne.symm heq]
  · dsimp only
    rw [hframe, List.length_append, List.length_singleton, ← List.take_append_getElem hlt, ← h.took]
  · intro k f hk hf
    dsimp only at hk hf ⊢
    rw [List.length_append, List.length_singleton] at hk
    have hkl := (List.getElem?_eq_some_iff.mp hf).1
    have hne : k % starGswMaxRfdNum ≠ s.curIndex := by
      rw [h.cur]
      intro heq
      exact absurd (eq_of_mod_eq (by omega) (by omega) heq.symm) (show s.taken.length ≠ k by omega)
    rw [if_neg hne, if_neg hne]
    exact h.content k f (by omega) hf

theorem mem_takeFrame_up {b : ℕ} : b ∈ (s.takeFrame accepts skb).up ↔
    b ∈ s.up ∨ accepts ((s.mem (s.skbPtr s.curIndex)).take (s.rxdesc s.curIndex).length) = true ∧
      b = s.skbPtr s.curIndex := by
  unfold Rx.takeFrame getRfdBuff
  dsimp only
  split_ifs with h
  · rw [Finset.mem_insert, or_comm, and_iff_right h]
  · rw [or_iff_left fun hh => h hh.1]

theorem mem_takeFrame_live {b : ℕ} : b ∈ (s.takeFrame accepts skb).live ↔ (b = skb ∨ b ∈ s.live) ∧
    (accepts ((s.mem (s.skbPtr s.curIndex)).take (s.rxdesc s.curIndex).length) = true ∨ b ≠ s.skbPtr s.curIndex) := by
  unfold Rx.takeFrame getRfdBuff
  dsimp only
  split_ifs with h
  · rw [Finset.mem_insert, and_iff_left (Or.inl h)]
  · rw [Finset.mem_erase, Finset.mem_insert, and_comm, or_iff_right h]

theorem Slots.takeFrame (h : s.Slots) (hcur : s.curIndex < starGswMaxRfdNum) (hup : s.up ⊆ s.live)
    (hskb : skb ∉ s.live) : (s.takeFrame accepts skb).Slots ∧
      (s.takeFrame accepts skb).up ⊆ (s.takeFrame accepts skb).live := by
  have hold := h.live _ hcur
  have hskbPtr : ∀ i, (s.takeFrame accepts skb).skbPtr i = if i = s.curIndex then skb else s.skbPtr i := fun _ => rfl
  have hne : ∀ i < starGswMaxRfdNum, i ≠ s.curIndex → s.skbPtr i ≠ s.skbPtr s.curIndex :=
    fun i hi hic heq => hic (h.inj i hi _ hcur heq)
  have hnew : ∀ i < starGswMaxRfdNum, s.skbPtr i ≠ skb := fun i hi heq => hskb (heq ▸ h.live i hi)
  refine ⟨⟨?_, ?_, ?_, ?_⟩, ?_⟩
  · intro i hi
    unfold Rx.takeFrame getRfdBuff
    dsimp only
    split_ifs
    · rfl
    · exact h.data i hi
  · intro i hi
    rw [mem_takeFrame_live, hskbPtr]
    split_ifs with hic
    · exact ⟨Or.inl rfl, Or.inr (hnew _ hcur).symm⟩
    · exact ⟨Or.inr (h.live i hi), Or.inr (hne i hi hic)⟩
  · intro i hi
    rw [mem_takeFrame_up, hskbPtr]
    split_ifs with hic
    · exact not_or.mpr ⟨fun hu => hskb (hup hu), fun hh => hnew _ hcur hh.2.symm⟩
    · exact not_or.mpr ⟨h.notUp i hi, fun hh => hne i hi hic hh.2⟩
  · intro i hi j hj
    rw [hskbPtr, hskbPtr]
    split_ifs with hic hjc hjc
    · exact fun _ => hic.trans hjc.symm
    · exact fun heq => absurd heq.symm (hnew j hj)
    · exact fun heq => absurd heq (hnew i hi)
    · exact h.inj i hi j hj
  · intro b hb
    rw [mem_takeFrame_live]
    rcases mem_takeFrame_up.mp hb with hb | ⟨hacc, rfl⟩
    · refine ⟨Or.inr (hup hb), Or.inr fun heq => h.notUp _ hcur (heq ▸ hb)⟩
    · exact ⟨Or.inr hold, Or.inl hacc⟩

theorem Inv.takeFrame (h : s.Inv) (hown : (s.rxdesc s.curIndex).cown = true) (hskb : skb ∉ s.live) :
    (s.takeFrame accepts skb).Inv := by
  have hslots : (s.takeFrame accepts skb).Slots ∧ _ := h.slots.takeFrame h.frames.cur_lt h.upLive hskb
  refine ⟨hslots.1, hslots.2, h.frames.takeFrame hown, fun f hf => ?_⟩
  obtain ⟨hfree, hmem⟩ := h.half f hf
  have hne : s.hwIndex ≠ s.curIndex := by
    intro heq
    rw [heq, hown] at hfree
    exact absurd hfree (by decide)
  unfold Rx.takeFrame getRfdBuff
  dsimp only
  rw [if_neg hne, if_neg hne]
  exact ⟨hfree, hmem⟩

end Take

end Wap610n.Gsw.Rx
