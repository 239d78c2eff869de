import Mathlib.Algebra.BigOperators.Group.Finset.Piecewise
import Wap610n.Gsw.SendersView

namespace Wap610n.Gsw.Senders

open Function RingBuffer

variable {n : ℕ} {s s' : Senders n}

theorem sum_update (f : Fin n → ℕ) (c : Fin n) (v : ℕ) : ∑ i, update f c v i + f c = ∑ i, f i + v := by
  rw [Finset.sum_update_of_mem (Finset.mem_univ c), ← Finset.add_sum_erase _ f (Finset.mem_univ c),
    ← Finset.sdiff_singleton_eq_erase]
  omega

theorem sum_call (g : SendCall → ℕ) (calls : Fin n → SendCall) (c : Fin n) (call : SendCall) :
    ∑ i, g (update calls c call i) + g (calls c) = ∑ i, g (calls i) + g call := by
  rw [← sum_update (fun i => g (calls i)) c (g call)]
  congr 2
  funext i
  exact apply_update (fun _ => g) calls c call i

def sendingCount (s : Senders n) (skb : Buffer) : ℕ := ∑ c, (s.calls c).sending.count skb

structure Inv (s : Senders n) : Prop where
  owned : (s.ring .none).Owned s.sent.length s.accepted.length
  sent : s.sent = (s.accepted.take s.sent.length).map Buffer.frame
  slots : Window starGswMaxTfdNum s.skbPtr s.accepted
  desc : ∀ i skb, s.skbPtr i = some skb → ((s.txdesc i).dataPtr, (s.txdesc i).length) = skb.frame
  freed : ∀ skb, s.freed.count skb + s.holding skb =
    (s.accepted.take (s.accepted.length - starGswMaxTfdNum)).count skb
  distinct : ∀ skb, (window starGswMaxTfdNum s.accepted).count skb + s.holding skb + s.sendingCount skb ≤ 1

theorem inv_bufferAlloc (tsDmaControl : Bool) : (bufferAlloc n tsDmaControl).Inv where
  owned := (Tx.owned_bufferAlloc tsDmaControl).congr rfl rfl rfl
  sent := rfl
  slots := window_nil fun _ => rfl
  desc i skb h := by cases h
  freed skb := by
    have hzero : (bufferAlloc n tsDmaControl).holding skb = 0 := Finset.sum_eq_zero fun _ _ => rfl
    rw [hzero]
    rfl
  distinct skb := by
    have hheld : (bufferAlloc n tsDmaControl).holding skb = 0 := Finset.sum_eq_zero fun _ _ => rfl
    have hsending : (bufferAlloc n tsDmaControl).sendingCount skb = 0 := Finset.sum_eq_zero fun _ _ => rfl
    rw [hheld, hsending]
    exact Nat.zero_le 1

theorem Inv.window_nodup (h : s.Inv) : (window starGswMaxTfdNum s.accepted).Nodup := by
  apply List.nodup_iff_count_le_one.mpr
  intro skb
  have := h.distinct skb
  omega

theorem Inv.skbFree_eq (h : s.Inv) : s.skbFree = s.skbPtr (s.accepted.length % starGswMaxTfdNum) := by
  have hcur : s.curIndex = s.accepted.length % starGswMaxTfdNum := h.owned.cur
  unfold skbFree
  rw [hcur]
  split_ifs with hptr
  · rfl
  · cases hslot : s.skbPtr (s.accepted.length % starGswMaxTfdNum) with
    | none => rfl
    | some skb =>
      have hdesc := congrArg Prod.fst (h.desc _ skb hslot)
      exact absurd (hdesc.symm.trans (not_not.mp hptr)) skb.data_ne

section Calls

variable {c : Fin n} {call : SendCall} (hcalls : s'.calls = update s.calls c call)

include hcalls

theorem holding_call (skb : Buffer) :
    s'.holding skb + (s.calls c).held.count skb = s.holding skb + call.held.count skb := by
  unfold holding
  rw [hcalls]
  exact sum_call (fun call => call.held.count skb) s.calls c call

theorem sendingCount_call (skb : Buffer) :
    s'.sendingCount skb + (s.calls c).sending.count skb = s.sendingCount skb + call.sending.count skb := by
  unfold sendingCount
  rw [hcalls]
  exact sum_call (fun call => call.sending.count skb) s.calls c call

end Calls

theorem count_eq_zero_of_owns (h : s.Inv) {skb : Buffer} (howns : s.Owns skb) :
    (window starGswMaxTfdNum s.accepted).count skb = 0 ∧ s.holding skb = 0 ∧ s.sendingCount skb = 0 := by
  refine ⟨?_, ?_, ?_⟩
  · apply List.count_eq_zero.mpr
    intro hmem
    obtain ⟨k, hk, hle⟩ := mem_window.mp hmem
    exact howns.1 _ (Nat.mod_lt k Tx.maxTfdNum_pos) (h.slots.recent k skb hk hle)
  · apply Finset.sum_eq_zero
    intro c _
    exact List.count_eq_zero.mpr (howns.2 c).2
  · apply Finset.sum_eq_zero
    intro c _
    exact List.count_eq_zero.mpr (howns.2 c).1

theorem Inv.stop (h : s.Inv) {c : Fin n} {skb : Buffer} (howns : s.Owns skb)
    (hcall : s.calls c = .none ∨ ∃ value, s.calls c = .returned value) : (s.stop c skb).Inv := by
  have hidle : (s.calls c).held = [] ∧ (s.calls c).sending = [] := by
    rcases hcall with hcall | ⟨value, hcall⟩
    · rw [hcall]
      exact ⟨rfl, rfl⟩
    · rw [hcall]
      exact ⟨rfl, rfl⟩
  have hheld : ∀ x, (s.stop c skb).holding x = s.holding x := by
    intro x
    have hsum : (s.stop c skb).holding x + _ = _ := holding_call rfl x
    rwa [hidle.1] at hsum
  have hsending : ∀ x, (s.stop c skb).sendingCount x = s.sendingCount x + [skb].count x := by
    intro x
    have hsum : (s.stop c skb).sendingCount x + _ = _ := sendingCount_call rfl x
    rwa [hidle.2] at hsum
  refine ⟨h.owned.congr rfl rfl rfl, h.sent, h.slots, h.desc, ?_, ?_⟩
  · intro x
    rw [hheld]
    exact h.freed x
  · intro x
    rw [hheld, hsending]
    by_cases hx : x = skb
    · obtain ⟨hw, hh, hs⟩ := count_eq_zero_of_owns h howns
      rw [hx, hh, hs, List.count_singleton_self]
      exact (congrArg (· + 0 + (0 + 1)) hw).le
    · rw [List.count_singleton, if_neg (by simpa using Ne.symm hx)]
      exact h.distinct x

theorem Inv.of_call (h : s.Inv) (hdesc : s'.txdesc = s.txdesc) (hptr : s'.skbPtr = s.skbPtr)
    (hcur : s'.curIndex = s.curIndex) (hhw : s'.hwIndex = s.hwIndex) (haccepted : s'.accepted = s.accepted)
    (hsent : s'.sent = s.sent) {c : Fin n} {call : SendCall} (hcalls : s'.calls = update s.calls c call)
    {fs : List Buffer} (hfreed : s'.freed = s.freed ++ fs) (hheld : (s.calls c).held = fs ++ call.held)
    (hsending : call.sending = []) : s'.Inv := by
  have hholding : ∀ x, s'.holding x + fs.count x = s.holding x := by
    intro x
    have hsum := holding_call hcalls x
    rw [hheld, List.count_append] at hsum
    omega
  have hless : ∀ x, s'.sendingCount x ≤ s.sendingCount x := by
    intro x
    have hsum := sendingCount_call hcalls x
    rw [hsending, List.count_nil] at hsum
    omega
  refine ⟨?_, ?_, ?_, ?_, ?_, ?_⟩
  · rw [hsent, haccepted]
    exact h.owned.congr hdesc hcur hhw
  · rw [hsent, haccepted]
    exact h.sent
  · rw [hptr, haccepted]
    exact h.slots
  · rw [hptr, hdesc]
    exact h.desc
  · intro x
    have hx := hholding x
    rw [haccepted, hfreed, List.count_append, ← h.freed x]
    omega
  · intro x
    have hold := h.distinct x
    have hx := hholding x
    have hy := hless x
    rw [haccepted]
    omega

theorem Inv.start (h : s.Inv) {c : Fin n} {skbFree : Option Buffer} (hcall : s.calls c = .queued skbFree) :
    (s.start c skbFree).Inv := by
  refine h.of_call rfl rfl rfl rfl rfl rfl rfl (List.append_nil _).symm ?_ rfl
  rw [hcall]
  rfl

theorem Inv.leave (h : s.Inv) {c : Fin n} {skbFree : Option Buffer} (hcall : s.calls c = .started skbFree) :
    (s.leave c skbFree).Inv := by
  refine h.of_call rfl rfl rfl rfl rfl rfl rfl rfl ?_ rfl
  rw [hcall]
  exact (List.append_nil _).symm

theorem Inv.refuse (h : s.Inv) {c : Fin n} {skb : Buffer} (hcall : s.calls c = .stopped skb) :
    (s.refuse c).Inv := by
  refine h.of_call rfl rfl rfl rfl rfl rfl rfl (List.append_nil _).symm ?_ rfl
  rw [hcall]
  rfl

theorem Inv.accepted (h : s.Inv) {c : Fin n} {skb : Buffer} (hcall : s.calls c = .stopped skb)
    (hfree : (s.txdesc s.curIndex).cown = true) : (s.queue c skb).Inv := by
  have hcur : s.curIndex = s.accepted.length % starGswMaxTfdNum := h.owned.cur
  have hlen : (s.accepted ++ [skb]).length = s.accepted.length + 1 := List.length_append
  have hcalls : (s.queue c skb).calls = update s.calls c (.queued s.skbFree) := by rw [queue_accepted c skb hfree]
  have haccepted : (s.queue c skb).accepted = s.accepted ++ [skb] := by rw [queue_accepted c skb hfree]
  have hptr : (s.queue c skb).skbPtr = update s.skbPtr (s.accepted.length % starGswMaxTfdNum) (some skb) := by
    rw [queue_accepted c skb hfree, ← hcur]
  have hsent : (s.queue c skb).sent = s.sent := by rw [queue_accepted c skb hfree]
  have hfreed : (s.queue c skb).freed = s.freed := by rw [queue_accepted c skb hfree]
  have hheld : ∀ x, (s.queue c skb).holding x = s.holding x + s.skbFree.toList.count x := by
    intro x
    have hsum := holding_call hcalls x
    rwa [hcall] at hsum
  have hsending : ∀ x, (s.queue c skb).sendingCount x + [skb].count x = s.sendingCount x := by
    intro x
    have hsum := sendingCount_call hcalls x
    rwa [hcall] at hsum
  refine ⟨?_, ?_, ?_, ?_, ?_, ?_⟩
  · have hq := h.owned.queue skb.skb hfree
    rw [haccepted, hlen, hsent]
    rw [ring_queue .none c skb] at hq
    exact hq.congr rfl rfl rfl
  · rw [hsent, haccepted, List.take_append_of_le_length h.owned.le]
    exact h.sent
  · rw [hptr, haccepted]
    exact h.slots.push Tx.maxTfdNum_pos skb
  · intro i x hx
    rw [queue_accepted c skb hfree] at hx ⊢
    dsimp only at hx ⊢
    by_cases hi : i = s.curIndex
    · rw [hi, update_self] at hx ⊢
      rw [← Option.some.inj hx]
    · rw [update_of_ne hi] at hx ⊢
      exact h.desc i x hx
  · intro x
    rw [hfreed, hheld, haccepted, hlen, h.slots.take_push Tx.maxTfdNum_pos, List.count_append, ← h.freed x,
      h.skbFree_eq]
    omega
  · intro x
    have hpush := congrArg (List.count x) (h.slots.window_push Tx.maxTfdNum_pos skb)
    rw [List.count_append, List.count_append, ← h.skbFree_eq] at hpush
    have hold := h.distinct x
    have hs := hsending x
    rw [hheld, haccepted]
    omega

theorem Inv.complete (h : s.Inv) (hown : (s.txdesc s.hwIndex).cown = false) : s.complete.Inv := by
  have hlt : s.sent.length < s.accepted.length :=
    h.owned.pending_iff.mp ⟨s.hwIndex, h.owned.hw_lt, hown⟩
  have hhw : s.hwIndex = s.sent.length % starGswMaxTfdNum := h.owned.hw
  have hslot : s.skbPtr s.hwIndex = some s.accepted[s.sent.length] := by
    rw [hhw]
    exact h.slots.recent _ _ (List.getElem?_eq_getElem hlt) h.owned.cap
  have hlen : s.complete.sent.length = s.sent.length + 1 := List.length_append
  have hdesc : s.complete.txdesc = ((s.ring .none).complete).txdesc := congrArg Tx.txdesc (s.ring_complete .none)
  refine ⟨?_, ?_, h.slots, ?_, h.freed, h.distinct⟩
  · rw [hlen]
    exact (h.owned.complete hown).congr hdesc rfl rfl
  · change s.complete.sent = (s.accepted.take _).map Buffer.frame
    rw [hlen, List.take_add_one, List.getElem?_eq_getElem hlt, Option.toList_some, List.map_append, ← h.sent]
    exact congrArg (s.sent ++ [·]) (h.desc _ _ hslot)
  · intro i x hx
    have hkeep : ((s.complete.txdesc i).dataPtr, (s.complete.txdesc i).length) =
        ((s.txdesc i).dataPtr, (s.txdesc i).length) := by
      unfold Senders.complete
      dsimp only
      rw [update_apply]
      split_ifs with hi
      · rw [hi]
      · rfl
    rw [hkeep]
    exact h.desc i x hx

theorem Inv.step {e : SendEvent n} (h : s.Inv) (he : s.step e = some s') : s'.Inv := by
  rcases step_cases he with ⟨c, skb, -, hcall, howns, rfl⟩ | ⟨c, skb, -, hcall, rfl⟩ | ⟨c, skbFree, -, hcall, rfl⟩ |
    ⟨c, skbFree, -, hcall, rfl⟩ | ⟨-, hown, rfl⟩
  · exact h.stop howns hcall
  · cases hown : (s.txdesc s.curIndex).cown with
    | false =>
      rw [queue_refused c skb hown]
      exact h.refuse hcall
    | true => exact h.accepted hcall hown
  · exact h.start hcall
  · exact h.leave hcall
  · exact h.complete hown

end Wap610n.Gsw.Senders
