import Wap610n.Web.PostBody

namespace Wap610n.Web

open Bytes Burn Transition

namespace Posting

structure Got (r : PostTarget) (f : ℤ) (body rest : List UInt8) (got : ℕ) (wp : Posting) : Prop where
  le : got ≤ body.length
  input : wp.input = body.drop got ++ rest
  lenPostData : wp.lenPostData = got
  clen : wp.clen = (body.length : ℤ) - got
  phase : match wp.pc with
    | .input => got < body.length ∧
      (wp = announced f body rest ∨
        r.isUpload = false ∧ wp.requests = [] ∧ wp.postData = some (body.take got))
    | .upload => got < body.length ∧ wp.requests = [] ∧ wp.postData = some (body.take got)
    | .discard => False
    | .processing => got = body.length ∧ wp.postData = some body ∧ wp.requests = [(some body, body.length)]

variable {r : PostTarget} {f : ℤ} {body rest : List UInt8} {got n : ℕ} {wp : Posting}

theorem counted_got (hle : got ≤ body.length) (hin : wp.input = body.drop got ++ rest) (hlen : wp.lenPostData = got)
    (hclen : wp.clen - n = (body.length : ℤ) - got) (hreq : wp.requests = [])
    (hdata : wp.postData = some (body.take got)) (hmode : r.isUpload = false ∨ got = body.length) :
    (wp.counted n).Got r f body rest got := by
  unfold counted
  dsimp only
  split_ifs with hmore
  · have hlt : got < body.length := by omega
    have hord : r.isUpload = false := hmode.resolve_right hlt.ne
    exact ⟨hle, hin, hlen, hclen, hlt, Or.inr ⟨hord, hreq, hdata⟩⟩
  · -- nothing is left, so the request is dispatched
    obtain rfl : got = body.length := by omega
    rw [List.take_length] at hdata
    refine ⟨hle, hin, hlen, hclen, rfl, hdata, ?_⟩
    simp only [hreq, hdata, hlen, List.nil_append]

theorem uploaded_got (hle : got + n ≤ body.length) (hin : wp.input = body.drop (got + n) ++ rest)
    (hlen : wp.lenPostData = got) (hclen : wp.clen = (body.length : ℤ) - got) (hreq : wp.requests = [])
    (hdata : wp.postData = some (body.take (got + n))) : (wp.uploaded n).Got r f body rest (got + n) := by
  unfold uploaded
  dsimp only
  split_ifs with hmore
  · refine ⟨hle, hin, ?_, ?_, ?_, hreq, hdata⟩
    · dsimp only
      omega
    · push_cast
      omega
    · omega
  · apply counted_got hle
    · exact hin
    · dsimp only
      omega
    · push_cast
      omega
    · exact hreq
    · exact hdata
    · right
      omega

theorem announced_got (hbody : body ≠ []) : (announced f body rest).Got r f body rest 0 :=
  ⟨Nat.zero_le _, rfl, rfl, (sub_zero _).symm, List.length_pos_of_ne_nil hbody, Or.inl rfl⟩

theorem Got.take_clen (h : wp.Got r f body rest got) (n : ℕ) :
    (wp.take n).clen - n = (body.length : ℤ) - (got + n : ℕ) := by
  rw [take, h.clen, Nat.cast_add, sub_sub]

section Read

variable (h : wp.Got r f body rest got) (hle : got + n ≤ body.length)
include h hle

theorem Got.take_input : wp.input.take n = (body.drop got).take n := by
  rw [h.input]
  apply List.take_append_of_le_length
  rw [List.length_drop]
  omega

theorem Got.take_length : (wp.input.take n).length = n := by
  rw [h.take_input hle, List.length_take, List.length_drop]
  omega

theorem Got.drop_input : (wp.take n).input = body.drop (got + n) ++ rest := by
  rw [take, h.input, List.drop_append_of_le_length (by rw [List.length_drop]; omega), List.drop_drop]

theorem Got.writeAt_input : writeAt (body.take got) got (wp.input.take n) = body.take (got + n) := by
  have hend := writeAt_end (body.take got) ((body.drop got).take n)
  rw [List.length_take, Nat.min_eq_left h.le] at hend
  rw [h.take_input hle, hend, List.take_add]

theorem Got.uploadPiece (hpc : wp.pc = .input) (hup : r.isUpload = true)
    (haccept : (announced f body rest).refused r = false) :
    ((wp.take n).piece r (wp.input.take n)).Got r f body rest (got + n) := by
  have hphase := h.phase
  simp only [hpc] at hphase
  -- the first piece of an upload takes all that is left, so nothing was kept before it
  obtain rfl : wp = announced f body rest := hphase.2.resolve_right fun hord => absurd hord.1 (by simp [hup])
  obtain rfl : 0 = got := h.lenPostData
  have hroom : ((announced f body rest).take n).refused r = false := haccept
  rw [piece, if_pos hup, hroom, if_neg Bool.false_ne_true, h.take_length hle]
  apply uploaded_got hle
  · exact h.drop_input hle
  · rfl
  · exact h.clen
  · rfl
  · exact congrArg some (h.writeAt_input hle)

theorem Got.formPiece (hpc : wp.pc = .input) (hform : r.isUpload = false) :
    ((wp.take n).piece r (wp.input.take n)).Got r f body rest (got + n) := by
  have hphase := h.phase
  simp only [hpc] at hphase
  rw [piece, hform, if_neg Bool.false_ne_true, h.take_length hle]
  rcases hphase.2 with rfl | ⟨-, hreq, hdata⟩
  · obtain rfl : 0 = got := h.lenPostData
    apply counted_got hle
    · exact h.drop_input hle
    · exact (Nat.zero_add n).symm
    · exact h.take_clen n
    · rfl
    · exact congrArg some ((writeAt_end [] _).symm.trans (h.writeAt_input hle))
    · exact Or.inl hform
  · rw [show (wp.take n).postData = some (body.take got) from hdata]
    apply counted_got hle
    · exact h.drop_input hle
    · exact congrArg (· + n) h.lenPostData
    · exact h.take_clen n
    · exact hreq
    · exact congrArg some (h.lenPostData ▸ h.writeAt_input hle)
    · exact Or.inl hform

theorem Got.piece (hpc : wp.pc = .input)
    (haccept : r.isUpload = true → (announced f body rest).refused r = false) :
    ((wp.take n).piece r (wp.input.take n)).Got r f body rest (got + n) := by
  cases hup : r.isUpload with
  | true => exact h.uploadPiece hle hpc hup (haccept hup)
  | false => exact h.formPiece hle hpc hup

theorem Got.upload (hpc : wp.pc = .upload) :
    (uploaded { wp.take n with
      postData := wp.postData.map fun postData => writeAt postData wp.lenPostData (wp.input.take n) } n).Got
      r f body rest (got + n) := by
  have hphase := h.phase
  simp only [hpc] at hphase
  obtain ⟨-, hreq, hdata⟩ := hphase
  apply uploaded_got hle
  · exact h.drop_input hle
  · exact h.lenPostData
  · exact h.clen
  · exact hreq
  · rw [hdata, h.lenPostData, Option.map_some, h.writeAt_input hle]

end Read

theorem Got.step (h : wp.Got r f body rest got) (hpc : wp.pc ≠ .processing)
    (haccept : r.isUpload = true → (announced f body rest).refused r = false) (offer : ℕ) :
    ∃ wp' n, wp.step r offer = some wp' ∧ wp'.Got r f body rest (got + n) ∧ (0 < offer → 0 < n) := by
  have hclen := h.clen
  have hphase := h.phase
  unfold Posting.step
  cases hwp : wp.pc with
  | processing => exact absurd hwp hpc
  | discard =>
    rw [hwp] at hphase
    exact hphase.elim
  | upload =>
    rw [hwp] at hphase
    obtain ⟨hlt, -, -⟩ := hphase
    refine ⟨_, min offer wp.clen.toNat, rfl, h.upload ?_ hwp, ?_⟩
    · omega
    · omega
  | input =>
    rw [hwp] at hphase
    obtain ⟨hlt, -⟩ := hphase
    have hlen : 0 < (if wp.clen > websSocketBufsiz then websSocketBufsiz else wp.clen).toNat ∧
        got + (if wp.clen > websSocketBufsiz then websSocketBufsiz else wp.clen).toNat ≤ body.length := by
      unfold websSocketBufsiz
      split_ifs <;> omega
    generalize (if wp.clen > websSocketBufsiz then websSocketBufsiz else wp.clen).toNat = len at hlen ⊢
    dsimp only
    split_ifs with hnone
    · exact ⟨wp, 0, rfl, h, by omega⟩
    · refine ⟨_, min offer len, rfl, h.piece ?_ hwp haccept, ?_⟩
      · omega
      · omega

theorem Got.advance (haccept : r.isUpload = true → (announced f body rest).refused r = false) (wp : Posting)
    (offer : ℕ) (h : ∃ got, wp.Got r f body rest got) (hpc : wp.pc ≠ .processing) :
    ∃ wp', wp.step r offer = some wp' ∧ (∃ got, wp'.Got r f body rest got) ∧
      wp'.clen.toNat ≤ wp.clen.toNat ∧ (0 < offer → wp'.clen.toNat < wp.clen.toNat) := by
  obtain ⟨got, h⟩ := h
  obtain ⟨wp', n, hstep, hgot, hpos⟩ := h.step hpc haccept offer
  refine ⟨wp', hstep, ⟨got + n, hgot⟩, ?_⟩
  have hclen := h.clen
  have hclen' := hgot.clen
  have hle := hgot.le
  push_cast at hclen'
  constructor
  · omega
  · intro hoffer
    have := hpos hoffer
    omega

end Posting

theorem post_dispatched_once (r : PostTarget) (f : ℤ) (body rest : List UInt8) (hbody : body ≠ [])
    (haccept : r.isUpload = true → (Posting.announced f body rest).refused r = false)
    (offers : ℕ → ℕ) (hoffers : ∀ k, ∃ j, 0 < offers (k + j)) :
    ∃ n wp, exec (Posting.step r) (Posting.announced f body rest) ((List.range n).map offers) = some wp ∧
      wp.pc = .processing ∧ wp.postData = some body ∧ wp.lenPostData = body.length ∧
      wp.requests = [(some body, body.length)] ∧ wp.input = rest ∧ ∀ offer, wp.step r offer = none := by
  obtain ⟨n, wp, hrun, ⟨got, hgot⟩, hpc⟩ := exec_reaches _ (Posting.Got.advance haccept) hoffers
    ⟨0, Posting.announced_got hbody⟩
  have hphase := hgot.phase
  rw [hpc] at hphase
  obtain ⟨rfl, hdata, hreq⟩ := hphase
  refine ⟨n, wp, hrun, hpc, hdata, hgot.lenPostData, hreq, ?_, ?_⟩
  · rw [hgot.input, List.drop_length, List.nil_append]
  · intro offer
    rw [Posting.step, hpc]

def imagePost : PostTarget := ⟨uploadUrl, false, .idle, 0x400000, true⟩

theorem post_dispatched_once_image :
    ∃ n wp, exec (Posting.step imagePost) (Posting.announced 0 (text "--b--") (text "GET"))
        ((List.range n).map (· % 3)) = some wp ∧ wp.pc = .processing ∧ wp.postData = some (text "--b--") ∧
      wp.lenPostData = 5 ∧ wp.requests = [(some (text "--b--"), 5)] ∧ wp.input = text "GET" ∧
      ∀ offer, wp.step imagePost offer = none := by
  apply post_dispatched_once imagePost 0 (text "--b--") (text "GET")
  · decide
  · decide
  · intro k
    exact ⟨2 * k + 1, by omega⟩

end Wap610n.Web
