import Wap610n.Lib.Transition
import Wap610n.Web.Receive
import Wap610n.Web.Upload

/-!
`websReadEvent` in the state `WEBS_POST_CLEN`, for a request that is not a CGI request. One step is one
`socketRead`; a read of nothing in `websGetInput` ends the event, and the next event goes on from there.
-/

namespace Wap610n.Web

open Bytes Burn Transition

inductive ReadPc
  | input | upload | discard | processing
deriving DecidableEq

/-- `input` is what the peer sends and the server has not read. Each entry of `requests` is what a call of
`websUrlHandlerRequest` finds. -/
structure Posting where
  pc : ReadPc
  clen : ℤ
  postData : Option (List UInt8)
  lenPostData : ℕ
  fileContentLen : ℤ
  input : List UInt8
  requests : List (Option (List UInt8) × ℕ)

structure PostTarget where
  url : List UInt8
  hnapFwUpgrade : Bool
  burnState : BurnState
  flashSize : ℤ
  malloced : Bool

def PostTarget.isUpload (r : PostTarget) : Bool := r.url = uploadUrl ∨ r.hnapFwUpgrade = true

namespace Posting

def refused (r : PostTarget) (wp : Posting) : Bool :=
  r.burnState.busy ∨ wp.fileContentLen < 0 ∨
    (wp.clen > r.flashSize ∧ r.hnapFwUpgrade = false ∨
      wp.clen > r.flashSize + 0x50000 ∧ r.hnapFwUpgrade = true) ∨
    r.malloced = false

/-- From the comment "Calculate how much more post data is to be read" on. -/
def counted (wp : Posting) (nbytes : ℕ) : Posting :=
  let wp := { wp with clen := wp.clen - nbytes }
  if wp.clen > 0 then { wp with pc := .input }
  else { wp with pc := .processing, requests := wp.requests ++ [(wp.postData, wp.lenPostData)] }

def discarded (wp : Posting) (nbytes : ℕ) : Posting :=
  let wp := { wp with clen := wp.clen - nbytes }
  if wp.clen > 0 then { wp with pc := .discard } else wp.counted nbytes

/-- The loop of an accepted upload after `nbytes` more bytes; its end adds them again, since `counted` takes them
off a second time. -/
def uploaded (wp : Posting) (nbytes : ℕ) : Posting :=
  let wp := { wp with lenPostData := wp.lenPostData + nbytes, clen := wp.clen - nbytes }
  if wp.clen > 0 then { wp with pc := .upload } else counted { wp with clen := wp.clen + nbytes } nbytes

def piece (r : PostTarget) (wp : Posting) (text : List UInt8) : Posting :=
  if r.isUpload then
    if wp.refused r then
      discarded { wp with
        fileContentLen :=
          if wp.fileContentLen = 0 then if wp.clen > r.flashSize then uploadFileToBig else uploadNoMemory
          else wp.fileContentLen } text.length
    else
      uploaded { wp with
        postData := some (writeAt ((wp.postData.getD []).take wp.lenPostData) wp.lenPostData text) } text.length
  else match wp.postData with
    | some postData =>
      counted { wp with
        postData := some (writeAt postData wp.lenPostData text)
        lenPostData := wp.lenPostData + text.length } text.length
    | none => counted { wp with postData := some text, lenPostData := text.length } text.length

def take (wp : Posting) (nbytes : ℕ) : Posting := { wp with input := wp.input.drop nbytes }

def step (r : PostTarget) (wp : Posting) (offer : ℕ) : Option Posting :=
  match wp.pc with
  | .input =>
    let nbytes := min offer (if wp.clen > websSocketBufsiz then websSocketBufsiz else wp.clen).toNat
    if nbytes = 0 then some wp else some ((wp.take nbytes).piece r (wp.input.take nbytes))
  | .upload =>
    let nbytes := min offer wp.clen.toNat
    some (uploaded { wp.take nbytes with
      postData := wp.postData.map fun postData => writeAt postData wp.lenPostData (wp.input.take nbytes) } nbytes)
  | .discard =>
    let nbytes := min offer maxLine.toNat
    some ((wp.take nbytes).discarded nbytes)
  | .processing => none

/-- After the header: the announced body is to come, and what follows it on the connection. An earlier request of
the connection may have left `fileContentLen`. -/
def announced (fileContentLen : ℤ) (body rest : List UInt8) : Posting :=
  ⟨.input, body.length, none, 0, fileContentLen, body ++ rest, []⟩

/-! ### The lengths alone -/

def receiving (wp : Posting) : Receiving := ⟨wp.clen, wp.lenPostData⟩

variable {r : PostTarget} {wp : Posting}

def Uploading (wp : Posting) : Prop := wp.pc = if 0 < wp.clen then .upload else .processing

theorem uploaded_uploading (wp : Posting) (nbytes : ℕ) :
    (wp.uploaded nbytes).Uploading ∧ (wp.uploaded nbytes).receiving = ⟨wp.clen - nbytes, wp.lenPostData + nbytes⟩ := by
  unfold uploaded
  dsimp only
  split_ifs with hmore
  · refine ⟨(if_pos hmore).symm, ?_⟩
    simp only [receiving, Nat.cast_add]
  · have hlast : ¬0 < wp.clen - nbytes + nbytes - nbytes := by omega
    rw [counted, if_neg hlast]
    refine ⟨(if_neg hlast).symm, ?_⟩
    simp only [receiving, sub_add_cancel, Nat.cast_add]

theorem Uploading.step (h : wp.Uploading) (hc : 0 < wp.clen) (offer : ℕ) :
    ∃ wp', wp.step r offer = some wp' ∧ wp'.Uploading ∧ wp'.receiving = acceptRead wp.receiving offer := by
  have hpc : wp.pc = .upload := by rw [h, if_pos hc]
  have hmin : ((min offer wp.clen.toNat : ℕ) : ℤ) = min (offer : ℤ) wp.clen := by omega
  unfold Posting.step
  rw [hpc]
  obtain ⟨hup, hlen⟩ := uploaded_uploading { wp.take (min offer wp.clen.toNat) with
    postData := wp.postData.map fun postData =>
      writeAt postData wp.lenPostData (wp.input.take (min offer wp.clen.toNat)) } (min offer wp.clen.toNat)
  refine ⟨_, rfl, hup, hlen.trans ?_⟩
  rw [hmin]
  rfl

theorem Uploading.step_eq_none (h : wp.Uploading) (hc : ¬0 < wp.clen) (offer : ℕ) : wp.step r offer = none := by
  unfold Posting.step
  rw [h, if_neg hc]

theorem Uploading.run (h : wp.Uploading) (offers : ℕ → ℕ) (k : ℕ) :
    (∀ wp', exec (Posting.step r) wp ((List.range k).map offers) = some wp' → wp'.Uploading) ∧
      (exec (Posting.step r) wp ((List.range k).map offers)).map receiving =
        readWhile acceptRead (fun i => offers i) wp.receiving k := by
  induction k with
  | zero => exact ⟨fun wp' hrun => Option.some.inj hrun ▸ h, rfl⟩
  | succ k ih =>
    obtain ⟨hinv, hlen⟩ := ih
    rw [List.range_succ, List.map_append, List.map_singleton, readWhile, ← hlen]
    cases hrun : exec (Posting.step r) wp ((List.range k).map offers) with
    | none => simp [exec_append, hrun]
    | some wp₁ =>
      rw [exec_snoc hrun, Option.map_some, Option.bind_some]
      by_cases hc : 0 < wp₁.clen
      · obtain ⟨wp₂, hstep, hup, hread⟩ := (hinv wp₁ hrun).step hc (offers k)
        rw [hstep, if_pos (show wp₁.receiving.clen > 0 from hc), Option.map_some, hread]
        exact ⟨fun wp' hwp' => Option.some.inj hwp' ▸ hup, rfl⟩
      · rw [(hinv wp₁ hrun).step_eq_none hc, if_neg (show ¬wp₁.receiving.clen > 0 from hc)]
        exact ⟨fun wp' hwp' => absurd hwp' (by simp), rfl⟩

end Posting

end Wap610n.Web
