import Wap610n.Web.Receive

namespace Wap610n.Web

open Finset Burn

variable {offers : ℕ → ℤ}

namespace UploadRequest

variable {u : UploadRequest}

theorem start_eq_none (h : offers 0 ≤ 0) : u.start offers = none := by
  have hann := u.announced
  apply if_pos
  unfold firstBytes socketRead websSocketBufsiz
  omega

theorem firstBytes_pos (h : ¬offers 0 ≤ 0) : 0 < u.firstBytes offers ∧ u.firstBytes offers ≤ u.clen := by
  have hann := u.announced
  unfold firstBytes socketRead websSocketBufsiz
  omega

theorem start_eq (h : ¬offers 0 ≤ 0) :
    u.start offers = some ⟨u.clen - u.firstBytes offers, if u.refused then 0 else u.firstBytes offers⟩ := by
  have hpos := (firstBytes_pos (u := u) h).1
  exact if_neg (by omega)

theorem run_refused (h : ¬offers 0 ≤ 0) (hr : u.refused = true) (k : ℕ) : u.run offers k =
    readWhile discardRead (fun i => offers (i + 1)) ⟨u.clen - u.firstBytes offers, 0⟩ k := by
  rw [run, start_eq h, hr]
  rfl

theorem run_accepted (h : ¬offers 0 ≤ 0) (hr : u.refused = false) (k : ℕ) : u.run offers k =
    readWhile acceptRead (fun i => offers (i + 1)) ⟨u.clen - u.firstBytes offers, u.firstBytes offers⟩ k := by
  rw [run, start_eq h, hr]
  rfl

end UploadRequest

theorem uploadEnds_iff (u : UploadRequest) (offers : ℕ → ℤ) : UploadEnds u offers ↔ SocketOk u offers := by
  unfold SocketOk
  dsimp only
  by_cases h0 : offers 0 ≤ 0
  · have hrun : ∀ k, u.run offers k = none := by
      intro k
      rw [UploadRequest.run, UploadRequest.start_eq_none h0, Option.bind_none]
    refine iff_of_true ⟨fun _ hstart => ?_, fun k wp h => ?_, fun k wp wp' h => ?_⟩ (Or.inl h0)
    · exact absurd (UploadRequest.start_eq_none h0) hstart
    · exact absurd (h.symm.trans (hrun k)) (by simp)
    · exact absurd (h.symm.trans (hrun k)) (by simp)
  · obtain ⟨hpos, hle⟩ := UploadRequest.firstBytes_pos (u := u) h0
    have hstart : u.start offers ≠ none := by
      rw [UploadRequest.start_eq h0]
      exact Option.some_ne_none _
    rw [or_iff_right h0]
    cases hr : u.refused with
    | true =>
      have hrun := UploadRequest.run_refused h0 hr
      rw [if_pos rfl, ← discard_ends_iff (fun i => offers (i + 1)) ⟨u.clen - u.firstBytes offers, 0⟩]
      simp only [← hrun]
      refine ⟨fun h hc => h.stops hc hstart, fun h => ⟨fun hc _ => h hc, fun k wp hk => ?_, fun k wp wp' hk hk' => ?_⟩⟩
      · rw [(discard_clen (hrun k ▸ hk)).2]
        exact u.announced.le
      · rw [hrun] at hk hk'
        rw [(discard_clen hk).2, (discard_clen hk').2]
    | false =>
      have hrun := UploadRequest.run_accepted h0 hr
      rw [if_neg Bool.false_ne_true,
        ← accept_ends_iff (fun i => offers (i + 1)) ⟨u.clen - u.firstBytes offers, u.firstBytes offers⟩]
      simp only [← hrun]
      refine ⟨fun h => ⟨fun hc => h.stops hc hstart, h.monotone⟩, fun h => ⟨fun hc _ => h.1 hc, fun k wp hk => ?_, h.2⟩⟩
      obtain ⟨hsum, hnn⟩ := accept_total (hrun k ▸ hk) (by dsimp only; omega)
      dsimp only at hsum
      omega

def smallUpload : UploadRequest where
  burnState := .idle
  fileContentLen := 0
  clen := 2000
  announced := by decide
  flashSize := 0x800000
  hnapFwUpgrade := false
  malloced := true

theorem upload_never_ends : ¬UploadEnds smallUpload (fun k => if k = 0 then 100 else 0) ∧
    ¬UploadEnds smallUpload (fun k => if k = 0 then 100 else -1) := by
  constructor
  · intro h
    obtain ⟨k, wp, hrun, hle⟩ := h.stops ⟨1, fun k hk => by simp [show k ≠ 0 by omega]⟩ (by decide)
    rw [UploadRequest.run_accepted (by decide) (by decide)] at hrun
    have hkept := readWhile_invariant (fun _ wp => wp.clen = 1900) (by decide) (fun k wp hwp hc => ?_) hrun
    · omega
    · simp [acceptRead, socketRead, hwp]
  · intro h
    exact absurd (h.monotone 0 ⟨1900, 100⟩ ⟨1901, 99⟩ (by decide) (by decide)) (by decide)

end Wap610n.Web
