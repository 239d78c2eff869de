import Wap610n.Web.Security

namespace Wap610n.Web

open Bytes CString

def Handler.Ordinary (h : Handler) : Prop := h ≠ .security ∧ h ≠ .hnap ∧ h ≠ .statistics

instance : DecidablePred Handler.Ordinary := fun _ => inferInstanceAs (Decidable (_ ∧ _))

def Webs.Exempt (wp : Webs) : Prop := text "/mt_stat" <:+: wp.url ∨ text "/HNAP1" <:+: wp.url

instance : DecidablePred Webs.Exempt := fun _ => inferInstanceAs (Decidable (_ ∨ _))

namespace Server

def Authorised (srv : Server) (wp : Webs) : Prop :=
  srv.localRequest wp = true ∨ wp.password = some srv.mtUserPass ∨ wp.authDigest = true ∧
    wp.digest = some (digestWith srv.md5 wp.method wp.toCredentials (a1 wp.toCredentials srv.mtUserPass))

def Guarded (srv : Server) (now : ℤ) (wp : Webs) : Prop :=
  ∀ h ∈ srv.websUrlHandlerRequest now wp, h.Ordinary → srv.Authorised wp

def DigestAccepted (srv : Server) (now : ℤ) (wp : Webs) : Prop :=
  srv.requestPassword now wp = [] ∧ wp.authDigest = true ∧
    wp.digest = some (websCalcDigest srv.md5 wp.method wp.toCredentials srv.mtUserPass)

def Taken (srv : Server) (wp : Webs) : Prop :=
  text "/mt_stat" <+: wp.path ∧ srv.websStatisticsHandler wp = true ∨
    text "/HNAP1" <+: wp.path ∧ srv.websHNAPHandler wp = true

variable {srv : Server} {now : ℤ} {wp : Webs}

theorem checkAccess_of_exempt (hw : srv.wirelessRefused wp = false) (he : wp.Exempt) :
    srv.checkAccess now wp = some .pass := by
  unfold Webs.Exempt at he
  rw [← strstr_isSome, ← strstr_isSome] at he
  rw [checkAccess, hw, if_neg Bool.false_ne_true]
  by_cases hstat : (strstr (text "/mt_stat") wp.url).isSome
  · rw [if_pos hstat]
  · rw [if_neg hstat, if_pos (he.resolve_left hstat)]

theorem requestPassword_of_ne_nil (h : srv.requestPassword now wp ≠ []) :
    wp.password = some (srv.requestPassword now wp) := by
  unfold requestPassword at *
  split_ifs at h ⊢ with ht
  · exact absurd rfl h
  · cases hp : wp.password with
    | none => simp [hp] at h
    | some p => rfl

theorem checkAccess_pass_iff (hw : srv.wirelessRefused wp = false) (he : ¬wp.Exempt) (ha : ¬srv.Authorised wp) :
    srv.checkAccess now wp = some .pass ↔ srv.DigestAccepted now wp := by
  unfold Webs.Exempt at he
  rw [← strstr_isSome, ← strstr_isSome, not_or] at he
  have hlocal : ¬srv.localRequest wp = true := fun h => ha (Or.inl h)
  have hpass : wp.password ≠ some srv.mtUserPass := fun h => ha (Or.inr (Or.inl h))
  rw [checkAccess, hw, if_neg Bool.false_ne_true, if_neg he.1, if_neg he.2, if_neg hlocal, DigestAccepted]
  by_cases hempty : srv.requestPassword now wp = []
  swap
  · have hwrong : srv.requestPassword now wp ≠ srv.mtUserPass := fun heq =>
      hpass (heq ▸ requestPassword_of_ne_nil hempty)
    simp [hempty, hwrong]
  rw [if_neg (not_not.mpr hempty)]
  by_cases hdigest : wp.authDigest = true
  · cases hd : wp.digest with
    | none => simp [hdigest]
    | some d => simp [hdigest, hempty]
  · simp [hdigest]

theorem exists_ordinary {table : List UrlHandler}
    (hpass : ∀ sp ∈ table, ¬sp.handler.Ordinary → sp.urlPrefix <+: wp.path →
      srv.runHandler now wp sp.handler = some false)
    {d : UrlHandler} (hd : d ∈ table) (hord : d.handler.Ordinary) (hpre : d.urlPrefix <+: wp.path) :
    ∃ h ∈ srv.handlerLoop now wp table, h.Ordinary := by
  induction table with
  | nil => exact absurd hd List.not_mem_nil
  | cons sp table ih =>
    rw [handlerLoop]
    by_cases hsp : sp.handler.Ordinary ∧ sp.urlPrefix <+: wp.path
    · rw [if_pos hsp.2]
      exact ⟨sp.handler, List.mem_cons_self, hsp.1⟩
    have hmem : d ∈ table := by
      rcases List.mem_cons.mp hd with rfl | hmem
      · exact absurd ⟨hord, hpre⟩ hsp
      · exact hmem
    obtain ⟨h, hh, hh'⟩ := ih (fun s hs => hpass s (List.mem_cons_of_mem _ hs)) hmem
    split_ifs with hmatch hnext
    · exact ⟨h, List.mem_cons_of_mem _ hh, hh'⟩
    · exact absurd (hpass sp List.mem_cons_self (fun ho => hsp ⟨ho, hmatch⟩) hmatch) hnext
    · exact ⟨h, hh, hh'⟩

theorem runHandler_security (hu : srv.mtUserName ≠ []) (hp : srv.mtUserPass ≠ []) :
    srv.runHandler now wp .security = some false ↔ srv.checkAccess now wp = some .pass := by
  rw [runHandler, websSecurityHandler, if_neg (not_or.mpr ⟨hu, hp⟩), Option.map_map]
  cases hc : srv.checkAccess now wp with
  | none => simp
  | some v => simp

theorem not_prefix_of_prefix {a b p : List UInt8} (h : a <+: p) (hab : ¬a <+: b) (hba : ¬b <+: a) : ¬b <+: p :=
  fun hb => (List.prefix_or_prefix_of_prefix h hb).elim hab hba

theorem initWebs_tail_of_taken (ht : srv.Taken wp) :
    ∀ h ∈ srv.handlerLoop now wp initWebs.tail, ¬h.Ordinary := by
  rw [initWebs_eq, List.tail_cons]
  rcases ht with ⟨hpath, hstat⟩ | ⟨hpath, hhnap⟩
  · have hnot {b : List UInt8} := not_prefix_of_prefix (b := b) hpath
    rw [handlerLoop, if_neg (hnot (by decide) (by decide)), handlerLoop, if_pos hpath, runHandler, hstat]
    simp [Handler.Ordinary]
  · have hnot {b : List UInt8} := not_prefix_of_prefix (b := b) hpath
    rw [handlerLoop, if_neg (hnot (by decide) (by decide)), handlerLoop, if_neg (hnot (by decide) (by decide)),
      handlerLoop, if_neg (hnot (by decide) (by decide)), handlerLoop, if_neg (hnot (by decide) (by decide)),
      handlerLoop, if_pos hpath, runHandler, hhnap]
    simp [Handler.Ordinary]

theorem initWebs_tail_of_not_taken (ht : ¬srv.Taken wp) :
    ∃ h ∈ srv.handlerLoop now wp initWebs.tail, h.Ordinary := by
  rw [Taken, not_or] at ht
  rw [initWebs_eq, List.tail_cons]
  refine exists_ordinary (d := ⟨[], .default, .last⟩) (fun sp hsp hexempt hpath => ?_) (by simp) (by decide)
    List.nil_prefix
  simp only [List.mem_cons, List.not_mem_nil, or_false] at hsp
  rcases hsp with rfl | rfl | rfl | rfl | rfl | rfl | rfl
  case inr.inl => simpa [runHandler, hpath] using ht.1
  case inr.inr.inr.inr.inl => simpa [runHandler, hpath] using ht.2
  all_goals exact absurd (by decide) hexempt

theorem guarded_iff_taken (hu : srv.mtUserName ≠ []) (hp : srv.mtUserPass ≠ []) (ha : ¬srv.Authorised wp) :
    srv.Guarded now wp ↔ (srv.checkAccess now wp.condensed = some .pass → srv.Taken wp.condensed) := by
  have hrun : srv.websUrlHandlerRequest now wp = .security ::
      if srv.checkAccess now wp.condensed = some .pass then srv.handlerLoop now wp.condensed initWebs.tail else [] := by
    rw [websUrlHandlerRequest, initWebs_eq, handlerLoop, if_pos List.nil_prefix, List.tail_cons]
    simp only [runHandler_security hu hp]
  rw [Guarded, hrun]
  constructor
  · intro hg hpass
    by_contra hn
    rw [if_pos hpass] at hg
    obtain ⟨h, hh, hord⟩ : ∃ h ∈ srv.handlerLoop now wp.condensed initWebs.tail, h.Ordinary :=
      initWebs_tail_of_not_taken hn
    exact ha (hg h (List.mem_cons_of_mem _ hh) hord)
  · intro ht h hh hord
    rcases List.mem_cons.mp hh with rfl | hh
    · exact absurd rfl hord.1
    split_ifs at hh with hpass
    · exact absurd hord (initWebs_tail_of_taken (ht hpass) h hh)
    · exact absurd hh List.not_mem_nil

theorem DigestAccepted.cut (h : srv.DigestAccepted now wp) (ha : ¬srv.Authorised wp) :
    191 < (a1 wp.toCredentials srv.mtUserPass).length := by
  by_contra hle
  obtain ⟨-, hdigest, heq⟩ := h
  rw [websCalcDigest_of_le (by omega)] at heq
  exact ha (Or.inr (Or.inr ⟨hdigest, heq⟩))

theorem guarded_iff (hu : srv.mtUserName ≠ []) (hp : srv.mtUserPass ≠ []) : srv.Guarded now wp ↔
    srv.Authorised wp ∨ srv.wirelessRefused wp = true ∨ srv.Taken wp.condensed ∨
      ¬wp.condensed.Exempt ∧
        ¬(191 < (a1 wp.toCredentials srv.mtUserPass).length ∧ srv.DigestAccepted now wp) := by
  by_cases ha : srv.Authorised wp
  · simp only [ha, true_or, iff_true]
    exact fun _ _ _ => ha
  rw [guarded_iff_taken hu hp ha]
  by_cases hw : srv.wirelessRefused wp = true
  · have hrefused : srv.checkAccess now wp.condensed ≠ some .pass := by
      rw [checkAccess, if_pos (show srv.wirelessRefused wp.condensed = true from hw)]
      simp
    simp [hw, hrefused]
  have hw' : srv.wirelessRefused wp.condensed = false := Bool.eq_false_iff.mpr hw
  by_cases he : wp.condensed.Exempt
  · simp [ha, hw, he, checkAccess_of_exempt hw' he]
  · have hpass : srv.checkAccess now wp.condensed = some .pass ↔ srv.DigestAccepted now wp :=
      checkAccess_pass_iff hw' he ha
    have hcut : 191 < (a1 wp.toCredentials srv.mtUserPass).length ∧ srv.DigestAccepted now wp ↔
        srv.DigestAccepted now wp := ⟨And.right, fun h => ⟨h.cut ha, h⟩⟩
    rw [hpass, hcut]
    simp only [ha, hw, he, false_or, not_false_eq_true, true_and, Bool.false_eq_true]
    exact ⟨fun h => or_iff_not_imp_right.mpr fun hd => h (not_not.mp hd), fun h hd => h.resolve_right (not_not.mpr hd)⟩

end Server

def adminServer : Server where
  mtUserName := text "admin"
  mtUserPass := text "secret"
  authTimeout := 0
  lastAuth := 0
  wirelessMgmtEnabled := text "1"
  isIPFromWLS _ := false
  websIpaddr := text "0.0.0.0"
  websHost := text "localhost"
  md5 := id
  websHNAPHandler _ := true
  websStatisticsHandler _ := true

def strangerRequest (url : String) : Webs :=
  websParseFirst (text "192.168.1.9") (text "GET") (text url) .empty

theorem strangerRequest_not_authorised (url : String) : ¬adminServer.Authorised (strangerRequest url) := by
  rintro (h | h | h)
  · exact absurd h (show ¬adminServer.localRequest ⟨.empty, text "192.168.1.9", [], [], [], []⟩ = true by decide)
  · exact absurd h (by simp [strangerRequest, websParseFirst, Credentials.empty])
  · exact absurd h.1 Bool.false_ne_true

theorem guarded_iff_statusPage : adminServer.mtUserName ≠ [] ∧ adminServer.mtUserPass ≠ [] ∧
    adminServer.Guarded 0 (strangerRequest "/network/ap_network.asp") :=
  ⟨by decide, by decide, (Server.guarded_iff (by decide) (by decide)).mpr (Or.inr (Or.inr (Or.inr
    ⟨by decide, fun h => absurd h.2.2.1 Bool.false_ne_true⟩)))⟩

theorem dumpFirmware_unguarded :
    adminServer.websUrlHandlerRequest 0 (strangerRequest "/goform/dumpFirmware?/HNAP1") = [.security, .form] ∧
    formName (strangerRequest "/goform/dumpFirmware?/HNAP1").path = some (text "dumpFirmware") ∧
    ¬adminServer.Guarded 0 (strangerRequest "/goform/dumpFirmware?/HNAP1") := by
  have hrun : adminServer.websUrlHandlerRequest 0 (strangerRequest "/goform/dumpFirmware?/HNAP1") =
      [.security, .form] := by decide
  refine ⟨hrun, by decide, fun hg => ?_⟩
  exact strangerRequest_not_authorised _ (hg .form (by rw [hrun]; decide) (by decide))

end Wap610n.Web
