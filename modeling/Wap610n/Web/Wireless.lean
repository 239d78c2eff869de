import Wap610n.Web.Guard

namespace Wap610n.Web

open Bytes CString

namespace Server

variable {srv : Server} {now : ℤ} {wp : Webs}

def Refuses (srv : Server) (now : ℤ) (wp : Webs) : Prop :=
  ∃ code msg lastAuth, srv.websSecurityHandler now wp = some (.refuse code msg, lastAuth)

theorem wirelessRefused_of_disabled (h0 : srv.wirelessMgmtEnabled = text "0") (hw : srv.isIPFromWLS wp.ipaddr = true) :
    srv.wirelessRefused wp = true := by
  have hfound : (strstr (text "0") (text "0")).isSome = true := by decide
  rw [wirelessRefused, h0, hfound, hw]
  rfl

theorem checkAccess_of_wirelessRefused (h : srv.wirelessRefused wp = true) :
    srv.checkAccess now wp = some (.refuse 403 "Access Denied\nWireless management is fordidden") := by
  rw [checkAccess, if_pos h]

theorem handlerLoop_ne_nil {table : List UrlHandler} (sp : UrlHandler) (hmem : sp ∈ table)
    (hpre : sp.urlPrefix <+: wp.path) : srv.handlerLoop now wp table ≠ [] := by
  induction table with
  | nil => exact absurd hmem List.not_mem_nil
  | cons s table ih =>
    rw [handlerLoop]
    split_ifs with hs
    · exact List.cons_ne_nil _ _
    · exact List.cons_ne_nil _ _
    · rcases List.mem_cons.mp hmem with rfl | hmem
      · exact absurd hpre hs
      · exact ih hmem

theorem websUrlHandlerRequest_eq_security_iff :
    srv.websUrlHandlerRequest now wp = [.security] ↔ srv.runHandler now wp.condensed .security ≠ some false := by
  have hnext : srv.handlerLoop now wp.condensed initWebs.tail ≠ [] := by
    apply handlerLoop_ne_nil ⟨[], .default, .last⟩ _ List.nil_prefix
    rw [initWebs_eq]
    simp
  rw [websUrlHandlerRequest, show initWebs = ⟨[], .security, .first⟩ :: initWebs.tail by rw [initWebs_eq]; rfl,
    handlerLoop, if_pos List.nil_prefix]
  split_ifs with hpass
  · simp [hnext, hpass]
  · simp [hpass]

theorem wireless_refused_iff (srv : Server) (now : ℤ) (wp : Webs) (h0 : srv.wirelessMgmtEnabled = text "0")
    (hw : srv.isIPFromWLS wp.ipaddr = true) :
    (srv.Refuses now wp ↔ srv.mtUserName ≠ [] ∧ srv.mtUserPass ≠ []) ∧
      (srv.websUrlHandlerRequest now wp = [.security] ↔ srv.mtUserName ≠ [] ∧ srv.mtUserPass ≠ []) := by
  have hcheck : srv.checkAccess now wp = some (.refuse 403 "Access Denied\nWireless management is fordidden") :=
    checkAccess_of_wirelessRefused (wirelessRefused_of_disabled h0 hw)
  have hw' : srv.isIPFromWLS wp.condensed.ipaddr = true := hw
  have hcondensed : srv.checkAccess now wp.condensed = _ :=
    checkAccess_of_wirelessRefused (wirelessRefused_of_disabled h0 hw')
  rw [websUrlHandlerRequest_eq_security_iff, ← not_or]
  by_cases hopen : srv.mtUserName = [] ∨ srv.mtUserPass = []
  · simp [Refuses, runHandler, websSecurityHandler, hopen]
  · simp [Refuses, runHandler, websSecurityHandler, hopen, hcheck, hcondensed]

end Server

def wirelessServer (password : String) : Server :=
  { adminServer with wirelessMgmtEnabled := text "0", isIPFromWLS := fun _ => true, mtUserPass := text password }

theorem wireless_refused_secret :
    (wirelessServer "secret").Refuses 0 (strangerRequest "/index.asp") ∧
      (wirelessServer "secret").websUrlHandlerRequest 0 (strangerRequest "/index.asp") = [.security] := by
  obtain ⟨hrefuses, honly⟩ :=
    Server.wireless_refused_iff (wirelessServer "secret") 0 (strangerRequest "/index.asp") rfl rfl
  exact ⟨hrefuses.mpr ⟨by decide, by decide⟩, honly.mpr ⟨by decide, by decide⟩⟩

theorem wireless_served_without_password :
    (wirelessServer "").wirelessMgmtEnabled = text "0" ∧
      (wirelessServer "").isIPFromWLS (strangerRequest "/goform/upldImage").ipaddr = true ∧
      (wirelessServer "").websUrlHandlerRequest 0 (strangerRequest "/goform/upldImage") = [.security, .form] :=
  ⟨rfl, rfl, by decide⟩

end Wap610n.Web
