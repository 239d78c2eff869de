import Wap610n.Web.Digest

namespace Wap610n.Web

open Bytes CString

inductive Handler
  | security | virtualDir | statistics | form | cgi | hnap | homePage | default
deriving DecidableEq, Repr

/-- The configuration, and the two handlers that the tree has in binary form only. -/
structure Server where
  mtUserName : List UInt8
  mtUserPass : List UInt8
  authTimeout : ℤ
  lastAuth : ℤ
  wirelessMgmtEnabled : List UInt8
  isIPFromWLS : List UInt8 → Bool
  websIpaddr : List UInt8
  websHost : List UInt8
  md5 : List UInt8 → List UInt8
  websHNAPHandler : Webs → Bool
  websStatisticsHandler : Webs → Bool

inductive Verdict
  | pass
  | refuse (code : ℕ) (msg : String)
deriving DecidableEq

namespace Server

def localRequest (srv : Server) (wp : Webs) : Bool :=
  wp.ipaddr = text "127.0.0.1" ∨ wp.ipaddr = srv.websIpaddr ∨ wp.ipaddr = srv.websHost

def requestPassword (srv : Server) (now : ℤ) (wp : Webs) : List UInt8 :=
  if srv.authTimeout > 0 ∧ now > srv.lastAuth + srv.authTimeout then [] else wp.password.getD []

def wirelessRefused (srv : Server) (wp : Webs) : Bool :=
  (strstr srv.wirelessMgmtEnabled (text "0")).isSome ∧ srv.isIPFromWLS wp.ipaddr

/-- `none` is the comparison with a digest that was not sent. -/
def checkAccess (srv : Server) (now : ℤ) (wp : Webs) : Option Verdict :=
  if srv.wirelessRefused wp then some (.refuse 403 "Access Denied\nWireless management is fordidden")
  else if (strstr (text "/mt_stat") wp.url).isSome then some .pass
  else if (strstr (text "/HNAP1") wp.url).isSome then some .pass
  else if srv.localRequest wp then some .pass
  else if srv.requestPassword now wp ≠ [] then
    if srv.requestPassword now wp ≠ srv.mtUserPass then some (.refuse 401 "Access Denied\nWrong Password")
    else some .pass
  else if wp.authDigest then
    wp.digest.map fun digest =>
      if digest ≠ websCalcDigest srv.md5 wp.method wp.toCredentials srv.mtUserPass then
        .refuse 401 "Access Denied\nWrong Password"
      else .pass
  else some (.refuse 401 "Access to this document requires a password")

def websSecurityHandler (srv : Server) (now : ℤ) (wp : Webs) : Option (Verdict × ℤ) :=
  if srv.mtUserName = [] ∨ srv.mtUserPass = [] then some (.pass, srv.lastAuth)
  else (srv.checkAccess now wp).map fun v => (v, if srv.authTimeout > 0 then now else srv.lastAuth)

def runHandler (srv : Server) (now : ℤ) (wp : Webs) : Handler → Option Bool
  | .security => (srv.websSecurityHandler now wp).map fun r => r.1 ≠ .pass
  | .statistics => some (srv.websStatisticsHandler wp)
  | .hnap => some (srv.websHNAPHandler wp)
  | .homePage => some (wp.url = [] ∨ wp.url = text "/")
  | .virtualDir | .form | .cgi | .default => some true

end Server

inductive Position
  | first | inner | last
deriving DecidableEq

structure UrlHandler where
  urlPrefix : List UInt8
  handler : Handler
  position : Position
deriving DecidableEq

def UrlHandler.before (s₁ s₂ : UrlHandler) : Bool :=
  if s₁.position = .first ∨ s₂.position = .last then true
  else if s₂.position = .first ∨ s₁.position = .last then false
  else s₂.urlPrefix < s₁.urlPrefix

def websUrlHandlerDefine (sp : UrlHandler) : List UrlHandler → List UrlHandler
  | [] => [sp]
  | s :: table => if sp.before s then sp :: s :: table else s :: websUrlHandlerDefine sp table

def initWebs : List UrlHandler :=
  [⟨[], .security, .first⟩, ⟨text "/goform", .form, .inner⟩, ⟨text "/cgi-bin", .cgi, .inner⟩,
    ⟨text "/virtualtmp", .virtualDir, .inner⟩, ⟨text "/mt_stat", .statistics, .inner⟩,
    ⟨text "/HNAP1", .hnap, .inner⟩, ⟨[], .default, .last⟩, ⟨text "/", .homePage, .inner⟩].foldl
    (fun table sp => websUrlHandlerDefine sp table) []

theorem initWebs_eq : initWebs = [⟨[], .security, .first⟩, ⟨text "/virtualtmp", .virtualDir, .inner⟩,
    ⟨text "/mt_stat", .statistics, .inner⟩, ⟨text "/goform", .form, .inner⟩, ⟨text "/cgi-bin", .cgi, .inner⟩,
    ⟨text "/HNAP1", .hnap, .inner⟩, ⟨text "/", .homePage, .inner⟩, ⟨[], .default, .last⟩] := by
  decide

def Webs.condensed (wp : Webs) : Webs :=
  { wp with path := websCondenseMultipleChars 47 wp.path, url := websCondenseMultipleChars 47 wp.url }

namespace Server

def handlerLoop (srv : Server) (now : ℤ) (wp : Webs) : List UrlHandler → List Handler
  | [] => []
  | sp :: table =>
    if sp.urlPrefix <+: wp.path then
      sp.handler :: if srv.runHandler now wp sp.handler = some false then srv.handlerLoop now wp table else []
    else srv.handlerLoop now wp table

def websUrlHandlerRequest (srv : Server) (now : ℤ) (wp : Webs) : List Handler :=
  srv.handlerLoop now wp.condensed initWebs

end Server

/-- The form that `websFormHandler` looks up. The buffer holds 254 characters of the path. -/
def formName (path : List UInt8) : Option (List UInt8) :=
  (strchr 47 ((path.take 254).drop 1)).map fun cp => upTo 47 (cp.drop 1)

end Wap610n.Web
