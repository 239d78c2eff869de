import Wap610n.Lib.Bytes
import Wap610n.Lib.Stdio

/-!
`isIPFromWLS` of `security.c` over the three listings it reads. A result of `none` is the use of a local array that
nothing was stored into, or a word that does not fit its array.
-/

namespace Wap610n.Web

open Bytes CString Stdio

/-- The listings; `none` is one that cannot be opened. -/
structure Listings where
  brctlShow : Option (List UInt8)
  brctlShowmacs : Option (List UInt8)
  procNetArp : Option (List UInt8)

def Contains (needle buff : List UInt8) : Prop := (strstr needle (upTo 0 buff)).isSome

instance (needle buff : List UInt8) : Decidable (Contains needle buff) := inferInstanceAs (Decidable (_ = true))

def wlsPortLoop : ℤ → List (List UInt8) → ℤ
  | _, [] => -1
  | portNum, buff :: rest =>
    if Contains (text "bridge name") buff then wlsPortLoop portNum rest
    else if Contains (text "wlan0") buff then portNum
    else wlsPortLoop (portNum + 1) rest

def getWLSBridgePort (brctlShow : Option (List UInt8)) : Option ℤ :=
  match brctlShow with
  | none => some (-1)
  | some content => (feofReads 255 content).map (wlsPortLoop 1)

def macPortLoop (mac : List UInt8) (port macaddr : Option (List UInt8)) : List (List UInt8) → Option ℤ
  | [] => some (-1)
  | buff :: rest =>
    if Contains (text "port no mac addr") buff then macPortLoop mac port macaddr rest
    else
      (sscanf [.word 20, .word 30] (upTo 0 buff)).bind fun values =>
        let port := storeWord values 0 port
        let macaddr := storeWord values 1 macaddr
        macaddr.bind fun m =>
          if m ≠ [] ∧ m = mac then port.map atoi else macPortLoop mac port macaddr rest

def getBridgPortForMAC (brctlShowmacs : Option (List UInt8)) (mac : List UInt8) : Option ℤ :=
  match brctlShowmacs with
  | none => some (-1)
  | some content => (feofReads 255 content).bind (macPortLoop mac none none)

def arpLoop (ip : List UInt8) (ipaddr macaddr : Option (List UInt8)) (mac : List UInt8) :
    List (List UInt8) → Option (List UInt8)
  | [] => some mac
  | buff :: rest =>
    if Contains (text "IP address") buff then arpLoop ip ipaddr macaddr mac rest
    else
      (sscanf [.word 30, .word 30, .word 30, .word 30] (upTo 0 buff)).bind fun values =>
        let ipaddr := storeWord values 0 ipaddr
        let macaddr := storeWord values 3 macaddr
        ipaddr.bind fun a =>
          if a ≠ [] ∧ a = ip then macaddr.bind fun m => arpLoop ip ipaddr macaddr m rest
          else arpLoop ip ipaddr macaddr mac rest

def ipToMAC (procNetArp : Option (List UInt8)) (ip : List UInt8) : Option (List UInt8) :=
  match procNetArp with
  | none => some []
  | some content => (feofReads 255 content).bind (arpLoop ip none none [])

def Listings.isIPFromWLS (l : Listings) (ip : List UInt8) : Option Bool :=
  (ipToMAC l.procNetArp ip).bind fun mac =>
    (getBridgPortForMAC l.brctlShowmacs (mac.map toLower)).bind fun port =>
      (getWLSBridgePort l.brctlShow).map fun wls => port = wls

def rows (header : String) (content : List UInt8) : List (List UInt8) :=
  (lines 255 content).filter fun buff => ¬Contains (text header) buff

def IsField (w row : List UInt8) : Prop :=
  ∃ a b, row = a ++ w ++ b ∧ (∀ c ∈ a.getLast?, isSpace c = true) ∧ ∀ c ∈ b.head?, isSpace c = true

def arpFields (row : List UInt8) : List (List UInt8) := fields 4 (upTo 0 row)

def macFields (row : List UInt8) : List (List UInt8) := fields 2 (upTo 0 row)

def OfAddress (ip row : List UInt8) : Prop := (arpFields row).head? = some ip

instance (ip row : List UInt8) : Decidable (OfAddress ip row) := inferInstanceAs (Decidable (_ = _))

def OfMac (mac row : List UInt8) : Prop := (macFields row)[1]? = some mac

instance (mac row : List UInt8) : Decidable (OfMac mac row) := inferInstanceAs (Decidable (_ = _))

def arpRow (content ip : List UInt8) : Option (List UInt8) :=
  (rows "IP address" content).reverse.find? fun row => OfAddress ip row

namespace Listings

variable (l : Listings)

def WlanListed : Prop :=
  ∃ content ∈ l.brctlShow, ∃ row ∈ rows "bridge name" content, IsField (text "wlan0") (upTo 0 row)

def ArpMaps (ip mac : List UInt8) : Prop :=
  ∃ content ∈ l.procNetArp, ∃ row ∈ arpRow content ip, (arpFields row)[3]? = some mac

def MacListed (mac : List UInt8) : Prop :=
  ∃ content ∈ l.brctlShowmacs, ∃ row ∈ rows "port no mac addr" content, OfMac mac row

def FromWlan (ip : List UInt8) : Prop := l.WlanListed ∧ ∃ mac, l.ArpMaps ip mac ∧ l.MacListed (mac.map toLower)

end Listings

/-- In each row the words fit their arrays, the first row has a field, and an address has a MAC in its row or in one
before it. -/
def ArpLegible (ip : List UInt8) (table : List (List UInt8)) : Prop :=
  ∀ before row, before ++ [row] <+: table → Fit [30, 30, 30, 30] (upTo 0 row) ∧ (before = [] → arpFields row ≠ []) ∧
    (OfAddress ip row → ∃ r ∈ before ++ [row], 4 ≤ (arpFields r).length)

def MacFits (mac : List UInt8) (table : List (List UInt8)) : Prop :=
  ∀ before row, before ++ [row] <+: table → (∀ r ∈ before, ¬OfMac mac r) → Fit [20, 30] (upTo 0 row)

def MacLegible (mac : List UInt8) (table : List (List UInt8)) : Prop :=
  MacFits mac table ∧ ∀ row ∈ table.head?, 2 ≤ (macFields row).length

def lastField (i : ℕ) (table : List (List UInt8)) : Option (List UInt8) :=
  table.reverse.findSome? fun row => (arpFields row)[i]?

/-- The last MAC down to the last row of the address, be it in that row or left from one before. -/
def leftMac (ip : List UInt8) (table : List (List UInt8)) : List UInt8 :=
  ((table.reverse.dropWhile fun row => ¬OfAddress ip row).findSome? fun row => (arpFields row)[3]?).getD []

namespace Listings

variable (l : Listings) (ip : List UInt8)

def arpMac : List UInt8 := (l.procNetArp.map fun content => leftMac ip (rows "IP address" content)).getD []

def foundMac : List UInt8 := (l.arpMac ip).map toLower

def macPort (mac : List UInt8) : Option ℤ :=
  l.brctlShowmacs.bind fun content =>
    ((rows "port no mac addr" content).find? fun row => OfMac mac row).map fun row => atoi ((macFields row).headD [])

def wlanPort : Option ℤ :=
  l.brctlShow.bind fun content =>
    ((rows "bridge name" content).findIdx? fun row => Contains (text "wlan0") row).map fun i : ℕ => (i : ℤ) + 1

structure Legible : Prop where
  arp : ∀ content ∈ l.procNetArp, content ≠ [] ∧ ArpLegible ip (rows "IP address" content)
  macs : ∀ content ∈ l.brctlShowmacs, content ≠ [] ∧ MacLegible (l.foundMac ip) (rows "port no mac addr" content)
  interfaces : ∀ content ∈ l.brctlShow, content ≠ []

def ArpComplete : Prop := ∃ content ∈ l.procNetArp, ∃ row ∈ arpRow content ip, 4 ≤ (arpFields row).length

def Tells : Prop :=
  match l.wlanPort, l.macPort (l.foundMac ip) with
  | none, none => False
  | none, some port => port ≠ -1
  | some _, none => True
  | some wls, some port => port = wls → l.WlanListed ∧ l.ArpComplete ip

end Listings

end Wap610n.Web
