import Mathlib.Data.List.DropRight
import Wap610n.Lib.CString
import Wap610n.Web.Base64

namespace Wap610n.Discover

open Bytes CString Web

structure DeviceDiscover where
  action : BitVec 8 := 0
  host : List UInt8 := []
  st : List UInt8 := []
  forward : Bool := false
  sphy : List UInt8 := []
  dphy : List UInt8 := []
  cseq : BitVec 16 := 0
  authorizated : Bool := false
  legalContent : Bool := false
  contentLength : BitVec 16 := 0
  supportedAction : Bool := false
  devphy : List UInt8

def isBlank (c : UInt8) : Bool := c = 32 ∨ c = 9

def ddExtractHeaderValue (hvPair : List UInt8) : List UInt8 × List UInt8 :=
  ((upTo 58 hvPair).rdropWhile isBlank,
    ((hvPair.drop ((upTo 58 hvPair).length + 1)).dropWhile isBlank).rdropWhile isBlank)

/-- Whether it returns 0; `none` is a value without a blank, where it copies from a null pointer. -/
def ddVerifyAuthorization (sysPassword value : List UInt8) : Option Bool :=
  (strchr 32 value).map fun ePtr =>
    let authCert := ePtr.dropWhile isBlank
    let b64decodeAuthCert := upTo 0 (b64Decode authCert authCert.length)
    upTo 32 value = text "Basic" ∧ 58 ∈ b64decodeAuthCert ∧
      (ddExtractHeaderValue b64decodeAuthCert).2 = sysPassword

def ddCheckActionName (value : List UInt8) : Bool :=
  upTo 34 (value.dropWhile fun c => c = 34) = text "http://purenetworks.com/HNAP1/SetIpSettings"

inductive Field
  | host | st | forward | sphy | dphy | cseq | authorization | contentType | contentLength | soapAction
deriving DecidableEq

def Field.name : Field → List UInt8
  | .host => text "HOST"
  | .st => text "ST"
  | .forward => text "Forward"
  | .sphy => text "SPhy"
  | .dphy => text "DPhy"
  | .cseq => text "CSeq"
  | .authorization => text "Authorization"
  | .contentType => text "Content-Type"
  | .contentLength => text "Content-Length"
  | .soapAction => text "SOAPAction"

def fieldOf (header : List UInt8) : Option Field :=
  [Field.host, .st, .forward, .sphy, .dphy, .cseq, .authorization, .contentType, .contentLength, .soapAction].find?
    fun f => header = f.name

def setField (sysPassword value : List UInt8) (ddi : DeviceDiscover) : Field → Option DeviceDiscover
  | .host => some (if value.length < 22 then { ddi with host := value } else ddi)
  | .st => some (if value.length < 32 then { ddi with st := value } else ddi)
  | .forward => some (
      if sameIgnoringCase value (text "true") then { ddi with forward := true }
      else if sameIgnoringCase value (text "false") then { ddi with forward := false }
      else ddi)
  | .sphy => some (if value.length < 18 then { ddi with sphy := value } else ddi)
  | .dphy => some (if value.length < 18 then { ddi with dphy := value } else ddi)
  | .cseq => some (if 1 ≤ atoi value ∧ atoi value ≤ 65535 then { ddi with cseq := BitVec.ofInt 16 (atoi value) } else ddi)
  | .authorization =>
    if value = [] then some { ddi with authorizated := false }
    else (ddVerifyAuthorization sysPassword value).map fun ok => { ddi with authorizated := ok }
  | .contentType => some { ddi with legalContent := true }
  | .contentLength => some { ddi with contentLength := BitVec.ofInt 16 (atoi value) }
  | .soapAction => some { ddi with supportedAction := ddCheckActionName value }

def searchLine : List UInt8 := text "SEARCH * HTTP/1.1"

def capabilityLine : List UInt8 := text "GET /HNAP1/CAP HTTP/1.1"

def configLine : List UInt8 := text "POST /HNAP1/ HTTP/1.1"

def ddParseHeader (sysPassword hvPair : List UInt8) (ddi : DeviceDiscover) : Option DeviceDiscover :=
  if hvPair = searchLine then some { ddi with action := ddi.action ||| 0x01#8 }
  else if hvPair = capabilityLine then some { ddi with action := ddi.action ||| 0x02#8 }
  else if hvPair = configLine then some { ddi with action := ddi.action ||| 0x04#8 }
  else if 58 ∈ hvPair then
    match fieldOf (ddExtractHeaderValue hvPair).1 with
    | some f => setField sysPassword (ddExtractHeaderValue hvPair).2 ddi f
    | none => some ddi
  else some ddi

end Wap610n.Discover
