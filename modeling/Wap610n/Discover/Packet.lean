import Wap610n.Discover.Header

namespace Wap610n.Discover

open Bytes CString

/-- `line` is the text from the pointer `tmpPtr` on that has been searched for a CR, and `dataRead` counts the
lines with their CR LF. A CR without LF moves `tmpPtr` behind it. -/
def headerLoop (sysPassword : List UInt8) : List UInt8 → DeviceDiscover → ℕ → List UInt8 → Option (DeviceDiscover × ℕ)
  | line, ddi, dataRead, c :: d :: rest =>
    if c = 13 then
      if d = 10 then
        (ddParseHeader sysPassword line ddi).bind fun ddi =>
          if text "\r\n" <+: rest then some (ddi, dataRead + line.length + 2)
          else headerLoop sysPassword [] ddi (dataRead + line.length + 2) rest
      else headerLoop sysPassword [] ddi dataRead (d :: rest)
    else headerLoop sysPassword (line ++ [c]) ddi dataRead (d :: rest)
  | _, ddi, dataRead, _ => some (ddi, dataRead)

structure Expat where
  parserCreated : Bool
  treeCreated : Bool
  parse : List (List UInt8) → Bool

structure Device where
  mac : Option (Vector UInt8 6)
  sysPassword : List UInt8
  expat : Expat
  heap : ℕ → UInt8

def hexDigit (n : ℕ) : UInt8 := UInt8.ofNat (if n < 10 then 48 + n else 55 + n)

def macText (mac : Vector UInt8 6) : List UInt8 :=
  ((mac.toList.map fun b => [hexDigit (b.toNat / 16), hexDigit (b.toNat % 16)]).intersperse [58]).flatten

def Device.devMac (dev : Device) : List UInt8 := (dev.mac.map macText).getD []

inductive Reply
  | dropped
  | location
  | capability
  | unauthenticated
  | xmlError (msg : String)
  | setIpSettings (request : List (List UInt8))
deriving DecidableEq

def xmlPiece (xmlStart : Bool) (line : List UInt8) : List UInt8 :=
  if xmlStart then line else line.dropWhile fun c => c ≠ 60

/-- Every round reads a byte at least, so the length is fuel enough. -/
def feedLoop (expat : Expat) (body : ℕ → UInt8) (contentLen : ℕ) :
    ℕ → ℕ → Bool → List (List UInt8) → Option (List (List UInt8))
  | 0, _, _, fed => some fed
  | fuel + 1, bodyRead, xmlStart, fed =>
    if bodyRead < contentLen then
      let toread := min (contentLen - bodyRead) 9999
      let line := upTo 0 (slice body bodyRead toread)
      if xmlStart = true ∨ 60 ∈ line then
        let fed := fed ++ [xmlPiece xmlStart line]
        if expat.parse fed then feedLoop expat body contentLen fuel (bodyRead + toread) true fed else none
      else feedLoop expat body contentLen fuel (bodyRead + toread) false fed
    else some fed

def feedBody (dev : Device) (contentLength : ℕ) (bodyContent : List UInt8) : Option (List (List UInt8)) :=
  let body i := if i < bodyContent.length then byteAt bodyContent i else dev.heap i
  if bodyContent = [] then some [] else feedLoop dev.expat body contentLength contentLength 0 false []

def ddProcessNoneLocationDiscovery (dev : Device) (ddi : DeviceDiscover) (bodyContent : List UInt8) : Reply :=
  if dev.expat.parserCreated = false then .xmlError "XML PARSE CREATE ERROR"
  else if dev.expat.treeCreated = false then .xmlError "NEW XML TREE ERROR"
  else
    match feedBody dev ddi.contentLength.toNat bodyContent with
    | none => .xmlError "XML PARSE STATUS NOT OK ERROR"
    | some request =>
      if ddi.action = 0x02#8 then .capability
      else if ddi.action = 0x04#8 then
        if ddi.authorizated then .setIpSettings request else .unauthenticated
      else .dropped

def broadcastMac : List UInt8 := text "FF:FF:FF:FF:FF:FF"

def ddDispatch (dev : Device) (ddi : DeviceDiscover) (bodyContent : List UInt8) : Reply :=
  if ddi.action ≠ 0x01#8 ∧ ddi.action ≠ 0x02#8 ∧ ddi.action ≠ 0x04#8 then .dropped
  else if ddi.action = 0x01#8 ∧ ddi.st ≠ text "hnap:WifiBridge" ∧ ddi.st ≠ text "hnap:all" then .dropped
  else if sameIgnoringCase ddi.dphy broadcastMac = false ∧ sameIgnoringCase ddi.dphy dev.devMac = false then .dropped
  else if sameIgnoringCase ddi.dphy broadcastMac = true ∧ ddi.action = 0x04#8 then .dropped
  else if ddi.action = 0x01#8 then .location
  else if ddi.action = 0x02#8 then ddProcessNoneLocationDiscovery dev ddi []
  else ddProcessNoneLocationDiscovery dev ddi bodyContent

/-- The buffer has a NUL behind the datagram, and `strchr` stops at the first NUL. -/
def ddProcessPacket (dev : Device) (data : List UInt8) : Option Reply :=
  (headerLoop dev.sysPassword [] { devphy := dev.devMac } 0 (upTo 0 data)).bind fun (ddi, dataRead) =>
    -- a negative length makes `malloc` fail and `memset` write through a null pointer
    if data.length < dataRead + 2 then none
    else some (ddDispatch dev ddi (data.drop (dataRead + 2)))

end Wap610n.Discover
