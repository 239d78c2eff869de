import Wap610n.Lib.Bytes
import Wap610n.Lib.CString

namespace Wap610n.Web

open Bytes CString

def websDecodeUrl : List UInt8 → List UInt8
  | c :: a :: b :: ip =>
    if c = 43 then 32 :: websDecodeUrl (a :: b :: ip)
    else if c = 37 then
      match hexValue a, hexValue b with
      | some x, some y => UInt8.ofNat (x * 16 + y) :: websDecodeUrl ip
      | _, _ => c :: websDecodeUrl (a :: b :: ip)
    else c :: websDecodeUrl (a :: b :: ip)
  | c :: ip => (if c = 43 then 32 else c) :: websDecodeUrl ip
  | [] => []

/-- Where the port of a full URL begins, or else the host. The character behind a `:` is not looked at. -/
def hostEnd (tok : List UInt8) : List UInt8 → List UInt8
  | c :: d :: cp =>
    if c = 47 then tok
    else if c = 58 then hostEnd (d :: cp) cp
    else hostEnd tok (d :: cp)
  | [c] => if c = 58 then [] else tok
  | [] => tok

def isSlash (c : UInt8) : Bool := c = 47 ∨ c = 92

def trimExtension (path : List UInt8) : List UInt8 :=
  match strrchr 46 path with
  | some cp =>
    let length := (cp.takeWhile fun c => !isSlash c).length
    if (cp.drop length).all isSlash then path.take (path.length - cp.length + length) else path
  | none => path

def websUrlParse (url : List UInt8) : List UInt8 × List UInt8 :=
  -- a decoded NUL ends the string
  let url := upTo 0 (websDecodeUrl url)
  let (path, tok) :=
    if text "http://" <+: url then
      let tok := hostEnd (url.drop 7) (url.drop 7)
      match strchr 47 tok with
      | some cp => (cp, cp)
      | none => (text "/", tok)
    else (url, url)
  let (path, query) :=
    match strchr 63 tok with
    | some cp =>
      let query := upTo 35 (cp.drop 1)
      -- a query that is empty in front of its `#` takes the place of the path
      if (strchr 35 (cp.drop 1)).isSome ∧ query = [] then ([], query) else (upTo 63 tok, query)
    | none => if (strchr 35 tok).isSome then (upTo 35 tok, []) else (path, [])
  (trimExtension path, query)

def websCondenseMultipleChars (cCondense : UInt8) : List UInt8 → List UInt8
  | c :: d :: s =>
    if c = cCondense ∧ d = cCondense then websCondenseMultipleChars cCondense (d :: s)
    else c :: websCondenseMultipleChars cCondense (d :: s)
  | s => s

example : websUrlParse (text "/goform/a%2Fb?x=1#y") = (text "/goform/a/b", text "x=1") := by decide

example : websUrlParse (text "http://ap:80/index.asp//") = (text "/index.asp", []) := by decide

structure Credentials where
  authDigest : Bool
  userName : Option (List UInt8)
  password : Option (List UInt8)
  realm : Option (List UInt8)
  nonce : Option (List UInt8)
  digest : Option (List UInt8)
  uri : Option (List UInt8)
  nc : Option (List UInt8)
  cnonce : Option (List UInt8)
  qop : Option (List UInt8)

def Credentials.empty : Credentials := ⟨false, none, none, none, none, none, none, none, none, none⟩

structure Webs extends Credentials where
  ipaddr : List UInt8
  method : List UInt8
  url : List UInt8
  path : List UInt8
  query : List UInt8

def websParseFirst (ipaddr method url : List UInt8) (c : Credentials) : Webs :=
  { c with ipaddr, method, url, path := (websUrlParse url).1, query := (websUrlParse url).2 }

end Wap610n.Web
