import Wap610n.Lib.Search
import Wap610n.Web.Digest
import Wap610n.Web.Receive

/-!
`extractUploadedFileContent` and `websSetEnv`. A pointer into the posted data is the memory from there on:
the rest of the data, which no NUL closes, and the heap behind it up to its first NUL.
-/

namespace Wap610n.Web

open Bytes CString Search

def gstrstr (needle : List UInt8) : List UInt8 → Option (List UInt8) := find 0 needle

def gstrchr (c : UInt8) : List UInt8 → Option (List UInt8) := findChar 0 c

/-- The inner loop of `xmemstr`; `none` when the block ends before the pattern does. -/
def xmemCompare : List UInt8 → List UInt8 → ℕ → Option Bool
  | [], _, _ => some true
  | _ :: _, _, 0 => none
  | _ :: _, [], _ + 1 => none
  | chFind :: locFind, chMem :: locMem, szMem + 1 =>
    if chMem ≠ chFind then some false else xmemCompare locFind locMem szMem

def xmemstrFrom (firstFindCh : UInt8) (find : List UInt8) : List UInt8 → ℕ → Option (List UInt8)
  | _, 0 => none
  | [], _ + 1 => none
  | chMem :: memBlk, memSize + 1 =>
    if chMem = firstFindCh then
      match xmemCompare find memBlk memSize with
      | none => none
      | some true => some (chMem :: memBlk)
      | some false => xmemstrFrom firstFindCh find memBlk memSize
    else xmemstrFrom firstFindCh find memBlk memSize

def xmemstr (memBlk find : List UInt8) (memSize : ℕ) : Option (List UInt8) :=
  match find with
  | [] => some memBlk
  | firstFindCh :: find => xmemstrFrom firstFindCh find memBlk memSize

def clip (size len : ℤ) : ℕ := (if len < size then len else size - 1).toNat

def afterBlankLine : List UInt8 → Option (List UInt8)
  | 10 :: part => some part
  | 13 :: 10 :: part => some part
  | _ => none

def endOfHeader : List UInt8 → Option (List UInt8)
  | [] => none
  | c :: part =>
    if c = 0 then none
    else if c = 10 then
      match afterBlankLine part with
      | some body => some body
      | none => endOfHeader part
    else endOfHeader part

def uploadedName (startStr : List UInt8) : List UInt8 :=
  match gstrchr 34 (startStr.drop 10) with
  | none => []
  | some endStr =>
    let valLen : ℤ := (startStr.drop 10).length - endStr.length
    if valLen > 0 then text "filename=" ++ (startStr.drop 10).take (clip maxLine valLen) else []

def parameterText (startStr part : List UInt8) (partLen : ℤ) : List UInt8 :=
  match gstrchr 34 (startStr.drop 17) with
  | none => []
  | some endStr =>
    let valLen : ℤ := (startStr.drop 17).length - endStr.length
    if valLen > 0 then
      let nameStr := (startStr.drop 17).take (clip maxLine valLen) ++ text "="
      if partLen > 0 then nameStr ++ (upTo 0 part).take (clip (maxLine - nameStr.length) partLen) else nameStr
    else []

def appendQuery (query data : List UInt8) : List UInt8 := if query = [] then data else query ++ 38 :: data

def appendName (query nameStr : List UInt8) : List UInt8 :=
  if nameStr = [] then query else appendQuery query nameStr

structure Extracted where
  query : List UInt8
  fileContent : List UInt8
  fileContentLen : ℤ

structure Scan extends Extracted where
  endPart : Option (List UInt8)
  firstUploadFile : Bool

/-- What becomes of a part between `part` and `endPart`; `buf` is the line that describes it. -/
def storePart (s : Scan) (buf part endPart : List UInt8) : Scan :=
  -- the two characters in front of the boundary are a line end
  let partLen : ℤ := part.length - endPart.length - 2
  match gstrstr (text "filename=") buf with
  | some startStr =>
    if s.firstUploadFile then { s with endPart := some endPart }
    else ⟨⟨appendName s.query (uploadedName startStr), part, partLen⟩, some endPart, true⟩
  | none =>
    match gstrstr (text "form-data; name=") buf with
    | some startStr =>
      { s with endPart := some endPart, query := appendName s.query (parameterText startStr part partLen) }
    | none => { s with endPart := some endPart }

/-- One turn of the loop, from the boundary on; `lenHeap` is the length of the heap behind the data. -/
def scanPart (boundary : List UInt8) (lenHeap : ℕ) (s : Scan) (part : List UInt8) : Scan :=
  match gstrchr 10 part with
  | none => { s with endPart := none }
  | some part =>
    let part := part.drop 1
    match gstrstr (text "Content-Disposition") part with
    | none => { s with endPart := some part }
    | some _ =>
      match gstrchr 10 part with
      | none => s
      | some endLine =>
        let buf := part.take (clip maxLine (part.length - endLine.length))
        match endOfHeader part with
        | none => { s with endPart := none }
        | some part =>
          match xmemstr part boundary (part.length - lenHeap) with
          | none => { s with endPart := none }
          | some endPart => storePart s buf part endPart

/-- Without result when the loop does not end within `fuel` turns. -/
def scanParts (boundary : List UInt8) (lenHeap : ℕ) : ℕ → Scan → Option Extracted
  | fuel, s =>
    match s.endPart.bind (gstrstr boundary) with
    | none => some s.toExtracted
    | some part =>
      match fuel with
      | 0 => none
      | fuel + 1 => scanParts boundary lenHeap fuel (scanPart boundary lenHeap s part)

structure Post extends Webs, Extracted where
  protoVersion : List UInt8
  multipartForm : Bool
  multiPartBoundary : Option (List UInt8)
  postData : Option (List UInt8)
  heap : List UInt8

def appendPostData (wp : Post) : Post :=
  match wp.postData with
  | none => wp
  -- the query is read up to its first NUL from here on
  | some data => { wp with query := upTo 0 (appendQuery wp.query data) }

def extractUploadedFileContent (wp : Post) : Option Post :=
  if wp.fileContentLen < 0 then some wp
  else
    match wp.multiPartBoundary with
    | none => some (appendPostData wp)
    | some boundary =>
      let endPart := wp.postData.map (· ++ wp.heap)
      -- a turn that does not move forward is repeated for ever
      (scanParts boundary wp.heap.length (endPart.getD []).length ⟨wp.toExtracted, endPart, false⟩).map fun u =>
        { wp with toExtracted := u }

structure ServerNames where
  websHost : List UInt8
  websHostUrl : List UInt8
  websIpaddr : List UInt8
  portBuf : List UInt8

def Vars : Type := List UInt8 → Option (List UInt8)

def websSetVar (vars : Vars) (var value : List UInt8) : Vars := fun v => if v = var then some value else vars v

def cgiVars (server : ServerNames) (wp : Post) : List (List UInt8 × List UInt8) :=
  [(text "QUERY_STRING", wp.query),
   (text "GATEWAY_INTERFACE", text "CGI/1.1"),
   (text "SERVER_HOST", server.websHost),
   (text "SERVER_NAME", server.websHost),
   (text "SERVER_URL", server.websHostUrl),
   (text "REMOTE_HOST", wp.ipaddr),
   (text "REMOTE_ADDR", wp.ipaddr),
   (text "PATH_INFO", wp.path),
   (text "SERVER_PORT", server.portBuf),
   (text "SERVER_ADDR", server.websIpaddr),
   (text "SERVER_SOFTWARE", fmtAlloc 254 (text "GoAhead-Webs" ++ 47 :: text "2.1.8")),
   (text "SERVER_PROTOCOL", wp.protoVersion),
   (text "SERVER_TYPE", text "LINUX")]

def setCgiVars (server : ServerNames) (vars : Vars) (wp : Post) : Vars :=
  (cgiVars server wp).foldl (fun vars v => websSetVar vars v.1 v.2) vars

def keywordValue (token : List UInt8) : List UInt8 × List UInt8 :=
  match strchr 61 token with
  | some value => (upTo 0 (websDecodeUrl (upTo 61 token)), upTo 0 (websDecodeUrl (value.drop 1)))
  | none => (token, [])

def setKeyword (vars : Vars) (p : List UInt8 × List UInt8) : Vars :=
  if p.1 = [] then vars
  else
    match vars p.1 with
    | some valCheck => websSetVar vars p.1 (fmtAlloc 256 (valCheck ++ 32 :: p.2))
    | none => websSetVar vars p.1 p.2

def queryTokens (query : List UInt8) : List (List UInt8) := tokens 38 [] query

def websSetEnv (server : ServerNames) (vars : Vars) (wp : Post) : Option (Vars × Post) :=
  let vars := setCgiVars server vars wp
  (if wp.multipartForm then extractUploadedFileContent wp else some (appendPostData wp)).map fun wp =>
    (((queryTokens wp.query).map keywordValue).foldl setKeyword vars, wp)

end Wap610n.Web
