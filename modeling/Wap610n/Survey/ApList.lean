import Wap610n.Lib.Bytes
import Wap610n.Lib.Stdio

/-!
`hnap_prepare_ap_list`, which makes the list of access points from the file that `iwlist` has written. The result is
`none` where the function follows a null pointer, leaves an array or prints one that holds no string.
-/

namespace Wap610n.Survey

open Bytes CString Stdio

structure Ie where
  wpaType : ℕ
  cipherType : ℕ
  authType : ℕ

structure Ap where
  address : List UInt8
  essid : List UInt8
  mode : ℕ
  is5G : ℕ
  channel : ℤ
  isHT : ℕ
  is40 : ℕ
  wepOn : ℕ
  ie1 : Ie
  ie2 : Ie
  supportWPS : ℕ

def Ap.cleared : Ap := ⟨[], [], 0, 0, 0, 0, 0, 0, ⟨0, 0, 0⟩, ⟨0, 0, 0⟩, 0⟩

structure Levels where
  quality : List UInt8
  signal : List UInt8
  noise : List UInt8

/-- `levels` is `none` until a line stores into the three arrays. -/
structure ApScan where
  ap : Ap
  levels : Option Levels
  firstAP : Bool
  i : ℕ
  numOfAp : ℤ
  listBuf : List UInt8

def has (needle : String) (s : List UInt8) : Bool := (strstr (text needle) s).isSome

def skipBlanks (s : List UInt8) : List UInt8 := s.dropWhile fun c => c = 32

def showInt (n : ℤ) : List UInt8 := if n < 0 then 45 :: showNat n.natAbs else showNat n.natAbs

def apInfo (ap : Ap) (levels : Levels) : List UInt8 :=
  List.intercalate [13]
    [ap.address, ap.essid, showNat ap.mode, showNat ap.is5G, showInt ap.channel, showNat ap.isHT, showNat ap.is40,
      showNat ap.wepOn, showNat ap.ie1.wpaType, showNat ap.ie1.cipherType, showNat ap.ie1.authType,
      showNat ap.ie2.wpaType, showNat ap.ie2.cipherType, showNat ap.ie2.authType, levels.quality, levels.signal,
      levels.noise, showNat ap.supportWPS]

def tmpApInfo (s : ApScan) (separator : List UInt8) : Option (List UInt8) :=
  s.levels.bind fun levels =>
    if (apInfo s.ap levels ++ separator).length < 130 then some (apInfo s.ap levels ++ separator) else none

def noEssid : List UInt8 := text "\"\""

def closeAp (s : ApScan) : Option ApScan :=
  (tmpApInfo s [9]).map fun info =>
    if s.ap.essid = noEssid then { s with numOfAp := s.numOfAp - 1 }
    else if 2 < s.ap.essid.length then { s with listBuf := s.listBuf ++ info }
    else s

def cellAddress (tmpBuf : List UInt8) : Option (List UInt8) :=
  match strstr (text "Address") tmpBuf with
  | none => some []
  | some tagName =>
    (strchr 58 tagName).bind fun colon =>
      let tagValue := skipBlanks (colon.drop 1)
      -- 17 bytes are copied out of the buffer, which is clear behind the line
      if tmpBuf.length - tagValue.length + 17 ≤ 1024 then some (upTo 0 (tagValue.take 17)) else none

def cellStep (s : ApScan) (tmpBuf : List UInt8) : Option ApScan :=
  (if s.firstAP then some s else closeAp s).bind fun s =>
    (cellAddress tmpBuf).map fun address =>
      { s with ap := { Ap.cleared with address }, firstAP := false, i := s.i + 1 }

def setExtra (ap : Ap) (tagValue : List UInt8) : Ap :=
  if tagValue = text "5.2 band" then { ap with is5G := 1 }
  else if tagValue = text "HT" then { ap with isHT := 1 }
  else if tagValue = text "40 MHz" then { ap with is40 := 1 }
  else if tagValue = text "WPS" ∧ tagValue ≠ text "not WPS" then { ap with supportWPS := 1 }
  else ap

def setWpaType (ap : Ap) (wpaType : ℕ) : Ap :=
  if ap.ie1.wpaType = 0 then { ap with ie1 := { ap.ie1 with wpaType } }
  else if ap.ie2.wpaType = 0 then { ap with ie2 := { ap.ie2 with wpaType } }
  else ap

def cipherOf (tagValue : List UInt8) : ℕ :=
  if has "TKIP" tagValue ∧ has "CCMP" tagValue then 3
  else if has "TKIP" tagValue then 1
  else if has "CCMP" tagValue then 2
  else 3

def setCipherType (ap : Ap) (cipherType : ℕ) : Ap :=
  if ap.ie1.wpaType ≠ 0 ∧ ap.ie1.cipherType = 0 then { ap with ie1 := { ap.ie1 with cipherType } }
  else if ap.ie2.wpaType ≠ 0 ∧ ap.ie2.cipherType = 0 then { ap with ie2 := { ap.ie2 with cipherType } }
  else ap

def setAuthType (ap : Ap) (authType : ℕ) : Ap :=
  if ap.ie1.wpaType ≠ 0 ∧ ap.ie1.authType = 0 then { ap with ie1 := { ap.ie1 with authType } }
  else if ap.ie2.wpaType ≠ 0 ∧ ap.ie2.authType = 0 then { ap with ie2 := { ap.ie2 with authType } }
  else ap

def setTag (ap : Ap) (tagName tagValue : List UInt8) : Ap :=
  if tagName = text "Channel" then { ap with channel := atoi tagValue }
  else if tagName = text "Encryption key" then if tagValue = text "on" then { ap with wepOn := 1 } else ap
  else if tagName = text "Extra" then setExtra ap tagValue
  else if tagName = text "IE" then setWpaType ap (if has "WPA2" tagValue then 2 else 1)
  else if has "Pairwise Ciphers" tagName then setCipherType ap (cipherOf tagValue)
  else if has "Authentication Suites" tagName then setAuthType ap (if text "PSK" <+: tagValue then 1 else 2)
  else if has "Mode" tagName then if text "Auto" <+: tagValue then { ap with mode := 1 } else ap
  else ap

def tagOf (tmpBuf : List UInt8) : List UInt8 := skipBlanks (upTo 58 tmpBuf)

def tagStep (s : ApScan) (tmpBuf colon : List UInt8) : Option ApScan :=
  let tagValue := skipBlanks (colon.drop 1)
  -- a line without an end gives no place for the closing NUL
  (strchr 10 tagValue).bind fun _ =>
    let tagValue := upTo 10 tagValue
    if tagOf tmpBuf = text "ESSID" then
      if tagValue.length < 128 then some { s with ap := { s.ap with essid := tagValue } } else none
    else some { s with ap := setTag s.ap (tagOf tmpBuf) tagValue }

/-- One of the three values behind `name` and the blank that ends it. A value of five characters leaves no place for
the closing NUL. -/
def copyLevel (name : String) (s : List UInt8) : Option (List UInt8 × List UInt8) :=
  (strstr (text name) s).bind fun tagName =>
    (strchr 61 tagName).bind fun equals =>
      (strchr 32 (equals.drop 1)).bind fun strEnd =>
        let value := (equals.drop 1).take ((equals.drop 1).length - strEnd.length)
        if value.length < 5 then some (value, strEnd) else none

def readLevels (tmpBuf : List UInt8) : Option Levels :=
  (copyLevel "Quality" tmpBuf).bind fun (quality, strEnd) =>
    (copyLevel "Signal level" strEnd).bind fun (signal, strEnd) =>
      (copyLevel "Noise level" strEnd).map fun (noise, _) => ⟨quality, signal, noise⟩

def lineStep (s : ApScan) (line : List UInt8) : Option ApScan :=
  let tmpBuf := upTo 0 line
  if has "Cell" tmpBuf then cellStep s tmpBuf
  else
    match strchr 58 tmpBuf with
    | some colon => tagStep s tmpBuf colon
    | none =>
      if has "Quality" tmpBuf then (readLevels tmpBuf).map fun levels => { s with levels := some levels }
      else some s

def lastAp (s : ApScan) : Option (ℤ × List UInt8) :=
  if s.i = 0 then some (s.numOfAp, s.listBuf)
  else
    (tmpApInfo s []).bind fun info =>
      if s.ap.essid = noEssid then
        (strrchr 9 s.listBuf).map fun endPtr =>
          (s.numOfAp - 1, s.listBuf.take (s.listBuf.length - endPtr.length))
      else if 2 < s.ap.essid.length then some (s.numOfAp, s.listBuf ++ info)
      else some (s.numOfAp, s.listBuf)

def countCells (ls : List (List UInt8)) : ℕ := ls.countP fun line => has "Cell" (upTo 0 line)

/-- The return value and `listBuf`; `file` is `none` when the listing cannot be opened. -/
def hnapPrepareApList (file : Option (List UInt8)) (listBuf : List UInt8) : Option (ℤ × List UInt8) :=
  match file with
  | none => some (-1, listBuf)
  | some content =>
    let numOfAp := countCells (lines 1024 content)
    let s : ApScan := ⟨Ap.cleared, none, true, 0, numOfAp, listBuf ++ (showNat numOfAp ++ text ";")⟩
    -- the first line is the header
    (((lines 1024 content).drop 1).foldlM lineStep s).bind lastAp

end Wap610n.Survey
