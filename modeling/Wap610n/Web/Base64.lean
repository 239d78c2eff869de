import Wap610n.Lib.Bytes

namespace Wap610n.Web

open Bytes

def b64Value (c : UInt8) : Option ℕ :=
  if 65 ≤ c ∧ c ≤ 90 then some (c.toNat - 65)
  else if 97 ≤ c ∧ c ≤ 122 then some (c.toNat - 97 + 26)
  else if 48 ≤ c ∧ c ≤ 57 then some (c.toNat - 48 + 52)
  else if c = 43 then some 62
  else if c = 47 then some 63
  else none

structure B64State where
  space : List UInt8 := []
  phase : ℕ := 0
  prev : ℕ := 0

def b64Byte (phase prev d : ℕ) : Option UInt8 :=
  match phase with
  | 0 => none
  | 1 => some (UInt8.ofNat (prev <<< 2 ||| (d &&& 0x30) >>> 4))
  | 2 => some (UInt8.ofNat ((prev &&& 0xf) <<< 4 ||| (d &&& 0x3c) >>> 2))
  | _ => some (UInt8.ofNat ((prev &&& 0x03) <<< 6 ||| d))

def b64Step (size : ℕ) (s : B64State) (c : UInt8) : B64State :=
  match b64Value c with
  | none => s
  | some d =>
    let room := s.space.length < size
    { space := if room then s.space ++ (b64Byte s.phase s.prev d).toList else s.space
      phase := (s.phase + 1) % 4
      prev := d }

def b64Decode (str : List UInt8) (size : ℕ) : List UInt8 := (str.foldl (b64Step size) {}).space

example : b64Decode (text "YWRtaW46\tc2VjcmV0") 99 = text "admin:secret" := by decide

end Wap610n.Web
