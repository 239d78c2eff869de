import Mathlib.Algebra.Group.Nat.Defs
import Mathlib.Data.Int.Notation
import Wap610n.Lib.Crc32

/-!
CRC-32 from a table, on a machine whose `unsigned long` has `w` bits and whose `char` may be signed. The pointer into the
buffer is the bytes from there on, and `none` is a read outside of it.
-/

namespace Wap610n.CrcTable

open Crc32

variable {w : ℕ}

def charValue (signed : Bool) (c : UInt8) : BitVec 32 :=
  if signed then c.toBitVec.signExtend 32 else c.toBitVec.setWidth 32

section Loop

variable (table : List (BitVec w)) (signed : Bool)

def do1 : BitVec w × List UInt8 → Option (BitVec w × List UInt8)
  | (_, []) => none
  | (crc, c :: buf) =>
    some (table.getD ((crc.setWidth 32 ^^^ charValue signed c) &&& 0xff#32).toNat 0 ^^^ crc >>> 8, buf)

def do2 (s : BitVec w × List UInt8) : Option (BitVec w × List UInt8) := (do1 table signed s).bind (do1 table signed)

def do4 (s : BitVec w × List UInt8) : Option (BitVec w × List UInt8) := (do2 table signed s).bind (do2 table signed)

def do8 (s : BitVec w × List UInt8) : Option (BitVec w × List UInt8) := (do4 table signed s).bind (do4 table signed)

def remainder : ℕ → BitVec w × List UInt8 → Option (BitVec w × List UInt8)
  | 0, s => some s
  | len + 1, s => (do1 table signed s).bind (remainder len)

def unrolled : ℕ → BitVec w × List UInt8 → Option (BitVec w × List UInt8)
  | len + 8, s => (do8 table signed s).bind fun s => unrolled len s
  | len, s => remainder table signed len s

/-- A length below zero never counts down to it, and the last loop leaves the buffer. -/
def crc32 (crc : BitVec w) (buf : List UInt8) (len : ℤ) : Option (BitVec w) :=
  if len < 0 then none
  else
    (unrolled table signed len.toNat (crc ^^^ (0xffffffff#32).setWidth w, buf)).map fun s =>
      s.1 ^^^ (0xffffffff#32).setWidth w

theorem remainder_add (m n : ℕ) (s : BitVec w × List UInt8) :
    remainder table signed (m + n) s = (remainder table signed m s).bind (remainder table signed n) := by
  induction m generalizing s with
  | zero => rw [Nat.zero_add, remainder, Option.bind_some]
  | succ m ih =>
    rw [Nat.add_right_comm, remainder, remainder, Option.bind_assoc]
    congr 1
    funext s
    exact ih s

theorem do8_eq (s : BitVec w × List UInt8) : do8 table signed s = remainder table signed 8 s := by
  have hone : do1 table signed = remainder table signed 1 := by
    funext s
    exact (Option.bind_fun_some _).symm
  have htwo : do2 table signed = remainder table signed 2 := by
    funext s
    rw [do2, hone, remainder_add table signed 1 1]
  have hfour : do4 table signed = remainder table signed 4 := by
    funext s
    rw [do4, htwo, remainder_add table signed 2 2]
  rw [do8, hfour, remainder_add table signed 4 4]

theorem unrolled_eq (len : ℕ) (s : BitVec w × List UInt8) : unrolled table signed len s = remainder table signed len s := by
  fun_induction unrolled table signed len s with
  | case1 len s ih =>
    change _ = remainder table signed (len + 8) s
    rw [do8_eq, Nat.add_comm, remainder_add]
    congr 1
    funext s
    exact ih s
  | case2 => rfl

end Loop

theorem charValue_low (signed : Bool) (crc : BitVec 32) (c : UInt8) :
    (crc ^^^ charValue signed c) &&& 0xff#32 = (crc ^^^ c.toBitVec.setWidth 32) &&& 0xff#32 := by
  have hbits : ∀ i < 8, (charValue signed c).getLsbD i = (c.toBitVec.setWidth 32).getLsbD i := by
    intro i hi
    cases signed
    · rfl
    · rw [charValue, if_pos rfl, BitVec.getLsbD_signExtend, BitVec.getLsbD_setWidth, if_pos hi]
  apply BitVec.eq_of_getLsbD_eq
  intro i hi
  rw [BitVec.getLsbD_and, BitVec.getLsbD_and, getLsbD_mask hi, BitVec.getLsbD_xor, BitVec.getLsbD_xor]
  by_cases hlt : i < 8
  · rw [hbits i hlt]
  · rw [decide_eq_false hlt, Bool.and_false, Bool.and_false]

def Right (table : List (BitVec w)) : Prop := ∀ i < 256, table.getD i 0 = (crcBits 8 (BitVec.ofNat 32 i)).setWidth w

section Table

variable {table : List (BitVec w)} (ht : Right table) (hw : 32 ≤ w) (signed : Bool)

include ht hw

theorem do1_eq (crc : BitVec 32) (c : UInt8) (buf : List UInt8) :
    do1 table signed (crc.setWidth w, c :: buf) = some ((crcByte crc c).setWidth w, buf) := by
  have hlt : ((crc ^^^ c.toBitVec.setWidth 32) &&& 0xff#32).toNat < 256 := by
    rw [BitVec.toNat_and]
    exact Nat.lt_of_le_of_lt Nat.and_le_right (by decide)
  have hshift : crc.setWidth w >>> 8 = (crc >>> 8).setWidth w := by
    apply BitVec.eq_of_toNat_eq
    rw [BitVec.toNat_ushiftRight, BitVec.toNat_setWidth_of_le hw, BitVec.toNat_setWidth_of_le hw, BitVec.toNat_ushiftRight]
  rw [do1, BitVec.setWidth_setWidth_of_le _ hw, BitVec.setWidth_eq, charValue_low, ht _ hlt, BitVec.ofNat_toNat,
    BitVec.setWidth_eq, hshift, ← BitVec.setWidth_xor, ← crcByte_eq]

theorem remainder_eq (crc : BitVec 32) (a buf : List UInt8) :
    remainder table signed a.length (crc.setWidth w, a ++ buf) = some ((a.foldl crcByte crc).setWidth w, buf) := by
  induction a generalizing crc with
  | nil => rfl
  | cons c a ih => rw [List.length_cons, List.cons_append, remainder, do1_eq ht hw, Option.bind_some, ih, List.foldl_cons]

theorem crc32_eq (crc : BitVec 32) (a buf : List UInt8) :
    crc32 table signed (crc.setWidth w) (a ++ buf) a.length = some ((Crc32.crc32 crc a).setWidth w) := by
  rw [crc32, if_neg (by omega), Int.toNat_natCast, unrolled_eq, ← BitVec.setWidth_xor, remainder_eq ht hw,
    Option.map_some, ← BitVec.setWidth_xor]
  rfl

variable {crc : BitVec w} (hcrc : crc.toNat < 2 ^ 32)

include hcrc

theorem crc32_take {buf : List UInt8} {len : ℕ} (hlen : len ≤ buf.length) :
    crc32 table signed crc buf len = some ((Crc32.crc32 (crc.setWidth 32) (buf.take len)).setWidth w) := by
  have hwide : (crc.setWidth 32).setWidth w = crc := by
    apply BitVec.eq_of_toNat_eq
    rw [BitVec.toNat_setWidth_of_le hw, BitVec.toNat_setWidth, Nat.mod_eq_of_lt hcrc]
  have h := crc32_eq ht hw signed (crc.setWidth 32) (buf.take len) (buf.drop len)
  rwa [hwide, List.take_append_drop, List.length_take, Nat.min_eq_left hlen] at h

theorem crc32_compose (a b : List UInt8) :
    (crc32 table signed crc a a.length).bind (fun c => crc32 table signed c b b.length) =
      crc32 table signed crc (a ++ b) (a ++ b).length := by
  have hfirst := crc32_take ht hw signed hcrc (Nat.le_refl a.length)
  have hsecond := crc32_eq ht hw signed (Crc32.crc32 (crc.setWidth 32) a) b []
  rw [List.append_nil] at hsecond
  rw [hfirst, List.take_length, Option.bind_some, hsecond, crc32_append,
    crc32_take ht hw signed hcrc (Nat.le_refl _), List.take_length]

end Table

end Wap610n.CrcTable
