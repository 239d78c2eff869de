import Mathlib.Data.List.Basic

namespace Wap610n.Crc32

def crcBit (c : BitVec 32) : BitVec 32 :=
  if c.getLsbD 0 then (c >>> 1) ^^^ 0xEDB88320#32 else c >>> 1

def crcBits : ℕ → BitVec 32 → BitVec 32
  | 0, c => c
  | n + 1, c => crcBits n (crcBit c)

def crcByte (c : BitVec 32) (b : UInt8) : BitVec 32 := crcBits 8 (c ^^^ b.toBitVec.setWidth 32)

def crc32 (crc : BitVec 32) (buf : List UInt8) : BitVec 32 :=
  buf.foldl crcByte (crc ^^^ BitVec.allOnes 32) ^^^ BitVec.allOnes 32

theorem crc32_nil (crc : BitVec 32) : crc32 crc [] = crc := by
  rw [crc32, List.foldl_nil, BitVec.xor_assoc, BitVec.xor_self, BitVec.xor_zero]

theorem crc32_append (crc : BitVec 32) (a b : List UInt8) :
    crc32 (crc32 crc a) b = crc32 crc (a ++ b) := by
  simp only [crc32, List.foldl_append]
  rw [BitVec.xor_assoc (List.foldl _ _ a), BitVec.xor_self, BitVec.xor_zero]

theorem crcBit_xor (a b : BitVec 32) : crcBit (a ^^^ b) = crcBit a ^^^ crcBit b := by
  unfold crcBit
  rw [BitVec.getLsbD_xor, BitVec.ushiftRight_xor_distrib]
  cases a.getLsbD 0 <;> cases b.getLsbD 0
  · rfl
  · exact BitVec.xor_assoc _ _ _
  · change a >>> 1 ^^^ b >>> 1 ^^^ _ = a >>> 1 ^^^ _ ^^^ b >>> 1
    rw [BitVec.xor_assoc, BitVec.xor_comm (b >>> 1), BitVec.xor_assoc]
  · change a >>> 1 ^^^ b >>> 1 = a >>> 1 ^^^ _ ^^^ (b >>> 1 ^^^ _)
    rw [BitVec.xor_comm (b >>> 1) (0xEDB88320#32), BitVec.xor_assoc (a >>> 1), ← BitVec.xor_assoc (0xEDB88320#32),
      BitVec.xor_self, BitVec.zero_xor]

theorem crcBits_xor (n : ℕ) (a b : BitVec 32) : crcBits n (a ^^^ b) = crcBits n a ^^^ crcBits n b := by
  induction n generalizing a b with
  | zero => rfl
  | succ n ih => rw [crcBits, crcBit_xor, ih, crcBits, crcBits]

theorem crcBits_of_low {n : ℕ} {c : BitVec 32} (h : ∀ i < n, c.getLsbD i = false) : crcBits n c = c >>> n := by
  induction n generalizing c with
  | zero => exact (BitVec.ushiftRight_zero c).symm
  | succ n ih =>
    have hbit : crcBit c = c >>> 1 := by rw [crcBit, h 0 (by omega), if_neg Bool.false_ne_true]
    have hlow : ∀ i < n, (c >>> 1).getLsbD i = false := by
      intro i hi
      rw [BitVec.getLsbD_ushiftRight]
      exact h (1 + i) (by omega)
    rw [crcBits, hbit, ih hlow, ← BitVec.shiftRight_add, Nat.add_comm]

theorem getLsbD_mask {i : ℕ} (hi : i < 32) : (0xff#32).getLsbD i = decide (i < 8) := by
  have hall : ∀ i : Fin 32, (0xff#32).getLsbD i = decide (i.val < 8) := by decide
  exact hall ⟨i, hi⟩

theorem crcBits_eight (c : BitVec 32) : crcBits 8 c = crcBits 8 (c &&& 0xff#32) ^^^ c >>> 8 := by
  have hsplit : c = (c &&& 0xff#32) ^^^ c >>> 8 <<< 8 := by
    ext i hi
    rw [← BitVec.getLsbD_eq_getElem, ← BitVec.getLsbD_eq_getElem, BitVec.getLsbD_xor, BitVec.getLsbD_and, getLsbD_mask hi,
      BitVec.getLsbD_shiftLeft, BitVec.getLsbD_ushiftRight]
    by_cases hlt : i < 8
    · simp [hlt]
    · simp [hlt, hi, show 8 + (i - 8) = i by omega]
  have hlow : crcBits 8 (c >>> 8 <<< 8) = c >>> 8 <<< 8 >>> 8 := by
    apply crcBits_of_low
    intro i hi
    rw [BitVec.getLsbD_shiftLeft]
    simp [hi]
  have hback : c >>> 8 <<< 8 >>> 8 = c >>> 8 := by
    ext i hi
    rw [← BitVec.getLsbD_eq_getElem, ← BitVec.getLsbD_eq_getElem, BitVec.getLsbD_ushiftRight, BitVec.getLsbD_shiftLeft]
    by_cases hlt : 8 + i < 32
    · simp [hlt]
    · simp [hlt, BitVec.getLsbD_of_ge c (8 + i) (by omega)]
  conv_lhs => rw [hsplit, crcBits_xor, hlow, hback]

theorem crcByte_eq (c : BitVec 32) (b : UInt8) :
    crcByte c b = crcBits 8 ((c ^^^ b.toBitVec.setWidth 32) &&& 0xff#32) ^^^ c >>> 8 := by
  have hbyte : b.toBitVec.setWidth 32 >>> 8 = 0#32 := by
    apply BitVec.eq_of_toNat_eq
    have hlt := b.toBitVec.isLt
    simp only [BitVec.toNat_ushiftRight, BitVec.toNat_setWidth, Nat.shiftRight_eq_div_pow, BitVec.toNat_ofNat]
    omega
  rw [crcByte, crcBits_eight, BitVec.ushiftRight_xor_distrib, hbyte, BitVec.xor_zero]

-- The usual check value of the algorithm.
example : crc32 0 [0x31, 0x32, 0x33, 0x34, 0x35, 0x36, 0x37, 0x38, 0x39] = 0xCBF43926#32 := by
  decide +kernel

end Wap610n.Crc32
