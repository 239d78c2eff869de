import Wap610n.Lib.Bytes
import Wap610n.Lib.Inet
import Wap610n.Lib.Mask

namespace Wap610n.Lan

open Bytes CString Inet Mask

def hnapValidSubnetMask (mask : BitVec 32) : Bool :=
  if mask = 0#32 ∨ mask = 0xffffffff#32 then false
  else
    let mask := ~~~mask + 1#32
    mask &&& -mask = mask

def hnapValidHostIp (ip : BitVec 32) : Bool :=
  ip ≠ 0#32 ∧ ip < 0xe0000000#32 ∧ ip &&& 0x7f000000#32 ≠ 0x7f000000#32

def hnapValidHostIpWithSubnet (ipStr maskStr : List UInt8) : Bool :=
  match inetAton ipStr, inetAton maskStr with
  | some ip, some mask =>
    let wildcard := ~~~mask
    hnapValidHostIp ip && hnapValidSubnetMask mask && !decide (ip &&& mask = ip) &&
      !decide (ip &&& wildcard = wildcard)
  | _, _ => false

def hnapValidateGatewayWithIp (ipStr gatewayStr netmaskStr : List UInt8) : Bool :=
  match inetAton ipStr, inetAton gatewayStr, inetAton netmaskStr with
  | some ip, some gateway, some mask => ip &&& mask = gateway &&& mask
  | _, _, _ => false

def hnapValidateIpaddr (ipStr : List UInt8) : Bool := scanDotted 4 ipStr = 4 ∧ (inetAton ipStr).isSome

theorem leadingOnes_ne {k : ℕ} (hlow : 1 ≤ k) (hhigh : k ≤ 31) :
    leadingOnes 32 k ≠ 0#32 ∧ leadingOnes 32 k ≠ 0xffffffff#32 := by
  have hnot := @not_leadingOnes 32 k
  have hone : 2 ^ 1 ≤ 2 ^ (32 - k) := Nat.pow_le_pow_right (by decide) (by omega)
  have htop : 2 ^ (32 - k) ≤ 2 ^ 31 := Nat.pow_le_pow_right (by decide) (by omega)
  constructor
  · intro h
    rw [h, show (~~~0#32).toNat = 2 ^ 32 - 1 from rfl] at hnot
    omega
  · intro h
    rw [h, show (~~~0xffffffff#32).toNat = 0 from rfl] at hnot
    omega

theorem hnapValidSubnetMask_iff {mask : BitVec 32} :
    hnapValidSubnetMask mask = true ↔ ∃ k, 1 ≤ k ∧ k ≤ 31 ∧ mask = leadingOnes 32 k := by
  have htrick : (~~~mask + 1#32 &&& -(~~~mask + 1#32) = ~~~mask + 1#32) ↔ Upward mask := by
    rw [← neg_and_self_iff, ← BitVec.neg_eq_not_add, BitVec.neg_neg]
  rw [hnapValidSubnetMask]
  constructor
  · intro h
    split_ifs at h with hends
    rw [not_or] at hends
    obtain ⟨k, hlow, hhigh, rfl⟩ := (htrick.mp (of_decide_eq_true h)).exists_leadingOnes hends.1
    refine ⟨k, hlow, ?_, rfl⟩
    by_contra hk
    obtain rfl : k = 32 := by omega
    exact hends.2 (by decide)
  · rintro ⟨k, hlow, hhigh, rfl⟩
    obtain ⟨hzero, hones⟩ := leadingOnes_ne hlow hhigh
    rw [if_neg (not_or.mpr ⟨hzero, hones⟩)]
    exact decide_eq_true (htrick.mpr (upward_leadingOnes k))

theorem loopback_and (ip : BitVec 32) : ip &&& 0x7f000000#32 = (ip >>> 24 &&& 0x7f#32) <<< 24 := by
  have hconst : ∀ i < 32, (0x7f000000#32).getLsbD i = (!decide (i < 24) && (0x7f#32).getLsbD (i - 24)) := by decide
  apply BitVec.eq_of_getLsbD_eq
  intro i hi
  rw [BitVec.getLsbD_and, BitVec.getLsbD_shiftLeft, BitVec.getLsbD_and, BitVec.getLsbD_ushiftRight, hconst i hi]
  by_cases h : i < 24
  · simp [h]
  · simp [h, hi, Nat.add_sub_cancel' (Nat.not_lt.mp h)]

theorem top_byte : ∀ b < 224, b &&& 127 = 127 ↔ b = 127 := by decide +kernel

theorem loopback_iff {ip : BitVec 32} (hip : ip < 0xe0000000#32) :
    ip &&& 0x7f000000#32 = 0x7f000000#32 ↔ ip >>> 24 = 127#32 := by
  have hlt : (ip >>> 24).toNat < 224 := by
    have hnat : ip.toNat < 0xe0000000 := hip
    rw [BitVec.toNat_ushiftRight, Nat.shiftRight_eq_div_pow]
    omega
  have hle : (ip >>> 24).toNat &&& 127 ≤ 127 := Nat.and_le_right
  have hshift : (ip &&& 0x7f000000#32).toNat = ((ip >>> 24).toNat &&& 127) * 2 ^ 24 := by
    rw [loopback_and, BitVec.toNat_shiftLeft, BitVec.toNat_and, show (0x7f#32).toNat = 127 from rfl, Nat.shiftLeft_eq,
      Nat.mod_eq_of_lt (by omega)]
  constructor
  · intro h
    have heq : ((ip >>> 24).toNat &&& 127) * 2 ^ 24 = 127 * 2 ^ 24 := hshift.symm.trans (congrArg BitVec.toNat h)
    exact BitVec.eq_of_toNat_eq ((top_byte _ hlt).mp (by omega))
  · intro h
    apply BitVec.eq_of_toNat_eq
    rw [hshift, (top_byte _ hlt).mpr (congrArg BitVec.toNat h)]
    rfl

theorem wildcard_of_31 (ip : BitVec 32) :
    ip &&& ~~~leadingOnes 32 31 = 0#32 ∨ ip &&& ~~~leadingOnes 32 31 = ~~~leadingOnes 32 31 := by
  have hhost := and_not_leadingOnes ip 31
  have hones := @not_leadingOnes 32 31
  rcases Nat.mod_two_eq_zero_or_one ip.toNat with h | h
  · exact Or.inl (BitVec.eq_of_toNat_eq (hhost.trans h))
  · exact Or.inr (BitVec.eq_of_toNat_eq ((hhost.trans h).trans hones.symm))

theorem host_of_valid {ipStr maskStr : List UInt8} {ip mask : BitVec 32} (hip : inetAton ipStr = some ip)
    (hmask : inetAton maskStr = some mask) (h : hnapValidHostIpWithSubnet ipStr maskStr = true) :
    hnapValidHostIp ip = true ∧ ∃ k, 1 ≤ k ∧ k ≤ 30 ∧ mask = leadingOnes 32 k ∧ ip &&& ~~~mask ≠ 0#32 ∧
      ip &&& ~~~mask ≠ ~~~mask := by
  rw [hnapValidHostIpWithSubnet, hip, hmask] at h
  simp only [Bool.and_eq_true, Bool.not_eq_true', decide_eq_false_iff_not, hnapValidSubnetMask_iff,
    and_eq_self_iff] at h
  obtain ⟨⟨⟨hhost, k, hlow, hhigh, rfl⟩, hnet⟩, hcast⟩ := h
  refine ⟨hhost, k, hlow, ?_, rfl, hnet, hcast⟩
  by_contra hk
  obtain rfl : k = 31 := by omega
  exact (wildcard_of_31 ip).elim hnet hcast

theorem hnapValidHostIpWithSubnet_iff {ipStr maskStr : List UInt8} {ip mask : BitVec 32}
    (hip : inetAton ipStr = some ip) (hmask : inetAton maskStr = some mask) :
    hnapValidHostIpWithSubnet ipStr maskStr = true ↔
      (∃ k, 1 ≤ k ∧ k ≤ 30 ∧ mask = leadingOnes 32 k) ∧ ip < 0xe0000000#32 ∧ ip >>> 24 ≠ 127#32 ∧
        ip &&& ~~~mask ≠ 0#32 ∧ ip &&& ~~~mask ≠ ~~~mask := by
  constructor
  · intro h
    obtain ⟨hhost, k, hlow, hhigh, hk, hnet, hcast⟩ := host_of_valid hip hmask h
    obtain ⟨_, hlt, hloop⟩ := of_decide_eq_true hhost
    exact ⟨⟨k, hlow, hhigh, hk⟩, hlt, fun h => hloop ((loopback_iff hlt).mpr h), hnet, hcast⟩
  · rintro ⟨⟨k, hlow, hhigh, hk⟩, hlt, hloop, hnet, hcast⟩
    have hzero : ip ≠ 0#32 := by
      rintro rfl
      exact hnet BitVec.zero_and
    have hhost : hnapValidHostIp ip = true := decide_eq_true ⟨hzero, hlt, fun h => hloop ((loopback_iff hlt).mp h)⟩
    have hones : hnapValidSubnetMask mask = true := hnapValidSubnetMask_iff.mpr ⟨k, hlow, by omega, hk⟩
    rw [hnapValidHostIpWithSubnet, hip, hmask]
    simp only [hhost, hones, decide_eq_false hcast, decide_eq_false fun h => hnet (and_eq_self_iff.mp h)]
    rfl

theorem private_host_accepted : inetAton (text "192.168.1.5") = some 0xc0a80105#32 ∧
    inetAton (text "255.255.255.0") = some 0xffffff00#32 ∧
    (hnapValidHostIpWithSubnet (text "192.168.1.5") (text "255.255.255.0") = true ↔
      (∃ k, 1 ≤ k ∧ k ≤ 30 ∧ 0xffffff00#32 = leadingOnes 32 k) ∧ 0xc0a80105#32 < 0xe0000000#32 ∧
        0xc0a80105#32 >>> 24 ≠ 127#32 ∧ 0xc0a80105#32 &&& ~~~0xffffff00#32 ≠ 0#32 ∧
          0xc0a80105#32 &&& ~~~0xffffff00#32 ≠ ~~~0xffffff00#32) :=
  ⟨by decide, by decide, hnapValidHostIpWithSubnet_iff (by decide) (by decide)⟩

end Wap610n.Lan
