import Wap610n.Lan.Subnet

namespace Wap610n.Lan

open Bytes Inet Mask

structure DhcpConfig where
  start : List UInt8
  stop : List UInt8
  subnet : List UInt8
  wins : List UInt8
deriving DecidableEq, Repr

def dhcpPool (ip mask : BitVec 32) : BitVec 32 × BitVec 32 :=
  let netaddress := ip &&& mask
  if 255#32 ≤ ~~~mask then (netaddress + 101#32, netaddress + 101#32 + 49#32)
  else if 127#32 ≤ ~~~mask then (netaddress + 51#32, netaddress + 51#32 + 49#32)
  else if 63#32 ≤ ~~~mask then (netaddress + 21#32, netaddress + 21#32 + 29#32)
  else if 31#32 ≤ ~~~mask then (netaddress + 11#32, netaddress + 11#32 + 14#32)
  else if 15#32 ≤ ~~~mask then (netaddress + 3#32, netaddress + 3#32 + 9#32)
  else if 7#32 ≤ ~~~mask then (netaddress + 2#32, netaddress + 2#32 + 3#32)
  else if 3#32 ≤ ~~~mask then
    let dhcpStartN := netaddress + 1#32
    let dhcpEndN := netaddress + 1#32 + ~~~mask - 1#32
    (if ip = dhcpStartN then dhcpStartN + 1#32 else dhcpStartN, if ip = dhcpEndN then dhcpEndN - 1#32 else dhcpEndN)
  else (0#32, 0#32)

/-- `none` is the return of -1, with nothing stored. -/
def hnapConfigureDhcp (lanIp lanNetMask : List UInt8) : Option DhcpConfig :=
  match inetAton lanIp, inetAton lanNetMask with
  | some ip, some mask =>
    let (dhcpStartN, dhcpEndN) := dhcpPool ip mask
    some { start := inetNtoa dhcpStartN, stop := inetNtoa dhcpEndN, subnet := lanNetMask, wins := lanIp }
  | _, _ => none

structure HostRange (ip mask first last : BitVec 32) : Prop where
  nonempty : first ≤ last
  subnet : ∀ a, first ≤ a → a ≤ last → a &&& mask = ip &&& mask
  network : ∀ a, first ≤ a → a ≤ last → a ≠ ip &&& mask
  broadcast : ∀ a, first ≤ a → a ≤ last → a ≠ ip ||| ~~~mask
  own : ∀ a, first ≤ a → a ≤ last → a ≠ ip

def PoolRight (ip mask : BitVec 32) (config : DhcpConfig) : Prop :=
  ∃ first last, inetAton config.start = some first ∧ inetAton config.stop = some last ∧ HostRange ip mask first last

def poolOffsets (wildcard : ℕ) : ℕ × ℕ :=
  if 255 ≤ wildcard then (101, 150)
  else if 127 ≤ wildcard then (51, 100)
  else if 63 ≤ wildcard then (21, 50)
  else if 31 ≤ wildcard then (11, 25)
  else if 15 ≤ wildcard then (3, 12)
  else (2, 5)

def PoolClear (ip mask : BitVec 32) : Prop :=
  7 ≤ (~~~mask).toNat ∧ ¬((poolOffsets (~~~mask).toNat).1 ≤ (ip &&& ~~~mask).toNat ∧
    (ip &&& ~~~mask).toNat ≤ (poolOffsets (~~~mask).toNat).2)

theorem poolOffsets_bounds {wildcard : ℕ} (h : 7 ≤ wildcard) :
    1 ≤ (poolOffsets wildcard).1 ∧ (poolOffsets wildcard).1 ≤ (poolOffsets wildcard).2 ∧
      (poolOffsets wildcard).2 < wildcard := by
  unfold poolOffsets
  split_ifs <;> simp only <;> omega

theorem dhcpPool_eq {ip mask : BitVec 32} (h : 7 ≤ (~~~mask).toNat) :
    dhcpPool ip mask = ((ip &&& mask) + BitVec.ofNat 32 (poolOffsets (~~~mask).toNat).1,
      (ip &&& mask) + BitVec.ofNat 32 (poolOffsets (~~~mask).toNat).2) := by
  let place (offsets : ℕ × ℕ) := ((ip &&& mask) + BitVec.ofNat 32 offsets.1, (ip &&& mask) + BitVec.ofNat 32 offsets.2)
  change _ = place (poolOffsets _)
  rw [dhcpPool, poolOffsets]
  simp only [BitVec.add_assoc, apply_ite place]
  iterate 5
    apply ite_congr rfl (fun _ => rfl)
    intro _
  exact if_pos h

section Subnet

variable {k : ℕ} (ip : BitVec 32)

theorem toNat_network_add {n : ℕ} (hk : k ≤ 32) (hn : n < 2 ^ (32 - k)) :
    ((ip &&& leadingOnes 32 k) + BitVec.ofNat 32 n).toNat = ip.toNat / 2 ^ (32 - k) * 2 ^ (32 - k) + n := by
  have hblock := block_le ip hk
  rw [BitVec.toNat_add, and_leadingOnes, BitVec.toNat_ofNat, Nat.mod_eq_of_lt (show n < 2 ^ 32 by omega),
    Nat.mod_eq_of_lt (by omega)]

theorem network_of_block {a : BitVec 32} {n : ℕ} (hn : n < 2 ^ (32 - k))
    (ha : a.toNat = ip.toNat / 2 ^ (32 - k) * 2 ^ (32 - k) + n) : a &&& leadingOnes 32 k = ip &&& leadingOnes 32 k := by
  have hdiv : (ip.toNat / 2 ^ (32 - k) * 2 ^ (32 - k) + n) / 2 ^ (32 - k) = ip.toNat / 2 ^ (32 - k) := by
    rw [Nat.mul_comm, Nat.mul_add_div (Nat.two_pow_pos _), Nat.div_eq_of_lt hn, Nat.add_zero]
  apply BitVec.eq_of_toNat_eq
  rw [and_leadingOnes, and_leadingOnes, ha, hdiv]

theorem hostRange_iff {lo hi : ℕ} (hk : k ≤ 32) (hlo : 1 ≤ lo) (hle : lo ≤ hi) (hhi : hi < 2 ^ (32 - k) - 1) :
    HostRange ip (leadingOnes 32 k) ((ip &&& leadingOnes 32 k) + BitVec.ofNat 32 lo)
        ((ip &&& leadingOnes 32 k) + BitVec.ofNat 32 hi) ↔
      ¬(lo ≤ (ip &&& ~~~leadingOnes 32 k).toNat ∧ (ip &&& ~~~leadingOnes 32 k).toNat ≤ hi) := by
  have hfirst := toNat_network_add ip hk (show lo < 2 ^ (32 - k) by omega)
  have hlast := toNat_network_add ip hk (show hi < 2 ^ (32 - k) by omega)
  have hnet := and_leadingOnes ip k
  have hcast := or_not_leadingOnes ip k
  have hip : ip.toNat / 2 ^ (32 - k) * 2 ^ (32 - k) + ip.toNat % 2 ^ (32 - k) = ip.toNat := Nat.div_add_mod' _ _
  have hblock {a : BitVec 32} (h1 : (ip &&& leadingOnes 32 k) + BitVec.ofNat 32 lo ≤ a)
      (h2 : a ≤ (ip &&& leadingOnes 32 k) + BitVec.ofNat 32 hi) :
      ∃ n, lo ≤ n ∧ n ≤ hi ∧ a.toNat = ip.toNat / 2 ^ (32 - k) * 2 ^ (32 - k) + n := by
    rw [BitVec.le_def, hfirst] at h1
    rw [BitVec.le_def, hlast] at h2
    obtain ⟨n, hn⟩ := Nat.exists_eq_add_of_le (Nat.le_trans (Nat.le_add_right _ lo) h1)
    exact ⟨n, by omega, by omega, hn⟩
  rw [and_not_leadingOnes]
  constructor
  · intro h hown
    apply h.own ip _ _ rfl
    · rw [BitVec.le_def, hfirst]
      omega
    · rw [BitVec.le_def, hlast]
      omega
  · intro hown
    have hmiss {b : BitVec 32} (hb : ∀ n, lo ≤ n → n ≤ hi → b.toNat ≠ ip.toNat / 2 ^ (32 - k) * 2 ^ (32 - k) + n) :
        ∀ a, (ip &&& leadingOnes 32 k) + BitVec.ofNat 32 lo ≤ a → a ≤ (ip &&& leadingOnes 32 k) + BitVec.ofNat 32 hi →
          a ≠ b := by
      rintro a h1 h2 rfl
      obtain ⟨n, hlo, hhi, ha⟩ := hblock h1 h2
      exact hb n hlo hhi ha
    constructor
    · rw [BitVec.le_def, hfirst, hlast]
      omega
    · intro a h1 h2
      obtain ⟨n, _, hn, ha⟩ := hblock h1 h2
      exact network_of_block ip (by omega) ha
    · exact hmiss (by omega)
    · exact hmiss (by omega)
    · exact hmiss (by omega)

theorem not_hostRange_of_last {mask first : BitVec 32} : ¬HostRange ip mask first (ip ||| ~~~mask) := by
  intro h
  exact h.broadcast _ h.nonempty (BitVec.le_refl _) rfl

theorem dhcpPool_30 (hip : ip ≠ ip ||| ~~~leadingOnes 32 30) :
    (dhcpPool ip (leadingOnes 32 30)).2 = ip ||| ~~~leadingOnes 32 30 := by
  have hlast : (ip &&& leadingOnes 32 30) + 1#32 + ~~~leadingOnes 32 30 - 1#32 = ip ||| ~~~leadingOnes 32 30 := by
    have h3 : ~~~leadingOnes 32 30 = BitVec.ofNat 32 3 := by decide
    apply BitVec.eq_of_toNat_eq
    rw [BitVec.add_assoc, BitVec.add_comm 1#32, ← BitVec.add_assoc, BitVec.add_sub_cancel, or_not_leadingOnes, h3]
    exact toNat_network_add ip (by decide) (by decide)
  have h7 : ¬7#32 ≤ ~~~leadingOnes 32 30 := by decide
  have h15 : ¬15#32 ≤ ~~~leadingOnes 32 30 := by decide
  have h31 : ¬31#32 ≤ ~~~leadingOnes 32 30 := by decide
  have h63 : ¬63#32 ≤ ~~~leadingOnes 32 30 := by decide
  have h127 : ¬127#32 ≤ ~~~leadingOnes 32 30 := by decide
  have h255 : ¬255#32 ≤ ~~~leadingOnes 32 30 := by decide
  have h3 : 3#32 ≤ ~~~leadingOnes 32 30 := by decide
  rw [dhcpPool, if_neg h255, if_neg h127, if_neg h63, if_neg h31, if_neg h15, if_neg h7, if_pos h3]
  dsimp only
  rw [hlast, if_neg hip]

end Subnet

theorem seven_le_wildcard_iff {k : ℕ} (hk : k ≤ 30) : 7 ≤ (~~~leadingOnes 32 k).toNat ↔ k ≠ 30 := by
  rw [not_leadingOnes]
  constructor
  · rintro h rfl
    exact absurd h (by decide)
  · intro h
    have hpow : 2 ^ 3 ≤ 2 ^ (32 - k) := Nat.pow_le_pow_right (by decide) (by omega)
    omega

theorem hnapConfigureDhcp_right_iff {ipStr maskStr : List UInt8} {ip mask : BitVec 32}
    (hip : inetAton ipStr = some ip) (hmask : inetAton maskStr = some mask)
    (hvalid : hnapValidHostIpWithSubnet ipStr maskStr = true) :
    ∃ config, hnapConfigureDhcp ipStr maskStr = some config ∧ (PoolRight ip mask config ↔ PoolClear ip mask) := by
  obtain ⟨-, k, hlow, hhigh, rfl, -, hcast⟩ := host_of_valid hip hmask hvalid
  refine ⟨_, by rw [hnapConfigureDhcp, hip, hmask], ?_⟩
  have hrange : PoolRight ip (leadingOnes 32 k)
      { start := inetNtoa (dhcpPool ip (leadingOnes 32 k)).1, stop := inetNtoa (dhcpPool ip (leadingOnes 32 k)).2,
        subnet := maskStr, wins := ipStr } ↔
      HostRange ip (leadingOnes 32 k) (dhcpPool ip (leadingOnes 32 k)).1 (dhcpPool ip (leadingOnes 32 k)).2 := by
    simp only [PoolRight, inetAton_inetNtoa, Option.some.injEq]
    constructor
    · rintro ⟨_, _, rfl, rfl, h⟩
      exact h
    · intro h
      exact ⟨_, _, rfl, rfl, h⟩
  rw [hrange, PoolClear, seven_le_wildcard_iff hhigh]
  by_cases hk : k = 30
  · subst hk
    have hown : ip ≠ ip ||| ~~~leadingOnes 32 30 := by
      intro h
      apply hcast
      rw [h, or_and_self_right]
    rw [dhcpPool_30 ip hown]
    exact iff_of_false (not_hostRange_of_last ip) fun h => h.1 rfl
  · have h7 := (seven_le_wildcard_iff hhigh).mpr hk
    obtain ⟨hlo, hle, hhi⟩ := poolOffsets_bounds h7
    rw [dhcpPool_eq h7, hostRange_iff ip (by omega) hlo hle (@not_leadingOnes 32 k ▸ hhi)]
    exact (and_iff_right hk).symm

theorem hnapConfigureDhcp_right_of_5 : ∃ config,
    hnapConfigureDhcp (text "192.168.1.5") (text "255.255.255.0") = some config ∧
      (PoolRight 0xc0a80105#32 0xffffff00#32 config ↔ PoolClear 0xc0a80105#32 0xffffff00#32) :=
  hnapConfigureDhcp_right_iff (by decide) (by decide) (by decide)

theorem own_address_in_pool :
    hnapValidHostIpWithSubnet (text "192.168.1.120") (text "255.255.255.0") = true ∧
      ∀ config, hnapConfigureDhcp (text "192.168.1.120") (text "255.255.255.0") = some config →
        ¬PoolRight 0xc0a80178#32 0xffffff00#32 config := by
  refine ⟨by decide, fun config hconfig => ?_⟩
  have hpool : hnapConfigureDhcp (text "192.168.1.120") (text "255.255.255.0") = some
      { start := text "192.168.1.101", stop := text "192.168.1.150", subnet := text "255.255.255.0",
        wins := text "192.168.1.120" } := by decide
  rw [hpool] at hconfig
  obtain rfl := Option.some.inj hconfig
  rintro ⟨first, last, hfirst, hlast, hrange⟩
  rw [show inetAton (text "192.168.1.101") = some 0xc0a80165#32 by decide] at hfirst
  rw [show inetAton (text "192.168.1.150") = some 0xc0a80196#32 by decide] at hlast
  obtain rfl := Option.some.inj hfirst
  obtain rfl := Option.some.inj hlast
  exact hrange.own _ (by decide) (by decide) rfl

end Wap610n.Lan
