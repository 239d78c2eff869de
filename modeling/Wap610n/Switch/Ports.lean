import Wap610n.Lib.Bytes

/-!
The port states of the RTL8306 switch and the `/proc/str9100` files for them.
-/

namespace Wap610n.Switch

open Bytes

def rtl8306Port5 : ℕ := 5

def rtl8306SpanBlock : ℕ := 1

def rtl8306SpanForward : ℕ := 3

def rtl8306SetAsic1dPortState (regValue : BitVec 16) (port state : ℕ) : BitVec 16 :=
  if port > rtl8306Port5 ∨ state > rtl8306SpanForward then regValue
  else regValue &&& ~~~(0x3#16 <<< (2 * port)) ||| BitVec.ofNat 16 state <<< (2 * port)

def rtl8306GetAsic1dPortState (regValue : BitVec 16) (port : ℕ) : ℕ :=
  ((regValue &&& 0x3#16 <<< (2 * port)) >>> (2 * port)).toNat

def setPortState (state : ℕ) (regValue : BitVec 16) (buffer : List UInt8) : BitVec 16 :=
  match buffer.head? with
  | some 48 => rtl8306SetAsic1dPortState regValue 0 state
  | some 49 => rtl8306SetAsic1dPortState regValue 1 state
  | some 50 => rtl8306SetAsic1dPortState regValue 2 state
  | some 51 => rtl8306SetAsic1dPortState regValue 3 state
  | some 53 => rtl8306SetAsic1dPortState regValue 5 state
  | _ => regValue

def starSwitchSetPortEnable : BitVec 16 → List UInt8 → BitVec 16 := setPortState rtl8306SpanForward

def starSwitchSetPortDisable : BitVec 16 → List UInt8 → BitVec 16 := setPortState rtl8306SpanBlock

/-- The bytes of a read of `switch_port_enable`: all of `tmpBuf`, with its NUL. -/
def starSwitchGetPortEnable (regValue : BitVec 16) : List UInt8 :=
  (List.range 4).foldl (fun tmpBuf i => tmpBuf.set (3 - i) (UInt8.ofNat (rtl8306GetAsic1dPortState regValue i + 48)))
    (List.replicate 5 0)

def starSwitchGetPortLinkStatus (link : ℕ → Bool) : List UInt8 :=
  (List.range 4).flatMap (fun port => [if link port then 49 else 48, 59]) ++ [0]

theorem getLsbD_three (i : ℕ) : (0x3#16).getLsbD i = decide (i < 2) := by
  rcases i with _ | _ | i
  · rfl
  · rfl
  · have hbit : Nat.testBit 3 (i + 2) = false := by simp [Nat.testBit_add]
    rw [BitVec.getLsbD_ofNat, hbit, Bool.and_false]
    simp

theorem testBit_state {state i : ℕ} (hs : state ≤ rtl8306SpanForward) (hi : 2 ≤ i) : state.testBit i = false := by
  have hpow : 2 ^ 2 ≤ 2 ^ i := Nat.pow_le_pow_right (by omega) hi
  apply Nat.testBit_lt_two_pow
  unfold rtl8306SpanForward at hs
  omega

theorem getLsbD_port (regValue : BitVec 16) {port : ℕ} (hp : port ≤ rtl8306Port5) (i : ℕ) :
    ((regValue &&& 0x3#16 <<< (2 * port)) >>> (2 * port)).getLsbD i =
      (decide (i < 2) && regValue.getLsbD (2 * port + i)) := by
  unfold rtl8306Port5 at hp
  rw [BitVec.getLsbD_ushiftRight, BitVec.getLsbD_and, BitVec.getLsbD_shiftLeft, Nat.add_sub_cancel_left, getLsbD_three]
  by_cases hi : i < 2
  · simp [hi, show 2 * port + i < 16 by omega]
  · simp [hi]

theorem getLsbD_set (regValue : BitVec 16) {port other state i : ℕ} (hp : port ≤ rtl8306Port5)
    (ho : other ≤ rtl8306Port5) (hs : state ≤ rtl8306SpanForward) (hi : i < 2) :
    (rtl8306SetAsic1dPortState regValue port state).getLsbD (2 * other + i) =
      if other = port then state.testBit i else regValue.getLsbD (2 * other + i) := by
  have h16 : 2 * other + i < 16 := by
    unfold rtl8306Port5 at ho
    omega
  rw [rtl8306SetAsic1dPortState, if_neg (by omega), BitVec.getLsbD_or, BitVec.getLsbD_and, BitVec.getLsbD_not,
    BitVec.getLsbD_shiftLeft, BitVec.getLsbD_shiftLeft, getLsbD_three, BitVec.getLsbD_ofNat]
  split_ifs with h
  · subst h
    have hi16 : i < 16 := by omega
    simp [h16, hi, hi16]
  · rcases Nat.lt_or_gt_of_ne h with h | h
    · simp [h16, show 2 * other + i < 2 * port by omega]
    · simp [h16, testBit_state hs (show 2 ≤ 2 * other + i - 2 * port by omega),
        show ¬2 * other + i < 2 * port by omega, show ¬2 * other + i - 2 * port < 2 by omega]

theorem rtl8306Get_set (regValue : BitVec 16) {port other state : ℕ} (hp : port ≤ rtl8306Port5)
    (ho : other ≤ rtl8306Port5) (hs : state ≤ rtl8306SpanForward) :
    rtl8306GetAsic1dPortState (rtl8306SetAsic1dPortState regValue port state) other =
      if other = port then state else rtl8306GetAsic1dPortState regValue other := by
  have hstate : (BitVec.ofNat 16 state).toNat = state := by
    unfold rtl8306SpanForward at hs
    rw [BitVec.toNat_ofNat, Nat.mod_eq_of_lt (by omega)]
  unfold rtl8306GetAsic1dPortState
  split_ifs with h
  · rw [← hstate]
    congr 1
    apply BitVec.eq_of_getLsbD_eq
    intro i _
    rw [hstate, getLsbD_port _ ho, BitVec.getLsbD_ofNat]
    by_cases hi : i < 2
    · rw [getLsbD_set regValue hp ho hs hi, if_pos h]
      simp [hi, show i < 16 by omega]
    · simp [hi, testBit_state hs (show 2 ≤ i by omega)]
  · congr 1
    apply BitVec.eq_of_getLsbD_eq
    intro i _
    rw [getLsbD_port _ ho, getLsbD_port _ ho]
    by_cases hi : i < 2
    · rw [getLsbD_set regValue hp ho hs hi, if_neg h]
    · simp [hi]

theorem rtl8306Get_lt (regValue : BitVec 16) {port : ℕ} (hp : port ≤ rtl8306Port5) :
    rtl8306GetAsic1dPortState regValue port ≤ rtl8306SpanForward := by
  apply Nat.le_of_lt_succ
  apply Nat.lt_pow_two_of_testBit (n := 2)
  intro i hi
  rw [rtl8306GetAsic1dPortState, BitVec.testBit_toNat, getLsbD_port regValue hp, decide_eq_false (by omega),
    Bool.false_and]

end Wap610n.Switch
