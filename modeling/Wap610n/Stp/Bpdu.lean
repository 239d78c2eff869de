import Mathlib.Data.List.OfFn
import Wap610n.Bridge.Input
import Wap610n.Lib.Memcmp

/-!
The frames of the spanning tree protocol: what `br_send_config_bpdu` and `br_send_tcn_bpdu` put into a frame and what
`br_stp_handle_bpdu` reads out of it.
-/

namespace Wap610n.Stp

open Bytes Bridge

structure BridgeId where
  prio : Fin 2 → UInt8
  addr : EthAddr

namespace BridgeId

variable {a b : BridgeId}

def bytes (a : BridgeId) : List UInt8 := List.ofFn a.prio ++ List.ofFn a.addr

def cmp (a b : BridgeId) : Ordering := memcmp a.bytes b.bytes

def value (a : BridgeId) : ℕ := beValue a.bytes

theorem bytes_inj : a.bytes = b.bytes ↔ a = b := by
  constructor
  · intro h
    obtain ⟨pa, aa⟩ := a
    obtain ⟨pb, ab⟩ := b
    obtain ⟨hp, ha⟩ := List.append_inj h (by simp only [List.length_ofFn])
    exact congrArg₂ BridgeId.mk (List.ofFn_inj.mp hp) (List.ofFn_inj.mp ha)
  · rintro rfl
    rfl

theorem cmp_eq_iff : a.cmp b = .eq ↔ a = b := by
  rw [cmp, memcmp_eq_iff (by rfl), bytes_inj]

instance : DecidableEq BridgeId := fun _ _ => decidable_of_iff _ cmp_eq_iff

theorem cmp_lt_iff : a.cmp b = .lt ↔ a.value < b.value := by
  rw [cmp, memcmp_eq_compare (by rfl), Nat.compare_eq_lt, value, value]

theorem cmp_gt_iff : a.cmp b = .gt ↔ b.value < a.value := by
  rw [cmp, memcmp_eq_compare (by rfl), Nat.compare_eq_gt, value, value]

end BridgeId

def hz : BitVec 32 := 100

theorem hz_toNat : hz.toNat = 100 := rfl

def jiffiesToTicks (j : BitVec 32) : BitVec 16 := ((j <<< 8).sdiv hz).setWidth 16

def ticksToJiffies (t : BitVec 32) : BitVec 32 := (t * hz) >>> 8

def octet {n : ℕ} (w : BitVec n) (k : ℕ) : UInt8 := UInt8.ofBitVec ((w >>> k).setWidth 8)

def word (c : UInt8) : BitVec 32 := c.toBitVec.setWidth 32

def brSetTicks (jiff : BitVec 32) : List UInt8 := [octet (jiffiesToTicks jiff) 8, octet (jiffiesToTicks jiff) 0]

def brGetTicks (d0 d1 : UInt8) : BitVec 32 := ticksToJiffies (word d0 <<< 8 ||| word d1)

@[ext] structure ConfigBpdu where
  topologyChange : Bool
  topologyChangeAck : Bool
  root : BridgeId
  rootPathCost : BitVec 32
  bridgeId : BridgeId
  portId : BitVec 16
  messageAge : BitVec 32
  maxAge : BitVec 32
  helloTime : BitVec 32
  forwardDelay : BitVec 32
deriving DecidableEq

def header : List UInt8 := [0x42, 0x42, 0x03, 0x00, 0x00, 0x00]

def bpduTypeConfig : UInt8 := 0

def bpduTypeTcn : UInt8 := 0x80

def ConfigBpdu.buf (bpdu : ConfigBpdu) : List UInt8 :=
  header ++ bpduTypeConfig ::
    (((if bpdu.topologyChange then 0x01 else 0) ||| (if bpdu.topologyChangeAck then 0x80 else 0)) ::
      (bpdu.root.bytes ++
        [octet bpdu.rootPathCost 24, octet bpdu.rootPathCost 16, octet bpdu.rootPathCost 8, octet bpdu.rootPathCost 0] ++
        bpdu.bridgeId.bytes ++ [octet bpdu.portId 8, octet bpdu.portId 0] ++
        brSetTicks bpdu.messageAge ++ brSetTicks bpdu.maxAge ++ brSetTicks bpdu.helloTime ++
        brSetTicks bpdu.forwardDelay))

def tcnBuf : List UInt8 := header ++ [bpduTypeTcn]

def bridgeUla : List UInt8 := [0x01, 0x80, 0xc2, 0x00, 0x00, 0x00]

def brSendBpdu (devAddr : EthAddr) (data : List UInt8) : List UInt8 :=
  bridgeUla ++ List.ofFn devAddr ++ [0, UInt8.ofNat data.length] ++ data ++
    List.replicate (60 - (data.length + 14)) 0xa5

inductive Bpdu
  | config (bpdu : ConfigBpdu)
  | tcn
deriving DecidableEq

def BridgeId.ofBuf (buf : List UInt8) (k : ℕ) : BridgeId := ⟨fun i => buf.getD (k + i) 0, fun i => buf.getD (k + 2 + i) 0⟩

def ConfigBpdu.ofBuf (buf : List UInt8) : ConfigBpdu where
  topologyChange := buf.getD 1 0 &&& 0x01 ≠ 0
  topologyChangeAck := buf.getD 1 0 &&& 0x80 ≠ 0
  root := BridgeId.ofBuf buf 2
  rootPathCost := word (buf.getD 10 0) <<< 24 ||| word (buf.getD 11 0) <<< 16 ||| word (buf.getD 12 0) <<< 8 |||
    word (buf.getD 13 0)
  bridgeId := BridgeId.ofBuf buf 14
  portId := (word (buf.getD 22 0) <<< 8 ||| word (buf.getD 23 0)).setWidth 16
  messageAge := brGetTicks (buf.getD 24 0) (buf.getD 25 0)
  maxAge := brGetTicks (buf.getD 26 0) (buf.getD 27 0)
  helloTime := brGetTicks (buf.getD 28 0) (buf.getD 29 0)
  forwardDelay := brGetTicks (buf.getD 30 0) (buf.getD 31 0)

/-- What `br_stp_handle_bpdu` finds in a frame, whose Ethernet header has been taken off by then. -/
def readBpdu (frame : List UInt8) : Option Bpdu :=
  let data := frame.drop 14
  if data.length < header.length + 1 ∨ data.take header.length ≠ header then none
  else
    let buf := data.drop header.length
    if buf.getD 0 0 = bpduTypeConfig then if buf.length < 32 then none else some (.config (.ofBuf buf))
    else if buf.getD 0 0 = bpduTypeTcn then some .tcn
    else none

theorem getLsbD_word_octet {n : ℕ} (w : BitVec n) (k i : ℕ) :
    (word (octet w k)).getLsbD i = (decide (i < 8) && w.getLsbD (k + i)) := by
  simp only [word, octet, UInt8.toBitVec_ofBitVec, BitVec.getLsbD_setWidth, BitVec.getLsbD_ushiftRight]
  by_cases h : i < 8
  · simp [h, show i < 32 by omega]
  · simp [h]

theorem word_octets (w : BitVec 32) :
    word (octet w 24) <<< 24 ||| word (octet w 16) <<< 16 ||| word (octet w 8) <<< 8 ||| word (octet w 0) = w := by
  apply BitVec.eq_of_getLsbD_eq
  intro i hi
  simp only [BitVec.getLsbD_or, BitVec.getLsbD_shiftLeft, getLsbD_word_octet, hi, decide_true, Bool.true_and]
  rcases (show i < 8 ∨ 8 ≤ i ∧ i < 16 ∨ 16 ≤ i ∧ i < 24 ∨ 24 ≤ i by omega) with h | h | h | h
  · simp [h, show i < 16 by omega, show i < 24 by omega]
  · simp [h, show ¬i < 8 by omega, show i - 8 < 8 by omega, show i < 24 by omega]
  · simp [h, show ¬i < 8 by omega, show ¬i < 16 by omega, show ¬i - 8 < 8 by omega, show i - 16 < 8 by omega]
  · simp [show ¬i < 8 by omega, show ¬i < 16 by omega, show ¬i < 24 by omega, show ¬i - 8 < 8 by omega,
      show ¬i - 16 < 8 by omega, show i - 24 < 8 by omega, show 24 + (i - 24) = i by omega]

theorem halfword_octets (w : BitVec 16) : word (octet w 8) <<< 8 ||| word (octet w 0) = w.setWidth 32 := by
  apply BitVec.eq_of_getLsbD_eq
  intro i hi
  simp only [BitVec.getLsbD_setWidth, BitVec.getLsbD_or, BitVec.getLsbD_shiftLeft, getLsbD_word_octet, hi, decide_true,
    Bool.true_and]
  by_cases h : i < 8
  · simp [h]
  · by_cases h' : i < 16
    · simp [h, show i - 8 < 8 by omega, show 8 + (i - 8) = i by omega]
    · simp [h, show ¬i - 8 < 8 by omega, BitVec.getLsbD_of_ge w i (by omega)]

def received (j : BitVec 32) : BitVec 32 := ticksToJiffies ((jiffiesToTicks j).setWidth 32)

theorem brGetTicks_octets (j : BitVec 32) :
    brGetTicks (octet (jiffiesToTicks j) 8) (octet (jiffiesToTicks j) 0) = received j := by
  rw [brGetTicks, halfword_octets, received]

theorem jiffiesToTicks_toNat {j : BitVec 32} (h : j.toNat < 25600) : (jiffiesToTicks j).toNat = j.toNat * 256 / 100 := by
  have hshift : (j <<< 8).toNat = j.toNat * 256 := by
    rw [BitVec.toNat_shiftLeft, Nat.shiftLeft_eq, Nat.mod_eq_of_lt (by omega)]
  have hmsb : (j <<< 8).msb = false := by
    rw [BitVec.msb_eq_false_iff_two_mul_lt, hshift]
    omega
  have hhz : hz.msb = false := by decide
  rw [jiffiesToTicks, BitVec.sdiv_eq, hmsb, hhz]
  simp only [BitVec.udiv_eq, BitVec.toNat_setWidth, BitVec.toNat_udiv, hshift, hz_toNat]
  omega

theorem received_toNat {j : BitVec 32} (h : j.toNat < 25600) :
    (received j).toNat = if 25 ∣ j.toNat then j.toNat else j.toNat - 1 := by
  have hticks := jiffiesToTicks_toNat h
  simp only [received, ticksToJiffies, BitVec.toNat_ushiftRight, BitVec.toNat_mul, BitVec.toNat_setWidth, hticks,
    hz_toNat, Nat.shiftRight_eq_div_pow]
  have hdiv : j.toNat * 256 / 100 * 100 + j.toNat * 256 % 100 = j.toNat * 256 := Nat.div_add_mod' _ _
  have hrest : j.toNat * 256 % 100 = 0 ↔ 25 ∣ j.toNat := by omega
  generalize j.toNat * 256 / 100 = t at hdiv
  rw [Nat.mod_eq_of_lt (a := t) (by omega), Nat.mod_eq_of_lt (by omega)]
  split_ifs <;> omega

def ConfigBpdu.inFrame (bpdu : ConfigBpdu) : ConfigBpdu :=
  { bpdu with
    messageAge := received bpdu.messageAge
    maxAge := received bpdu.maxAge
    helloTime := received bpdu.helloTime
    forwardDelay := received bpdu.forwardDelay }

theorem drop_brSendBpdu (devAddr : EthAddr) (data : List UInt8) :
    (brSendBpdu devAddr data).drop 14 = data ++ List.replicate (60 - (data.length + 14)) 0xa5 := by
  rw [brSendBpdu, List.append_assoc]
  exact List.drop_left' (by simp [bridgeUla])

def ConfigBpdu.octets (bpdu : ConfigBpdu) : List UInt8 :=
  bpduTypeConfig :: ((if bpdu.topologyChange then 0x01 else 0) ||| (if bpdu.topologyChangeAck then 0x80 else 0)) ::
    (bpdu.root.bytes ++
      (octet bpdu.rootPathCost 24 :: octet bpdu.rootPathCost 16 :: octet bpdu.rootPathCost 8 ::
        octet bpdu.rootPathCost 0 :: (bpdu.bridgeId.bytes ++
          [octet bpdu.portId 8, octet bpdu.portId 0,
            octet (jiffiesToTicks bpdu.messageAge) 8, octet (jiffiesToTicks bpdu.messageAge) 0,
            octet (jiffiesToTicks bpdu.maxAge) 8, octet (jiffiesToTicks bpdu.maxAge) 0,
            octet (jiffiesToTicks bpdu.helloTime) 8, octet (jiffiesToTicks bpdu.helloTime) 0,
            octet (jiffiesToTicks bpdu.forwardDelay) 8, octet (jiffiesToTicks bpdu.forwardDelay) 0])))

theorem ofBuf_octets (bpdu : ConfigBpdu) (rest : List UInt8) : ConfigBpdu.ofBuf (bpdu.octets ++ rest) = bpdu.inFrame := by
  have hflags : ∀ tc ack : Bool,
      decide (((if tc then (0x01 : UInt8) else 0) ||| (if ack then 0x80 else 0)) &&& 0x01 ≠ 0) = tc ∧
        decide (((if tc then (0x01 : UInt8) else 0) ||| (if ack then 0x80 else 0)) &&& 0x80 ≠ 0) = ack := by decide
  apply ConfigBpdu.ext
  · exact (hflags bpdu.topologyChange bpdu.topologyChangeAck).1
  · exact (hflags bpdu.topologyChange bpdu.topologyChangeAck).2
  · exact BridgeId.bytes_inj.mp rfl
  · exact word_octets bpdu.rootPathCost
  · exact BridgeId.bytes_inj.mp rfl
  · exact (congrArg (BitVec.setWidth 16) (halfword_octets bpdu.portId)).trans (by simp [ConfigBpdu.inFrame])
  · exact brGetTicks_octets bpdu.messageAge
  · exact brGetTicks_octets bpdu.maxAge
  · exact brGetTicks_octets bpdu.helloTime
  · exact brGetTicks_octets bpdu.forwardDelay

theorem readBpdu_config (devAddr : EthAddr) (bpdu : ConfigBpdu) :
    readBpdu (brSendBpdu devAddr bpdu.buf) = some (.config bpdu.inFrame) := by
  rw [readBpdu, drop_brSendBpdu, show bpdu.buf = header ++ bpdu.octets from rfl,
    ← ofBuf_octets bpdu (List.replicate 8 0xa5)]
  rfl

theorem readBpdu_tcn (devAddr : EthAddr) : readBpdu (brSendBpdu devAddr tcnBuf) = some .tcn := by
  rw [readBpdu, drop_brSendBpdu]
  rfl

/-- A time comes back one jiffy short, unless it is a whole number of quarter seconds. -/
def inTicks (j : BitVec 32) : BitVec 32 := if 25 ∣ j.toNat then j else j - 1

theorem received_eq_inTicks {j : BitVec 32} (h : j.toNat < 25600) : received j = inTicks j := by
  apply BitVec.eq_of_toNat_eq
  rw [received_toNat h, inTicks]
  split_ifs with hdvd
  · rfl
  · have hpos : 1 ≤ j.toNat := by
      by_contra hzero
      exact hdvd ⟨0, by omega⟩
    have hle : (1 : BitVec 32) ≤ j := hpos
    rw [BitVec.toNat_sub_of_le hle]
    rfl

theorem bpdu_round_trip (devAddr : EthAddr) (bpdu : ConfigBpdu) (hage : bpdu.messageAge.toNat < 25600)
    (hmax : bpdu.maxAge.toNat < 25600) (hhello : bpdu.helloTime.toNat < 25600)
    (hdelay : bpdu.forwardDelay.toNat < 25600) :
    readBpdu (brSendBpdu devAddr bpdu.buf) = some (.config { bpdu with
      messageAge := inTicks bpdu.messageAge
      maxAge := inTicks bpdu.maxAge
      helloTime := inTicks bpdu.helloTime
      forwardDelay := inTicks bpdu.forwardDelay }) := by
  rw [readBpdu_config, ConfigBpdu.inFrame, received_eq_inTicks hage, received_eq_inTicks hmax,
    received_eq_inTicks hhello, received_eq_inTicks hdelay]

theorem bpdu_round_trip_one_jiffy : ∃ bpdu : ConfigBpdu, bpdu.messageAge = 1 ∧ bpdu.maxAge = 20 * hz ∧
    readBpdu (brSendBpdu (fun _ => 2) bpdu.buf) = some (.config { bpdu with messageAge := 0 }) := by
  let bpdu : ConfigBpdu := ⟨true, false, ⟨fun _ => 1, fun _ => 1⟩, 19, ⟨fun _ => 2, fun _ => 2⟩, 0x8001, 1, 20 * hz,
    2 * hz, 15 * hz⟩
  refine ⟨bpdu, rfl, rfl, ?_⟩
  rw [bpdu_round_trip (fun _ => 2) bpdu (by decide) (by decide) (by decide) (by decide)]
  decide +kernel

end Wap610n.Stp
