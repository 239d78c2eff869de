import Wap610n.Switch.Ports

namespace Wap610n.Switch

open Bytes

def echo (n : ℕ) : List UInt8 := [UInt8.ofNat (n + 48), 10]

def reEnablePort (i : ℕ) (c : UInt8) (regValue : BitVec 16) : BitVec 16 :=
  if c ≠ 51 then starSwitchSetPortEnable regValue (echo i) else regValue

def reEnableLoop : ℕ → List UInt8 → BitVec 16 → BitVec 16
  | _, [], regValue => regValue
  | i, [c], regValue => if i < 4 then reEnablePort i c regValue else regValue
  | i, c :: _ :: pp, regValue => if i < 4 then reEnableLoop (i + 1) pp (reEnablePort i c regValue) else regValue

def reEnableDisPort (regValue : BitVec 16) : BitVec 16 := reEnableLoop 0 (starSwitchGetPortEnable regValue) regValue

def portStatus (pp : List UInt8) : List UInt8 := (List.range 4).map fun i => pp.getD (2 * i) 0xff

structure Detector where
  tpChange : Bool
  disablePort : ℤ
  portLink : List UInt8
  ifwStatus : ℤ
  prePortLink : List UInt8
  initialized : Bool
  curDisPort : ℕ
  checkTime : ℕ
  tpTimeOut : ℕ
  regValue : BitVec 16

structure Readings where
  link : ℕ → Bool
  ifwStatus : ℤ
  wpsLoopDetect : Bool
  brLoop : ℕ → ℤ

namespace Detector

def resetPortmap (s : Detector) : Detector :=
  { s with regValue := reEnableDisPort s.regValue, disablePort := -1, initialized := false, tpChange := true }

def initStatus (regValue : BitVec 16) : Detector where
  tpChange := false
  disablePort := -1
  portLink := List.replicate 4 0
  ifwStatus := 0
  prePortLink := List.replicate 4 0
  initialized := false
  curDisPort := 0
  checkTime := 0
  tpTimeOut := 0
  regValue := reEnableDisPort regValue

def ageTopology (s : Detector) : Detector :=
  if s.tpChange then
    if s.tpTimeOut + 1 > 15 then { s with tpChange := false, tpTimeOut := 0 }
    else { s with tpTimeOut := s.tpTimeOut + 1 }
  else s

def portChanged (s : Detector) : Bool :=
  s.disablePort ≥ 0 ∧ byteAt s.portLink s.disablePort.toNat ≠ byteAt s.prePortLink s.disablePort.toNat

def wirelessChanged (s : Detector) (ifwStatus : ℤ) : Bool := s.disablePort ≥ 0 ∧ ifwStatus ≠ s.ifwStatus

def checkPort (s : Detector) (link : ℕ → Bool) : Detector :=
  let s := { s with portLink := portStatus (starSwitchGetPortLinkStatus link) }
  let s := if s.portChanged then s.resetPortmap else s
  { s with prePortLink := s.portLink }

def checkWireless (s : Detector) (ifwStatus : ℤ) : Detector :=
  let s := if s.wirelessChanged ifwStatus then s.resetPortmap else s
  { s with ifwStatus := ifwStatus }

def checkLinks (s : Detector) (r : Readings) : Detector :=
  let s := if s.checkTime ≥ 2 then { (s.checkPort r.link).checkWireless r.ifwStatus with checkTime := 0 } else s
  { s with checkTime := s.checkTime + 1 }

def onLoop (s : Detector) : Detector :=
  let disablePort := s.curDisPort % 4
  let regValue := if s.initialized then reEnableDisPort s.regValue else s.regValue
  { s with
    disablePort := disablePort
    initialized := true
    regValue := starSwitchSetPortDisable regValue (echo disablePort)
    curDisPort := (s.curDisPort + 1) % 4
    tpChange := true
    tpTimeOut := 0 }

def detectLoop (brLoop : ℕ → ℤ) : ℕ → ℕ → Detector → Detector
  | 0, _, s => s
  | n + 1, i, s => if brLoop i ≠ 0 then detectLoop brLoop n (i + 1) s.onLoop else s

def round (s : Detector) (r : Readings) : Detector :=
  let s := s.ageTopology.checkLinks r
  if r.wpsLoopDetect then s else detectLoop r.brLoop 4 0 s

def stateAt (regValue : BitVec 16) (readings : ℕ → Readings) : ℕ → Detector
  | 0 => initStatus regValue
  | k + 1 => (stateAt regValue readings k).round (readings k)

def PortsAgree (s : Detector) : Prop :=
  ∀ p < 4, rtl8306GetAsic1dPortState s.regValue p ≠ rtl8306SpanForward ↔ s.disablePort = p

def resets (s : Detector) (r : Readings) : Bool :=
  s.checkTime ≥ 2 ∧ s.disablePort ≥ 0 ∧
    ((if r.link s.disablePort.toNat then 49 else 48) ≠ byteAt s.prePortLink s.disablePort.toNat ∨
      r.ifwStatus ≠ s.ifwStatus)

end Detector

def Readings.reports (r : Readings) : ℕ :=
  if r.wpsLoopDetect then 0 else ((List.range 4).takeWhile fun i => r.brLoop i ≠ 0).length

def Detector.Tolerates (s : Detector) (r : Readings) : Prop :=
  if s.disablePort = -1 then r.reports ≤ 1 else s.resets r = false ∧ r.reports = 0

end Wap610n.Switch
