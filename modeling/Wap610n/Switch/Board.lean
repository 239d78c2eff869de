import Mathlib.Data.Finset.Option
import Mathlib.Data.Fintype.Basic
import Mathlib.Logic.Function.Iterate
import Mathlib.Tactic.FinCases
import Wap610n.Switch.LoopDetect

namespace Wap610n.Switch

open Bytes Finset

structure Board where
  blocked : Finset (Fin 4)
  recorded : Option (Fin 4)
  initialized : Bool
  next : Fin 4
deriving DecidableEq

namespace Board

def reEnable (blocked : Finset (Fin 4)) : Finset (Fin 4) := blocked.filter fun p => p = 3 ∨ p = 0 ∧ 3 ∉ blocked

def reset (b : Board) : Board := { b with blocked := reEnable b.blocked, recorded := none, initialized := false }

def report (b : Board) : Board where
  blocked := insert b.next (if b.initialized then reEnable b.blocked else b.blocked)
  recorded := some b.next
  initialized := true
  next := b.next + 1

def Agrees (b : Board) : Prop := b.blocked = b.recorded.toFinset

instance : DecidablePred Agrees := fun b => inferInstanceAs (Decidable (b.blocked = b.recorded.toFinset))

def fresh : Board := ⟨∅, none, false, 0⟩

def disabled : Board := ⟨{0}, some 0, true, 1⟩

theorem agrees_fresh_iff : ∀ n : Fin 5, (report^[n] fresh).Agrees ↔ n.val ≤ 1 := by decide

theorem agrees_disabled_iff : ∀ n : Fin 5, (report^[n] disabled).Agrees ↔ n.val = 0 := by decide

theorem not_agrees_reset : ∀ n : Fin 5, ¬(report^[n] disabled.reset).Agrees := by decide

end Board

section Register

variable (regValue : BitVec 16)

def blocked : Finset (Fin 4) := univ.filter fun p => rtl8306GetAsic1dPortState regValue p ≠ rtl8306SpanForward

theorem mem_blocked (p : Fin 4) :
    p ∈ blocked regValue ↔ rtl8306GetAsic1dPortState regValue p ≠ rtl8306SpanForward := by
  rw [blocked, mem_filter, and_iff_right (mem_univ p)]

theorem setPortState_echo (state : ℕ) (p : Fin 4) :
    setPortState state regValue (echo p) = rtl8306SetAsic1dPortState regValue p state := by
  fin_cases p <;> rfl

theorem stateChar_iff {port : ℕ} (hp : port ≤ rtl8306Port5) :
    UInt8.ofNat (rtl8306GetAsic1dPortState regValue port + 48) ≠ 51 ↔
      rtl8306GetAsic1dPortState regValue port ≠ rtl8306SpanForward := by
  have hle := rtl8306Get_lt regValue hp
  generalize rtl8306GetAsic1dPortState regValue port = state at hle ⊢
  unfold rtl8306SpanForward at hle ⊢
  interval_cases state <;> decide

theorem get_reEnablePort (i p : Fin 4) (c : UInt8) : rtl8306GetAsic1dPortState (reEnablePort i c regValue) p =
    if p = i ∧ c ≠ 51 then rtl8306SpanForward else rtl8306GetAsic1dPortState regValue p := by
  have hi : i.val ≤ rtl8306Port5 := by unfold rtl8306Port5; omega
  have hp : p.val ≤ rtl8306Port5 := by unfold rtl8306Port5; omega
  unfold reEnablePort starSwitchSetPortEnable
  by_cases hc : c ≠ 51
  · rw [if_pos hc, setPortState_echo, rtl8306Get_set regValue hi hp le_rfl]
    simp only [Fin.ext_iff, and_iff_left hc]
  · rw [if_neg hc, if_neg fun h => hc h.2]

theorem mem_blocked_reEnablePort (i p : Fin 4) (c : UInt8) :
    p ∈ blocked (reEnablePort i c regValue) ↔ p ∈ blocked regValue ∧ ¬(p = i ∧ c ≠ 51) := by
  rw [mem_blocked, mem_blocked, get_reEnablePort]
  split_ifs with h <;> simp [h]

theorem reEnableDisPort_eq : reEnableDisPort regValue =
    reEnablePort (2 : Fin 4) 0 (reEnablePort (1 : Fin 4) (UInt8.ofNat (rtl8306GetAsic1dPortState regValue 1 + 48))
      (reEnablePort (0 : Fin 4) (UInt8.ofNat (rtl8306GetAsic1dPortState regValue 3 + 48)) regValue)) := rfl

/-- The reader takes the state of port 3 for that of port 0 and finds the NUL for port 2. -/
theorem blocked_reEnableDisPort : blocked (reEnableDisPort regValue) = Board.reEnable (blocked regValue) := by
  have h1 := (stateChar_iff regValue (show 1 ≤ rtl8306Port5 by decide)).trans (mem_blocked regValue 1).symm
  have h3 := (stateChar_iff regValue (show 3 ≤ rtl8306Port5 by decide)).trans (mem_blocked regValue 3).symm
  ext p
  rw [reEnableDisPort_eq, mem_blocked_reEnablePort, mem_blocked_reEnablePort, mem_blocked_reEnablePort, h1, h3,
    Board.reEnable, mem_filter]
  fin_cases p <;> simp

theorem blocked_disable (p : Fin 4) :
    blocked (starSwitchSetPortDisable regValue (echo p)) = insert p (blocked regValue) := by
  ext q
  have hp : p.val ≤ rtl8306Port5 := by unfold rtl8306Port5; omega
  have hq : q.val ≤ rtl8306Port5 := by unfold rtl8306Port5; omega
  rw [mem_insert, mem_blocked, mem_blocked, starSwitchSetPortDisable, setPortState_echo,
    rtl8306Get_set regValue hp hq (by decide)]
  by_cases h : q = p
  · simp [h, rtl8306SpanBlock, rtl8306SpanForward]
  · rw [if_neg fun heq => h (Fin.ext heq), or_iff_right h]

end Register

namespace Detector

variable {s : Detector} {r : Readings}

def board (s : Detector) : Board where
  blocked := Switch.blocked s.regValue
  recorded := if s.disablePort < 0 then none else some (Fin.ofNat 4 s.disablePort.toNat)
  initialized := s.initialized
  next := Fin.ofNat 4 s.curDisPort

structure InRange (s : Detector) : Prop where
  low : -1 ≤ s.disablePort
  high : s.disablePort < 4
  next : s.curDisPort < 4

theorem board_resetPortmap (s : Detector) : s.resetPortmap.board = s.board.reset := by
  unfold board resetPortmap Board.reset
  rw [blocked_reEnableDisPort]
  rfl

theorem board_onLoop (s : Detector) : s.onLoop.board = s.board.report := by
  have hp : s.curDisPort % 4 = (Fin.ofNat 4 s.curDisPort : Fin 4).val := rfl
  unfold board onLoop Board.report
  dsimp only
  congr 1
  · rw [hp, blocked_disable]
    congr 1
    split_ifs
    · exact blocked_reEnableDisPort s.regValue
    · rfl
  · rw [if_neg (by omega)]
    congr 1
    apply Fin.ext
    simp only [Fin.val_ofNat]
    omega
  · apply Fin.ext
    simp [Fin.val_add]

theorem InRange.onLoop (s : Detector) : s.onLoop.InRange := by
  constructor <;> (simp only [Detector.onLoop]; omega)

theorem board_detectLoop (brLoop : ℕ → ℤ) (n i : ℕ) (s : Detector) : (detectLoop brLoop n i s).board =
    Board.report^[((List.range' i n).takeWhile fun i => brLoop i ≠ 0).length] s.board := by
  induction n generalizing i s with
  | zero => rfl
  | succ n ih =>
    rw [detectLoop, List.range'_succ, List.takeWhile_cons]
    by_cases h : brLoop i ≠ 0
    · rw [if_pos h, ih, board_onLoop, if_pos (decide_eq_true h), List.length_cons, Function.iterate_succ_apply]
    · rw [if_neg h, if_neg (by simpa using h)]
      rfl

theorem InRange.detectLoop (h : s.InRange) (brLoop : ℕ → ℤ) (n i : ℕ) : (detectLoop brLoop n i s).InRange := by
  induction n generalizing i s with
  | zero => exact h
  | succ n ih =>
    rw [Detector.detectLoop]
    split_ifs
    · exact ih (InRange.onLoop s) (i + 1)
    · exact h

theorem InRange.resetPortmap (h : s.InRange) : s.resetPortmap.InRange := by
  refine ⟨?_, ?_, h.next⟩
  · exact le_rfl
  · change (-1 : ℤ) < 4
    decide

theorem byteAt_portStatus (link : ℕ → Bool) {p : ℕ} (hp : p < 4) :
    byteAt (portStatus (starSwitchGetPortLinkStatus link)) p = if link p then 49 else 48 := by
  interval_cases p <;> rfl

theorem portChanged_iff (h : s.InRange) (link : ℕ → Bool) :
    portChanged { s with portLink := portStatus (starSwitchGetPortLinkStatus link) } = true ↔ s.disablePort ≥ 0 ∧
      (if link s.disablePort.toNat then 49 else 48) ≠ byteAt s.prePortLink s.disablePort.toNat := by
  have hhigh := h.high
  unfold portChanged
  rw [decide_eq_true_iff]
  apply and_congr_right
  intro hd
  have hlt : s.disablePort.toNat < 4 := by
    change 0 ≤ s.disablePort at hd
    omega
  rw [byteAt_portStatus link hlt]

theorem board_checkPort (h : s.InRange) (link : ℕ → Bool) :
    (s.checkPort link).InRange ∧ (s.checkPort link).ifwStatus = s.ifwStatus ∧
    (portChanged { s with portLink := portStatus (starSwitchGetPortLinkStatus link) } = true →
      (s.checkPort link).disablePort = -1 ∧ (s.checkPort link).board = s.board.reset) ∧
    (portChanged { s with portLink := portStatus (starSwitchGetPortLinkStatus link) } = false →
      (s.checkPort link).disablePort = s.disablePort ∧ (s.checkPort link).board = s.board) := by
  unfold checkPort
  dsimp only
  cases portChanged { s with portLink := portStatus (starSwitchGetPortLinkStatus link) } with
  | true =>
    rw [if_pos rfl]
    have hr := h.resetPortmap
    exact ⟨⟨hr.low, hr.high, hr.next⟩, rfl, fun _ => ⟨rfl, board_resetPortmap s⟩, fun hf => absurd hf (by decide)⟩
  | false =>
    rw [if_neg Bool.false_ne_true]
    exact ⟨⟨h.low, h.high, h.next⟩, rfl, fun hf => absurd hf (by decide), fun _ => ⟨rfl, rfl⟩⟩

theorem board_checkWireless (h : s.InRange) (ifwStatus : ℤ) : (s.checkWireless ifwStatus).InRange ∧
    (s.checkWireless ifwStatus).board = if s.wirelessChanged ifwStatus then s.board.reset else s.board := by
  unfold checkWireless
  dsimp only
  split_ifs
  · have hr := h.resetPortmap
    exact ⟨⟨hr.low, hr.high, hr.next⟩, board_resetPortmap s⟩
  · exact ⟨⟨h.low, h.high, h.next⟩, rfl⟩

theorem board_checkLinks (h : s.InRange) : (s.checkLinks r).InRange ∧
    (s.checkLinks r).board = if s.resets r then s.board.reset else s.board := by
  unfold checkLinks
  dsimp only
  by_cases ht : s.checkTime ≥ 2
  swap
  · rw [if_neg ht, if_neg (by simp [resets, ht])]
    exact ⟨⟨h.low, h.high, h.next⟩, rfl⟩
  obtain ⟨hrange, hifw, hchanged, hkept⟩ := board_checkPort h r.link
  obtain ⟨hw, hboard⟩ := board_checkWireless hrange r.ifwStatus
  have hport := portChanged_iff h r.link
  rw [if_pos ht]
  refine ⟨⟨hw.low, hw.high, hw.next⟩, hboard.trans ?_⟩
  unfold resets wirelessChanged
  rw [hifw]
  cases hc : portChanged { s with portLink := portStatus (starSwitchGetPortLinkStatus r.link) } with
  | true =>
    obtain ⟨hd, hb⟩ := hchanged hc
    have hdiff := hport.mp hc
    rw [hb, hd, if_neg (by simp), if_pos (decide_eq_true ⟨ht, hdiff.1, Or.inl hdiff.2⟩)]
  | false =>
    obtain ⟨hd, hb⟩ := hkept hc
    have hsame := mt hport.mpr (by rw [hc]; exact Bool.false_ne_true)
    rw [hb, hd]
    congr 1
    rw [decide_eq_true_iff, decide_eq_true_iff, eq_iff_iff, and_iff_right ht]
    apply and_congr_right
    intro hd
    rw [or_iff_right fun hdiff => hsame ⟨hd, hdiff⟩]

theorem ageTopology_eq (s : Detector) :
    ∃ tpChange tpTimeOut, s.ageTopology = { s with tpChange := tpChange, tpTimeOut := tpTimeOut } := by
  unfold ageTopology
  split_ifs
  · exact ⟨_, _, rfl⟩
  · exact ⟨_, _, rfl⟩
  · exact ⟨_, _, rfl⟩

theorem board_round (h : s.InRange) (r : Readings) : (s.round r).InRange ∧
    (s.round r).board = Board.report^[r.reports] (if s.resets r then s.board.reset else s.board) := by
  obtain ⟨tpChange, tpTimeOut, hage⟩ := s.ageTopology_eq
  have hs : s.ageTopology.InRange := hage ▸ ⟨h.low, h.high, h.next⟩
  obtain ⟨hrange, hboard⟩ := board_checkLinks (r := r) hs
  have hsame : (if s.ageTopology.resets r then s.ageTopology.board.reset else s.ageTopology.board) =
      if s.resets r then s.board.reset else s.board := by
    rw [hage]
    rfl
  rw [hsame] at hboard
  unfold round Readings.reports
  dsimp only
  split_ifs at hboard ⊢ with hw
  · exact ⟨hrange, hboard⟩
  · exact ⟨hrange, hboard⟩
  · refine ⟨hrange.detectLoop r.brLoop 4 0, ?_⟩
    rw [board_detectLoop, hboard, ← List.range_eq_range']
  · refine ⟨hrange.detectLoop r.brLoop 4 0, ?_⟩
    rw [board_detectLoop, hboard, ← List.range_eq_range']

end Detector

end Wap610n.Switch
