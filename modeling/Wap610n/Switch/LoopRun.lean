import Wap610n.Switch.Board

namespace Wap610n.Switch

open Finset

theorem Readings.reports_le (r : Readings) : r.reports < 5 := by
  unfold Readings.reports
  split_ifs
  · decide
  · exact Nat.lt_succ_of_le (List.takeWhile_prefix _).length_le

namespace Detector

variable {s : Detector} {r : Readings}

theorem recorded_eq_some (h : s.InRange) (p : Fin 4) : s.board.recorded = some p ↔ s.disablePort = p := by
  have hhigh := h.high
  unfold board
  dsimp only
  split_ifs with hneg
  · exact iff_of_false (by simp) (by omega)
  · rw [Option.some.injEq, Fin.ext_iff, Fin.val_ofNat]
    omega

theorem recorded_eq_none (h : s.InRange) : s.board.recorded = none ↔ s.disablePort = -1 := by
  have hlow := h.low
  unfold board
  dsimp only
  split_ifs with hneg
  · exact iff_of_true rfl (by omega)
  · exact iff_of_false (by simp) (by omega)

theorem portsAgree_iff_board (h : s.InRange) : s.PortsAgree ↔ s.board.Agrees := by
  unfold PortsAgree Board.Agrees
  rw [Finset.ext_iff]
  constructor
  · intro hp p
    rw [Option.mem_toFinset, Option.mem_def, recorded_eq_some h, ← hp p p.isLt]
    exact mem_blocked s.regValue p
  · intro hp p hlt
    have heq := hp ⟨p, hlt⟩
    rw [Option.mem_toFinset, Option.mem_def, recorded_eq_some h] at heq
    rw [← heq]
    exact (mem_blocked s.regValue ⟨p, hlt⟩).symm

structure Early (s : Detector) : Prop where
  inRange : s.InRange
  board : s.board = .fresh ∨ s.board = .disabled

theorem Early.portsAgree (h : s.Early) : s.PortsAgree := by
  rw [portsAgree_iff_board h.inRange]
  rcases h.board with hb | hb
  · rw [hb]
    decide
  · rw [hb]
    decide

theorem agrees_round_iff (h : s.Early) (r : Readings) : (s.round r).PortsAgree ↔ s.Tolerates r := by
  obtain ⟨hrange, hround⟩ := board_round h.inRange r
  have hn : r.reports = (⟨r.reports, r.reports_le⟩ : Fin 5).val := rfl
  rw [portsAgree_iff_board hrange, hround]
  unfold Tolerates
  rcases h.board with hb | hb
  · have hd : s.disablePort = -1 := (recorded_eq_none h.inRange).mp (hb ▸ rfl)
    rw [if_pos hd, if_neg (by simp [resets, hd]), hb, hn, Board.agrees_fresh_iff]
  · have hd : s.disablePort = (0 : Fin 4) := (recorded_eq_some h.inRange 0).mp (hb ▸ rfl)
    have hne : s.disablePort ≠ -1 := by rw [hd]; decide
    rw [if_neg hne, hb]
    cases s.resets r with
    | true =>
      rw [if_pos rfl, hn]
      exact iff_of_false (Board.not_agrees_reset _) fun ht => absurd ht.1.symm Bool.false_ne_true
    | false =>
      rw [if_neg Bool.false_ne_true, hn, Board.agrees_disabled_iff]
      exact (and_iff_right rfl).symm

theorem Early.round (h : s.Early) {r : Readings} (ht : s.Tolerates r) : (s.round r).Early := by
  obtain ⟨hrange, hround⟩ := board_round h.inRange r
  refine ⟨hrange, hround ▸ ?_⟩
  unfold Tolerates at ht
  rcases h.board with hb | hb
  · have hd : s.disablePort = -1 := (recorded_eq_none h.inRange).mp (hb ▸ rfl)
    rw [if_pos hd] at ht
    rw [if_neg (by simp [resets, hd]), hb]
    rcases Nat.le_one_iff_eq_zero_or_eq_one.mp ht with h0 | h1
    · rw [h0]
      exact Or.inl rfl
    · rw [h1]
      right
      decide
  · have hd : s.disablePort = (0 : Fin 4) := (recorded_eq_some h.inRange 0).mp (hb ▸ rfl)
    have hne : s.disablePort ≠ -1 := by rw [hd]; decide
    rw [if_neg hne] at ht
    rw [ht.1, ht.2, if_neg Bool.false_ne_true, hb]
    exact Or.inr rfl

def AllForward (regValue : BitVec 16) : Prop :=
  ∀ p < 4, rtl8306GetAsic1dPortState regValue p = rtl8306SpanForward

theorem early_initStatus {regValue : BitVec 16} (h : AllForward regValue) : (initStatus regValue).Early := by
  have hnone : blocked regValue = ∅ := by
    apply Finset.eq_empty_of_forall_notMem
    intro p hp
    exact (mem_blocked regValue p).mp hp (h p p.isLt)
  have hboard : (initStatus regValue).board = ⟨blocked (reEnableDisPort regValue), none, false, 0⟩ := rfl
  refine ⟨⟨le_rfl, show (-1 : ℤ) < 4 by decide, show 0 < 4 by decide⟩, Or.inl ?_⟩
  rw [hboard, blocked_reEnableDisPort, hnone]
  rfl

theorem portsAgree_iff {regValue : BitVec 16} (h : AllForward regValue) (readings : ℕ → Readings) (n : ℕ) :
    (∀ k ≤ n, (stateAt regValue readings k).PortsAgree) ↔
      ∀ k < n, (stateAt regValue readings k).Tolerates (readings k) := by
  -- as long as the rounds are tolerated the states are early ones
  have hearly : ∀ k, (∀ j < k, (stateAt regValue readings j).Tolerates (readings j)) →
      (stateAt regValue readings k).Early := by
    intro k
    induction k with
    | zero => exact fun _ => early_initStatus h
    | succ k ih =>
      intro ht
      exact (ih fun j hj => ht j (by omega)).round (ht k (by omega))
  constructor
  · intro hall k
    induction k using Nat.strongRecOn with
    | ind k ih =>
      intro hk
      have hbefore := hearly k fun j hj => ih j hj (by omega)
      exact (agrees_round_iff hbefore (readings k)).mp (hall (k + 1) hk)
  · intro ht k hk
    exact (hearly k fun j hj => ht j (by omega)).portsAgree

def loopReadings (rounds : List ℕ) (k : ℕ) : Readings where
  link _ := true
  ifwStatus := 0
  wpsLoopDetect := false
  brLoop i := if k ∈ rounds ∧ i = 0 then 1 else 0

theorem allForward_reset : AllForward 0xffff := by
  unfold AllForward
  decide

theorem portsAgree_iff_oneReport : AllForward 0xffff ∧
    ∀ k ≤ 2, (stateAt 0xffff (loopReadings [1]) k).PortsAgree := by
  refine ⟨allForward_reset, (portsAgree_iff allForward_reset _ 2).mpr ?_⟩
  unfold Tolerates
  decide

theorem secondReport_blocks_two : AllForward 0xffff ∧
    rtl8306GetAsic1dPortState (stateAt 0xffff (loopReadings [0, 1]) 2).regValue 0 = rtl8306SpanBlock ∧
    rtl8306GetAsic1dPortState (stateAt 0xffff (loopReadings [0, 1]) 2).regValue 1 = rtl8306SpanBlock ∧
    ¬(stateAt 0xffff (loopReadings [0, 1]) 2).PortsAgree := by
  refine ⟨allForward_reset, by decide, by decide, ?_⟩
  unfold PortsAgree
  decide

end Detector

end Wap610n.Switch
