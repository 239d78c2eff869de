import Wap610n.Gsw.PollAlive

namespace Wap610n.Gsw.Driver

open Transition

variable {accepts : List UInt8 → Bool} {s s' : Driver}

theorem Waiting.dies (h : s.Waiting) {rx : Rx} (hdone : rx.receive = .done 0) (accepts : List UInt8 → Bool) :
    ∃ es t, exec (step accepts) { s with rx := rx } es = some t ∧ t.Dead := by
  obtain ⟨hdma, hfsrc⟩ := h
  have hleave : step accepts { s with rx := rx } .leave =
      some { s with rx := { rx with receive := .out }, scheduled := false, fsrcEnabled := true } := by
    simp [step, hdone, onRing, Rx.step, endPoll]
  by_cases hfsqf : s.fsqf = true
  swap
  · refine ⟨[.leave], { s with rx := { rx with receive := .out }, scheduled := false, fsrcEnabled := true }, ?_, ?_⟩
    · rw [exec, hleave, Option.bind_some, exec]
    · exact ⟨hdma, rfl, Bool.eq_false_iff.mpr hfsqf, hfsrc⟩
  · refine ⟨[.leave, .fsqfIsr], starGswFsqfIsr
      { s with rx := { rx with receive := .out }, scheduled := false, fsrcEnabled := true }, ?_, ?_⟩
    · rw [exec, hleave, Option.bind_some, exec, step, if_pos hfsqf, Option.bind_some, exec]
    · exact ⟨hdma, rfl, rfl, hfsrc⟩

theorem dies_of_poll {budget quota : ℤ} (hok : ¬s.Restarts (.poll budget quota))
    (he : s.step accepts (.poll budget quota) = some s') : ∃ es t, exec (step accepts) s' es = some t ∧ t.Dead := by
  unfold Restarts at hok
  push Not at hok
  obtain ⟨hw, hbad⟩ := hok
  unfold Driver.step at he
  dsimp only at he
  split_ifs at he
  obtain ⟨rx, hrx, rfl⟩ := onRing_cases he
  obtain ⟨-, hdesc, hcur, ⟨hdone, -⟩ | ⟨n, hloop, -⟩⟩ := Rx.poll_cases hrx
  · exact hw.dies hdone accepts
  · have hstop : ¬0 < n ∨ ((0 : ℕ) : ℤ) ≥ min budget quota ∨ (rx.rxdesc rx.curIndex).cown = false := by
      rw [hdesc, hcur]
      by_cases hlimit : 1 ≤ min budget quota
      · exact Or.inr (Or.inr (Bool.eq_false_iff.mpr (hbad hlimit)))
      · exact Or.inr (Or.inl (by push_cast; omega))
    have hpass : step accepts { s with rx := rx } (.pass none) =
        some { s with rx := { rx with receive := .done 0 } } := by
      change Option.map _ (rx.pass accepts none) = _
      rw [Rx.pass, hloop]
      dsimp only
      rw [if_pos hstop]
      rfl
    obtain ⟨es, t, hexec, hdead⟩ := hw.dies (show { rx with receive := .done 0 }.receive = .done 0 from rfl) accepts
    exact ⟨.pass none :: es, t, by rw [exec, hpass, Option.bind_some, hexec], hdead⟩

theorem dies_of_pass (hok : ¬s.Restarts (.pass none)) (he : s.step accepts (.pass none) = some s') :
    ∃ es t, exec (step accepts) s' es = some t ∧ t.Dead := by
  unfold Restarts at hok
  push Not at hok
  obtain ⟨hw, hzero⟩ := hok
  obtain ⟨rx, hrx, rfl⟩ := onRing_cases he
  have hpass : s.rx.pass accepts none = some rx := hrx
  obtain ⟨i, n, workDone, workToDo, hr, ⟨hdone, -⟩ | ⟨-, halloc⟩⟩ := Rx.pass_cases hpass
  · rw [hr] at hzero
    obtain rfl : workDone = 0 := hzero
    exact hw.dies hdone accepts
  · exact absurd rfl halloc

theorem reception_stays_alive {phyAddr : ℕ} {mem : ℕ → List UInt8} {alloc : ℕ → Option ℕ} {rx : Rx}
    (halloc : ∀ i j skb, alloc i = some skb → alloc j = some skb → i = j)
    (h₀ : Rx.bufferAlloc phyAddr mem alloc = some rx) (h : Run (step accepts) Restarts (enable rx) s) :
    ¬s.Dead ∧ ∀ e s', s.step accepts e = some s' → ¬s.Restarts e →
      ∃ es t, exec (step accepts) s' es = some t ∧ t.Dead := by
  have h₁ : (enable rx).Alive := by
    have hrun : (enable rx).dmaRunning ≠ false := by simp [enable]
    refine ⟨Rx.inv_bufferAlloc halloc h₀, fun hs => absurd hs (by simp [enable]), fun hr => ?_,
      fun hd => absurd hd hrun, fun hw => absurd hw.1 hrun⟩
    exact absurd (Rx.receive_bufferAlloc h₀) hr
  have halive : s.Alive := Run.invariant Alive h₁ (fun s e s' hs hok he => hs.step hok he) h
  refine ⟨halive.not_dead, fun e s' he hok => ?_⟩
  cases e with
  | poll budget quota => exact dies_of_poll hok he
  | pass alloc =>
    cases alloc with
    | none => exact dies_of_pass hok he
    | some skb => exact absurd trivial hok
  | _ => exact absurd trivial hok

def exampleRing : Option Rx := Rx.bufferAlloc 4096 (fun _ => []) some

def fillRing : List DriverEvent := (List.replicate starGswMaxRfdNum [.storeFssd [0], .finish]).flatten

def restartedRun : List DriverEvent :=
  fillRing ++ [.receiveIsr, .fsqfIsr, .poll 64 64, .pass (some 100), .pass none, .leave]

theorem reception_stays_alive_restarted : ∃ rx s, exampleRing = some rx ∧
    execIf (step fun _ => true) Restarts (enable rx) restartedRun = some s ∧ s.dmaRunning = true ∧ ¬s.Dead := by
  have hrun : (exampleRing.bind fun rx => execIf (step fun _ => true) Restarts (enable rx) restartedRun).map
      dmaRunning = some true := by
    decide +kernel
  obtain ⟨s, hs, hdma⟩ := Option.map_eq_some_iff.mp hrun
  obtain ⟨rx, h₀, hs⟩ := Option.bind_eq_some_iff.mp hs
  have halloc : ∀ i j skb : ℕ, some i = some skb → some j = some skb → i = j :=
    fun i j skb hi hj => Option.some.inj (hi.trans hj.symm)
  exact ⟨rx, s, h₀, hs, hdma, (reception_stays_alive halloc h₀ (Run.refl.execIf hs)).1⟩

def failedRun : List DriverEvent := fillRing ++ [.receiveIsr, .fsqfIsr, .poll 64 64, .pass none, .leave]

def drainedRun : List DriverEvent :=
  fillRing ++ [.receiveIsr, .poll 64 64] ++ (List.range starGswMaxRfdNum).map (fun i => .pass (some (100 + i))) ++
    [.pass none, .leave, .fsqfIsr, .poll 64 64, .leave]

theorem reception_dies : ∃ rx, exampleRing = some rx ∧
    (∃ s, exec (step fun _ => true) (enable rx) failedRun = some s ∧ s.Dead) ∧
    ∃ s, exec (step fun _ => true) (enable rx) drainedRun = some s ∧ s.Dead := by
  have hfailed : (exampleRing.bind fun rx => exec (step fun _ => true) (enable rx) failedRun).map
      (fun s => decide s.Dead) = some true := by
    decide +kernel
  have hdrained : (exampleRing.bind fun rx => exec (step fun _ => true) (enable rx) drainedRun).map
      (fun s => decide s.Dead) = some true := by
    decide +kernel
  obtain ⟨s, hs, hdead⟩ := Option.map_eq_some_iff.mp hfailed
  obtain ⟨t, ht, hdead'⟩ := Option.map_eq_some_iff.mp hdrained
  obtain ⟨rx, h₀, hs⟩ := Option.bind_eq_some_iff.mp hs
  obtain ⟨rx', h₀', ht⟩ := Option.bind_eq_some_iff.mp ht
  obtain rfl := Option.some.inj (h₀.symm.trans h₀')
  exact ⟨rx, h₀, ⟨s, hs, of_decide_eq_true hdead⟩, t, ht, of_decide_eq_true hdead'⟩

end Wap610n.Gsw.Driver
