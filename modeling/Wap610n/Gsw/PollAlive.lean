import Wap610n.Gsw.Poll

namespace Wap610n.Gsw

def Rx.Works (s : Rx) : Prop :=
  match s.receive with
  | .out => True
  | .loop i n workDone workToDo => workDone ≠ 0 ∨ i < n ∧ 0 < workToDo ∧ (s.rxdesc s.curIndex).cown = true
  | .done workDone => workDone ≠ 0

namespace Rx

variable {accepts : List UInt8 → Bool} {s s' : Rx}

theorem store_receive {e : RxEvent} (hstore : (∃ f, e = .storeFssd f) ∨ (∃ f, e = .storeCown f) ∨ e = .finish)
    (he : s.step accepts e = some s') : s'.receive = s.receive := by
  rcases hstore with ⟨f, rfl⟩ | ⟨f, rfl⟩ | rfl
  all_goals
    unfold Rx.step at he
    dsimp only at he
    split at he
  · split_ifs at he
    exact Option.some.inj he ▸ rfl
  · exact absurd he (by simp)
  · split_ifs at he
    exact Option.some.inj he ▸ rfl
  · exact absurd he (by simp)
  · exact Option.some.inj he ▸ rfl
  · exact Option.some.inj he ▸ rfl
  · exact absurd he (by simp)

theorem stack_works {e : RxEvent} (hstack : (∃ skb, e = .free skb) ∨ ∃ skb bytes, e = .write skb bytes)
    (he : s.step accepts e = some s') : s'.receive = s.receive ∧ (s.Works → s'.Works) := by
  rcases hstack with ⟨skb, rfl⟩ | ⟨skb, bytes, rfl⟩
  all_goals
    unfold Rx.step at he
    dsimp only at he
    split_ifs at he
    rw [← Option.some.inj he]
    exact ⟨rfl, id⟩

theorem leave_cases (he : s.step accepts .leave = some s') : s'.receive = .out := by
  unfold Rx.step at he
  dsimp only at he
  split at he
  · exact Option.some.inj he ▸ rfl
  · exact absurd he (by simp)

end Rx

namespace Driver

variable {accepts : List UInt8 → Bool} {s s' : Driver} {e : DriverEvent}

structure Alive (s : Driver) : Prop where
  inv : s.rx.Inv
  masked : s.scheduled = true → s.fsrcEnabled = false
  polling : s.rx.receive ≠ .out → s.scheduled = true
  noticed : s.dmaRunning = false → s.fsrc = true ∨ s.scheduled = true
  works : s.Waiting → s.rx.Works

theorem Alive.not_dead (h : s.Alive) : ¬s.Dead := by
  rintro ⟨hdma, hsched, -, hfsrc⟩
  rcases h.noticed hdma with hh | hh
  · exact absurd (hfsrc.symm.trans hh) (by decide)
  · exact absurd (hsched.symm.trans hh) (by decide)

theorem onRing_cases {e : RxEvent} (he : s.onRing accepts e = some s') :
    ∃ rx, s.rx.step accepts e = some rx ∧ s' = { s with rx := rx } := by
  obtain ⟨rx, hrx, rfl⟩ := Option.map_eq_some_iff.mp he
  exact ⟨rx, hrx, rfl⟩

theorem Alive.store {e : RxEvent} (h : s.Alive) (hrun : s.dmaRunning = true)
    (hstore : (∃ f, e = .storeFssd f) ∨ (∃ f, e = .storeCown f) ∨ e = .finish) (he : s.onRing accepts e = some s') :
    s'.Alive := by
  obtain ⟨rx, hrx, rfl⟩ := onRing_cases he
  refine ⟨h.inv.step hrx, h.masked, ?_, h.noticed, fun hw => ?_⟩
  · rw [Rx.store_receive hstore hrx]
    exact h.polling
  · exact absurd (hrun.symm.trans hw.1) (by decide)

theorem Alive.finish (h : s.Alive) (he : s.step accepts .finish = some s') : s'.Alive := by
  obtain ⟨rx, hrx, rfl⟩ := Option.map_eq_some_iff.mp he
  refine ⟨h.inv.step hrx, h.masked, ?_, fun _ => Or.inl rfl, fun hw => ?_⟩
  · change rx.receive ≠ .out → _
    rw [Rx.store_receive (Or.inr (Or.inr rfl)) hrx]
    exact h.polling
  · exact absurd hw.2 (by simp [raise])

theorem Alive.stack {e : RxEvent} (h : s.Alive) (hstack : (∃ skb, e = .free skb) ∨ ∃ skb bytes, e = .write skb bytes)
    (he : s.onRing accepts e = some s') : s'.Alive := by
  obtain ⟨rx, hrx, rfl⟩ := onRing_cases he
  obtain ⟨hr, hworks⟩ := Rx.stack_works hstack hrx
  refine ⟨h.inv.step hrx, h.masked, ?_, h.noticed, fun hw => hworks (h.works hw)⟩
  rw [hr]
  exact h.polling

theorem Alive.receiveIsr (h : s.Alive) (he : s.step accepts .receiveIsr = some s') : s'.Alive := by
  unfold Driver.step at he
  dsimp only at he
  split_ifs at he with hirq
  have hidle : s.scheduled = false := by
    by_contra hs
    exact absurd ((h.masked (Bool.eq_true_of_not_eq_false hs)).symm.trans hirq.2) (by decide)
  have hout : s.rx.receive = .out := by
    by_contra hr
    exact absurd (hidle.symm.trans (h.polling hr)) (by decide)
  rw [← Option.some.inj he, starGswReceiveIsr]
  dsimp only
  rw [hidle, if_neg Bool.false_ne_true]
  refine ⟨h.inv, fun _ => rfl, fun _ => rfl, fun _ => Or.inr rfl, fun _ => ?_⟩
  unfold Rx.Works
  rw [hout]
  trivial

theorem Alive.fsqfIsr (h : s.Alive) (he : s.step accepts .fsqfIsr = some s') : s'.Alive := by
  unfold Driver.step at he
  dsimp only at he
  split_ifs at he
  exact Option.some.inj he ▸ ⟨h.inv, h.masked, h.polling, h.noticed, h.works⟩

theorem Alive.poll {budget quota : ℤ} (h : s.Alive) (hok : s.Restarts (.poll budget quota))
    (he : s.step accepts (.poll budget quota) = some s') : s'.Alive := by
  unfold Driver.step at he
  dsimp only at he
  split_ifs at he with hs
  obtain ⟨rx, hrx, rfl⟩ := onRing_cases he
  obtain ⟨-, hdesc, hcur, hcases⟩ := Rx.poll_cases hrx
  refine ⟨h.inv.step hrx, h.masked, fun _ => hs, h.noticed, fun hw => ?_⟩
  obtain ⟨hlimit, hown⟩ := hok hw
  change rx.Works
  unfold Rx.Works
  rcases hcases with ⟨-, hfree⟩ | ⟨n, hr, hn⟩
  · exact absurd (hfree.symm.trans hown) (by decide)
  · rw [hr]
    dsimp only
    rw [hdesc, hcur]
    exact Or.inr ⟨hn h.inv.frames.cur_lt, by omega, hown⟩

theorem Alive.pass {alloc : Option ℕ} (h : s.Alive) (hok : s.Restarts (.pass alloc))
    (he : s.step accepts (.pass alloc) = some s') : s'.Alive := by
  obtain ⟨rx, hrx, rfl⟩ := onRing_cases he
  obtain ⟨i, n, workDone, workToDo, hr, hcases⟩ := Rx.pass_cases hrx
  have hs : s.scheduled = true := h.polling (by rw [hr]; simp)
  refine ⟨h.inv.step hrx, h.masked, fun _ => hs, h.noticed, fun hw => ?_⟩
  have hworks := h.works hw
  change rx.Works
  unfold Rx.Works at hworks ⊢
  rw [hr] at hworks
  dsimp only at hworks
  rcases hcases with ⟨hdone, hwhy⟩ | ⟨hloop, -⟩
  · rw [hdone]
    dsimp only
    rcases hworks with hw0 | ⟨hi, hlimit, hown⟩
    · exact hw0
    · intro hzero
      obtain rfl := hwhy hi (by omega) hown
      exact hok hw (by rw [hr]; exact hzero)
  · rw [hloop]
    exact Or.inl (Nat.succ_ne_zero workDone)

theorem Alive.leave (h : s.Alive) (he : s.step accepts .leave = some s') : s'.Alive := by
  unfold Driver.step at he
  dsimp only at he
  split at he
  case h_2 => exact absurd he (by simp)
  case h_1 workDone hr =>
    obtain ⟨t, ht, rfl⟩ := Option.map_eq_some_iff.mp he
    obtain ⟨rx, hrx, rfl⟩ := onRing_cases ht
    have hout := Rx.leave_cases hrx
    have hs : s.scheduled = true := h.polling (by rw [hr]; simp)
    have hworks : rx.Works := by
      unfold Rx.Works
      rw [hout]
      trivial
    unfold endPoll
    split_ifs with hwork hqf
    · exact ⟨h.inv.step hrx, h.masked, fun hne => absurd hout hne, fun _ => Or.inr hs, fun _ => hworks⟩
    · exact ⟨h.inv.step hrx, h.masked, fun hne => absurd hout hne, h.noticed, fun _ => hworks⟩
    · refine ⟨h.inv.step hrx, fun hh => absurd hh (by simp), fun hne => absurd hout hne, fun hdma => ?_, fun _ => hworks⟩
      left
      change s.fsrc = true
      by_contra hfsrc
      have hw := h.works ⟨hdma, Bool.eq_false_iff.mpr hfsrc⟩
      unfold Rx.Works at hw
      rw [hr] at hw
      exact hwork hw

theorem Alive.step (h : s.Alive) (hok : s.Restarts e) (he : s.step accepts e = some s') : s'.Alive := by
  cases e with
  | storeFssd frame =>
    unfold Driver.step at he
    dsimp only at he
    split_ifs at he with hrun
    exact h.store hrun (Or.inl ⟨frame, rfl⟩) he
  | storeCown frame =>
    unfold Driver.step at he
    dsimp only at he
    split_ifs at he with hrun
    exact h.store hrun (Or.inr (Or.inl ⟨frame, rfl⟩)) he
  | finish => exact h.finish he
  | receiveIsr => exact h.receiveIsr he
  | fsqfIsr => exact h.fsqfIsr he
  | poll budget quota => exact h.poll hok he
  | pass alloc => exact h.pass hok he
  | leave => exact h.leave he
  | free skb => exact h.stack (Or.inl ⟨skb, rfl⟩) he
  | write skb bytes => exact h.stack (Or.inr ⟨skb, bytes, rfl⟩) he

end Driver

end Wap610n.Gsw
