import Wap610n.Gsw.ReceiveRun

namespace Wap610n.Gsw

open Transition

/-- The receive ring with its DMA, the queue-full flag, the two interrupts (pending, and for the receive interrupt
whether it is enabled) and whether the device is on the poll list. -/
structure Driver where
  rx : Rx
  dmaRunning : Bool
  isQf : Bool
  fsqf : Bool
  fsrc : Bool
  fsrcEnabled : Bool
  scheduled : Bool

inductive DriverEvent
  | storeFssd (frame : List UInt8)
  | storeCown (frame : List UInt8)
  | finish
  | receiveIsr
  | fsqfIsr
  | poll (budget quota : ℤ)
  | pass (alloc : Option ℕ)
  | leave
  | free (skb : ℕ)
  | write (skb : ℕ) (bytes : List UInt8)

namespace Driver

def enable (rx : Rx) : Driver := ⟨rx, true, false, false, false, true, false⟩

/-- The hardware has stored a frame: it raises the receive interrupt, and it halts where no descriptor is free. -/
def raise (s : Driver) (rx : Rx) : Driver :=
  let full := (rx.rxdesc rx.hwIndex).cown
  { s with rx := rx, fsrc := true, dmaRunning := !full, fsqf := s.fsqf || full }

def starGswReceiveIsr (s : Driver) : Driver :=
  let s := { s with fsrc := false, fsrcEnabled := false }
  if s.scheduled then { s with fsrcEnabled := true } else { s with scheduled := true }

def starGswFsqfIsr (s : Driver) : Driver := { s with fsqf := false, isQf := true }

def endPoll (s : Driver) (workDone : ℕ) : Driver :=
  if workDone ≠ 0 then if s.isQf then { s with isQf := false, dmaRunning := true } else s
  else { s with scheduled := false, fsrcEnabled := true }

section

variable (accepts : List UInt8 → Bool)

def onRing (s : Driver) (e : RxEvent) : Option Driver := (s.rx.step accepts e).map fun rx => { s with rx := rx }

def step (s : Driver) : DriverEvent → Option Driver
  | .storeFssd frame => if s.dmaRunning then s.onRing accepts (.storeFssd frame) else none
  | .storeCown frame => if s.dmaRunning then s.onRing accepts (.storeCown frame) else none
  | .finish => (s.rx.step accepts .finish).map s.raise
  | .receiveIsr => if s.fsrc ∧ s.fsrcEnabled then some s.starGswReceiveIsr else none
  | .fsqfIsr => if s.fsqf then some s.starGswFsqfIsr else none
  | .poll budget quota => if s.scheduled then s.onRing accepts (.poll (min budget quota)) else none
  | .pass alloc => s.onRing accepts (.pass alloc)
  | .leave =>
    match s.rx.receive with
    | .done workDone => (s.onRing accepts .leave).map fun s => s.endPoll workDone
    | _ => none
  | .free skb => s.onRing accepts (.free skb)
  | .write skb bytes => s.onRing accepts (.write skb bytes)

end

def Dead (s : Driver) : Prop := s.dmaRunning = false ∧ s.scheduled = false ∧ s.fsqf = false ∧ s.fsrc = false

instance : DecidablePred Dead := fun s =>
  inferInstanceAs (Decidable (s.dmaRunning = false ∧ s.scheduled = false ∧ s.fsqf = false ∧ s.fsrc = false))

def Waiting (s : Driver) : Prop := s.dmaRunning = false ∧ s.fsrc = false

instance : DecidablePred Waiting := fun s => inferInstanceAs (Decidable (s.dmaRunning = false ∧ s.fsrc = false))

end Driver

def Receive.workDone : Receive → ℕ
  | .out => 0
  | .loop _ _ workDone _ => workDone
  | .done workDone => workDone

def Driver.Restarts (s : Driver) : DriverEvent → Prop
  | .poll budget quota => s.Waiting → 1 ≤ min budget quota ∧ (s.rx.rxdesc s.rx.curIndex).cown = true
  | .pass none => s.Waiting → s.rx.receive.workDone ≠ 0
  | _ => True

instance (s : Driver) : (e : DriverEvent) → Decidable (s.Restarts e)
  | .poll budget quota =>
    inferInstanceAs (Decidable (s.Waiting → 1 ≤ min budget quota ∧ (s.rx.rxdesc s.rx.curIndex).cown = true))
  | .pass none => inferInstanceAs (Decidable (s.Waiting → s.rx.receive.workDone ≠ 0))
  | .pass (some _) | .storeFssd _ | .storeCown _ | .finish | .receiveIsr | .fsqfIsr | .leave | .free _ | .write _ _ =>
    isTrue trivial

namespace Rx

variable {accepts : List UInt8 → Bool} {s s' : Rx}

theorem pass_cases {alloc : Option ℕ} (he : s.pass accepts alloc = some s') :
    ∃ i n workDone workToDo, s.receive = .loop i n workDone workToDo ∧
      (s'.receive = .done workDone ∧
          (i < n → workDone < workToDo → (s.rxdesc s.curIndex).cown = true → alloc = none) ∨
        s'.receive = .loop (i + 1) n (workDone + 1) workToDo ∧ alloc ≠ none) := by
  unfold Rx.pass at he
  split at he
  case h_1 i n workDone workToDo hr =>
    refine ⟨i, n, workDone, workToDo, hr, ?_⟩
    split_ifs at he with hstop
    · rw [← Option.some.inj he]
      refine Or.inl ⟨rfl, fun h1 h2 h3 => ?_⟩
      rcases hstop with h | h | h
      · exact absurd h1 h
      · exact absurd h2 (by omega)
      · exact absurd (h.symm.trans h3) (by decide)
    · split at he
      · exact Or.inl ⟨Option.some.inj he ▸ rfl, fun _ _ _ => rfl⟩
      · split_ifs at he
        exact Or.inr ⟨Option.some.inj he ▸ rfl, by simp⟩
  case h_2 => exact absurd he (by simp)

theorem poll_cases {workToDo : ℤ} (he : s.step accepts (.poll workToDo) = some s') : s.receive = .out ∧
    s'.rxdesc = s.rxdesc ∧ s'.curIndex = s.curIndex ∧
    (s'.receive = .done 0 ∧ (s.rxdesc s.curIndex).cown = false ∨
      ∃ n, s'.receive = .loop 0 n 0 workToDo ∧ (s.curIndex < starGswMaxRfdNum → 0 < n)) := by
  unfold Rx.step at he
  dsimp only at he
  split at he
  · rename_i hr
    rw [← Option.some.inj he]
    refine ⟨hr, rfl, rfl, ?_⟩
    dsimp only
    unfold rxcount
    dsimp only
    split_ifs with h1 h2 h3
    · exact Or.inr ⟨_, rfl, fun _ => by omega⟩
    · exact Or.inr ⟨_, rfl, fun _ => by omega⟩
    · exact Or.inl ⟨rfl, h3⟩
    · exact Or.inr ⟨_, rfl, fun _ => maxRfdNum_pos⟩
  · exact absurd he (by simp)

end Rx

end Wap610n.Gsw
