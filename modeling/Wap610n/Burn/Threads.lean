import Wap610n.Web.Upload

/-!
The web server thread and the burn threads it creates, in any interleaving. They share the burn
parameters and the flash device.
-/

namespace Wap610n.Burn

open Bytes Transition Web

def BurnThread.created : BurnThread := {}

def BurnThread.live (t : BurnThread) : Bool := t.pc ≠ .ended ∧ t.pc ≠ .crashed

inductive WebPhase
  | idle
  | received (u : Upload) (len : ℤ)
  | prepared (u : Upload) (len : ℤ)

structure System where
  params : BurnParams
  flash : ℕ → UInt8
  threads : List BurnThread
  web : WebPhase

inductive Event
  | receive (u : Upload)
  | prepare
  | burn
  | thread (i : ℕ) (io : Io)

namespace State

variable {s s' : State}

def Active (s : State) : Prop := s.params.burnState ≠ .idle

theorem fail_active (s : State) : s.fail.Active := nofun

theorem finish_active (s : State) : s.finish.Active := by
  unfold finish
  dsimp only
  split_ifs
  · exact nofun
  · exact nofun
  · exact nofun

theorem Active.attempt (h : s.Active) : s.attempt.Active := by
  unfold State.attempt
  split_ifs
  · exact h
  · exact finish_active s

theorem Active.retry (h : s.Active) : s.retry.Active := Active.attempt h

theorem Active.afterWrite (h : s.Active) : s.afterWrite.Active := by
  unfold State.afterWrite
  split_ifs
  · exact nofun
  · exact h.retry

theorem Active.afterLoop (h : s.Active) : s.afterLoop.Active := by
  unfold State.afterLoop
  split_ifs
  · exact h
  · exact (fail_active s).afterWrite

theorem Active.writeLoop (h : s.Active) : s.writeLoop.Active := by
  unfold State.writeLoop
  split_ifs
  · exact h
  · exact h.afterLoop

theorem Active.verifyLoop (h : s.Active) : s.verifyLoop.Active := by
  unfold State.verifyLoop
  split_ifs
  · exact h
  · exact h

theorem Active.written (h : s.Active) (n : ℕ) : (s.written n).Active := by
  unfold State.written
  dsimp only
  split_ifs
  · exact (fail_active s).afterLoop
  · exact h
  · exact Active.writeLoop h

theorem Step.live {io : Io} (h : s.Step io s') : s.thread.live = true := by
  cases h <;> simp_all [BurnThread.live]

theorem Step.active {io : Io} (h : s.thread.pc ≠ .start → s.Active) (hs : s.Step io s') : s'.Active := by
  have active {pc : BurnPc} (hpc : s.thread.pc = pc) (hne : pc ≠ .start) : s.Active := h (hpc ▸ hne)
  cases hs with
  | start => exact nofun
  | headerUnopened | headerShort | appendUnopened => exact fail_active s
  | headerOpened hpc | headerRead hpc | appendOpened hpc | writeCrashed hpc | chunkClosed hpc | endCrashed hpc
  | compareCrashed hpc => exact active hpc (by simp)
  | trailerWritten => exact Active.attempt nofun
  | writeOpened hpc | reopened hpc => exact Active.writeLoop (active hpc (by simp))
  | writeUnopened | endUnclosed => exact Active.afterWrite (fail_active s)
  | endClosed hpc => exact Active.afterWrite (active hpc (by simp))
  | wrote hpc =>
    apply Active.written
    exact active hpc (by simp)
  | chunkUnclosed | unreopened => exact Active.afterLoop (fail_active s)
  | verifyOpened hpc => exact Active.verifyLoop (active hpc (by simp))
  | verifyUnopened hpc | differed hpc => exact Active.retry (active hpc (by simp))
  | compared hpc hc hfp hr =>
    obtain ⟨loc, precent, ok, heq⟩ := compare_eq _ _ _
    rw [hr.trans heq]
    exact Active.verifyLoop (active hpc (by simp))
  | verified => exact finish_active _

end State

namespace System

section

-- what `MT_InitBurnParams` does, the size the gate compares with and the stored device id are left open
variable (initBurnParams : BurnParams → BurnParams) (flashSize : ℤ) (mtdDeviceID : BitVec 32)

def step (s : System) : Event → Option System
  | .receive u =>
    match s.web with
    | .idle => some { s with web := .received u (fileContentLen flashSize s.params.burnState u) }
    | _ => none
  | .prepare =>
    match s.web with
    | .received u len => some { s with
        params := if s.params.burnState.busy then s.params else initBurnParams s.params
        web := .prepared u len }
    | _ => none
  | .burn =>
    match s.web with
    | .prepared u len => (burnImage mtdDeviceID s.params len u).map fun (params, starts) => { s with
        params := params
        threads := if starts then s.threads ++ [.created] else s.threads
        web := .idle }
    | _ => none
  | .thread i io =>
    s.threads[i]?.bind fun t => (State.step ⟨s.params, s.flash, t⟩ io).map fun s' => { s with
      params := s'.params
      flash := s'.flash
      threads := s.threads.set i s'.thread }

end

def start (params : BurnParams) (flash : ℕ → UInt8) : System := ⟨params, flash, [], .idle⟩

def Exclusive (s : System) : Prop :=
  ∀ (i j : ℕ) (t u : BurnThread), s.threads[i]? = some t → s.threads[j]? = some u → t.live = true → u.live = true → i = j

def Settled (s : System) : Prop :=
  ∀ t ∈ s.threads, t.live = true → t.pc ≠ .start ∧ s.params.burnState ≠ .error

def Orderly (s : System) : Event → Prop
  | .receive u => u.url = uploadUrl ∧ s.Settled
  | .prepare => s.Settled
  | .burn | .thread _ _ => True

instance (s : System) : Decidable s.Settled := inferInstanceAs (Decidable (∀ t ∈ s.threads, _))

instance (s : System) : ∀ e, Decidable (s.Orderly e)
  | .receive u => inferInstanceAs (Decidable (u.url = uploadUrl ∧ s.Settled))
  | .prepare => inferInstanceAs (Decidable s.Settled)
  | .burn | .thread _ _ => isTrue trivial

structure ExclusionInv (s : System) : Prop where
  exclusive : s.Exclusive
  running : ∀ t ∈ s.threads, t.live = true → t.pc ≠ .start → s.params.burnState ≠ .idle
  passed : ∀ u len, s.web = .received u len ∨ s.web = .prepared u len → 0 ≤ len → ∀ t ∈ s.threads, t.live = false

variable {initBurnParams : BurnParams → BurnParams} {flashSize : ℤ} {mtdDeviceID : BitVec 32} {s s' : System}

theorem ExclusionInv.busy (h : s.ExclusionInv) (hset : s.Settled) {t : BurnThread} (ht : t ∈ s.threads)
    (hl : t.live = true) : s.params.burnState.busy = true := by
  obtain ⟨hstart, herror⟩ := hset t ht hl
  have hidle := h.running t ht hl hstart
  cases hb : s.params.burnState with
  | idle => exact absurd hb hidle
  | error => exact absurd hb herror
  | _ => rfl

theorem ExclusionInv.receive (h : s.ExclusionInv) {u : Upload} (hurl : u.url = uploadUrl) (hset : s.Settled) :
    ExclusionInv { s with web := .received u (fileContentLen flashSize s.params.burnState u) } := by
  refine ⟨h.exclusive, h.running, fun u' len hweb h0 t ht => ?_⟩
  simp only [WebPhase.received.injEq, reduceCtorEq, or_false] at hweb
  obtain ⟨rfl, rfl⟩ := hweb
  by_contra hl
  have hrefuse : gateRefuses flashSize s.params.burnState u = true := by
    simp [gateRefuses, hurl, h.busy hset ht (Bool.eq_true_of_not_eq_false hl)]
  have := fileContentLen_refused hrefuse
  omega

theorem ExclusionInv.prepare (h : s.ExclusionInv) {u : Upload} {len : ℤ} (hweb : s.web = .received u len)
    (hset : s.Settled) : ExclusionInv { s with
      params := if s.params.burnState.busy then s.params else initBurnParams s.params
      web := .prepared u len } := by
  refine ⟨h.exclusive, fun t ht hl hstart => ?_, fun u' len' hweb' h0 t ht => ?_⟩
  · dsimp only
    rw [if_pos (h.busy hset ht hl)]
    exact h.running t ht hl hstart
  · simp only [reduceCtorEq, WebPhase.prepared.injEq, false_or] at hweb'
    obtain ⟨rfl, rfl⟩ := hweb'
    exact h.passed u len (Or.inl hweb) h0 t ht

theorem ExclusionInv.burn (h : s.ExclusionInv) {u : Upload} {len : ℤ} (hweb : s.web = .prepared u len)
    {params : BurnParams} {starts : Bool}
    (hb : burnImage mtdDeviceID s.params len u = some (params, starts)) : ExclusionInv { s with
      params := params
      threads := if starts then s.threads ++ [.created] else s.threads
      web := .idle } := by
  refine ⟨?_, ?_, fun u' len' hweb' => by simp at hweb'⟩
  · cases starts with
    | false => exact h.exclusive
    | true =>
      have hdead := h.passed u len (Or.inr hweb) (burnImage_starts hb).1.le
      have hlast (i : ℕ) (t : BurnThread) (hi : (s.threads ++ [.created])[i]? = some t) (hl : t.live = true) :
          i = s.threads.length := by
        rcases lt_trichotomy i s.threads.length with hlt | heq | hgt
        · rw [List.getElem?_append_left hlt] at hi
          exact absurd (hdead t (List.mem_of_getElem? hi)) (by simp [hl])
        · exact heq
        · rw [List.getElem?_eq_none (by simp; omega)] at hi
          exact absurd hi (by simp)
      intro i j t v hi hj hl hl'
      rw [hlast i t hi hl, hlast j v hj hl']
  · cases starts with
    | false =>
      dsimp only
      rw [burnImage_refuses hb]
      exact h.running
    | true =>
      have hdead := h.passed u len (Or.inr hweb) (burnImage_starts hb).1.le
      intro t ht hl hstart
      rcases List.mem_append.mp ht with ht | ht
      · exact absurd (hdead t ht) (by simp [hl])
      · rw [List.mem_singleton.mp ht] at hstart
        exact absurd rfl hstart

theorem ExclusionInv.thread (h : s.ExclusionInv) {i : ℕ} {t : BurnThread} (ht : s.threads[i]? = some t) {io : Io}
    {b : State} (hb : State.Step ⟨s.params, s.flash, t⟩ io b) : ExclusionInv { s with
      params := b.params
      flash := b.flash
      threads := s.threads.set i b.thread } := by
  have hlive : t.live = true := hb.live
  have hmem : t ∈ s.threads := List.mem_of_getElem? ht
  have hlive_old {j : ℕ} {v : BurnThread} (hj : (s.threads.set i b.thread)[j]? = some v) (hl : v.live = true) :
      ∃ v', s.threads[j]? = some v' ∧ v'.live = true := by
    by_cases hij : i = j
    · exact ⟨t, hij ▸ ht, hlive⟩
    · rw [List.getElem?_set_ne hij] at hj
      exact ⟨v, hj, hl⟩
  refine ⟨fun j k v w hj hk hv hw => ?_, fun v hv hl hstart => ?_, fun u len hweb h0 => ?_⟩
  · obtain ⟨v', hv', hlv⟩ := hlive_old hj hv
    obtain ⟨w', hw', hlw⟩ := hlive_old hk hw
    exact h.exclusive j k v' w' hv' hw' hlv hlw
  · exact hb.active (h.running t hmem hlive)
  · exact absurd (h.passed u len hweb h0 t hmem) (by simp [hlive])

theorem ExclusionInv.step {e : Event} (h : s.ExclusionInv) (hok : s.Orderly e)
    (hs : s.step initBurnParams flashSize mtdDeviceID e = some s') : s'.ExclusionInv := by
  cases e with
  | receive u =>
    unfold System.step at hs
    dsimp only at hs
    split at hs
    · cases hs
      exact h.receive hok.1 hok.2
    · exact absurd hs (by simp)
  | prepare =>
    unfold System.step at hs
    dsimp only at hs
    split at hs
    · cases hs
      exact h.prepare ‹_› hok
    · exact absurd hs (by simp)
  | burn =>
    unfold System.step at hs
    dsimp only at hs
    split at hs
    · obtain ⟨⟨params, starts⟩, hb, rfl⟩ := Option.map_eq_some_iff.mp hs
      exact h.burn ‹_› hb
    · exact absurd hs (by simp)
  | thread i io =>
    obtain ⟨t, ht, hs⟩ := Option.bind_eq_some_iff.mp hs
    obtain ⟨b, hb, rfl⟩ := Option.map_eq_some_iff.mp hs
    exact h.thread ht (.of_step hb)

end System

theorem orderly_run_exclusive {initBurnParams : BurnParams → BurnParams} {flashSize : ℤ} {mtdDeviceID : BitVec 32}
    {params : BurnParams} {flash : ℕ → UInt8} {s : System}
    (hrun : Run (System.step initBurnParams flashSize mtdDeviceID) System.Orderly (.start params flash) s) :
    s.Exclusive := by
  have hstart : (System.start params flash).ExclusionInv :=
    ⟨fun i j t u hi => by simp [System.start] at hi, fun t ht => by simp [System.start] at ht,
      fun u len hweb => by simp [System.start] at hweb⟩
  exact (hrun.invariant _ hstart fun _ _ _ h hok hs => h.step hok hs).exclusive

def emptyUpload : Upload := ⟨uploadUrl, 300, true, Image.emptyImage, text "/dev/mtdblock2", 3⟩

def zeroParams : BurnParams := ⟨.idle, 0, none, 0, 0⟩

def oneUpload : List Event := [.receive emptyUpload, .prepare, .burn]

def threeUploads : List Event :=
  oneUpload ++ [.thread 0 .none] ++ oneUpload ++ [.thread 0 (.fopen false)] ++ oneUpload

theorem orderly_run_exclusive_three : ∃ s, Run (System.step (fun _ => zeroParams) 0x3b0000 0x11#32) System.Orderly
    (.start zeroParams fun _ => 0xff) s ∧ s.threads.map BurnThread.pc = [.ended, .start] ∧ s.Exclusive := by
  have hpcs : (execIf (System.step (fun _ => zeroParams) 0x3b0000 0x11#32) System.Orderly
      (.start zeroParams fun _ => 0xff) threeUploads).map (fun s => s.threads.map BurnThread.pc) =
        some [.ended, .start] := by
    decide +kernel
  obtain ⟨s, hs, hpc⟩ := Option.map_eq_some_iff.mp hpcs
  exact ⟨s, Run.refl.execIf hs, hpc, orderly_run_exclusive (Run.refl.execIf hs)⟩

theorem two_burn_threads : ∃ s, exec (System.step (fun _ => zeroParams) 0x3b0000 0x11#32)
    (.start zeroParams fun _ => 0xff) (oneUpload ++ oneUpload ++ [.thread 0 .none, .thread 1 .none]) = some s ∧
    s.threads.map BurnThread.pc = [.openHeader, .openHeader] ∧ ¬s.Exclusive := by
  refine ⟨_, rfl, rfl, fun h => ?_⟩
  have := h 0 1 _ _ rfl rfl rfl rfl
  omega

end Wap610n.Burn
