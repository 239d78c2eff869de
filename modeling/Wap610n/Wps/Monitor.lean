import Wap610n.Lib.Bytes
import Wap610n.Lib.Stdio
import Wap610n.Lib.Transition

/-!
`main` of `hnap_wps_status_monitor.c`. It stops where it looks at the world: at each `stat`, at each file it reads
and at the end of each `sleep`. The stop signal may come at any of these points.
-/

namespace Wap610n.Wps

open Bytes CString Stdio

inductive Fptr
  | garbage | null | opened
deriving DecidableEq, Repr

inductive Pc
  | waiting | slept | polling | lingering | connecting | failing | searching | lastCode | expiring | exited | crashed
deriving DecidableEq, Repr

/-- A file between its `stat` and its `popen`. -/
inductive File
  | missing | unopened | content (text : List UInt8)
deriving DecidableEq, Repr

/-- What the monitor shows, `own` when it is not a number of the status file, and what it sees of the link. -/
inductive Observation
  | copied (code : ℤ)
  | own (code : ℤ)
  | linkCheck (up : Bool)
deriving DecidableEq, Repr

structure State where
  pc : Pc
  gotSignal : Bool
  retry : ℕ
  wpsStatus : ℤ
  lastStatus : ℤ
  delayExit : ℕ
  fptr : Fptr
  wpsRunning : Bool
  pidFile : Bool
  trace : List Observation
deriving DecidableEq, Repr

inductive Event
  | signal
  | stat (found : Bool)
  | tick
  | status (file : File)
  | wireless (proc : Option (List UInt8))
deriving DecidableEq, Repr

def linkFormat : List Conv :=
  [.word 16, .int, .word 16, .word 16, .word 16, .int, .int, .int, .int, .int, .int]

/-- `none` is a word of the table that does not fit its buffer. -/
def linkLoop : ℤ → List (List UInt8) → Option ℤ
  | linkStatus, [] => some linkStatus
  | linkStatus, tmpBuf :: rest =>
    if (strstr (text "Inter-") (upTo 0 tmpBuf)).isSome ∨ (strstr (text "face") (upTo 0 tmpBuf)).isSome then
      linkLoop linkStatus rest
    else
      match sscanf linkFormat (upTo 0 tmpBuf) with
      | none => none
      | some (_ :: .int status :: _) => linkLoop status rest
      | some _ => linkLoop linkStatus rest

def getStationLinkStatus (proc : Option (List UInt8)) : Option Bool :=
  match proc with
  | none => some false
  | some procText => (linkLoop 0 (lines 512 procText)).map fun linkStatus => linkStatus = 3

def readCode (content : List UInt8) : Option ℤ :=
  (lines 128 content).head?.bind fun buf => (strchr 61 (upTo 0 buf)).map fun bufptr => atoi (bufptr.drop 1)

namespace State

def goto (s : State) (pc : Pc) : State := { s with pc := pc }

def expose (s : State) (o : Observation) : State := { s with trace := s.trace ++ [o] }

/-- The label `End`. A value of `fptr` that no `popen` returned is not in the list that `pclose` looks it up in, and
the call only returns -1. -/
def finish (s : State) : State :=
  { s.expose (.own 0) with
    fptr := .null
    wpsStatus := 0
    wpsRunning := false
    pidFile := false
    pc := .exited }

def afterPoll (s : State) : State :=
  if s.wpsStatus = 99 ∨ s.wpsStatus = 10 ∨ s.wpsStatus = 11 ∨ s.wpsStatus = 12 ∨ s.wpsStatus = 13 then
    { s with delayExit := if s.wpsStatus ≠ 99 then 120 else 60, pc := .lingering }
  else if s.wpsStatus = 3 then { s with delayExit := 60, pc := .connecting }
  else if s.wpsStatus = 1 ∨ s.wpsStatus = 2 then { s with retry := 0, pc := .searching }
  else s.finish

def giveUp (s : State) : State := afterPoll { s with wpsRunning := false }

def pollContent (s : State) (content : List UInt8) : State :=
  let s := { s with retry := 0, fptr := .null }
  match readCode content with
  | none => s
  | some code =>
    let s := { s.expose (.copied code) with wpsStatus := code }
    if code = 3 ∨ code = 10 ∨ code = 11 ∨ code = 12 ∨ code = 13 then s.giveUp else s

def poll (s : State) : File → State
  | .missing =>
    let s := { s with retry := s.retry + 1 }
    if s.retry > 10 then s.giveUp else s
  | .unopened =>
    let s := { s with retry := 0 + 1, fptr := .null }
    if s.retry ≥ 5 then s.giveUp else s
  | .content c => s.pollContent c

def countdown (s : State) (next : State → State) : State :=
  if s.gotSignal then s.finish
  else
    let s := { s with delayExit := s.delayExit - 1 }
    if s.delayExit = 0 then next s else s

def connected (s : State) : State := { s.expose (.own 99) with wpsStatus := 99, delayExit := 60 }

def connectFailed (s : State) : State := { s.expose (.own 14) with wpsStatus := 14, delayExit := 60, pc := .failing }

def connect (s : State) (proc : Option (List UInt8)) : State :=
  if s.gotSignal then s.finish
  else if s.wpsStatus = 3 then
    match getStationLinkStatus proc with
    | none => s.goto .crashed
    | some up =>
      let s := s.expose (.linkCheck up)
      countdown (if up then s.connected else s) connectFailed
  else s.countdown connectFailed

def takeLastCode (s : State) (content : List UInt8) : State :=
  match readCode content with
  | none => { s with fptr := .opened }
  | some code => { s with fptr := .opened, lastStatus := s.wpsStatus, wpsStatus := code }

def exposeLastCode (s : State) : State :=
  if s.wpsStatus = 3 then { s.expose (.own 12) with wpsStatus := 12 }
  else if s.lastStatus = 2 ∧ s.wpsStatus = 4 then { s.expose (.own 11) with wpsStatus := 11 }
  else if s.lastStatus = 1 ∧ s.wpsStatus = 4 then { s.expose (.own 10) with wpsStatus := 10 }
  else s

def lastCodeFound (s : State) (content : List UInt8) : State :=
  let s := s.takeLastCode content
  if content ≠ [] ∧ (s.wpsStatus = 3 ∨ s.wpsStatus = 4) then
    { s.exposeLastCode with delayExit := 120, pc := .expiring }
  else finish { s with fptr := .null }

def readLastCode (s : State) : File → State
  | .missing =>
    let s := { s with retry := s.retry + 1 }
    if s.retry > 10 then s.finish else s.goto .searching
  | .unopened => finish { s with retry := 0, fptr := .null }
  | .content c => lastCodeFound { s with retry := 0 } c

def step (s : State) (e : Event) : Option State :=
  match s.pc, e with
  | .exited, _ => none
  | .crashed, _ => none
  | _, .signal => some { s with gotSignal := true }
  | .waiting, .stat true => some (s.goto .polling)
  | .waiting, .stat false => some (s.goto .slept)
  | .slept, .tick =>
    if s.retry + 1 > 60 then some { s with retry := s.retry + 1, pc := .exited }
    else if s.gotSignal then some (finish { s with retry := s.retry + 1 })
    else some { s with retry := s.retry + 1, pc := .waiting }
  | .polling, .status file => some (if s.gotSignal then s.finish else s.poll file)
  | .lingering, .tick => some (s.countdown finish)
  | .connecting, .wireless proc => some (s.connect proc)
  | .failing, .tick => some (s.countdown finish)
  | .searching, .tick => some (if s.gotSignal then s.finish else s.goto .lastCode)
  | .lastCode, .status file => some (s.readLastCode file)
  | .expiring, .tick => some (s.countdown fun s => finish { s with fptr := .null })
  | _, _ => none

inductive Step (s : State) : Event → State → Prop
  | signal (hpc : s.pc ≠ .exited) (hpc' : s.pc ≠ .crashed) : Step s .signal { s with gotSignal := true }
  | found (hpc : s.pc = .waiting) : Step s (.stat true) (s.goto .polling)
  | absent (hpc : s.pc = .waiting) : Step s (.stat false) (s.goto .slept)
  | timeout (hpc : s.pc = .slept) (hr : 60 ≤ s.retry) : Step s .tick { s with retry := s.retry + 1, pc := .exited }
  | stopped (hpc : s.pc = .slept) (hr : s.retry < 60) (hsig : s.gotSignal = true) :
    Step s .tick (finish { s with retry := s.retry + 1 })
  | again (hpc : s.pc = .slept) (hr : s.retry < 60) (hsig : s.gotSignal = false) :
    Step s .tick { s with retry := s.retry + 1, pc := .waiting }
  | pollStopped {file : File} (hpc : s.pc = .polling) (hsig : s.gotSignal = true) : Step s (.status file) s.finish
  | polled {file : File} (hpc : s.pc = .polling) (hsig : s.gotSignal = false) : Step s (.status file) (s.poll file)
  | lingered (hpc : s.pc = .lingering) : Step s .tick (s.countdown finish)
  | connected {proc : Option (List UInt8)} (hpc : s.pc = .connecting) : Step s (.wireless proc) (s.connect proc)
  | failed (hpc : s.pc = .failing) : Step s .tick (s.countdown finish)
  | searchStopped (hpc : s.pc = .searching) (hsig : s.gotSignal = true) : Step s .tick s.finish
  | searched (hpc : s.pc = .searching) (hsig : s.gotSignal = false) : Step s .tick (s.goto .lastCode)
  | read {file : File} (hpc : s.pc = .lastCode) : Step s (.status file) (s.readLastCode file)
  | expired (hpc : s.pc = .expiring) : Step s .tick (s.countdown fun s => finish { s with fptr := .null })

theorem Step.of_step {s s' : State} {e : Event} (h : s.step e = some s') : s.Step e s' := by
  revert h
  fun_cases step s e <;> rintro ⟨⟩
  · exact .signal ‹_› ‹_›
  · exact .found ‹_›
  · exact .absent ‹_›
  · exact .timeout ‹_› (by omega)
  · exact .stopped ‹_› (by omega) ‹_›
  · exact .again ‹_› (by omega) (Bool.eq_false_of_not_eq_true ‹_›)
  · rename_i hpc
    cases hsig : s.gotSignal with
    | true => exact .pollStopped hpc hsig
    | false => exact .polled hpc hsig
  · exact .lingered ‹_›
  · exact .connected ‹_›
  · exact .failed ‹_›
  · rename_i hpc
    cases hsig : s.gotSignal with
    | true => exact .searchStopped hpc hsig
    | false => exact .searched hpc hsig
  · exact .read ‹_›
  · exact .expired ‹_›

/-- The two files have been written; the local `fptr` has no value yet. -/
def started (fptr : Fptr) : State where
  pc := .waiting
  gotSignal := false
  retry := 0
  wpsStatus := 0
  lastStatus := 0
  delayExit := 0
  fptr := fptr
  wpsRunning := true
  pidFile := true
  trace := []

end State

end Wap610n.Wps
