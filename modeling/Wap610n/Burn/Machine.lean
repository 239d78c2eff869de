import Wap610n.Lib.Bytes
import Wap610n.Lib.Transition

/-!
The burn thread `MT_BurnAndVerifyImage` as a machine that stops at each library call and goes on with
the result of the call. What the thread does between two calls is one step.
-/

namespace Wap610n.Burn

open Bytes

inductive BurnState
  | idle | error | checksum | burning | verifying | done
deriving DecidableEq, Repr

def BurnState.busy : BurnState → Bool
  | .idle | .error => false
  | .checksum | .burning | .verifying | .done => true

structure BurnParams where
  burnState : BurnState
  precentComplete : ℤ
  /-- The memory from the pointer on, so also what follows the image. -/
  fileContent : Option (ℕ → UInt8)
  imageSize : ℕ
  retryCount : ℤ

inductive Stream
  | null | closed | opened (pos : ℕ)
deriving DecidableEq, Repr

inductive BurnPc
  | start | openHeader | readHeader | openAppend (pcksum2 : BitVec 32) | writeTrailer (pcksum2 : BitVec 32)
  | openWrite | write | closeChunk | reopenChunk | closeEnd
  | openVerify | read | closeVerify | ended | crashed
deriving DecidableEq, Repr

structure BurnThread where
  pc : BurnPc := .start
  fp : Stream := .null
  locWrite : ℕ := 0
  locVerify : ℕ := 0
  numLeft : ℕ := 0
  chunkSize : ℕ := 0
  retryCount : ℕ := 0
  verifiedOk : Bool := false
deriving DecidableEq, Repr

structure State where
  params : BurnParams
  flash : ℕ → UInt8
  thread : BurnThread := {}

inductive Io
  | none
  | fopen (ok : Bool)
  | fread (n : ℕ)
  | fwrite (n : ℕ) (flash : ℕ → UInt8)
  | fclose (ok : Bool) (flash : ℕ → UInt8)

def fileSingleWrite : ℕ := 65536

namespace State

def started (params : BurnParams) (flash : ℕ → UInt8) : State := { params := params, flash := flash }

def goto (s : State) (pc : BurnPc) : State := { s with thread.pc := pc }

def setState (s : State) (st : BurnState) (precent : ℤ) : State :=
  { s with params.burnState := st, params.precentComplete := precent }

def fail (s : State) : State := s.setState .error (-1)

/-- What follows the retry loop. The error text takes `ferror(fp)`, whatever the last `fopen` gave. -/
def finish (s : State) : State :=
  let s := { s with params.fileContent := none }
  if s.thread.verifiedOk then (s.setState .done 100).goto .ended
  else s.fail.goto (if s.thread.fp = .null then .crashed else .ended)

def attempt (s : State) : State :=
  if (s.thread.retryCount : ℤ) < s.params.retryCount ∧ s.thread.verifiedOk = false then s.goto .openWrite
  else s.finish

def retry (s : State) : State := attempt { s with thread.retryCount := s.thread.retryCount + 1 }

def afterWrite (s : State) : State :=
  if s.params.precentComplete = 100 then
    { s with
      params.burnState := .verifying
      params.precentComplete := 0
      thread.numLeft := s.params.imageSize
      thread.locVerify := 0
      thread.pc := .openVerify }
  else s.retry

def afterLoop (s : State) : State := if s.thread.numLeft = 0 then s.goto .closeEnd else s.fail.afterWrite

def writeLoop (s : State) : State := if 0 < s.thread.numLeft then s.goto .write else s.afterLoop

def verifyLoop (s : State) : State :=
  if 0 < s.thread.numLeft ∧ s.thread.verifiedOk = true then s.goto .read else s.goto .closeVerify

def precent (loc size : ℕ) : ℤ := ((loc * 100 / size : ℕ) : ℤ)

def writeSize (s : State) : ℕ :=
  if s.thread.numLeft > fileSingleWrite then fileSingleWrite else s.thread.numLeft

def written (s : State) (numWrite : ℕ) : State :=
  if numWrite = 0 then s.fail.afterLoop
  else
    let s := { s with
      thread.locWrite := s.thread.locWrite + numWrite
      thread.numLeft := s.thread.numLeft - numWrite
      thread.chunkSize := s.thread.chunkSize + numWrite
      params.precentComplete := precent (s.thread.locWrite + numWrite) s.params.imageSize }
    if s.thread.chunkSize ≥ fileSingleWrite then { s with thread.chunkSize := 0, thread.pc := .closeChunk }
    else s.writeLoop

def compare (content : ℕ → UInt8) : List UInt8 → State → State
  | [], s => s
  | b :: verBuff, s =>
    if b ≠ content s.thread.locVerify then { s with thread.verifiedOk := false }
    else compare content verBuff { s with
      thread.locVerify := s.thread.locVerify + 1
      params.precentComplete := precent (s.thread.locVerify + 1) s.params.imageSize }

theorem compare_eq (content : ℕ → UInt8) (verBuff : List UInt8) (s : State) :
    ∃ loc precent ok, compare content verBuff s = { s with
      params.precentComplete := precent
      thread.locVerify := loc
      thread.verifiedOk := ok } := by
  induction verBuff generalizing s with
  | nil => exact ⟨_, _, _, rfl⟩
  | cons b verBuff ih =>
    unfold compare
    split_ifs
    · exact ⟨_, _, _, rfl⟩
    · exact ih _

/-- `MT_BurnAndVerifyImage`, from the call it waits for to the next one. A result the call cannot give,
such as more bytes than were asked for, is not a step. -/
def step (s : State) (io : Io) : Option State :=
  match s.thread.pc, io with
  | .start, .none => some ((s.setState .checksum 0).goto .openHeader)
  | .openHeader, .fopen true => some (s.goto .readHeader)
  | .openHeader, .fopen false => some (s.fail.goto .ended)
  | .readHeader, .fread n =>
    if n > 32 then none
    else if n = 32 then some (s.goto (.openAppend (wordAt s.flash 4)))
    else some (s.fail.goto .ended)
  | .openAppend p, .fopen true => some (s.goto (.writeTrailer p))
  | .openAppend _, .fopen false => some (s.fail.goto .ended)
  | .writeTrailer _, .fwrite _ flash =>
    some (attempt { s.setState .burning 0 with
      flash := flash
      thread.locWrite := 0
      thread.numLeft := s.params.imageSize
      thread.retryCount := 0 })
  | .openWrite, .fopen true => some (writeLoop { s with thread.fp := .opened 0 })
  | .openWrite, .fopen false => some (afterWrite { s.fail with thread.fp := .null })
  | .write, .fwrite n flash =>
    if n > s.writeSize then none
    else match s.params.fileContent, s.thread.fp with
      | some _, .opened pos => some (written { s with flash := flash, thread.fp := .opened (pos + n) } n)
      | _, _ => some (s.goto .crashed)
  | .closeChunk, .fclose true flash => some { s with flash := flash, thread.fp := .null, thread.pc := .reopenChunk }
  | .closeChunk, .fclose false flash => some (afterLoop { s.fail with flash := flash, thread.fp := .closed })
  | .reopenChunk, .fopen true => some (writeLoop { s with thread.fp := .opened s.thread.locWrite })
  | .reopenChunk, .fopen false => some (afterLoop { s.fail with thread.fp := .null })
  | .closeEnd, .fclose ok flash =>
    -- a `break` may leave no stream to close
    if s.thread.fp = .null then some (s.goto .crashed)
    else if ok then some (afterWrite { s with flash := flash, thread.fp := .closed })
    else some (afterWrite { s.fail with flash := flash, thread.fp := .closed })
  | .openVerify, .fopen true =>
    some (verifyLoop { s with thread.fp := .opened 0, thread.verifiedOk := true })
  | .openVerify, .fopen false => some (retry { s with thread.fp := .null })
  | .read, .fread n =>
    if n > 1024 then none
    else match s.params.fileContent, s.thread.fp with
      | some content, .opened pos =>
        let numRead := min n s.thread.numLeft
        let s := compare content (slice s.flash pos numRead) { s with thread.fp := .opened (pos + n) }
        some (verifyLoop { s with thread.numLeft := s.thread.numLeft - numRead })
      | _, _ => some (s.goto .crashed)
  | .closeVerify, .fclose _ _ =>
    if s.thread.verifiedOk then some (finish { s with thread.fp := .closed })
    else some (retry { s with thread.fp := .closed })
  | _, _ => none

inductive Step (s : State) : Io → State → Prop
  | start (hpc : s.thread.pc = .start) : Step s .none ((s.setState .checksum 0).goto .openHeader)
  | headerOpened (hpc : s.thread.pc = .openHeader) : Step s (.fopen true) (s.goto .readHeader)
  | headerUnopened (hpc : s.thread.pc = .openHeader) : Step s (.fopen false) (s.fail.goto .ended)
  | headerRead (hpc : s.thread.pc = .readHeader) :
    Step s (.fread 32) (s.goto (.openAppend (wordAt s.flash 4)))
  | headerShort {n : ℕ} (hpc : s.thread.pc = .readHeader) (hn : n < 32) : Step s (.fread n) (s.fail.goto .ended)
  | appendOpened {p : BitVec 32} (hpc : s.thread.pc = .openAppend p) :
    Step s (.fopen true) (s.goto (.writeTrailer p))
  | appendUnopened {p : BitVec 32} (hpc : s.thread.pc = .openAppend p) :
    Step s (.fopen false) (s.fail.goto .ended)
  | trailerWritten {p : BitVec 32} {n : ℕ} {flash : ℕ → UInt8} (hpc : s.thread.pc = .writeTrailer p) :
    Step s (.fwrite n flash) (attempt { s.setState .burning 0 with
      flash := flash
      thread.locWrite := 0
      thread.numLeft := s.params.imageSize
      thread.retryCount := 0 })
  | writeOpened (hpc : s.thread.pc = .openWrite) :
    Step s (.fopen true) (writeLoop { s with thread.fp := .opened 0 })
  | writeUnopened (hpc : s.thread.pc = .openWrite) :
    Step s (.fopen false) (afterWrite { s.fail with thread.fp := .null })
  | wrote {n pos : ℕ} {flash content : ℕ → UInt8} (hpc : s.thread.pc = .write) (hn : n ≤ s.writeSize)
    (hc : s.params.fileContent = some content) (hfp : s.thread.fp = .opened pos) :
    Step s (.fwrite n flash) (written { s with flash := flash, thread.fp := .opened (pos + n) } n)
  | writeCrashed {n : ℕ} {flash : ℕ → UInt8} (hpc : s.thread.pc = .write) :
    Step s (.fwrite n flash) (s.goto .crashed)
  | chunkClosed {flash : ℕ → UInt8} (hpc : s.thread.pc = .closeChunk) :
    Step s (.fclose true flash) { s with flash := flash, thread.fp := .null, thread.pc := .reopenChunk }
  | chunkUnclosed {flash : ℕ → UInt8} (hpc : s.thread.pc = .closeChunk) :
    Step s (.fclose false flash) (afterLoop { s.fail with flash := flash, thread.fp := .closed })
  | reopened (hpc : s.thread.pc = .reopenChunk) :
    Step s (.fopen true) (writeLoop { s with thread.fp := .opened s.thread.locWrite })
  | unreopened (hpc : s.thread.pc = .reopenChunk) :
    Step s (.fopen false) (afterLoop { s.fail with thread.fp := .null })
  | endCrashed {ok : Bool} {flash : ℕ → UInt8} (hpc : s.thread.pc = .closeEnd) (hfp : s.thread.fp = .null) :
    Step s (.fclose ok flash) (s.goto .crashed)
  | endClosed {flash : ℕ → UInt8} (hpc : s.thread.pc = .closeEnd) :
    Step s (.fclose true flash) (afterWrite { s with flash := flash, thread.fp := .closed })
  | endUnclosed {flash : ℕ → UInt8} (hpc : s.thread.pc = .closeEnd) :
    Step s (.fclose false flash) (afterWrite { s.fail with flash := flash, thread.fp := .closed })
  | verifyOpened (hpc : s.thread.pc = .openVerify) :
    Step s (.fopen true) (verifyLoop { s with thread.fp := .opened 0, thread.verifiedOk := true })
  | verifyUnopened (hpc : s.thread.pc = .openVerify) : Step s (.fopen false) (retry { s with thread.fp := .null })
  | compared {n pos : ℕ} {content : ℕ → UInt8} {r : State} (hpc : s.thread.pc = .read)
    (hc : s.params.fileContent = some content) (hfp : s.thread.fp = .opened pos)
    (hr : r = compare content (slice s.flash pos (min n s.thread.numLeft))
      { s with thread.fp := .opened (pos + n) }) :
    Step s (.fread n) (verifyLoop { r with thread.numLeft := r.thread.numLeft - min n s.thread.numLeft })
  | compareCrashed {n : ℕ} (hpc : s.thread.pc = .read) : Step s (.fread n) (s.goto .crashed)
  | verified {ok : Bool} {flash : ℕ → UInt8} (hpc : s.thread.pc = .closeVerify)
    (hv : s.thread.verifiedOk = true) : Step s (.fclose ok flash) (finish { s with thread.fp := .closed })
  | differed {ok : Bool} {flash : ℕ → UInt8} (hpc : s.thread.pc = .closeVerify)
    (hv : s.thread.verifiedOk = false) : Step s (.fclose ok flash) (retry { s with thread.fp := .closed })

theorem Step.of_step {s s' : State} {io : Io} (h : s.step io = some s') : s.Step io s' := by
  revert h
  fun_cases step s io <;> rintro ⟨⟩
  · exact .start ‹_›
  · exact .headerOpened ‹_›
  · exact .headerUnopened ‹_›
  · exact .headerRead ‹_›
  · exact .headerShort ‹_› (by omega)
  · exact .appendOpened ‹_›
  · exact .appendUnopened ‹_›
  · exact .trailerWritten ‹_›
  · exact .writeOpened ‹_›
  · exact .writeUnopened ‹_›
  · exact .wrote ‹_› (not_lt.mp ‹_›) ‹_› ‹_›
  · exact .writeCrashed ‹_›
  · exact .chunkClosed ‹_›
  · exact .chunkUnclosed ‹_›
  · exact .reopened ‹_›
  · exact .unreopened ‹_›
  · exact .endCrashed ‹_› ‹_›
  · exact .endClosed ‹_›
  · rename_i hok
    rw [Bool.eq_false_of_not_eq_true hok]
    exact .endUnclosed ‹_›
  · exact .verifyOpened ‹_›
  · exact .verifyUnopened ‹_›
  · exact .compared ‹_› ‹_› ‹_› rfl
  · exact .compareCrashed ‹_›
  · exact .verified ‹_› ‹_›
  · exact .differed ‹_› (Bool.eq_false_of_not_eq_true ‹_›)

end State

end Wap610n.Burn
