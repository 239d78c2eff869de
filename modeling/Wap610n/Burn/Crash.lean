import Wap610n.Boot.Cksum
import Wap610n.Burn.Machine

namespace Wap610n.Burn

open Bytes Transition Image Boot

/-- Where the invalidation writes: `fseek` refuses a negative `long` and leaves the stream at the start. -/
def trailerPos (pcksum2 : BitVec 32) : ℕ := if pcksum2.toNat < 2 ^ 31 then pcksum2.toNat else 0

def invalidated (old : ℕ → UInt8) (m : ℕ) : ℕ → UInt8 :=
  store old (trailerPos (headerAt old).pcksum2) (List.replicate m 0xff)

structure Overwritten (old content : ℕ → UInt8) (size locWrite : ℕ) (flash : ℕ → UInt8) (m : ℕ) : Prop where
  short : m ≤ 16
  stale : wordAt (invalidated old m) (size - 4) ≠ (headerAt content).cksum
  head : locWrite = 0 ∨ 32 ≤ locWrite
  new : ∀ i < locWrite, flash i = content i
  rest : ∀ i, locWrite ≤ i → flash i = invalidated old m i

theorem invalidated_body {full : Bool} {old : ℕ → UInt8} {m : ℕ}
    (h : doCksumCmp full (invalidated old m) = 0) :
    ∀ i < (headerAt old).pcksum2.toNat, invalidated old m i = old i := by
  intro i hi
  unfold invalidated trailerPos at h ⊢
  split_ifs at h ⊢ with hp
  · exact store_out (Or.inl hi)
  · cases m with
    | zero => exact store_out (Or.inr (Nat.zero_le _))
    | succ m =>
      -- the first byte of the magic number is lost
      have hm := congrArg BitVec.toNat (doCksumCmp_magic h)
      have h0 : store old 0 (List.replicate (m + 1) 0xff) 0 = 0xff := by simp [store]
      simp only [headerAt, wordAt, h0, leWord_toNat, UInt8.reduceToNat, BitVec.toNat_ofNat] at hm
      omega

theorem Overwritten.accepted {full : Bool} {old content flash : ℕ → UInt8} {size locWrite m : ℕ}
    (h : Overwritten old content size locWrite flash m) (hn : 48 ≤ size) (hn' : size < 2 ^ 31)
    (hsize : (headerAt content).pcksum2.toNat + 16 = size)
    (hfoot : wordAt content (size - 4) = (headerAt content).cksum) (hb : doCksumCmp full flash = 0) :
    (locWrite = 0 ∧ ∀ i < (headerAt old).pcksum2.toNat, flash i = old i) ∨ ∀ i < size, flash i = content i := by
  rcases h.head with h0 | h32
  · have hf : flash = invalidated old m := funext fun i => h.rest i (by omega)
    subst hf
    exact Or.inl ⟨h0, invalidated_body hb⟩
  right
  have hhead : headerAt flash = headerAt content := by
    apply headerAt_congr
    intro i hi
    exact h.new i (by omega)
  have hpos : ((headerAt content).pcksum2 + 12#32).toNat = size - 4 := by
    rw [pcksum2_trailer (by omega)]
    omega
  have htrail := doCksumCmp_trailer hb
  rw [hhead, hpos] at htrail
  -- a trailer that lies beyond the last chunk is the stale one
  have hlate : size - 4 < locWrite := by
    by_contra hle
    apply h.stale
    rw [← htrail]
    apply wordAt_congr
    intro i hi
    rw [h.rest _ (by omega)]
  intro i hi
  by_cases hlt : i < locWrite
  · exact h.new i hlt
  · have := wordAt_inj (htrail.trans hfoot.symm) (i - (size - 4)) (by omega)
    rwa [Nat.add_sub_cancel' (by omega)] at this

theorem Overwritten.chunk {old content flash : ℕ → UInt8} {size locWrite m n : ℕ}
    (h : Overwritten old content size locWrite flash m) (hn : locWrite = 0 → n = 0 ∨ 32 ≤ n) :
    Overwritten old content size (locWrite + n) (store flash locWrite (slice content locWrite n)) m := by
  refine ⟨h.short, h.stale, ?_, fun i hi => ?_, fun i hi => ?_⟩
  · have := h.head
    omega
  · by_cases hlt : i < locWrite
    · rw [store_out (Or.inl hlt), h.new i hlt]
    · obtain ⟨k, rfl⟩ := Nat.exists_eq_add_of_le (not_lt.mp hlt)
      rw [store_in (by rw [slice_length]; omega), slice_getD (by omega)]
  · rw [store_out (Or.inr (by rwa [slice_length])), h.rest i (by omega)]

def Stores (size : ℕ) (s : State) : Io → Prop
  | .fwrite n flash =>
    match s.thread.pc, s.params.fileContent, s.thread.fp with
    | .writeTrailer p, some content, _ =>
      n ≤ 16 ∧ flash = store s.flash (trailerPos p) (List.replicate n 0xff) ∧
        wordAt flash (size - 4) ≠ (headerAt content).cksum
    | .write, some content, .opened pos =>
      flash = store s.flash pos (slice content s.thread.locWrite n) ∧ (s.thread.locWrite = 0 → n = 0 ∨ 32 ≤ n)
    | _, _, _ => True
  | .fclose _ flash => flash = s.flash
  | _ => True

namespace State

variable {old content : ℕ → UInt8} {size : ℕ} {s s' : State}

def FirstAttempt (old content : ℕ → UInt8) (size : ℕ) (s : State) : Prop :=
  s.thread.retryCount = 0 →
    s.params.fileContent = some content ∧ ∃ m, Overwritten old content size s.thread.locWrite s.flash m

def CrashInv (old content : ℕ → UInt8) (size : ℕ) (s : State) : Prop :=
  match s.thread.pc with
  | .start | .openHeader | .readHeader =>
    s.params.fileContent = some content ∧ s.flash = old ∧ s.thread.locWrite = 0
  | .openAppend p | .writeTrailer p =>
    s.params.fileContent = some content ∧ s.flash = old ∧ s.thread.locWrite = 0 ∧ p = (headerAt old).pcksum2
  | .openWrite => s.FirstAttempt old content size ∧ (s.thread.retryCount = 0 → s.thread.locWrite = 0)
  | .write => s.FirstAttempt old content size ∧ (s.thread.retryCount = 0 → s.thread.fp = .opened s.thread.locWrite)
  | .ended | .crashed => s.thread.retryCount = 0 →
    (s.flash = old ∧ s.thread.locWrite = 0) ∨ ∃ m, Overwritten old content size s.thread.locWrite s.flash m
  | _ => s.FirstAttempt old content size

theorem FirstAttempt.finish (h : s.FirstAttempt old content size) : s.finish.CrashInv old content size := by
  unfold State.finish
  dsimp only
  split_ifs <;> exact fun h0 => Or.inr (h h0).2

theorem FirstAttempt.attempt (h : s.FirstAttempt old content size)
    (h0 : s.thread.retryCount = 0 → s.thread.locWrite = 0) : s.attempt.CrashInv old content size := by
  unfold State.attempt
  split_ifs
  · exact ⟨h, h0⟩
  · exact h.finish

theorem retry_crashInv (s : State) : s.retry.CrashInv old content size :=
  FirstAttempt.attempt (fun h => nomatch h) fun h => nomatch h

theorem FirstAttempt.afterWrite (h : s.FirstAttempt old content size) :
    s.afterWrite.CrashInv old content size := by
  unfold State.afterWrite
  split_ifs
  · exact h
  · exact retry_crashInv s

theorem FirstAttempt.afterLoop (h : s.FirstAttempt old content size) :
    s.afterLoop.CrashInv old content size := by
  unfold State.afterLoop
  split_ifs
  · exact h
  · exact FirstAttempt.afterWrite h

theorem FirstAttempt.writeLoop (h : s.FirstAttempt old content size)
    (hfp : s.thread.retryCount = 0 → s.thread.fp = .opened s.thread.locWrite) :
    s.writeLoop.CrashInv old content size := by
  unfold State.writeLoop
  split_ifs
  · exact ⟨h, hfp⟩
  · exact h.afterLoop

theorem FirstAttempt.verifyLoop (h : s.FirstAttempt old content size) :
    s.verifyLoop.CrashInv old content size := by
  unfold State.verifyLoop
  split_ifs
  · exact h
  · exact h

theorem FirstAttempt.written {n pos : ℕ} {flash : ℕ → UInt8} (h : s.FirstAttempt old content size)
    (hfp : s.thread.retryCount = 0 → pos = s.thread.locWrite)
    (hst : s.thread.retryCount = 0 →
      flash = store s.flash pos (slice content s.thread.locWrite n) ∧ (s.thread.locWrite = 0 → n = 0 ∨ 32 ≤ n)) :
    (State.written { s with flash := flash, thread.fp := .opened (pos + n) } n).CrashInv old content size := by
  have hnext (h0 : s.thread.retryCount = 0) : s.params.fileContent = some content ∧
      ∃ m, Overwritten old content size (s.thread.locWrite + n) flash m := by
    obtain ⟨hc, m, hm⟩ := h h0
    obtain ⟨rfl, hhead⟩ := hst h0
    rw [hfp h0]
    exact ⟨hc, m, hm.chunk hhead⟩
  unfold State.written
  dsimp only
  split_ifs with hz
  · subst hz
    exact FirstAttempt.afterLoop hnext
  · exact hnext
  · exact FirstAttempt.writeLoop hnext fun h0 => by dsimp only at h0 ⊢; rw [hfp h0]

theorem CrashInv.step {io : Io} (h : s.CrashInv old content size) (hio : Stores size s io) (hs : s.Step io s') :
    s'.CrashInv old content size := by
  cases hs with
  | start hpc | headerOpened hpc =>
    simp only [CrashInv, hpc] at h
    exact h
  | headerRead hpc =>
    simp only [CrashInv, hpc] at h
    exact ⟨h.1, h.2.1, h.2.2, by rw [← h.2.1]; rfl⟩
  | appendOpened hpc =>
    simp only [CrashInv, hpc] at h
    exact h
  | headerUnopened hpc | headerShort hpc =>
    simp only [CrashInv, hpc] at h
    intro _
    exact Or.inl h.2
  | appendUnopened hpc =>
    simp only [CrashInv, hpc] at h
    intro _
    exact Or.inl ⟨h.2.1, h.2.2.1⟩
  | trailerWritten hpc =>
    simp only [CrashInv, hpc] at h
    obtain ⟨hc, hf, -, rfl⟩ := h
    simp only [Stores, hpc, hc] at hio
    rw [hf] at hio
    refine FirstAttempt.attempt (fun _ => ⟨hc, _, hio.1, ?_, Or.inl rfl, fun i hi => ?_, fun i _ => ?_⟩) fun _ => rfl
    · rw [invalidated, ← hio.2.1]
      exact hio.2.2
    · exact absurd hi (Nat.not_lt_zero i)
    · exact congrFun hio.2.1 i
  | writeOpened hpc =>
    simp only [CrashInv, hpc] at h
    apply FirstAttempt.writeLoop
    · exact h.1
    · intro h0
      exact congrArg Stream.opened (h.2 h0).symm
  | writeUnopened hpc =>
    simp only [CrashInv, hpc] at h
    exact FirstAttempt.afterWrite h.1
  | wrote hpc hn hc hfp =>
    simp only [CrashInv, hpc] at h
    simp only [Stores, hpc, hc, hfp] at hio
    apply FirstAttempt.written h.1
    · intro h0
      exact Stream.opened.inj (hfp.symm.trans (h.2 h0))
    · intro h0
      rw [(h.1 h0).1] at hc
      cases hc
      exact hio
  | writeCrashed hpc =>
    simp only [CrashInv, hpc] at h
    intro h0
    exact Or.inr (h.1 h0).2
  | chunkClosed hpc =>
    simp only [CrashInv, hpc] at h
    cases hio
    exact h
  | chunkUnclosed hpc =>
    simp only [CrashInv, hpc] at h
    cases hio
    exact FirstAttempt.afterLoop h
  | reopened hpc =>
    simp only [CrashInv, hpc] at h
    exact FirstAttempt.writeLoop h fun _ => rfl
  | unreopened hpc =>
    simp only [CrashInv, hpc] at h
    exact FirstAttempt.afterLoop h
  | endCrashed hpc =>
    simp only [CrashInv, hpc] at h
    intro h0
    exact Or.inr (h h0).2
  | endClosed hpc | endUnclosed hpc =>
    simp only [CrashInv, hpc] at h
    cases hio
    exact FirstAttempt.afterWrite h
  | verifyOpened hpc =>
    simp only [CrashInv, hpc] at h
    exact FirstAttempt.verifyLoop h
  | verifyUnopened hpc | differed hpc => exact retry_crashInv _
  | compared hpc hc hfp hr =>
    simp only [CrashInv, hpc] at h
    obtain ⟨loc, precent, ok, heq⟩ := compare_eq _ _ _
    rw [hr.trans heq]
    exact FirstAttempt.verifyLoop h
  | compareCrashed hpc =>
    simp only [CrashInv, hpc] at h
    intro h0
    exact Or.inr (h h0).2
  | verified hpc =>
    simp only [CrashInv, hpc] at h
    exact FirstAttempt.finish h

theorem CrashInv.first (h : s.CrashInv old content size) (h0 : s.thread.retryCount = 0) :
    (s.flash = old ∧ s.thread.locWrite = 0) ∨ ∃ m, Overwritten old content size s.thread.locWrite s.flash m := by
  unfold CrashInv at h
  cases hpc : s.thread.pc with
  | start | openHeader | readHeader =>
    rw [hpc] at h
    exact Or.inl h.2
  | openAppend p | writeTrailer p =>
    rw [hpc] at h
    exact Or.inl ⟨h.2.1, h.2.2.1⟩
  | openWrite | write =>
    rw [hpc] at h
    exact Or.inr (h.1 h0).2
  | ended | crashed =>
    rw [hpc] at h
    exact h h0
  | _ =>
    rw [hpc] at h
    exact Or.inr (h h0).2

end State

theorem burn_crash_safe {mtdDeviceID : BitVec 32} {image : List UInt8} (hlen : image.length < 2 ^ 31)
    (hacc : mtValidateImage mtdDeviceID image image.length = some (.ok ())) {params : BurnParams}
    {content : ℕ → UInt8} (hc : params.fileContent = some content)
    (himage : ∀ i < image.length, content i = byteAt image i) {old : ℕ → UInt8} {s : State}
    (hrun : Run State.step (Stores image.length) (.started params old) s) (h0 : s.thread.retryCount = 0)
    {full : Bool} (hboot : doCksumCmp full s.flash = 0) :
    (s.thread.locWrite = 0 ∧ ∀ i < (headerAt old).pcksum2.toNat, s.flash i = old i) ∨
      ∀ i < image.length, s.flash i = byteAt image i := by
  obtain ⟨h48, hg⟩ := mtValidateImage_genuine hlen hacc
  have hhead : headerAt content = headerAt (byteAt image) := by
    apply headerAt_congr
    intro i hi
    exact himage i (by omega)
  have hstart : (State.started params old).CrashInv old content image.length := ⟨hc, rfl, rfl⟩
  have hinv := hrun.invariant _ hstart fun _ _ _ h hio hs => h.step hio (.of_step hs)
  rcases hinv.first h0 with ⟨hf, hl⟩ | ⟨m, hm⟩
  · exact Or.inl ⟨hl, fun i _ => by rw [hf]⟩
  · have hsize : (headerAt content).pcksum2.toNat + 16 = image.length := by rw [hhead, hg.size]
    have hfoot : wordAt content (image.length - 4) = (headerAt content).cksum := by
      have hword : wordAt content (image.length - 4) = wordAt (byteAt image) (image.length - 4) := by
        apply wordAt_congr
        intro i hi
        exact himage _ (by omega)
      rw [hword, hhead, ← hg.footerCrc, hg.headerCrc]
    apply (hm.accepted h48 hlen hsize hfoot hboot).imp_right
    intro hnew i hi
    rw [hnew i hi, himage i hi]

def smallImage : List UInt8 :=
  leBytes 0xEA000006#32 ++ leBytes 36#32 ++ leBytes 1#32 ++ leBytes 0x11#32 ++ List.replicate 12 0 ++
    leBytes 0xB63CFBCD#32 ++ [1, 2, 3, 4] ++ List.replicate 12 0 ++ leBytes 0xB63CFBCD#32

def smallParams : BurnParams := ⟨.idle, 0, some (byteAt smallImage), 52, 3⟩

theorem burn_crash_safe_smallImage : ∃ s : State,
    s.thread.pc = .closeEnd ∧ doCksumCmp true s.flash = 0 ∧
      ((s.thread.locWrite = 0 ∧ ∀ i < (headerAt fun _ => 1).pcksum2.toNat, s.flash i = 1) ∨
        ∀ i < smallImage.length, s.flash i = byteAt smallImage i) := by
  let first := store (invalidated (fun _ => 1) 16) 0 (slice (byteAt smallImage) 0 40)
  obtain ⟨s, hs, hpc, h0, hf⟩ : ∃ s, Run State.step (Stores smallImage.length) (.started smallParams fun _ => 1) s ∧
      s.thread.pc = .closeEnd ∧ s.thread.retryCount = 0 ∧
      s.flash = store first 40 (slice (byteAt smallImage) 40 12) := by
    have hstart : Run State.step (Stores smallImage.length) (.started smallParams fun _ => 1) _ := .refl
    have hread := ((hstart.tail (e := Io.none) trivial rfl).tail (e := Io.fopen true) trivial rfl).tail
      (e := Io.fread 32) trivial rfl
    have hinvalid := (hread.tail (e := Io.fopen true) trivial rfl).tail
      (e := Io.fwrite 16 (invalidated (fun _ => 1) 16)) ⟨by decide, rfl, by decide⟩ rfl
    have hfirst := (hinvalid.tail (e := Io.fopen true) trivial rfl).tail (e := Io.fwrite 40 first)
      ⟨rfl, by decide⟩ rfl
    have hwritten := hfirst.tail (e := Io.fwrite 12 (store first 40 (slice (byteAt smallImage) 40 12)))
      ⟨rfl, nofun⟩ rfl
    exact ⟨_, hwritten, rfl, rfl, rfl⟩
  have hboot : doCksumCmp true s.flash = 0 := by
    rw [hf]
    decide +kernel
  exact ⟨s, hpc, hboot, burn_crash_safe (by decide) (by decide +kernel : mtValidateImage 0x11#32 _ _ = _) rfl
    (fun _ _ => rfl) hs h0 hboot⟩

end Wap610n.Burn
