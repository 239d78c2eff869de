import Wap610n.Kernel.Mtd
import Wap610n.Web.Multipart

namespace Wap610n.Web

open Bytes Kernel

def websGetVar (vars : Vars) (var defaultGetValue : List UInt8) : List UInt8 := (vars var).getD defaultGetValue

inductive DevPath
  | mtdblock (index : ℕ)
  | mtd (index : ℕ)

inductive DumpReply
  | error (code : ℕ) (message : List UInt8)
  | sent (header body : List UInt8)
deriving DecidableEq

/-- Each entry is what `fread` gave and whether `websWriteBlock` took it. The list ends with the device. -/
def dumpLoop : List UInt8 → List (ℕ × Bool) → List UInt8
  | _, [] => []
  | dev, (n, written) :: reads =>
    if n > 0 then if written then dev.take n ++ dumpLoop (dev.drop n) reads else [] else []

def dumpHeader (outName : String) : List UInt8 :=
  text "HTTP/1.0 200 OK\r\n" ++ text "Server: GoAhead-Webs\r\n" ++ text "Pragma: no-cache\r\n" ++
    text "Cache-control: no-cache\r\n" ++ text "Content-Type: application/octet-stream\r\n" ++
    text "Content-Disposition: attachment; filename=\"" ++ text outName ++ text "\"\r\n" ++ text "\r\n"

def dumpIndex (dumpType : List UInt8) : ℕ :=
  if dumpType = text "kernel" then 1 else if dumpType = text "config" then 2 else 0

def dumpOutName (dumpType : List UInt8) : String :=
  if dumpType = text "kernel" then "WAP610N_kernel_rootfs_dump.bin"
  else if dumpType = text "config" then "WAP610N_config_dump.bin"
  else "WAP610N_full_flash_dump.bin"

def dumpOpen (fopen : DevPath → Option (List UInt8)) (dumpType : List UInt8) : Option (List UInt8) :=
  match fopen (.mtdblock (dumpIndex dumpType)) with
  | some dev => some dev
  | none => fopen (.mtd (dumpIndex dumpType))

def formDumpFirmware (fopen : DevPath → Option (List UInt8)) (vars : Vars) (reads : List (ℕ × Bool)) : DumpReply :=
  let dumpType := websGetVar vars (text "type") (text "full")
  match dumpOpen fopen dumpType with
  | none => .error 500 (text "Cannot open MTD device for dumping")
  | some dev => .sent (dumpHeader (dumpOutName dumpType)) (dumpLoop dev reads)

def Splits : ℕ → List (ℕ × Bool) → Prop
  | left, [] => left = 0
  | left, (n, written) :: reads => 0 < n ∧ n ≤ 4096 ∧ n ≤ left ∧ written = true ∧ Splits (left - n) reads

theorem dumpLoop_splits {dev : List UInt8} {reads : List (ℕ × Bool)} (h : Splits dev.length reads) :
    dumpLoop dev reads = dev := by
  induction reads generalizing dev with
  | nil => exact (List.eq_nil_of_length_eq_zero h).symm
  | cons r reads ih =>
    obtain ⟨n, written⟩ := r
    obtain ⟨hpos, -, hle, rfl, hrest⟩ := h
    rw [dumpLoop, if_pos hpos, if_pos rfl, ih (by rwa [List.length_drop]), List.take_append_drop]

structure MtdNodes where
  chip : Chip
  blockNode : ℕ → Bool
  charNode : ℕ → Bool

namespace MtdNodes

variable (m : MtdNodes)

def fopen : DevPath → Option (List UInt8)
  | .mtdblock index => if m.blockNode index then (m.chip.initStr9100Mtd[index]?).map m.chip.sectorBytes else none
  | .mtd index => if m.charNode index then (m.chip.initStr9100Mtd[index]?).map m.chip.bytes else none

def requested (dumpType : List UInt8) : Option (List UInt8) :=
  if dumpType = text "kernel" then (m.chip.partitionNamed "Linux Kernel").map m.chip.bytes
  else if dumpType = text "config" then (m.chip.partitionNamed "Config Partition").map m.chip.bytes
  else some (slice m.chip.flash 0 m.chip.size.toNat)

def Coincide (dumpType : List UInt8) : Prop :=
  (dumpType = text "kernel" → (m.chip.partitionNamed "ARMBOOT").map m.chip.bytes =
    (m.chip.partitionNamed "Linux Kernel").map m.chip.bytes) ∧
  (dumpType = text "config" →
    (m.chip.partitionNamed "Linux Kernel").map (if m.blockNode 2 then m.chip.sectorBytes else m.chip.bytes) =
      (m.chip.partitionNamed "Config Partition").map m.chip.bytes)

def CanOpen (dumpType : List UInt8) : Prop :=
  m.blockNode (dumpIndex dumpType) = true ∨ m.charNode (dumpIndex dumpType) = true

variable {m} {dumpType : List UInt8}

theorem dumpOpen_eq {mtd : MtdInfo} (h : m.chip.initStr9100Mtd[dumpIndex dumpType]? = some mtd)
    (hopen : m.CanOpen dumpType) : dumpOpen m.fopen dumpType =
      some (if m.blockNode (dumpIndex dumpType) then m.chip.sectorBytes mtd else m.chip.bytes mtd) := by
  cases hb : m.blockNode (dumpIndex dumpType) with
  | true => simp [dumpOpen, fopen, hb, h]
  | false =>
    have hc : m.charNode (dumpIndex dumpType) = true := hopen.resolve_left (by simp [hb])
    simp [dumpOpen, fopen, hb, hc, h]

theorem exists_dumpOpen (hopen : m.CanOpen dumpType) : ∃ dev, dumpOpen m.fopen dumpType = some dev := by
  obtain ⟨env, config, htable, -, -⟩ := m.chip.initStr9100Mtd_eq
  obtain ⟨mtd, hmtd⟩ : ∃ mtd, m.chip.initStr9100Mtd[dumpIndex dumpType]? = some mtd := by
    rw [htable]
    unfold dumpIndex
    split_ifs
    · exact ⟨_, rfl⟩
    · exact ⟨_, rfl⟩
    · exact ⟨_, rfl⟩
  exact ⟨_, dumpOpen_eq hmtd hopen⟩

theorem dumpOpen_eq_none (hopen : ¬m.CanOpen dumpType) : dumpOpen m.fopen dumpType = none := by
  obtain ⟨hb, hc⟩ := not_or.mp hopen
  simp [dumpOpen, fopen, hb, hc]

theorem dumpOpen_requested_iff (hopen : m.CanOpen dumpType) :
    dumpOpen m.fopen dumpType = m.requested dumpType ↔ m.Coincide dumpType := by
  obtain ⟨env, config, htable, -, -⟩ := m.chip.initStr9100Mtd_eq
  obtain ⟨harmboot, hkernel⟩ := m.chip.partitionNamed_eq
  by_cases hk : dumpType = text "kernel"
  · subst hk
    have hindex : m.chip.initStr9100Mtd[dumpIndex (text "kernel")]? = some m.chip.armboot := by rw [htable]; rfl
    rw [dumpOpen_eq hindex hopen, m.chip.sectorBytes_of_dvd m.chip.armboot_size_dvd, ite_self, requested, if_pos rfl,
      Coincide, harmboot]
    exact ⟨fun h => ⟨fun _ => h, fun hne => absurd hne (by decide)⟩, fun h => h.1 rfl⟩
  · by_cases hc : dumpType = text "config"
    · subst hc
      have hindex : m.chip.initStr9100Mtd[dumpIndex (text "config")]? = some m.chip.linuxKernel := by
        rw [htable]; rfl
      rw [dumpOpen_eq hindex hopen, show dumpIndex (text "config") = 2 by decide, requested, if_neg hk, if_pos rfl,
        Coincide, hkernel, Option.map_some, Option.map_some, ite_apply]
      exact ⟨fun h => ⟨fun hne => absurd hne hk, fun _ => h⟩, fun h => h.2 rfl⟩
    · have hindex : m.chip.initStr9100Mtd[dumpIndex dumpType]? = some m.chip.whole := by
        rw [htable, dumpIndex, if_neg hk, if_neg hc]; rfl
      rw [dumpOpen_eq hindex hopen, m.chip.sectorBytes_of_dvd m.chip.sectors, ite_self, requested, if_neg hk,
        if_neg hc, m.chip.bytes_whole]
      exact iff_of_true rfl ⟨fun h => absurd h hk, fun h => absurd h hc⟩

end MtdNodes

theorem dump_body_iff (m : MtdNodes) (vars : Vars) (reads : List (ℕ × Bool))
    (hreads : ∀ dev, dumpOpen m.fopen (websGetVar vars (text "type") (text "full")) = some dev →
      Splits dev.length reads) :
    (∃ header body, formDumpFirmware m.fopen vars reads = .sent header body ∧
        m.requested (websGetVar vars (text "type") (text "full")) = some body) ↔
      m.CanOpen (websGetVar vars (text "type") (text "full")) ∧
        m.Coincide (websGetVar vars (text "type") (text "full")) := by
  unfold formDumpFirmware
  dsimp only
  generalize websGetVar vars (text "type") (text "full") = dumpType at hreads ⊢
  by_cases hopen : m.CanOpen dumpType
  · rw [and_iff_right hopen, ← MtdNodes.dumpOpen_requested_iff hopen]
    obtain ⟨dev, hdev⟩ := MtdNodes.exists_dumpOpen hopen
    rw [hdev]
    dsimp only
    rw [dumpLoop_splits (hreads dev hdev)]
    constructor
    · rintro ⟨header, body, hsent, hbody⟩
      cases hsent
      exact hbody.symm
    · intro hbody
      exact ⟨_, dev, rfl, hbody.symm⟩
  · rw [MtdNodes.dumpOpen_eq_none hopen]
    apply iff_of_false
    · rintro ⟨header, body, hsent, -⟩
      cases hsent
    · exact fun h => hopen h.1

def erasedNodes : MtdNodes where
  chip := ⟨windowSize, 0x20000, fun _ => 0xff, false, by decide⟩
  blockNode := fun _ => true
  charNode := fun _ => true

theorem splits_replicate (k : ℕ) : Splits (k * 4096) (List.replicate k (4096, true)) := by
  induction k with
  | zero => rfl
  | succ k ih =>
    refine ⟨by decide, Nat.le_refl _, by omega, rfl, ?_⟩
    rwa [Nat.succ_mul, Nat.add_sub_cancel]

theorem erasedNodes_dumpOpen (dumpType : List UInt8) (mtd : MtdInfo)
    (h : erasedNodes.chip.initStr9100Mtd[dumpIndex dumpType]? = some mtd) :
    dumpOpen erasedNodes.fopen dumpType = some (erasedNodes.chip.sectorBytes mtd) :=
  MtdNodes.dumpOpen_eq h (Or.inl rfl)

theorem dump_body_full : ∃ header body, formDumpFirmware erasedNodes.fopen (fun _ => none)
    (List.replicate 2048 (4096, true)) = .sent header body ∧ body = slice (fun _ => 0xff) 0 0x800000 := by
  have hopen := erasedNodes_dumpOpen (text "full") erasedNodes.chip.whole rfl
  have hlen : (erasedNodes.chip.sectorBytes erasedNodes.chip.whole).length = 2048 * 4096 := by
    rw [Chip.sectorBytes, Chip.read, slice_length]
    decide
  have hreads : ∀ dev, dumpOpen erasedNodes.fopen (text "full") = some dev →
      Splits dev.length (List.replicate 2048 (4096, true)) := by
    intro dev hdev
    rw [hopen] at hdev
    rw [← Option.some.inj hdev, hlen]
    exact splits_replicate 2048
  obtain ⟨header, body, hsent, hbody⟩ := (dump_body_iff erasedNodes (fun _ => none) _ hreads).mpr
    ⟨Or.inl rfl, fun h => absurd h (by decide), fun h => absurd h (by decide)⟩
  exact ⟨header, body, hsent, (Option.some.inj hbody).symm⟩

theorem dump_kernel_is_armboot : ∃ header body, formDumpFirmware erasedNodes.fopen
    (websSetVar (fun _ => none) (text "type") (text "kernel")) (List.replicate 32 (4096, true)) = .sent header body ∧
    body.length = 0x20000 ∧ ∃ kernel, erasedNodes.requested (text "kernel") = some kernel ∧
    kernel.length = 0x3a0000 := by
  have hopen := erasedNodes_dumpOpen (text "kernel") erasedNodes.chip.armboot rfl
  have hlen : (erasedNodes.chip.sectorBytes erasedNodes.chip.armboot).length = 32 * 4096 := by
    rw [Chip.sectorBytes, Chip.read, slice_length]
    decide
  have hloop := dumpLoop_splits (by rw [hlen]; exact splits_replicate 32)
  have htype : websGetVar (websSetVar (fun _ => none) (text "type") (text "kernel")) (text "type") (text "full") =
      text "kernel" := by simp [websGetVar, websSetVar]
  refine ⟨dumpHeader (dumpOutName (text "kernel")), _, ?_, hlen, erasedNodes.chip.bytes erasedNodes.chip.linuxKernel,
    ?_, ?_⟩
  · simp only [formDumpFirmware, htype, hopen, hloop]
  · rw [MtdNodes.requested, if_pos rfl, erasedNodes.chip.partitionNamed_eq.2, Option.map_some]
  · rw [Chip.bytes, Chip.read, slice_length]
    decide

end Wap610n.Web
