import Wap610n.Image.Mkcsum
import Wap610n.Kernel.Partition
import Wap610n.Lib.CString
import Wap610n.Web.Upload

namespace Wap610n.Web

open Bytes CString Image Burn Kernel

/-- `procMtd` is what `popen` reads. Without a line for `mtd0` the function ends without a `return`. -/
def getFlashSize (procMtd : Option (List UInt8)) (unset : ℤ) : ℤ :=
  match procMtd with
  | none => -1
  | some buf =>
    match strstr (text "mtd0: 00") buf with
    | some pos =>
      if byteAt pos 8 = 56 then 0x500000
      else if byteAt pos 8 = 52 then 0x3b0000
      else 0x1b0000
    | none => unset

structure Board where
  mapped : Bool
  envSector : ℕ → UInt8
  procMtd : Option (List UInt8)
  unset : ℤ
  mtdDeviceID : BitVec 32

namespace Board

def configOffset (b : Board) : BitVec 32 := getConfigPartOffset b.mapped b.envSector

def flashSize (b : Board) : ℤ := getFlashSize b.procMtd b.unset

def Starts (b : Board) (params : BurnParams) (u : Upload) : Prop :=
  ∃ params', burnImage b.mtdDeviceID params (fileContentLen b.flashSize params.burnState u) u = some (params', true)

theorem Starts.passed {b : Board} {params : BurnParams} {u : Upload} (h : b.Starts params u) :
    fileContentLen b.flashSize params.burnState u = u.file.length := by
  obtain ⟨params', hs⟩ := h
  by_contra hne
  have hgate : gateRefuses b.flashSize params.burnState u = true := by
    by_contra hpass
    exact hne (fileContentLen_passed (by simpa using hpass))
  have hneg := fileContentLen_refused hgate
  have hpos := (burnImage_starts hs).1
  omega

theorem Starts.length_le {b : Board} {params : BurnParams} {u : Upload} (h : b.Starts params u) :
    u.file.length ≤ 0x600000 := by
  have hpass := h.passed
  obtain ⟨params', hs⟩ := h
  have hmax := (burnImage_starts hs).2.1
  unfold imageMaxSize at hmax
  omega

theorem starts_of_passed {b : Board} {params : BurnParams} {u : Upload}
    (hgate : gateRefuses b.flashSize params.burnState u = false) (h0 : 0 < u.file.length)
    (hmax : u.file.length ≤ 0x600000) (ht : u.targetFile ≠ [])
    (hv : mtValidateImage b.mtdDeviceID u.file u.file.length = some (.ok ())) : b.Starts params u := by
  have hlen : (u.file.length : ℤ) ≤ imageMaxSize := by
    unfold imageMaxSize
    omega
  unfold Starts
  rw [fileContentLen_passed hgate, burnImage, if_neg (by omega), if_neg (by omega), if_neg (by omega), if_neg ht, hv]
  exact ⟨_, rfl⟩

def sideUrl : List UInt8 := text "/goform/upldImage?"

theorem exists_starts (b : Board) (params : BurnParams) :
    ∃ u : Upload, u.targetFile = kernelDevice ∧ u.file.length = 0x600000 ∧ u.file.length ≤ u.clen ∧ b.Starts params u := by
  obtain ⟨file, hlen, hv⟩ := exists_accepted b.mtdDeviceID (show 48 ≤ 0x600000 by omega) (by omega)
  refine ⟨⟨sideUrl, file.length + 1, true, file, kernelDevice, 3⟩, rfl, hlen, by dsimp only; omega, ?_⟩
  exact starts_of_passed rfl (by dsimp only; omega) hlen.le (show kernelDevice ≠ [] by decide) hv

end Board

theorem burns_fit_iff (b : Board) (params : BurnParams) :
    ((∀ u : Upload, u.targetFile = kernelDevice → u.file.length ≤ u.clen → b.Starts params u →
        (u.file.length : ℤ) ≤ b.configOffset.toNat - 0x40000) ↔ 0x640000 ≤ b.configOffset.toNat) ∧
      ((∀ u : Upload, u.targetFile = kernelDevice → u.file.length ≤ u.clen → b.Starts params u →
        u.file.length ≤ (kernelPartition b.configOffset).size.toNat) ↔
          b.configOffset.toNat < 0x40000 ∨ 0x640000 ≤ b.configOffset.toNat) := by
  obtain ⟨big, htarget, hbig, hclen, hstarts⟩ := b.exists_starts params
  constructor
  · constructor
    · intro h
      have hfit := h big htarget hclen hstarts
      omega
    · intro hsize u _ _ hs
      have hle := hs.length_le
      omega
  · rw [← kernelPartition_size_le_iff]
    constructor
    · intro h
      exact hbig ▸ h big htarget hclen hstarts
    · intro hsize u _ _ hs
      exact hs.length_le.trans hsize

def emptySector : List UInt8 :=
  leBytes (Env.tableCrc32 0 (List.replicate cfgEnvDataSize 0)) ++ List.replicate cfgEnvDataSize 0

def eightMegBoard : Board where
  mapped := true
  envSector := byteAt emptySector
  procMtd := some (text "dev:    size   erasesize  name\nmtd0: 00800000 00010000 \"STR9100 NOR Flash\"\n")
  unset := 0
  mtdDeviceID := 0x11#32

theorem envData_emptySector : Env.envData (byteAt emptySector) = fun _ => 0 := by
  funext i
  rw [Env.envData, byteAt, emptySector, List.getD_append_right _ _ _ _ (by rw [leBytes_length]; omega), leBytes_length,
    Nat.add_sub_cancel_left, List.getD_eq_getElem?_getD, List.getElem?_replicate]
  split_ifs <;> rfl

theorem eightMegBoard_configOffset : eightMegBoard.configOffset = configCfgOffset := by
  have hcrc : wordAt (byteAt emptySector) 0 = Env.tableCrc32 0 (List.replicate cfgEnvDataSize 0) :=
    wordAt_of_holds (holds_byteAt rfl)
  have hdata : slice (fun _ => 0) 0 cfgEnvDataSize = List.replicate cfgEnvDataSize 0 := by simp [slice]
  have hfirst : store (fun _ => 0) (cfgEnvDataSize - 2) [0, 0] 0 = 0 := store_out (Or.inl (by decide))
  have hparam : getBootEnvParam eightMegBoard.mapped (byteAt emptySector) (text "config_offset") = none := by
    rw [getBootEnvParam, if_neg (by decide), envData_emptySector, hdata, hcrc, if_neg (not_not.mpr rfl)]
    dsimp only
    rw [paramFrom, if_pos hfirst, Option.map_none]
  rw [Board.configOffset, getConfigPartOffset, show eightMegBoard.envSector = byteAt emptySector from rfl, hparam]

theorem default_partition_overrun : eightMegBoard.configOffset = configCfgOffset ∧
    ∃ u : Upload, u.url = uploadUrl ∧ u.targetFile = kernelDevice ∧ u.file.length ≤ u.clen ∧
      eightMegBoard.Starts ⟨.idle, 0, none, 0, 0⟩ u ∧
      (kernelPartition configCfgOffset).size.toNat < u.file.length := by
  obtain ⟨file, hlen, hv⟩ := exists_accepted 0x11#32 (show 48 ≤ 0x400000 by omega) (by omega)
  have hflash : eightMegBoard.flashSize = 0x500000 := by decide
  have hgate : gateRefuses eightMegBoard.flashSize .idle ⟨uploadUrl, 0x400400, true, file, kernelDevice, 3⟩ = false := by
    rw [hflash]
    rfl
  refine ⟨eightMegBoard_configOffset, ⟨uploadUrl, 0x400400, true, file, kernelDevice, 3⟩, rfl, rfl, ?_, ?_, ?_⟩
  · dsimp only
    omega
  · exact Board.starts_of_passed hgate (by dsimp only; omega) (by dsimp only; omega) (show kernelDevice ≠ [] by decide) hv
  · rw [hlen]
    decide

end Wap610n.Web
