import Wap610n.Kernel.Mtd

namespace Wap610n.Kernel

open Bytes CString Env

namespace MtdInfo

def stop (mtd : MtdInfo) : ℕ := mtd.offset.toNat + mtd.size.toNat

def Apart (a b : MtdInfo) : Prop := a.stop ≤ b.offset.toNat ∨ b.stop ≤ a.offset.toNat

end MtdInfo

structure WellFormed (boot kernel env config : MtdInfo) : Prop where
  kernel_pos : 0 < kernel.size.toNat
  config_pos : 0 < config.size.toNat
  kernel_inside : kernel.stop ≤ windowSize.toNat
  config_inside : config.stop ≤ windowSize.toNat
  kernel_config : kernel.Apart config
  kernel_boot : kernel.Apart boot
  kernel_env : kernel.Apart env
  config_boot : config.Apart boot
  config_env : config.Apart env

namespace Chip

variable (chip : Chip)

def TableWellFormed : Prop :=
  ∃ boot kernel env config, chip.initStr9100Mtd = [chip.whole, boot, kernel, env, config] ∧
    WellFormed boot kernel env config

def envParams : MtdInfo := chip.slave "Non-volatile Config Partition" 0x20000 0x10000

def configPartition : MtdInfo :=
  chip.slave "Config Partition" chip.configPartOffset
    (chip.slaveSize chip.configPartOffset (windowSize - chip.configPartOffset))

theorem configPartOffset_lt : chip.configPartOffset.toNat < 0x1000000 := by
  unfold configPartOffset getConfigPartOffset
  split
  · rw [BitVec.toNat_and]
    exact lt_of_le_of_lt Nat.and_le_right (by decide)
  · decide

theorem slaveOffset_eq {curOffset offset : BitVec 32} (h : offset.toNat < 0x1000000) :
    chip.slaveOffset curOffset offset = offset := by
  have happend : offset ≠ mtdpartOfsAppend := by
    rintro rfl
    exact absurd h (by decide)
  have hnext : offset ≠ mtdpartOfsNxtblk := by
    rintro rfl
    exact absurd h (by decide)
  unfold slaveOffset
  rw [if_neg happend, if_neg hnext]

theorem initStr9100Mtd_table : chip.initStr9100Mtd =
    [chip.whole, chip.armboot, chip.linuxKernel, chip.envParams, chip.configPartition] := by
  have hparts : (str9100Partitions chip.configPartOffset).toList =
      [⟨"ARMBOOT", 0#32, 0x20000#32⟩, ⟨"Linux Kernel", configKernelOffset, chip.configPartOffset - configKernelOffset⟩,
        ⟨"Non-volatile Config Partition", 0x20000#32, 0x10000#32⟩,
        ⟨"Config Partition", chip.configPartOffset, windowSize - chip.configPartOffset⟩] := rfl
  unfold initStr9100Mtd
  rw [hparts]
  simp only [addMtdPartitions, chip.slaveOffset_eq chip.configPartOffset_lt,
    chip.slaveOffset_eq (show (0#32).toNat < 0x1000000 by decide),
    chip.slaveOffset_eq (show configKernelOffset.toNat < 0x1000000 by decide),
    chip.slaveOffset_eq (show (0x20000#32).toNat < 0x1000000 by decide)]
  rfl

theorem slave_beyond {name : String} {offset size : BitVec 32} (h : chip.size.toNat ≤ offset.toNat) :
    (chip.slave name offset size).size.toNat = 0 := by
  unfold slave
  rw [if_pos (show offset ≥ chip.size from BitVec.le_def.mpr h)]
  dsimp only
  rw [if_neg]
  · rfl
  · intro hgt
    exact absurd (BitVec.lt_def.mp hgt) (Nat.not_lt_zero _)

theorem slave_inside {name : String} {offset size : BitVec 32} (h : offset.toNat < chip.size.toNat)
    (hfit : (offset.toNat + size.toNat) % 2 ^ 32 ≤ chip.size.toNat) : chip.slave name offset size = ⟨name, offset, size⟩ := by
  unfold slave
  rw [if_neg (fun hge => absurd (BitVec.le_def.mp hge) (Nat.not_le.mpr h))]
  dsimp only
  rw [if_neg]
  intro hgt
  have hlt := BitVec.lt_def.mp hgt
  rw [BitVec.toNat_add] at hlt
  omega

theorem slave_cut {name : String} {offset size : BitVec 32} (h : offset.toNat < chip.size.toNat)
    (hlong : chip.size.toNat < (offset.toNat + size.toNat) % 2 ^ 32) :
    chip.slave name offset size = ⟨name, offset, chip.size - offset⟩ := by
  unfold slave
  rw [if_neg (fun hge => absurd (BitVec.le_def.mp hge) (Nat.not_le.mpr h))]
  dsimp only
  rw [if_pos]
  apply BitVec.lt_def.mpr
  rw [BitVec.toNat_add]
  exact hlong

theorem tableWellFormed_eq :
    chip.TableWellFormed ↔ WellFormed chip.armboot chip.linuxKernel chip.envParams chip.configPartition := by
  unfold TableWellFormed
  rw [initStr9100Mtd_table]
  constructor
  · rintro ⟨boot, kernel, env, config, htable, h⟩
    simp only [List.cons.injEq, and_true, true_and] at htable
    obtain ⟨rfl, rfl, rfl, rfl⟩ := htable
    exact h
  · intro h
    exact ⟨_, _, _, _, rfl, h⟩

section Regular

variable {chip}

theorem armboot_eq (h : 0x40000 < chip.size.toNat) : chip.armboot = ⟨"ARMBOOT", 0, 0x20000⟩ := by
  apply chip.slave_inside
  · exact lt_trans (by decide) h
  · exact le_trans (by decide) h.le

theorem envParams_eq (h : 0x40000 < chip.size.toNat) :
    chip.envParams = ⟨"Non-volatile Config Partition", 0x20000, 0x10000⟩ := by
  apply chip.slave_inside
  · exact lt_trans (by decide) h
  · exact le_trans (by decide) h.le

theorem kernelSize_toNat (offset : BitVec 32) :
    (offset - configKernelOffset).toNat = (2 ^ 32 - 0x40000 + offset.toNat) % 2 ^ 32 := BitVec.toNat_sub _ _

theorem configSize_toNat (offset : BitVec 32) :
    (windowSize - offset).toNat = (2 ^ 32 - offset.toNat + 0x800000) % 2 ^ 32 := BitVec.toNat_sub _ _

theorem slaveSize_of_ne {offset size : BitVec 32} (h : size.toNat ≠ 0) : chip.slaveSize offset size = size := by
  apply if_neg
  rintro rfl
  exact h rfl

theorem slaveSize_full {offset size : BitVec 32} (h : size.toNat = 0) :
    chip.slaveSize offset size = chip.size - offset := if_pos (BitVec.eq_of_toNat_eq h)

theorem linuxKernel_eq (h : 0x40000 < chip.configPartOffset.toNat)
    (hchip : chip.configPartOffset.toNat < chip.size.toNat) :
    chip.linuxKernel = ⟨"Linux Kernel", configKernelOffset, chip.configPartOffset - configKernelOffset⟩ := by
  have hlt := chip.configPartOffset_lt
  have hsize := kernelSize_toNat chip.configPartOffset
  have hstart : configKernelOffset.toNat = 0x40000 := rfl
  unfold linuxKernel
  rw [slaveSize_of_ne (by omega)]
  apply chip.slave_inside
  · omega
  · omega

theorem configPartition_eq (h : chip.configPartOffset.toNat < 0x800000)
    (hchip : chip.configPartOffset.toNat < chip.size.toNat) :
    chip.configPartition.offset = chip.configPartOffset ∧
      chip.configPartition.stop = min 0x800000 chip.size.toNat := by
  have hsize := configSize_toNat chip.configPartOffset
  have hlt := chip.size.isLt
  unfold configPartition
  rw [slaveSize_of_ne (by omega)]
  rcases Nat.lt_or_ge chip.size.toNat 0x800000 with hshort | hlong
  · rw [chip.slave_cut hchip (by omega)]
    refine ⟨rfl, ?_⟩
    unfold MtdInfo.stop
    dsimp only
    rw [BitVec.toNat_sub]
    omega
  · rw [chip.slave_inside hchip (by omega)]
    refine ⟨rfl, ?_⟩
    unfold MtdInfo.stop
    dsimp only
    omega

end Regular

theorem wellFormed_of_between (h : 0x40000 < chip.configPartOffset.toNat)
    (hwindow : chip.configPartOffset.toNat < 0x800000) (hchip : chip.configPartOffset.toNat < chip.size.toNat) :
    WellFormed chip.armboot chip.linuxKernel chip.envParams chip.configPartition := by
  obtain ⟨hoffset, hstop⟩ := configPartition_eq hwindow hchip
  have hconfig : chip.configPartition.stop = chip.configPartition.offset.toNat + chip.configPartition.size.toNat := rfl
  have hsize := kernelSize_toNat chip.configPartOffset
  have hkernel : chip.linuxKernel.stop = chip.configPartOffset.toNat := by
    rw [linuxKernel_eq h hchip]
    unfold MtdInfo.stop
    dsimp only
    have hstart : configKernelOffset.toNat = 0x40000 := rfl
    omega
  have hstart : chip.linuxKernel.offset.toNat = 0x40000 := by
    rw [linuxKernel_eq h hchip]
    rfl
  have hrest : chip.linuxKernel.stop = chip.linuxKernel.offset.toNat + chip.linuxKernel.size.toNat := rfl
  have hboot : chip.armboot.stop = 0x20000 := by
    rw [armboot_eq (by omega)]
    rfl
  have henv : chip.envParams.stop = 0x30000 := by
    rw [envParams_eq (by omega)]
    rfl
  have hwin : windowSize.toNat = 0x800000 := rfl
  rw [← hoffset] at h hwindow hchip hkernel
  refine ⟨by omega, by omega, by omega, by omega, Or.inl (by omega), ?_, ?_, ?_, ?_⟩
  · exact Or.inr (by omega)
  · exact Or.inr (by omega)
  · exact Or.inr (by omega)
  · exact Or.inr (by omega)

section Broken

variable {chip}

theorem config_beyond_window (h : 0x800000 ≤ chip.configPartOffset.toNat)
    (hchip : chip.configPartOffset.toNat < chip.size.toNat) : 0x800000 < chip.configPartition.stop := by
  have hlt := chip.configPartOffset_lt
  have hsize := configSize_toNat chip.configPartOffset
  have hfull := BitVec.toNat_sub chip.size chip.configPartOffset
  have hchiplt := chip.size.isLt
  unfold configPartition
  rcases Nat.eq_or_lt_of_le h with heq | hgt
  · rw [slaveSize_full (by omega), chip.slave_inside hchip (by omega)]
    unfold MtdInfo.stop
    dsimp only
    omega
  · -- the size wraps round and offset plus size is the window again, so no check cuts it
    rw [slaveSize_of_ne (by omega), chip.slave_inside hchip (by omega)]
    unfold MtdInfo.stop
    dsimp only
    omega

theorem kernel_below_start (h : chip.configPartOffset.toNat < 0x40000) (hchip : 0x40000 < chip.size.toNat) :
    0x800000 < chip.linuxKernel.stop := by
  have hsize := kernelSize_toNat chip.configPartOffset
  have hstart : configKernelOffset.toNat = 0x40000 := rfl
  unfold linuxKernel
  rw [slaveSize_of_ne (by omega), chip.slave_inside (by omega) (by omega)]
  unfold MtdInfo.stop
  dsimp only
  omega

theorem kernel_full (h : chip.configPartOffset.toNat = 0x40000) (hchip : 0x40000 < chip.size.toNat) :
    chip.linuxKernel.offset.toNat = 0x40000 ∧ chip.linuxKernel.stop = chip.size.toNat := by
  have hsize := kernelSize_toNat chip.configPartOffset
  have hfull := BitVec.toNat_sub chip.size configKernelOffset
  have hstart : configKernelOffset.toNat = 0x40000 := rfl
  have hlt := chip.size.isLt
  unfold linuxKernel
  rw [slaveSize_full (by omega), chip.slave_inside (by omega) (by omega)]
  refine ⟨rfl, ?_⟩
  unfold MtdInfo.stop
  dsimp only
  omega

end Broken

theorem between_of_wellFormed (h : WellFormed chip.armboot chip.linuxKernel chip.envParams chip.configPartition) :
    0x40000 < chip.configPartOffset.toNat ∧ chip.configPartOffset.toNat < 0x800000 ∧
      chip.configPartOffset.toNat < chip.size.toNat := by
  have hwin : windowSize.toNat = 0x800000 := rfl
  have hconfig := h.config_inside
  have hkernel := h.kernel_inside
  have hchip : chip.configPartOffset.toNat < chip.size.toNat := by
    by_contra hle
    have hempty : chip.configPartition.size.toNat = 0 := chip.slave_beyond (Nat.le_of_not_lt hle)
    exact absurd h.config_pos (by omega)
  have hstart : 0x40000 < chip.size.toNat := by
    by_contra hle
    have hempty : chip.linuxKernel.size.toNat = 0 :=
      chip.slave_beyond (show chip.size.toNat ≤ configKernelOffset.toNat from Nat.le_of_not_lt hle)
    exact absurd h.kernel_pos (by omega)
  have hwindow : chip.configPartOffset.toNat < 0x800000 := by
    by_contra hge
    have hbeyond := config_beyond_window (Nat.le_of_not_lt hge) hchip
    omega
  refine ⟨?_, hwindow, hchip⟩
  rcases Nat.lt_trichotomy chip.configPartOffset.toNat 0x40000 with hlt | heq | hgt
  · have hbelow := kernel_below_start hlt hstart
    omega
  · obtain ⟨hoffset, hstop⟩ := configPartition_eq hwindow hchip
    obtain ⟨hfrom, hto⟩ := kernel_full heq hstart
    rcases h.kernel_config with hleft | hright
    · rw [hoffset] at hleft
      omega
    · omega
  · exact hgt

theorem partitions_wellFormed_iff : chip.TableWellFormed ↔
    0x40000 < chip.configPartOffset.toNat ∧ chip.configPartOffset.toNat < 0x800000 ∧
      chip.configPartOffset.toNat < chip.size.toNat := by
  rw [tableWellFormed_eq]
  constructor
  · exact chip.between_of_wellFormed
  · rintro ⟨h, hwindow, hchip⟩
    exact chip.wellFormed_of_between h hwindow hchip

end Chip

theorem getBootEnvParam_first {sector : ℕ → UInt8} {name value : List UInt8} (hname : ∀ c ∈ name, c ≠ 0 ∧ c ≠ 61)
    (hvalue : ∀ c ∈ value, c ≠ 0) (hlen : name.length + value.length + 4 ≤ cfgEnvDataSize)
    (hcrc : tableCrc32 0 (slice (envData sector) 0 cfgEnvDataSize) = wordAt sector 0)
    (h : Holds (envData sector) 0 (name ++ 61 :: value ++ [0])) : getBootEnvParam true sector name = some value := by
  have hstored : Holds (store (envData sector) (cfgEnvDataSize - 2) [0, 0]) 0 (name ++ 61 :: value ++ [0]) := by
    apply h.store_out
    left
    simp only [List.length_append, List.length_cons, List.length_nil]
    omega
  have hpair := hstored
  rw [show name ++ 61 :: value ++ [0] = (name ++ [61]) ++ (value ++ [0]) by simp, holds_append] at hpair
  have hclean : ∀ c ∈ name ++ 61 :: value, c ≠ 0 := by
    intro c hc
    rcases List.mem_append.mp hc with hc | hc
    · exact (hname c hc).1
    · rcases List.mem_cons.mp hc with rfl | hc
      · decide
      · exact hvalue c hc
  have hsize : cfgEnvDataSize + 4 = cfgEnvSize := rfl
  have hlong : (name ++ 61 :: value).length = name.length + value.length + 1 := by
    rw [List.length_append, List.length_cons]
    omega
  have hfirst := ne_zero_of_holds_pair (fun c hc => (hname c hc).1) hpair.1
  rw [getBootEnvParam, if_neg (by decide), if_neg (not_not.mpr hcrc)]
  dsimp only
  rw [paramFrom, if_neg hfirst, entryEnd_text hclean hstored (by omega) (by omega), Option.bind_some,
    envmatch_eq (fun c hc => (hname c hc).1),
    envmatch_name (fun c hc => (hname c hc).2) (fun c hc => (hname c hc).2) hpair.1, if_pos rfl]
  dsimp only
  rw [Option.map_some]
  rw [List.length_append, List.length_singleton, ← Nat.add_assoc] at hpair
  rw [cString_text hvalue hpair.2 (by omega)]

def offsetData (value : List UInt8) : List UInt8 :=
  text "config_offset" ++ 61 :: value ++ List.replicate (cfgEnvDataSize - 14 - value.length) 0

def offsetSector (value : List UInt8) : List UInt8 := leBytes (tableCrc32 0 (offsetData value)) ++ offsetData value

theorem getConfigPartOffset_offsetSector {value : List UInt8} (hvalue : ∀ c ∈ value, c ≠ 0) (hlen : value.length ≤ 512) :
    getConfigPartOffset true (byteAt (offsetSector value)) = simpleStrtol value &&& 0x00FFFFFF#32 := by
  have hsize : cfgEnvDataSize = 65532 := rfl
  have hname : (text "config_offset").length = 13 := rfl
  have hdata : (offsetData value).length = cfgEnvDataSize := by
    rw [offsetData, List.length_append, List.length_append, List.length_cons, List.length_replicate, hname]
    omega
  have hdrop : (offsetSector value).drop 4 = offsetData value := List.drop_left' (leBytes_length _)
  have hholds : Holds (envData (byteAt (offsetSector value))) 0 (offsetData value) := by
    apply holds_envData
    apply holds_byteAt (r := [])
    rw [List.append_nil]
    exact hdrop
  have hcrc : tableCrc32 0 (slice (envData (byteAt (offsetSector value))) 0 cfgEnvDataSize) =
      wordAt (byteAt (offsetSector value)) 0 := by
    rw [← hdata, hholds]
    exact (wordAt_of_holds (holds_byteAt (r := offsetData value) rfl)).symm
  have hparam : getBootEnvParam true (byteAt (offsetSector value)) (text "config_offset") = some value := by
    apply getBootEnvParam_first _ hvalue (by omega) hcrc
    · obtain ⟨k, hk⟩ : ∃ k, cfgEnvDataSize - 14 - value.length = k + 1 :=
        ⟨cfgEnvDataSize - 14 - value.length - 1, by omega⟩
      have hsplit : offsetData value = (text "config_offset" ++ 61 :: value ++ [0]) ++ List.replicate k 0 := by
        rw [offsetData, hk, List.replicate_succ, List.append_assoc _ [0], List.singleton_append]
      rw [hsplit, holds_append] at hholds
      exact hholds.1
    · exact forall_mem_of_all (by decide)
  rw [getConfigPartOffset, hparam]

def envChip (value : List UInt8) : Chip where
  size := 0x800000#32
  erasesize := 0x10000#32
  flash i := byteAt (offsetSector value) (i - 0x20000)
  mapped := true
  sectors := by decide

theorem envChip_configPartOffset {value : List UInt8} (hvalue : ∀ c ∈ value, c ≠ 0) (hlen : value.length ≤ 512) :
    (envChip value).configPartOffset = simpleStrtol value &&& 0x00FFFFFF#32 := by
  have hsector : (fun i => (envChip value).flash (0x20000 + i)) = byteAt (offsetSector value) := by
    funext i
    simp only [envChip, Nat.add_sub_cancel_left]
  rw [Chip.configPartOffset, hsector]
  exact getConfigPartOffset_offsetSector hvalue hlen

theorem zero_config_offset : (envChip (text "0")).configPartOffset = 0#32 ∧
    (envChip (text "0")).linuxKernel.size = 0xFFFC0000#32 ∧ ¬(envChip (text "0")).TableWellFormed := by
  have hoffset : (envChip (text "0")).configPartOffset = 0#32 :=
    envChip_configPartOffset (forall_mem_of_all (by decide)) (by decide)
  refine ⟨hoffset, ?_, ?_⟩
  · rw [Chip.linuxKernel, hoffset]
    decide
  · rw [Chip.tableWellFormed_eq]
    intro h
    have hbetween := Chip.between_of_wellFormed _ h
    rw [hoffset] at hbetween
    exact absurd hbetween.1 (by decide)

end Wap610n.Kernel
