import Wap610n.Kernel.Partition

namespace Wap610n.Kernel

open Bytes Env

/-- The flash as `cfi_probe` finds it. Its size is a power of two times the number of chips. -/
structure Chip where
  size : BitVec 32
  erasesize : BitVec 32
  flash : ℕ → UInt8
  mapped : Bool
  sectors : 512 ∣ size.toNat

structure MtdInfo where
  name : String
  offset : BitVec 32
  size : BitVec 32
deriving DecidableEq

def mtdpartOfsNxtblk : BitVec 32 := -2#32

def mtdpartOfsAppend : BitVec 32 := -1#32

def mtdpartSizFull : BitVec 32 := 0#32

namespace Chip

variable (chip : Chip)

def slaveOffset (curOffset offset : BitVec 32) : BitVec 32 :=
  let offset := if offset = mtdpartOfsAppend then curOffset else offset
  if offset = mtdpartOfsNxtblk then
    if curOffset % chip.erasesize ≠ 0 then (curOffset / chip.erasesize + 1) * chip.erasesize else curOffset
  else offset

def slaveSize (offset size : BitVec 32) : BitVec 32 :=
  if size = mtdpartSizFull then chip.size - offset else size

/-- The sanity checks: a partition that starts beyond the chip is kept, empty, for the numbering. -/
def slave (name : String) (offset size : BitVec 32) : MtdInfo :=
  let (offset, size) := if offset ≥ chip.size then (0, 0) else (offset, size)
  ⟨name, offset, if offset + size > chip.size then chip.size - offset else size⟩

def addMtdPartitions (curOffset : BitVec 32) : List MtdPartition → List MtdInfo
  | [] => []
  | part :: parts =>
    let offset := chip.slaveOffset curOffset part.offset
    let size := chip.slaveSize offset part.size
    chip.slave part.name offset size :: addMtdPartitions (offset + size) parts

def configPartOffset : BitVec 32 := getConfigPartOffset chip.mapped fun i => chip.flash (0x20000 + i)

def initStr9100Mtd : List MtdInfo :=
  ⟨"STR9100 NOR Flash", 0, chip.size⟩ ::
    chip.addMtdPartitions 0 (str9100Partitions chip.configPartOffset).toList

def read (mtd : MtdInfo) (n : ℕ) : List UInt8 :=
  slice chip.flash mtd.offset.toNat (min n (chip.size.toNat - mtd.offset.toNat))

def bytes (mtd : MtdInfo) : List UInt8 := chip.read mtd mtd.size.toNat

/-- What the block device shows: only whole sectors. -/
def sectorBytes (mtd : MtdInfo) : List UInt8 := chip.read mtd (mtd.size.toNat / 512 * 512)

def partitionNamed (name : String) : Option MtdInfo := chip.initStr9100Mtd.find? fun mtd => mtd.name = name

def whole : MtdInfo := ⟨"STR9100 NOR Flash", 0, chip.size⟩

def armboot : MtdInfo := chip.slave "ARMBOOT" 0 0x20000

def linuxKernel : MtdInfo :=
  chip.slave "Linux Kernel" configKernelOffset
    (chip.slaveSize configKernelOffset (chip.configPartOffset - configKernelOffset))

theorem slave_name (name : String) (offset size : BitVec 32) : (chip.slave name offset size).name = name := by
  unfold slave
  split
  rfl

theorem initStr9100Mtd_eq : ∃ env config, chip.initStr9100Mtd =
    [chip.whole, chip.armboot, chip.linuxKernel, env, config] ∧
      env.name = "Non-volatile Config Partition" ∧ config.name = "Config Partition" :=
  ⟨_, _, rfl, chip.slave_name _ _ _, chip.slave_name _ _ _⟩

theorem partitionNamed_eq : chip.partitionNamed "ARMBOOT" = some chip.armboot ∧
    chip.partitionNamed "Linux Kernel" = some chip.linuxKernel := by
  obtain ⟨env, config, htable, -, -⟩ := chip.initStr9100Mtd_eq
  have harmboot : chip.armboot.name = "ARMBOOT" := chip.slave_name _ _ _
  have hkernel : chip.linuxKernel.name = "Linux Kernel" := chip.slave_name _ _ _
  simp [partitionNamed, htable, whole, harmboot, hkernel]

theorem sectorBytes_of_dvd {mtd : MtdInfo} (h : 512 ∣ mtd.size.toNat) : chip.sectorBytes mtd = chip.bytes mtd := by
  rw [sectorBytes, bytes, Nat.div_mul_cancel h]

theorem armboot_size_dvd : 512 ∣ chip.armboot.size.toNat := by
  have hchip := chip.sectors
  unfold armboot slave
  split
  rename_i offset size heq
  split_ifs at heq with hreach
  · cases heq
    simp
  · cases heq
    dsimp only
    split_ifs with hlong
    · simpa using hchip
    · decide

theorem bytes_whole : chip.bytes chip.whole = slice chip.flash 0 chip.size.toNat := by
  simp [bytes, read, whole]

end Chip

end Wap610n.Kernel
