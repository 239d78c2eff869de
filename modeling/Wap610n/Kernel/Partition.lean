import Wap610n.Env.Crc
import Wap610n.Env.Uboot
import Wap610n.Lib.CString

namespace Wap610n.Kernel

open Bytes CString Env

def cfgEnvDataSize : ℕ := cfgEnvSize - 4

def envmatch (env : ℕ → UInt8) : ℕ → List UInt8 → ℕ → Option ℕ
  | 0, s1, i2 => if s1.headD 0 = 0 ∧ env i2 = 61 then some (i2 + 1) else none
  | strLen + 1, s1, i2 =>
    if s1.headD 0 = env i2 then
      if s1.headD 0 = 61 then some (i2 + 1) else envmatch env strLen s1.tail (i2 + 1)
    else if s1.headD 0 = 0 ∧ env (i2 + 1) = 61 then some (i2 + 2) else none

theorem envmatch_eq {env : ℕ → UInt8} {a : List UInt8} (ha : ∀ c ∈ a, c ≠ 0) (i : ℕ) :
    envmatch env a.length a i = Env.envmatch env a i := by
  induction a generalizing i with
  | nil => simp [envmatch, Env.envmatch]
  | cons c a ih =>
    have hrest := ih (fun x hx => ha x (List.mem_cons_of_mem _ hx)) (i + 1)
    have hc := ha c List.mem_cons_self
    simp [envmatch, Env.envmatch, hrest, hc]

def paramFrom (env : ℕ → UInt8) (paramName : List UInt8) : ℕ → ℕ → Option ℕ
  | 0, _ => none
  | fuel + 1, i =>
    if env i = 0 then none
    else (entryEnd env (cfgEnvSize + 1) i).bind fun nxt =>
      match envmatch env paramName.length paramName i with
      | some val => some val
      | none => paramFrom env paramName fuel (nxt + 1)

/-- `mapped` is false when `ioremap` fails. -/
def getBootEnvParam (mapped : Bool) (sector : ℕ → UInt8) (paramName : List UInt8) : Option (List UInt8) :=
  if mapped = false then none
  else if tableCrc32 0 (slice (envData sector) 0 cfgEnvDataSize) ≠ wordAt sector 0 then none
  else
    let env := store (envData sector) (cfgEnvDataSize - 2) [0, 0]
    (paramFrom env paramName (cfgEnvSize + 2) 0).map (cString env cfgEnvSize)

def hexLoop (result : BitVec 32) : List UInt8 → BitVec 32
  | [] => result
  | c :: cp =>
    match hexValue c with
    | some value => hexLoop (result * 16#32 + BitVec.ofNat 32 value) cp
    | none => result

def simpleStrtoul (cp : List UInt8) : BitVec 32 :=
  if byteAt cp 0 = 48 ∧ (byteAt cp 1 = 88 ∨ byteAt cp 1 = 120) then hexLoop 0 (cp.drop 2) else hexLoop 0 cp

def simpleStrtol (cp : List UInt8) : BitVec 32 :=
  if byteAt cp 0 = 45 then -simpleStrtoul (cp.drop 1) else simpleStrtoul cp

example : simpleStrtol (text "0x7F0000 ") = 0x7f0000#32 := by decide

def configCfgOffset : BitVec 32 := 0x3E0000#32

def configKernelOffset : BitVec 32 := 0x40000#32

def windowSize : BitVec 32 := 0x800000#32

def getConfigPartOffset (mapped : Bool) (sector : ℕ → UInt8) : BitVec 32 :=
  match getBootEnvParam mapped sector (text "config_offset") with
  | some tmp => simpleStrtol tmp &&& 0x00FFFFFF#32
  | none => configCfgOffset

structure MtdPartition where
  name : String
  offset : BitVec 32
  size : BitVec 32
deriving DecidableEq

def str9100Partitions (configOffset : BitVec 32) : Vector MtdPartition 4 :=
  #v[⟨"ARMBOOT", 0#32, 0x20000#32⟩,
    ⟨"Linux Kernel", configKernelOffset, configOffset - configKernelOffset⟩,
    ⟨"Non-volatile Config Partition", 0x20000#32, 0x10000#32⟩,
    ⟨"Config Partition", configOffset, windowSize - configOffset⟩]

/-- The chip itself is `mtd0`, so the table starts with `mtd1`. -/
def kernelDevice : List UInt8 := text "/dev/mtdblock2"

def kernelPartition (configOffset : BitVec 32) : MtdPartition := (str9100Partitions configOffset)[1]

theorem kernelPartition_size_le_iff (configOffset : BitVec 32) :
    0x600000 ≤ (kernelPartition configOffset).size.toNat ↔
      configOffset.toNat < 0x40000 ∨ 0x640000 ≤ configOffset.toNat := by
  have hlt := configOffset.isLt
  have hsize : (kernelPartition configOffset).size = configOffset - 0x40000#32 := rfl
  rw [hsize, BitVec.toNat_sub]
  simp only [BitVec.toNat_ofNat]
  omega

end Wap610n.Kernel
