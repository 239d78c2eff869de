import Wap610n.Image.Validate

namespace Wap610n.Boot

open Bytes Crc32 Image

/-- The boot loader's test of the image at `paddr1`; `doFullCrcCheck` is the compile-time switch. -/
def doCksumCmp (doFullCrcCheck : Bool) (paddr1 : ℕ → UInt8) : ℤ :=
  let phead := headerAt paddr1
  if phead.magic ≠ 0xea000006#32 then 1
  else if doFullCrcCheck = true ∧ crc32 0 (slice paddr1 32 (phead.pcksum2 - 32#32).toNat) ≠ phead.cksum then 1
  else if wordAt paddr1 (phead.pcksum2 + 12#32).toNat ≠ phead.cksum then 1
  else 0

theorem doCksumCmp_magic {full : Bool} {m : ℕ → UInt8} (h : doCksumCmp full m = 0) :
    (headerAt m).magic = 0xea000006#32 := by
  by_contra hne
  have h1 : doCksumCmp full m = 1 := if_pos hne
  omega

theorem doCksumCmp_trailer {full : Bool} {m : ℕ → UInt8} (h : doCksumCmp full m = 0) :
    wordAt m ((headerAt m).pcksum2 + 12#32).toNat = (headerAt m).cksum := by
  by_contra hne
  have h1 : doCksumCmp full m = 1 := by
    simp only [doCksumCmp]
    rw [if_pos hne]
    split_ifs <;> rfl
  omega

theorem doCksumCmp_accepts {full : Bool} {m : ℕ → UInt8} (hm : (headerAt m).magic = 0xea000006#32)
    (hc : crc32 0 (slice m 32 ((headerAt m).pcksum2 - 32#32).toNat) = (headerAt m).cksum)
    (ht : wordAt m ((headerAt m).pcksum2 + 12#32).toNat = (headerAt m).cksum) : doCksumCmp full m = 0 := by
  simp only [doCksumCmp]
  rw [if_neg (not_not.mpr hm), if_neg (fun h => h.2 hc), if_neg (not_not.mpr ht)]

end Wap610n.Boot
