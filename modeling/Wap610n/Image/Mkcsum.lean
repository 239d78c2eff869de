import Wap610n.Boot.Cksum

namespace Wap610n.Image

open Bytes Crc32 Boot

def mkcsumLoop (file : List UInt8) (pos length : ℕ) (crc : BitVec 32) : Option (BitVec 32) :=
  if 0 < length then
    let len := if length > 512 * 100 then 512 * 100 else length
    match readSlice file pos len with
    | some buf => mkcsumLoop file (pos + len) (length - len) (crc32 crc buf)
    | none => none
  else some crc
termination_by length
decreasing_by split_ifs <;> omega

def mkcsum (file : List UInt8) : ℕ × List UInt8 :=
  if file.length < 32 then (1, file)
  else
    let head := headerAt (byteAt file)
    if head.magic ≠ 0xea000006#32 then (0, file)
    else
      match mkcsumLoop file 32 (head.pcksum2 - 32#32).toInt.toNat (crc32 0 []) with
      | none => (1, file)
      | some crc =>
        let headed := writeAt file 0 (writeAt (slice (byteAt file) 0 32) 28 (leBytes crc))
        -- an offset that is negative as an `off_t` leaves the position behind the header
        let tail := if (head.pcksum2 + 12#32).toNat < 2 ^ 31 then (head.pcksum2 + 12#32).toNat else 32
        (0, writeAt headed tail (leBytes crc))

theorem mkcsumLoop_eq (file : List UInt8) (pos length : ℕ) (crc : BitVec 32)
    (h : pos + length ≤ file.length) :
    mkcsumLoop file pos length crc = some (crc32 crc (slice (byteAt file) pos length)) := by
  fun_induction mkcsumLoop file pos length crc with
  | case1 pos length crc hpos len buf hread ih =>
    have hlen : len ≤ length := by simp only [len]; split_ifs <;> omega
    have hbuf : buf = slice (byteAt file) pos len := by
      rw [readSlice, if_pos (by omega)] at hread
      exact (Option.some.inj hread).symm
    rw [ih (by omega), hbuf, crc32_append, ← slice_add, Nat.add_sub_cancel' hlen]
  | case2 pos length crc hpos len hread =>
    have hlen : len ≤ length := by simp only [len]; split_ifs <;> omega
    rw [readSlice, if_pos (by omega)] at hread
    exact absurd hread (by simp)
  | case3 pos length crc hpos =>
    rw [show length = 0 by omega]
    simp [slice, crc32_nil]

theorem byteAt_headed {file : List UInt8} (h : 32 ≤ file.length) (crc : BitVec 32) :
    byteAt (writeAt file 0 (writeAt (slice (byteAt file) 0 32) 28 (leBytes crc))) =
      store (byteAt file) 28 (leBytes crc) := by
  have hl : (writeAt (slice (byteAt file) 0 32) 28 (leBytes crc)).length = 32 := by
    rw [writeAt_length] <;> simp
  have hb : byteAt (writeAt (slice (byteAt file) 0 32) 28 (leBytes crc)) =
      store (byteAt (slice (byteAt file) 0 32)) 28 (leBytes crc) := byteAt_writeAt (by simp)
  rw [byteAt_writeAt (by omega)]
  funext i
  by_cases hi : i < 32
  · have hs : store (byteAt file) 0 (writeAt (slice (byteAt file) 0 32) 28 (leBytes crc)) (0 + i) =
        byteAt (writeAt (slice (byteAt file) 0 32) 28 (leBytes crc)) i := store_in (by omega)
    rw [Nat.zero_add] at hs
    rw [hs, hb]
    simp only [store]
    split_ifs with hc
    · rfl
    · rw [byteAt, slice_getD hi, Nat.zero_add]
  · rw [store_out (by omega), store_out (by right; simp only [leBytes_length]; omega)]

def bodyCrc (file : List UInt8) : BitVec 32 := crc32 0 (slice (byteAt file) 32 (file.length - 48))

section

variable {mtdDeviceID : BitVec 32} {file : List UInt8}

theorem mkcsum_stores (h48 : 48 ≤ file.length) (h31 : file.length < 2 ^ 31) (hf : HeaderFits mtdDeviceID file) :
    ∃ out, mkcsum file = (0, out) ∧ out.length = file.length ∧ byteAt out =
      store (store (byteAt file) 28 (leBytes (bodyCrc file))) (file.length - 4) (leBytes (bodyCrc file)) := by
  have hsize := hf.size
  have hlen : ((headerAt (byteAt file)).pcksum2 - 32#32).toInt.toNat = file.length - 48 := by
    have hbody := pcksum2_body (w := (headerAt (byteAt file)).pcksum2) (by omega)
    rw [BitVec.toInt_eq_toNat_of_lt (by omega), hbody]
    omega
  have htail : ((headerAt (byteAt file)).pcksum2 + 12#32).toNat = file.length - 4 := by
    rw [pcksum2_trailer (by omega)]
    omega
  have hloop : mkcsumLoop file 32 (file.length - 48) 0 = some (bodyCrc file) :=
    mkcsumLoop_eq file 32 _ 0 (by omega)
  have hl : (writeAt (slice (byteAt file) 0 32) 28 (leBytes (bodyCrc file))).length = 32 := by
    rw [writeAt_length] <;> simp
  have hlh : (writeAt file 0 (writeAt (slice (byteAt file) 0 32) 28 (leBytes (bodyCrc file)))).length =
      file.length := writeAt_length (by omega)
  refine ⟨writeAt (writeAt file 0 (writeAt (slice (byteAt file) 0 32) 28 (leBytes (bodyCrc file))))
    (file.length - 4) (leBytes (bodyCrc file)), ?_, ?_, ?_⟩
  · simp only [mkcsum]
    rw [if_neg (by omega), if_neg (not_not.mpr hf.magic), hlen, htail, crc32_nil, hloop,
      if_pos (by omega)]
  · rw [writeAt_length (by rw [hlh, leBytes_length]; omega), hlh]
  · rw [byteAt_writeAt (by rw [hlh, leBytes_length]; omega), byteAt_headed (by omega)]

theorem headerAt_sealed {m : ℕ → UInt8} {n : ℕ} (h48 : 48 ≤ n) (crc : BitVec 32) :
    headerAt (store (store m 28 (leBytes crc)) (n - 4) (leBytes crc)) = { headerAt m with cksum := crc } := by
  have hout (q : ℕ) (hq : q + 4 ≤ 28) :
      wordAt (store (store m 28 (leBytes crc)) (n - 4) (leBytes crc)) q = wordAt m q := by
    rw [wordAt_store_out (by omega), wordAt_store_out (by omega)]
  simp only [headerAt, hout 0 (by omega), hout 4 (by omega), hout 8 (by omega), hout 12 (by omega)]
  rw [wordAt_store_out (by omega), wordAt_store]

theorem slice_sealed {m : ℕ → UInt8} {n : ℕ} (h48 : 48 ≤ n) (crc : BitVec 32) :
    slice (store (store m 28 (leBytes crc)) (n - 4) (leBytes crc)) 32 (n - 48) = slice m 32 (n - 48) := by
  apply slice_congr
  intro i hi
  rw [store_out (by omega), store_out (by right; rw [leBytes_length]; omega)]

theorem genuine_sealed {out : List UInt8} (h48 : 48 ≤ file.length) (hf : HeaderFits mtdDeviceID file)
    (hl : out.length = file.length) (hb : byteAt out =
      store (store (byteAt file) 28 (leBytes (bodyCrc file))) (file.length - 4) (leBytes (bodyCrc file))) :
    Genuine mtdDeviceID out := by
  have hsize := hf.size
  have hh : headerAt (byteAt out) = { headerAt (byteAt file) with cksum := bodyCrc file } := by
    rw [hb, headerAt_sealed h48]
  have hfits : HeaderFits mtdDeviceID out := by
    constructor <;> rw [hh]
    · exact hf.magic
    · rw [hl]; exact hf.size
    · exact hf.headerID
    · exact hf.device
  have hcrc : crc32 0 (slice (byteAt out) 32 ((headerAt (byteAt out)).pcksum2.toNat - 32)) = bodyCrc file := by
    have hp := hfits.size
    rw [show (headerAt (byteAt out)).pcksum2.toNat - 32 = file.length - 48 by omega, hb, slice_sealed h48,
      bodyCrc]
  refine ⟨hfits, ?_, ?_⟩
  · rw [hcrc, hh]
  · rw [hcrc, hl, hb, wordAt_store]

theorem genuine_boots {full : Bool} {out : List UInt8} {m : ℕ → UInt8} (h48 : 48 ≤ out.length)
    (h31 : out.length < 2 ^ 31) (hg : Genuine mtdDeviceID out) (hm : ∀ i < out.length, m i = byteAt out i) :
    doCksumCmp full m = 0 := by
  have hsize := hg.size
  have hh : headerAt m = headerAt (byteAt out) := by
    apply headerAt_congr
    intro i hi
    exact hm i (by omega)
  have ht : ((headerAt (byteAt out)).pcksum2 + 12#32).toNat = out.length - 4 := by
    rw [pcksum2_trailer (by omega)]
    omega
  have hfoot : wordAt m (out.length - 4) = wordAt (byteAt out) (out.length - 4) := by
    apply wordAt_congr
    intro i hi
    exact hm _ (by omega)
  apply doCksumCmp_accepts
  · rw [hh, hg.magic]
  · rw [hh, pcksum2_body (by omega), ← hg.headerCrc]
    apply congrArg (crc32 0)
    apply slice_congr
    intro i hi
    exact hm _ (by omega)
  · rw [hh, ht, hfoot, ← hg.footerCrc, hg.headerCrc]

theorem mkcsum_seals (h48 : 48 ≤ file.length) (h31 : file.length < 2 ^ 31) (hf : HeaderFits mtdDeviceID file) :
    ∃ out, mkcsum file = (0, out) ∧ out.length = file.length ∧
      (∀ i < file.length, byteAt out i ≠ byteAt file i → (28 ≤ i ∧ i < 32) ∨ file.length - 4 ≤ i) ∧
      mtValidateImage mtdDeviceID out out.length = some (.ok ()) ∧
      hnapValidateImage mtdDeviceID out out.length = some 0 ∧
      (∀ full m, (∀ i < out.length, m i = byteAt out i) → doCksumCmp full m = 0) ∧
      mkcsum out = (0, out) := by
  obtain ⟨out, hout, hl, hb⟩ := mkcsum_stores h48 h31 hf
  have hg : Genuine mtdDeviceID out := genuine_sealed h48 hf hl hb
  have hhnap : hnapValidateImage mtdDeviceID out out.length = some 0 := hg.hnapValidateImage (by omega) (by omega)
  refine ⟨out, hout, hl, ?_, (mtValidateImage_ok_iff _ _ _).mpr hhnap, hhnap,
    fun full m hm => genuine_boots (by omega) (by omega) hg hm, ?_⟩
  · intro i hi hne
    by_contra hc
    apply hne
    rw [hb, store_out (by omega), store_out (by rw [leBytes_length]; omega)]
  · obtain ⟨again, hagain, hla, hba⟩ := mkcsum_stores (by omega) (by omega) hg.toHeaderFits
    have hcrc : bodyCrc out = bodyCrc file := by rw [bodyCrc, hl, hb, slice_sealed h48, bodyCrc]
    have he : again = out := by
      apply ext_byteAt hla
      intro i _
      rw [hba, hcrc, hl, hb]
      simp only [store]
      split_ifs <;> rfl
    rw [hagain, he]

end

def bareImage : List UInt8 :=
  leBytes 0xEA000006#32 ++ leBytes 32#32 ++ leBytes 1#32 ++ leBytes 0x13#32 ++ List.replicate 32 0xFF

theorem bareImage_fits : HeaderFits 0x11#32 bareImage :=
  ⟨by decide, by decide, by decide, Or.inr (Or.inr ⟨Or.inr (by decide), Or.inl rfl⟩)⟩

theorem mkcsum_seals_bareImage : 48 ≤ bareImage.length ∧ bareImage.length < 2 ^ 31 ∧
    HeaderFits 0x11#32 bareImage ∧ ∃ out, mkcsum bareImage = (0, out) ∧
      mtValidateImage 0x11#32 out out.length = some (.ok ()) := by
  obtain ⟨out, hout, -, -, hv, -⟩ := mkcsum_seals (by decide) (by decide) bareImage_fits
  exact ⟨by decide, by decide, bareImage_fits, out, hout, hv⟩

def blankImage (deviceID : BitVec 32) (n : ℕ) : List UInt8 :=
  leBytes 0xEA000006#32 ++ (leBytes (BitVec.ofNat 32 (n - 16)) ++ (leBytes 1#32 ++ (leBytes deviceID ++
    List.replicate (n - 16) 0)))

theorem blankImage_length {deviceID : BitVec 32} {n : ℕ} (h : 16 ≤ n) : (blankImage deviceID n).length = n := by
  simp only [blankImage, List.length_append, leBytes_length, List.length_replicate]
  omega

theorem blankImage_fits {deviceID : BitVec 32} {n : ℕ} (h : 16 ≤ n) (h31 : n < 2 ^ 31) :
    HeaderFits deviceID (blankImage deviceID n) := by
  have hword (p : ℕ) (w : BitVec 32) (r : List UInt8) (hd : (blankImage deviceID n).drop p = leBytes w ++ r) :
      wordAt (byteAt (blankImage deviceID n)) p = w := wordAt_of_holds (holds_byteAt hd)
  refine ⟨hword 0 _ _ rfl, ?_, hword 8 _ _ rfl, Or.inr (Or.inl (hword 12 _ _ rfl))⟩
  rw [blankImage_length h, show (headerAt (byteAt (blankImage deviceID n))).pcksum2 = _ from hword 4 _ _ rfl,
    BitVec.toNat_ofNat]
  omega

theorem exists_accepted (mtdDeviceID : BitVec 32) {n : ℕ} (h48 : 48 ≤ n) (h31 : n < 2 ^ 31) :
    ∃ file : List UInt8, file.length = n ∧ mtValidateImage mtdDeviceID file file.length = some (.ok ()) := by
  have hlen : (blankImage mtdDeviceID n).length = n := blankImage_length (by omega)
  have hfits : HeaderFits mtdDeviceID (blankImage mtdDeviceID n) := blankImage_fits (by omega) h31
  obtain ⟨out, -, hl, hb⟩ := mkcsum_stores (by omega) (by omega) hfits
  have hg := genuine_sealed (by omega) hfits hl hb
  exact ⟨out, hl.trans hlen, (mtValidateImage_ok_iff _ _ _).mpr (hg.hnapValidateImage (by omega) (by omega))⟩

end Wap610n.Image
