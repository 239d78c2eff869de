import Wap610n.Lib.Bytes
import Wap610n.Lib.Crc32

/-!
The two acceptance tests of a firmware image. `none` is a read outside the buffer that holds the image.
-/

namespace Wap610n.Image

open Bytes Crc32

structure ImageHeader where
  magic : BitVec 32
  pcksum2 : BitVec 32
  headerID : BitVec 32
  deviceID : BitVec 32
  cksum : BitVec 32
deriving DecidableEq

def headerAt (m : ℕ → UInt8) : ImageHeader where
  magic := wordAt m 0
  pcksum2 := wordAt m 4
  headerID := wordAt m 8
  deviceID := wordAt m 12
  cksum := wordAt m 28

theorem headerAt_congr {m m' : ℕ → UInt8} (h : ∀ i < 32, m i = m' i) : headerAt m = headerAt m' := by
  have hw {p : ℕ} (hp : p + 4 ≤ 32) : wordAt m p = wordAt m' p := by
    apply wordAt_congr
    intro i hi
    exact h _ (by omega)
  simp only [headerAt, hw (show 0 + 4 ≤ 32 by omega), hw (show 4 + 4 ≤ 32 by omega),
    hw (show 8 + 4 ≤ 32 by omega), hw (show 12 + 4 ≤ 32 by omega), hw (show 28 + 4 ≤ 32 by omega)]

def readHeader (buf : List UInt8) : Option ImageHeader :=
  if 32 ≤ buf.length then some (headerAt (byteAt buf)) else none

def hexDigits (w : BitVec 32) : String :=
  String.ofList ((List.range 8).map fun i => (Nat.digitChar (w.toNat / 16 ^ (7 - i) % 16)).toUpper)

def mtValidateImage (mtdDeviceID : BitVec 32) (imageBuf : List UInt8) (imageSize : ℤ) :
    Option (Except String Unit) :=
  -- `imageSize` is an `int` compared with an unsigned `sizeof`
  if (BitVec.ofInt 32 imageSize).toNat < 32 + 8 then
    some (.error "Error: This is not an image file (too small)!!!<br>")
  else (readHeader imageBuf).bind fun imageHeader =>
    if imageHeader.magic ≠ 0xEA000006#32 then
      some (.error "Error: This is not an image file (wrong magic code)<br>")
    else if imageHeader.pcksum2 + 16#32 ≠ BitVec.ofInt 32 imageSize then
      some (.error s!"Error: Wrong image size in header {imageHeader.pcksum2.toInt}<br>")
    else if imageHeader.headerID ≠ 1#32 then
      some (.error
        s!"Error: Unsupported image (header version is {imageHeader.headerID.toInt})<br>")
    else if mtdDeviceID ≠ 0#32 ∧ imageHeader.deviceID ≠ mtdDeviceID ∧
        ¬((imageHeader.deviceID = 0x11#32 ∨ imageHeader.deviceID = 0x13#32) ∧
          (mtdDeviceID = 0x11#32 ∨ mtdDeviceID = 0x13#32)) then
      some (.error ("Error: The image is not compatible with this hardware (device ID 0x" ++
        hexDigits imageHeader.deviceID ++ " instead of 0x" ++ hexDigits mtdDeviceID ++ ")<br>"))
    else (readWord imageBuf (imageSize - 4)).bind fun crcFromFooter =>
      (readSlice imageBuf 32 (imageHeader.pcksum2 - 32#32).toNat).bind fun body =>
        let crc := crc32 (crc32 0 []) body
        if crc ≠ crcFromFooter then
          some (.error ("Error: Bad CRC: CRC is " ++ hexDigits crc ++ " but in the header its " ++
            hexDigits crcFromFooter ++ " !!!<br>"))
        else if crcFromFooter ≠ imageHeader.cksum then
          some (.error ("Error: Wrong image file (header CRC " ++ hexDigits imageHeader.cksum ++
            " != footer CRC " ++ hexDigits crcFromFooter ++ ")<br>"))
        else some (.ok ())

def hnapValidateImage (mtdDeviceID : BitVec 32) (imageBuf : List UInt8) (imageSize : ℤ) : Option ℤ :=
  if (BitVec.ofInt 32 imageSize).toNat < 32 + 8 then some (-1)
  else (readHeader imageBuf).bind fun imageHeader =>
    if imageHeader.magic ≠ 0xEA000006#32 then some (-1)
    else if imageHeader.pcksum2 + 16#32 ≠ BitVec.ofInt 32 imageSize then some (-1)
    else if imageHeader.headerID ≠ 1#32 then some (-1)
    else if mtdDeviceID ≠ 0#32 ∧ imageHeader.deviceID ≠ mtdDeviceID ∧
        ¬((imageHeader.deviceID = 0x11#32 ∨ imageHeader.deviceID = 0x13#32) ∧
          (mtdDeviceID = 0x11#32 ∨ mtdDeviceID = 0x13#32)) then some (-1)
    else (readWord imageBuf (imageSize - 4)).bind fun crcFromFooter =>
      (readSlice imageBuf 32 (imageHeader.pcksum2 - 32#32).toNat).bind fun body =>
        let crc := crc32 (crc32 0 []) body
        if crc ≠ crcFromFooter then some (-1)
        else if crcFromFooter ≠ imageHeader.cksum then some (-1)
        else some 0

def DeviceCompatible (mtdDeviceID deviceID : BitVec 32) : Prop :=
  mtdDeviceID = 0#32 ∨ deviceID = mtdDeviceID ∨
    ((deviceID = 0x11#32 ∨ deviceID = 0x13#32) ∧ (mtdDeviceID = 0x11#32 ∨ mtdDeviceID = 0x13#32))

structure HeaderFits (mtdDeviceID : BitVec 32) (buf : List UInt8) : Prop where
  magic : (headerAt (byteAt buf)).magic = 0xEA000006#32
  size : (headerAt (byteAt buf)).pcksum2.toNat + 16 = buf.length
  headerID : (headerAt (byteAt buf)).headerID = 1#32
  device : DeviceCompatible mtdDeviceID (headerAt (byteAt buf)).deviceID

structure Genuine (mtdDeviceID : BitVec 32) (buf : List UInt8) : Prop extends
    HeaderFits mtdDeviceID buf where
  headerCrc : crc32 0 (slice (byteAt buf) 32 ((headerAt (byteAt buf)).pcksum2.toNat - 32)) =
    (headerAt (byteAt buf)).cksum
  footerCrc : crc32 0 (slice (byteAt buf) 32 ((headerAt (byteAt buf)).pcksum2.toNat - 32)) =
    wordAt (byteAt buf) (buf.length - 4)

theorem validators_agree (mtdDeviceID : BitVec 32) (imageBuf : List UInt8) (imageSize : ℤ) :
    (mtValidateImage mtdDeviceID imageBuf imageSize).map Except.isOk =
      (hnapValidateImage mtdDeviceID imageBuf imageSize).map (· == 0) := by
  simp only [mtValidateImage, hnapValidateImage, apply_ite (Option.map _), Option.map_bind,
    Function.comp_def, Option.map_some]
  rfl

theorem size_ofInt {n : ℕ} (h : n < 2 ^ 31) : (BitVec.ofInt 32 (n : ℤ)).toNat = n := by
  rw [BitVec.toNat_ofInt]
  omega

theorem pcksum2_size {w : BitVec 32} {n : ℕ} (h : n < 2 ^ 31) (hn : 40 ≤ n) :
    w + 16#32 = BitVec.ofInt 32 (n : ℤ) ↔ w.toNat + 16 = n := by
  rw [← BitVec.toNat_inj, size_ofInt h, BitVec.toNat_add]
  have := w.isLt
  simp only [BitVec.toNat_ofNat]
  omega

theorem pcksum2_body {w : BitVec 32} (h : 32 ≤ w.toNat) : (w - 32#32).toNat = w.toNat - 32 := by
  rw [BitVec.toNat_sub]
  simp only [BitVec.toNat_ofNat]
  omega

theorem pcksum2_underrun {w : BitVec 32} (h : w.toNat < 32) : (w - 32#32).toNat = 2 ^ 32 + w.toNat - 32 := by
  rw [BitVec.toNat_sub]
  simp only [BitVec.toNat_ofNat]
  omega

theorem pcksum2_trailer {w : BitVec 32} (h : w.toNat + 12 < 2 ^ 32) : (w + 12#32).toNat = w.toNat + 12 := by
  rw [BitVec.toNat_add]
  simp only [BitVec.toNat_ofNat]
  omega

theorem deviceCompatible_iff (mtdDeviceID deviceID : BitVec 32) :
    DeviceCompatible mtdDeviceID deviceID ↔ ¬(mtdDeviceID ≠ 0#32 ∧ deviceID ≠ mtdDeviceID ∧
      ¬((deviceID = 0x11#32 ∨ deviceID = 0x13#32) ∧ (mtdDeviceID = 0x11#32 ∨ mtdDeviceID = 0x13#32))) := by
  unfold DeviceCompatible
  tauto

theorem hnapValidateImage_refused {mtdDeviceID : BitVec 32} {buf : List UInt8} (h : buf.length < 2 ^ 31)
    (hr : buf.length < 40 ∨ ¬HeaderFits mtdDeviceID buf) :
    hnapValidateImage mtdDeviceID buf buf.length = some (-1) := by
  unfold hnapValidateImage
  rw [size_ofInt h]
  by_cases hs : buf.length < 32 + 8
  · rw [if_pos hs]
  have hf : ¬HeaderFits mtdDeviceID buf := hr.resolve_left hs
  rw [if_neg hs, readHeader, if_pos (by omega), Option.bind_some]
  refine ite_eq_left_iff.mpr fun hmagic => ?_
  refine ite_eq_left_iff.mpr fun hsize => ?_
  refine ite_eq_left_iff.mpr fun hid => ?_
  refine ite_eq_left_iff.mpr fun hdevice => ?_
  exact absurd ⟨not_not.mp hmagic, (pcksum2_size h (by omega)).mp (not_not.mp hsize), not_not.mp hid,
    (deviceCompatible_iff _ _).mpr hdevice⟩ hf

theorem hnapValidateImage_fits {mtdDeviceID : BitVec 32} {buf : List UInt8} (h : buf.length < 2 ^ 31)
    (hs : 40 ≤ buf.length) (hf : HeaderFits mtdDeviceID buf) :
    hnapValidateImage mtdDeviceID buf buf.length =
      (readSlice buf 32 ((headerAt (byteAt buf)).pcksum2 - 32#32).toNat).bind fun body =>
        if crc32 0 body ≠ wordAt (byteAt buf) (buf.length - 4) then some (-1)
        else if wordAt (byteAt buf) (buf.length - 4) ≠ (headerAt (byteAt buf)).cksum then some (-1)
        else some 0 := by
  unfold hnapValidateImage
  rw [size_ofInt h, if_neg (by omega), readHeader, if_pos (by omega), Option.bind_some,
    if_neg (not_not.mpr hf.magic),
    if_neg (not_not.mpr ((pcksum2_size h hs).mpr hf.size)), if_neg (not_not.mpr hf.headerID),
    if_neg ((deviceCompatible_iff _ _).mp hf.device), readWord, if_pos (by omega), Option.bind_some,
    show ((buf.length : ℤ) - 4).toNat = buf.length - 4 by omega, crc32_nil]

theorem hnapValidateImage_underrun {mtdDeviceID : BitVec 32} {buf : List UInt8} (hs : 40 ≤ buf.length)
    (hu : buf.length < 48) (hf : HeaderFits mtdDeviceID buf) :
    hnapValidateImage mtdDeviceID buf buf.length = none := by
  have hsize := hf.size
  rw [hnapValidateImage_fits (by omega) hs hf, pcksum2_underrun (by omega), readSlice, if_neg (by omega),
    Option.bind_none]

theorem hnapValidateImage_checked {mtdDeviceID : BitVec 32} {buf : List UInt8} (h : buf.length < 2 ^ 31)
    (hs : 48 ≤ buf.length) (hf : HeaderFits mtdDeviceID buf) :
    (hnapValidateImage mtdDeviceID buf buf.length = some 0 ∧ Genuine mtdDeviceID buf) ∨
      (hnapValidateImage mtdDeviceID buf buf.length = some (-1) ∧ ¬Genuine mtdDeviceID buf) := by
  have hsize := hf.size
  rw [hnapValidateImage_fits h (by omega) hf, pcksum2_body (by omega), readSlice, if_pos (by omega), Option.bind_some]
  split_ifs with h1 h2
  · exact Or.inr ⟨rfl, fun g => h1 g.footerCrc⟩
  · exact Or.inr ⟨rfl, fun g => h2 (g.footerCrc.symm.trans g.headerCrc)⟩
  · rw [not_not] at h1 h2
    exact Or.inl ⟨rfl, hf, h1.trans h2, h1⟩

theorem ite_refused {c : Prop} [Decidable c] {x : Option ℤ} {r : ℤ} (h : (if c then some (-1) else x) = some r)
    (hr : r ≠ -1) : x = some r := by
  by_cases hc : c
  · rw [if_pos hc] at h
    exact absurd (Option.some.inj h).symm hr
  · rwa [if_neg hc] at h

theorem hnapValidateImage_eq_zero {mtdDeviceID : BitVec 32} {buf : List UInt8} {n r : ℤ}
    (h : hnapValidateImage mtdDeviceID buf n = some r) (hr : r ≠ -1) : r = 0 := by
  unfold hnapValidateImage at h
  obtain ⟨imageHeader, -, h⟩ := Option.bind_eq_some_iff.mp (ite_refused h hr)
  have hfits := ite_refused (ite_refused (ite_refused (ite_refused h hr) hr) hr) hr
  obtain ⟨crcFromFooter, -, h⟩ := Option.bind_eq_some_iff.mp hfits
  obtain ⟨body, -, h⟩ := Option.bind_eq_some_iff.mp h
  exact (Option.some.inj (ite_refused (ite_refused h hr) hr)).symm

theorem hnapValidateImage_append (mtdDeviceID : BitVec 32) {buf : List UInt8} (rest : List UInt8)
    (h : (buf ++ rest).length < 2 ^ 31) :
    hnapValidateImage mtdDeviceID (buf ++ rest) buf.length = hnapValidateImage mtdDeviceID buf buf.length := by
  rw [List.length_append] at h
  have hbyte (i : ℕ) (hi : i < buf.length) : byteAt (buf ++ rest) i = byteAt buf i := by
    simp [byteAt, List.getD, List.getElem?_append_left hi]
  unfold hnapValidateImage
  rw [size_ofInt (by omega)]
  by_cases hs : buf.length < 32 + 8
  · rw [if_pos hs, if_pos hs]
  have hheader : headerAt (byteAt (buf ++ rest)) = headerAt (byteAt buf) :=
    headerAt_congr fun i hi => hbyte i (by omega)
  have hword : readWord (buf ++ rest) (buf.length - 4) = readWord buf (buf.length - 4) := by
    rw [readWord, readWord, if_pos (by rw [List.length_append]; omega), if_pos (by omega)]
    congr 1
    apply wordAt_congr
    intro i hi
    exact hbyte _ (by omega)
  rw [if_neg hs, if_neg hs, readHeader, readHeader, if_pos (by rw [List.length_append]; omega), if_pos (by omega),
    Option.bind_some, Option.bind_some, hheader, hword]
  refine ite_congr rfl (fun _ => rfl) fun _ => ?_
  refine ite_congr rfl (fun _ => rfl) fun hfits => ?_
  refine ite_congr rfl (fun _ => rfl) fun _ => ?_
  refine ite_congr rfl (fun _ => rfl) fun _ => ?_
  have hsize := (pcksum2_size (by omega) (by omega)).mp (not_not.mp hfits)
  have hslice : readSlice (buf ++ rest) 32 ((headerAt (byteAt buf)).pcksum2 - 32#32).toNat =
      readSlice buf 32 ((headerAt (byteAt buf)).pcksum2 - 32#32).toNat := by
    rw [readSlice, readSlice, List.length_append]
    by_cases hlong : 32 ≤ (headerAt (byteAt buf)).pcksum2.toNat
    · rw [pcksum2_body hlong, if_pos (by omega), if_pos (by omega)]
      congr 1
      apply slice_congr
      intro i hi
      exact hbyte _ (by omega)
    · rw [pcksum2_underrun (by omega), if_neg (by omega), if_neg (by omega)]
  rw [hslice]

theorem mtValidateImage_ok_iff (mtdDeviceID : BitVec 32) (buf : List UInt8) (n : ℤ) :
    mtValidateImage mtdDeviceID buf n = some (.ok ()) ↔ hnapValidateImage mtdDeviceID buf n = some 0 := by
  have hmt (x : Option (Except String Unit)) : x = some (.ok ()) ↔ x.map Except.isOk = some true := by
    rcases x with _ | _ | _
    · simp
    · simp [Except.isOk, Except.toBool]
    · simp [Except.isOk, Except.toBool]
  have hhnap (x : Option ℤ) : x = some 0 ↔ x.map (· == 0) = some true := by
    cases x with
    | none => simp
    | some r => simp
  rw [hmt, hhnap, validators_agree]

theorem mtValidateImage_genuine {mtdDeviceID : BitVec 32} {buf : List UInt8} (h : buf.length < 2 ^ 31)
    (ha : mtValidateImage mtdDeviceID buf buf.length = some (.ok ())) :
    48 ≤ buf.length ∧ Genuine mtdDeviceID buf := by
  rw [mtValidateImage_ok_iff] at ha
  by_cases hr : buf.length < 40 ∨ ¬HeaderFits mtdDeviceID buf
  · rw [hnapValidateImage_refused h hr] at ha
    exact absurd ha (by decide)
  rw [not_or, not_not, not_lt] at hr
  by_cases hs : buf.length < 48
  · rw [hnapValidateImage_underrun hr.1 hs hr.2] at ha
    exact absurd ha (by decide)
  rcases hnapValidateImage_checked h (not_lt.mp hs) hr.2 with hg | hb
  · exact ⟨not_lt.mp hs, hg.2⟩
  · rw [hb.1] at ha
    exact absurd ha (by decide)

theorem Genuine.hnapValidateImage {mtdDeviceID : BitVec 32} {buf : List UInt8} (hg : Genuine mtdDeviceID buf)
    (h : buf.length < 2 ^ 31) (hs : 48 ≤ buf.length) : hnapValidateImage mtdDeviceID buf buf.length = some 0 :=
  (hnapValidateImage_checked h hs hg.toHeaderFits).elim And.left fun hn => absurd hg hn.2

structure ValidatesSafely (mtdDeviceID : BitVec 32) (buf : List UInt8) : Prop where
  agree : (mtValidateImage mtdDeviceID buf buf.length).map Except.isOk =
    (hnapValidateImage mtdDeviceID buf buf.length).map (· == 0)
  mtInBounds : mtValidateImage mtdDeviceID buf buf.length ≠ none
  hnapInBounds : hnapValidateImage mtdDeviceID buf buf.length ≠ none
  accepts : mtValidateImage mtdDeviceID buf buf.length = some (.ok ()) → Genuine mtdDeviceID buf

theorem validatesSafely_iff {mtdDeviceID : BitVec 32} {buf : List UInt8} (h : buf.length < 2 ^ 31) :
    ValidatesSafely mtdDeviceID buf ↔
      ¬(40 ≤ buf.length ∧ buf.length < 48 ∧ HeaderFits mtdDeviceID buf) := by
  have ha := validators_agree mtdDeviceID buf buf.length
  have hnone : mtValidateImage mtdDeviceID buf buf.length = none ↔
      hnapValidateImage mtdDeviceID buf buf.length = none := by
    rw [← Option.map_eq_none_iff, ha, Option.map_eq_none_iff]
  constructor
  · rintro hv ⟨hs, hu, hf⟩
    exact hv.hnapInBounds (hnapValidateImage_underrun hs hu hf)
  · intro hc
    have hsome : hnapValidateImage mtdDeviceID buf buf.length ≠ none := by
      by_cases hr : buf.length < 40 ∨ ¬HeaderFits mtdDeviceID buf
      · simp [hnapValidateImage_refused h hr]
      · rw [not_or, not_not] at hr
        have hs : 48 ≤ buf.length := by
          by_contra
          exact hc ⟨by omega, by omega, hr.2⟩
        rcases hnapValidateImage_checked h hs hr.2 with hg | hb
        · simp [hg.1]
        · simp [hb.1]
    exact ⟨ha, fun he => hsome (hnone.mp he), hsome, fun he => (mtValidateImage_genuine h he).2⟩

def shortImage : List UInt8 :=
  leBytes 0xEA000006#32 ++ leBytes 24#32 ++ leBytes 1#32 ++ leBytes 0x11#32 ++ List.replicate 24 0

theorem validatesSafely_at_shortImage :
    shortImage.length < 2 ^ 31 ∧ (ValidatesSafely 0x11#32 shortImage ↔
      ¬(40 ≤ shortImage.length ∧ shortImage.length < 48 ∧ HeaderFits 0x11#32 shortImage)) :=
  ⟨by decide, validatesSafely_iff (by decide)⟩

theorem shortImage_reads_outside : ¬∀ (mtdDeviceID : BitVec 32) (buf : List UInt8),
    buf.length < 2 ^ 31 → ValidatesSafely mtdDeviceID buf := by
  intro h
  have hv := h 0x11#32 shortImage (by decide)
  exact hv.mtInBounds (by decide)

def emptyImage : List UInt8 :=
  leBytes 0xEA000006#32 ++ leBytes 32#32 ++ leBytes 1#32 ++ leBytes 0x11#32 ++ List.replicate 32 0

end Wap610n.Image
