import Wap610n.Burn.Hnap
import Wap610n.Lib.CString
import Wap610n.Web.Base64

namespace Wap610n.Web

open Bytes CString Image Burn.Hnap

def startTag : List UInt8 := text "<Base64Image>"

def endTag : List UInt8 := text "</Base64Image>"

/-- A posted message: its bytes, which a NUL follows, and where they are. Nothing is mapped in the first page. -/
structure HnapPost where
  postData : List UInt8
  address : ℕ
  free : ℤ → Bool
  mtdDeviceID : BitVec 32
  flash : ℕ → UInt8
  prologue : Prologue
  attempts : ℕ → Attempt
  lenPostData : postData.length < 2 ^ 31
  firstPage : 4096 ≤ address

inductive UpgradeOutcome
  | crashed
  | returned (code : ℤ) (flash : ℕ → UInt8) (postData : List UInt8)

namespace HnapPost

variable (p : HnapPost)

def balloc (size : ℤ) : Bool := if size < 0 then false else p.free size

def stringAt (postData : List UInt8) (pointer : ℕ) : Option (List UInt8) :=
  if p.address ≤ pointer ∧ pointer ≤ p.address + postData.length then
    some (upTo 0 (postData.drop (pointer - p.address)))
  else none

def pointerInt (n : ℤ) : ℤ := (BitVec.ofInt 32 n).toInt

/-- From the `memset` of the message on. -/
def install (image : List UInt8) : UpgradeOutcome :=
  if image.length > p.postData.length then .crashed
  else
    let postData := writeAt (List.replicate p.postData.length 0) 0 image
    match hnapValidateImage p.mtdDeviceID postData image.length with
    | none => .crashed
    | some valid =>
      if valid = -1 then .returned (-1) p.flash postData
      else match hnapBurnAndVerifyImage (byteAt postData) image.length p.flash p.prologue p.attempts with
        | (none, _) => .crashed
        | (some burnt, flash) => .returned (if burnt = -1 then -1 else 0) flash postData

def hnapApWbridgeUpgrade : UpgradeOutcome :=
  let str := upTo 0 p.postData
  -- a missing tag gives `NULL`, which is not looked at
  let pstarTag : ℕ := (match strstrAt startTag str with | some a => p.address + a | none => 0) + 13
  match strstrAt endTag str with
  | none => .crashed
  | some b =>
    let postData := p.postData.set b 0
    let imageLen := pointerInt (p.address + b - pstarTag + 1)
    if p.balloc imageLen = false then .returned (-1) p.flash postData
    else match p.stringAt postData pstarTag with
      | none => .crashed
      | some str => p.install (b64Decode str imageLen.toNat)

def imageText : Option (List UInt8) :=
  (strstrAt startTag (upTo 0 p.postData)).bind fun a =>
    let rest := (upTo 0 p.postData).drop (a + 13)
    (strstrAt endTag rest).map rest.take

def UpgradeRight : Prop :=
  (∀ flash postData, p.hnapApWbridgeUpgrade = .returned 0 flash postData →
    ∃ str image, p.imageText = some str ∧ image = b64Decode str (str.length + 1) ∧
      hnapValidateImage p.mtdDeviceID image image.length = some 0) ∧
  (p.imageText = none →
    ∃ postData, p.hnapApWbridgeUpgrade = .returned (-1) p.flash postData ∧ postData.length = p.postData.length)

theorem tags_disjoint {s : List UInt8} {a b : ℕ} (ha : startTag <+: s.drop a) (hb : endTag <+: s.drop b)
    (h : a < b) : a + 13 ≤ b := by
  by_contra hlt
  have hinner : ∀ k < 13, 0 < k → startTag[k]? ≠ some 60 := by decide
  apply hinner (b - a) (by omega) (by omega)
  obtain ⟨t, ht⟩ := ha
  obtain ⟨u, hu⟩ := hb
  calc startTag[b - a]? = (startTag ++ t)[b - a]? :=
        (List.getElem?_append_left (by rw [show startTag.length = 13 from rfl]; omega)).symm
    _ = s[b]? := by rw [ht, List.getElem?_drop, Nat.add_sub_cancel' h.le]
    _ = (endTag ++ u)[0]? := by rw [hu, List.getElem?_drop, Nat.add_zero]
    _ = some 60 := rfl

theorem upTo_set {d : List UInt8} {k b : ℕ} (hk : k ≤ b) (hb : b < (upTo 0 d).length) :
    upTo 0 ((d.set b 0).drop k) = ((upTo 0 d).drop k).take (b - k) := by
  have hpre : upTo 0 d <+: d := List.takeWhile_prefix _
  have hlen := hpre.length_le
  have htake : d.take b = (upTo 0 d).take b := by
    obtain ⟨t, ht⟩ := hpre
    calc d.take b = (upTo 0 d ++ t).take b := by rw [ht]
      _ = (upTo 0 d).take b := List.take_append_of_le_length hb.le
  have hnul : (0 : UInt8) ∉ ((upTo 0 d).drop k).take (b - k) := by
    intro hmem
    have := List.mem_takeWhile_imp (List.mem_of_mem_drop (List.mem_of_mem_take hmem))
    simp at this
  rw [List.set_eq_take_append_cons_drop, if_pos (by omega), htake, List.drop_append_of_le_length
    (by rw [List.length_take]; omega), List.drop_take, upTo_append_cons hnul]

theorem pointerInt_eq {n : ℤ} (hlo : -2 ^ 31 ≤ n) (hhi : n < 2 ^ 31) : pointerInt n = n := by
  rw [pointerInt, BitVec.toInt_ofInt]
  exact Int.bmod_eq_of_le (by omega) (by omega)

section Tags

variable {p} {a b : ℕ}

theorem upgrade_noEnd (hb : strstrAt endTag (upTo 0 p.postData) = none) :
    p.hnapApWbridgeUpgrade = .crashed := by
  simp only [hnapApWbridgeUpgrade, hb]

theorem upgrade_noStart (ha : strstrAt startTag (upTo 0 p.postData) = none)
    (hb : strstrAt endTag (upTo 0 p.postData) = some b) : p.hnapApWbridgeUpgrade =
      if p.balloc (pointerInt (p.address + b - 13 + 1)) = false then .returned (-1) p.flash (p.postData.set b 0)
      else .crashed := by
  have hpage := p.firstPage
  have hnone : p.stringAt (p.postData.set b 0) 13 = none := if_neg (by omega)
  simp only [hnapApWbridgeUpgrade, ha, hb, Nat.zero_add, hnone]
  rfl

theorem end_lt (hb : strstrAt endTag (upTo 0 p.postData) = some b) : b + 14 ≤ (upTo 0 p.postData).length := by
  have hlen := (strstrAt_spec hb).1.length_le
  rw [List.length_drop, show endTag.length = 14 from rfl] at hlen
  omega

theorem upgrade_endFirst (ha : strstrAt startTag (upTo 0 p.postData) = some a)
    (hb : strstrAt endTag (upTo 0 p.postData) = some b) (hle : b ≤ a) :
    p.hnapApWbridgeUpgrade = .returned (-1) p.flash (p.postData.set b 0) := by
  have hlen := (strstrAt_spec ha).1.length_le
  rw [List.length_drop, show startTag.length = 13 from rfl] at hlen
  have hint := p.lenPostData
  have hstr := upTo_length_le 0 p.postData
  have hsize : pointerInt (p.address + b - (p.address + a + 13 : ℕ) + 1) = (b : ℤ) - a - 12 := by
    rw [pointerInt_eq (by omega) (by omega)]
    omega
  have hfail : p.balloc ((b : ℤ) - a - 12) = false := if_pos (by omega)
  simp only [hnapApWbridgeUpgrade, ha, hb, hsize, hfail, ↓reduceIte]

theorem upgrade_inOrder (ha : strstrAt startTag (upTo 0 p.postData) = some a)
    (hb : strstrAt endTag (upTo 0 p.postData) = some b) (hlt : a < b) :
    ∃ str, p.imageText = some str ∧ p.hnapApWbridgeUpgrade =
      if p.balloc (str.length + 1) = false then .returned (-1) p.flash (p.postData.set b 0)
      else p.install (b64Decode str (str.length + 1)) := by
  obtain ⟨hstart, -⟩ := strstrAt_spec ha
  obtain ⟨hend, hlater⟩ := strstrAt_spec hb
  have hgap := tags_disjoint hstart hend hlt
  have hlen := end_lt hb
  have hint := p.lenPostData
  have hle := upTo_length_le 0 p.postData
  refine ⟨((upTo 0 p.postData).drop (a + 13)).take (b - (a + 13)), ?_, ?_⟩
  · rw [imageText, ha, Option.bind_some]
    dsimp only
    rw [hlater (a + 13) hgap, Option.map_some]
  · have hstr : (((upTo 0 p.postData).drop (a + 13)).take (b - (a + 13))).length = b - (a + 13) := by
      rw [List.length_take, List.length_drop]
      omega
    have hsize : pointerInt (p.address + b - (p.address + a + 13 : ℕ) + 1) = (b - (a + 13) : ℕ) + 1 := by
      rw [pointerInt_eq (by omega) (by omega)]
      omega
    have hread : p.stringAt (p.postData.set b 0) (p.address + a + 13) =
        some (((upTo 0 p.postData).drop (a + 13)).take (b - (a + 13))) := by
      rw [stringAt, if_pos (by rw [List.length_set]; omega), show p.address + a + 13 - p.address = a + 13 by omega,
        upTo_set hgap (by omega)]
    simp only [hnapApWbridgeUpgrade, ha, hb, hsize, hread, hstr]
    rfl

theorem install_zero {image postData : List UInt8} {flash : ℕ → UInt8}
    (h : p.install image = .returned 0 flash postData) :
    hnapValidateImage p.mtdDeviceID image image.length = some 0 := by
  unfold install at h
  split_ifs at h with hlong
  have hwrite : writeAt (List.replicate p.postData.length 0) 0 image =
      image ++ (List.replicate p.postData.length 0).drop image.length := by simp [writeAt]
  have hint := p.lenPostData
  have hlen : (image ++ (List.replicate p.postData.length 0).drop image.length).length < 2 ^ 31 := by
    rw [List.length_append, List.length_drop, List.length_replicate]
    omega
  dsimp only at h
  rw [hwrite, hnapValidateImage_append p.mtdDeviceID _ hlen] at h
  cases hvalid : hnapValidateImage p.mtdDeviceID image image.length with
  | none => simp [hvalid] at h
  | some valid =>
    rw [hvalid] at h
    dsimp only at h
    split_ifs at h with hrefused
    · cases h
    · rw [hnapValidateImage_eq_zero hvalid hrefused]

theorem imageText_noEnd (hb : strstrAt endTag (upTo 0 p.postData) = none) : p.imageText = none := by
  have hrest (k : ℕ) : strstrAt endTag ((upTo 0 p.postData).drop k) = none := by
    rw [← Option.not_isSome_iff_eq_none, strstrAt_isSome] at hb ⊢
    exact fun h => hb (h.trans (List.drop_suffix k _).isInfix)
  cases ha : strstrAt startTag (upTo 0 p.postData) with
  | none => simp only [imageText, ha, Option.bind_none]
  | some a => simp only [imageText, ha, hrest, Option.bind_some, Option.map_none]

theorem imageText_noStart (ha : strstrAt startTag (upTo 0 p.postData) = none) : p.imageText = none := by
  rw [imageText, ha, Option.bind_none]

theorem upgradeRight_of_refused {postData : List UInt8}
    (hrun : p.hnapApWbridgeUpgrade = .returned (-1) p.flash postData) (hlen : postData.length = p.postData.length) :
    p.UpgradeRight := by
  refine ⟨fun flash postData' hret => ?_, fun _ => ⟨postData, hrun, hlen⟩⟩
  rw [hrun] at hret
  cases hret

theorem not_upgradeRight (hrun : p.hnapApWbridgeUpgrade = .crashed) (htext : p.imageText = none) :
    ¬p.UpgradeRight := by
  rintro ⟨-, hright⟩
  obtain ⟨postData, hret, -⟩ := hright htext
  rw [hrun] at hret
  cases hret

end Tags

end HnapPost

theorem hnap_upgrade_iff (p : HnapPost) : p.UpgradeRight ↔
    ∃ b, strstrAt endTag (upTo 0 p.postData) = some b ∧
      (startTag <:+: upTo 0 p.postData ∨ p.balloc (HnapPost.pointerInt (p.address + b - 13 + 1)) = false) := by
  rw [← strstrAt_isSome]
  cases hb : strstrAt endTag (upTo 0 p.postData) with
  | none =>
    exact iff_of_false (HnapPost.not_upgradeRight (HnapPost.upgrade_noEnd hb) (HnapPost.imageText_noEnd hb)) (by simp)
  | some b =>
    cases ha : strstrAt startTag (upTo 0 p.postData) with
    | none =>
      have hrun := HnapPost.upgrade_noStart ha hb
      split_ifs at hrun with hfail
      · exact iff_of_true (HnapPost.upgradeRight_of_refused hrun List.length_set) ⟨b, rfl, Or.inr hfail⟩
      · refine iff_of_false (HnapPost.not_upgradeRight hrun (HnapPost.imageText_noStart ha)) ?_
        rintro ⟨_, ⟨⟩, hsome | hfail'⟩
        · exact absurd hsome Bool.false_ne_true
        · exact hfail hfail'
    | some a =>
      refine iff_of_true ?_ ⟨b, rfl, Or.inl rfl⟩
      by_cases hlt : a < b
      · obtain ⟨str, hstr, hrun⟩ := HnapPost.upgrade_inOrder ha hb hlt
        refine ⟨fun flash postData hret => ?_, fun hnone => absurd (hstr.symm.trans hnone) (by simp)⟩
        rw [hrun] at hret
        split_ifs at hret
        · cases hret
        · exact ⟨str, _, hstr, rfl, HnapPost.install_zero hret⟩
      · exact HnapPost.upgradeRight_of_refused (HnapPost.upgrade_endFirst ha hb (not_lt.mp hlt)) List.length_set

def hnapMessage (body : String) (h : (text body).length < 2 ^ 31) : HnapPost where
  postData := text body
  address := 0x80000
  free := fun _ => true
  mtdDeviceID := 0
  flash := fun _ => 0xff
  prologue := ⟨false, 0, false, fun _ => 0xff⟩
  attempts := fun _ => ⟨false, [], false, fun _ => 0xff⟩
  lenPostData := h
  firstPage := by decide

theorem missing_tag_crashes :
    (hnapMessage "<Base64Image>AAAA" (by decide)).hnapApWbridgeUpgrade = .crashed ∧
    (hnapMessage "AAAA</Base64Image>" (by decide)).hnapApWbridgeUpgrade = .crashed ∧
    ¬(hnapMessage "<Base64Image>AAAA" (by decide)).UpgradeRight ∧
    ¬(hnapMessage "AAAA</Base64Image>" (by decide)).UpgradeRight := by
  have hend : (hnapMessage "<Base64Image>AAAA" (by decide)).hnapApWbridgeUpgrade = .crashed :=
    HnapPost.upgrade_noEnd (by decide)
  have hstart : (hnapMessage "AAAA</Base64Image>" (by decide)).hnapApWbridgeUpgrade = .crashed :=
    HnapPost.upgrade_noStart (by decide) (b := 4) (by decide)
  exact ⟨hend, hstart, HnapPost.not_upgradeRight hend (by decide), HnapPost.not_upgradeRight hstart (by decide)⟩

end Wap610n.Web
