import Wap610n.Burn.Machine
import Wap610n.Image.Validate

namespace Wap610n.Web

open Bytes Image Burn

def imageMaxSize : ℤ := 0x600000

def uploadFileToBig : ℤ := -1

def uploadNoMemory : ℤ := -2

def uploadUrl : List UInt8 := text "/goform/upldImage"

structure Upload where
  url : List UInt8
  clen : ℤ
  malloced : Bool
  file : List UInt8
  targetFile : List UInt8
  retryMax : ℤ

def gateRefuses (flashSize : ℤ) (burnState : BurnState) (u : Upload) : Bool :=
  u.url = uploadUrl ∧ (burnState.busy ∨ u.clen > flashSize ∨ u.malloced = false)

/-- A negative length tells the parser and `BurnImage` that the body was dropped. -/
def fileContentLen (flashSize : ℤ) (burnState : BurnState) (u : Upload) : ℤ :=
  if gateRefuses flashSize burnState u then
    if u.clen > flashSize then uploadFileToBig else uploadNoMemory
  else u.file.length

/-- `BurnImage` after `MT_InitBurnParams`: the parameters, and whether it creates a burn thread. `none` is
a read of `MT_ValidateImage` outside the file. -/
def burnImage (mtdDeviceID : BitVec 32) (params : BurnParams) (len : ℤ) (u : Upload) : Option (BurnParams × Bool) :=
  let refused := some ({ params with precentComplete := -1 }, false)
  if len < 0 then
    if params.burnState.busy then some (params, false)
    else if len = uploadNoMemory ∨ len = uploadFileToBig then refused
    else some (params, false)
  else if len > imageMaxSize then refused
  else if len = 0 then refused
  else if u.targetFile = [] then refused
  else (mtValidateImage mtdDeviceID u.file len).bind fun
    | .error _ => refused
    | .ok _ => some ({
        burnState := .idle
        precentComplete := 0
        fileContent := some (byteAt u.file)
        imageSize := len.toNat
        retryCount := u.retryMax }, true)

theorem fileContentLen_refused {flashSize : ℤ} {burnState : BurnState} {u : Upload}
    (h : gateRefuses flashSize burnState u = true) : fileContentLen flashSize burnState u < 0 := by
  unfold fileContentLen
  rw [if_pos h]
  split_ifs
  · decide
  · decide

theorem fileContentLen_passed {flashSize : ℤ} {burnState : BurnState} {u : Upload}
    (h : gateRefuses flashSize burnState u = false) : fileContentLen flashSize burnState u = u.file.length := by
  unfold fileContentLen
  rw [h]
  rfl

theorem burnImage_starts {mtdDeviceID : BitVec 32} {params params' : BurnParams} {len : ℤ} {u : Upload}
    (h : burnImage mtdDeviceID params len u = some (params', true)) :
    0 < len ∧ len ≤ imageMaxSize ∧ u.targetFile ≠ [] ∧
      mtValidateImage mtdDeviceID u.file len = some (.ok ()) ∧ params'.burnState = .idle := by
  unfold burnImage at h
  dsimp only at h
  split_ifs at h with h0 h1 h2 h3 h4 h5
  all_goals try exact absurd h (by simp)
  rcases hv : mtValidateImage mtdDeviceID u.file len with _ | _ | _
  · rw [hv] at h
    exact absurd h (by simp)
  · rw [hv] at h
    exact absurd h (by simp)
  · rw [hv] at h
    cases h
    exact ⟨by omega, by omega, h5, rfl, rfl⟩

theorem burnImage_refuses {mtdDeviceID : BitVec 32} {params params' : BurnParams} {len : ℤ} {u : Upload}
    (h : burnImage mtdDeviceID params len u = some (params', false)) : params'.burnState = params.burnState := by
  unfold burnImage at h
  dsimp only at h
  split_ifs at h with h0 h1 h2 h3 h4 h5
  all_goals try (cases h; rfl)
  rcases hv : mtValidateImage mtdDeviceID u.file len with _ | _ | _
  all_goals
    rw [hv] at h
    cases h
  rfl

end Wap610n.Web
