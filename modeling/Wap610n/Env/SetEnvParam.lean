import Wap610n.Env.Crc
import Wap610n.Env.Uboot

/-!
`set_env_param`: the environment sector is copied into a buffer of its own size and edited on the way.
`none` is an access outside the buffer or outside `params_arr`.
-/

namespace Wap610n.Env

open Bytes

def paramsMax : ℕ := 500

structure Editor where
  mem : ℕ → UInt8
  currStr : ℕ := 4
  currStrIdx : ℕ := 0
  namePtr : ℕ := 4
  valuePtr : Option ℕ := none
  paramFound : Bool := false
  outOfSpace : Bool := false

def put (mem : ℕ → UInt8) (p : ℕ) (c : UInt8) : Option (ℕ → UInt8) :=
  if p < cfgEnvSize then some (store mem p [c]) else none

def strcpy (mem : ℕ → UInt8) (p : ℕ) (s : List UInt8) : Option (ℕ → UInt8) :=
  if p + s.length < cfgEnvSize then some (store mem p (s ++ [0])) else none

namespace Editor

def full (s : Editor) : Bool := s.currStrIdx ≥ paramsMax ∨ s.currStr ≥ 4 + 0x10000

def overrun (s : Editor) : Option Editor :=
  (put s.mem s.currStr 0).map fun mem => { s with mem := mem, currStr := s.currStr + 1, outOfSpace := true }

def nextEntry (s : Editor) : Option Editor :=
  if s.currStrIdx + 1 < paramsMax then
    (put s.mem s.currStr 0).map fun mem => { s with
      mem := mem
      currStrIdx := s.currStrIdx + 1
      namePtr := s.currStr
      valuePtr := none }
  else none

/-- The end of a non-empty string. Without a new value a matching entry is dropped, and the next one is
read into its place. -/
def endEntry (paramName : List UInt8) (paramValue : Option (List UInt8)) (s : Editor) : Option Editor :=
  if slice s.mem s.namePtr paramName.length = paramName then
    match paramValue with
    | some value => s.valuePtr.bind fun p => (strcpy s.mem p value).bind fun mem => nextEntry { s with
        mem := mem
        currStr := p + value.length + 1
        paramFound := true }
    | none => (put s.mem s.namePtr 0).map fun mem => { s with
        mem := mem
        currStr := s.namePtr
        paramFound := true }
  else s.nextEntry

def copyLoop (paramName : List UInt8) (paramValue : Option (List UInt8)) : List UInt8 → Editor → Option Editor
  | [], s =>
    if s.full then s.overrun
    -- `fgetc` gives `EOF`, which is stored before `feof` ends the loop
    else (put s.mem s.currStr 0xff).map fun mem => { s with mem := mem, currStr := s.currStr + 1 }
  | c :: f, s =>
    if s.full then s.overrun
    else (put s.mem s.currStr c).bind fun mem =>
      let s := { s with mem := mem, currStr := s.currStr + 1 }
      if c = 61 then copyLoop paramName paramValue f { s with valuePtr := some s.currStr }
      else if c = 0 then
        if s.mem s.namePtr ≠ 0 then (endEntry paramName paramValue s).bind (copyLoop paramName paramValue f)
        else some { s with currStr := s.currStr - 1 }
      else copyLoop paramName paramValue f s

def append (paramName value : List UInt8) (s : Editor) : Option (ℕ → UInt8) :=
  (strcpy s.mem s.currStr paramName).bind fun mem =>
    (put mem (s.currStr + paramName.length) 61).bind fun mem =>
      strcpy mem (s.currStr + paramName.length + 1) value

def complete (paramName : List UInt8) (paramValue : Option (List UInt8)) (s : Editor) : Option (ℕ → UInt8) :=
  match paramValue with
  | some value => if s.paramFound = false ∧ s.outOfSpace = false then s.append paramName value else some s.mem
  | none => some s.mem

end Editor

def editSector (sector paramName : List UInt8) (paramValue : Option (List UInt8)) : Option (ℕ → UInt8) :=
  let start : Editor := { mem := store (fun _ => 0) 0 (sector.take 4) }
  ((start.copyLoop paramName paramValue (sector.drop 4)).bind (Editor.complete paramName paramValue)).map fun mem =>
    store mem 0 (leBytes (tableCrc32 0 (slice mem 4 (cfgEnvSize - 4))))

/-- Which of `fopen`, `malloc` and the second `fopen` succeed. -/
structure SetEnvIo where
  opened : Bool
  malloced : Bool
  reopened : Bool

def setEnvParam (io : SetEnvIo) (sector paramName : List UInt8) (paramValue : Option (List UInt8)) :
    Option (ℤ × Option (ℕ → UInt8)) :=
  if io.opened = false ∨ io.malloced = false then some (1, none)
  else (editSector sector paramName paramValue).map fun out =>
    if io.reopened then (0, some out) else (1, none)

end Wap610n.Env
