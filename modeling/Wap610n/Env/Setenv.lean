import Wap610n.Env.Bounds
import Wap610n.Lib.CString
import Wap610n.Lib.Transition

/-!
The boot loader's `setenv`, `saveenv` and the loading of the environment at power on. The environment lies in a flash
sector and in a copy in memory, each a checksum and `ENV_SIZE` bytes of strings; the commands work on the copy.
-/

namespace Wap610n.Env

open Bytes CString

structure EnvT where
  crc : BitVec 32
  data : ℕ → UInt8

def dataCrc (data : ℕ → UInt8) : BitVec 32 := tableCrc32 0 (slice data 0 envSize)

def EnvT.envCrcUpdate (t : EnvT) : EnvT := { t with crc := dataCrc t.data }

inductive Console
  | stdin
  | stdout
  | stderr
deriving DecidableEq

def consoleOf (name : List UInt8) : Option Console :=
  if name = text "stdin" then some .stdin
  else if name = text "stdout" then some .stdout
  else if name = text "stderr" then some .stderr
  else none

def strtoulDigits (base : ℕ) (result : BitVec 32) : List UInt8 → BitVec 32 × List UInt8
  | [] => (result, [])
  | c :: cp =>
    match hexValue c with
    | some value =>
      if value < base then strtoulDigits base (result * BitVec.ofNat 32 base + BitVec.ofNat 32 value) cp
      else (result, c :: cp)
    | none => (result, c :: cp)

/-- `simple_strtoul` for a base that is not zero, with the rest `endp` points to. -/
def strtoul (cp : List UInt8) (base : ℕ) : BitVec 32 × List UInt8 :=
  match cp with
  | 48 :: 120 :: d :: cp => if (hexValue d).isSome then strtoulDigits 16 0 (d :: cp) else strtoulDigits base 0 (120 :: d :: cp)
  | 48 :: cp => strtoulDigits base 0 cp
  | cp => strtoulDigits base 0 cp

def strtouls (base : ℕ) : ℕ → List UInt8 → List (BitVec 32)
  | 0, _ => []
  | n + 1, s => (strtoul s base).1 :: strtouls base n (strtoul s base).2.tail

def cfgBaudrateTable : List (BitVec 32) := [9600, 19200, 38400, 57600, 115200]

def copyFilename (src : List UInt8) (size : ℕ) : List UInt8 :=
  if src.head? = some 34 then (src.tail.takeWhile (· ≠ 34)).take (size - 2) else (src.takeWhile (· ≠ 34)).take (size - 1)

inductive Effect
  | console (file : Console) (devname : List UInt8)
  | baudrate (rate : BitVec 32)
  | enetaddr (octets : List UInt8)
  | ipAddr (addr : BitVec 32)
  | loadAddr (addr : BitVec 32)
  | bootFile (name : List UInt8)
deriving DecidableEq

def followUp (name s : List UInt8) : List Effect :=
  if name = text "ethaddr" then [.enetaddr ((strtouls 16 6 s).map fun v => UInt8.ofBitVec (v.setWidth 8))]
  else if name = text "ipaddr" then
    [.ipAddr ((strtouls 10 4 s).foldl (fun addr val => addr <<< 8 ||| (val &&& 0xFF#32)) 0)]
  else if name = text "loadaddr" then [.loadAddr (strtoul s 16).1]
  else if name = text "bootfile" then [.bootFile (copyFilename s 128)]
  else []

def strEnd (data : ℕ → UInt8) : ℕ → ℕ → Option ℕ
  | 0, _ => none
  | fuel + 1, nxt => if data nxt = 0 then some nxt else strEnd data fuel (nxt + 1)

def search (data : ℕ → UInt8) (name : List UInt8) : ℕ → ℕ → Option (Option (ℕ × ℕ))
  | 0, _ => none
  | fuel + 1, env =>
    if data env = 0 then some none
    else (strEnd data cfgEnvSize env).bind fun nxt =>
      if (envmatch data name env).isSome then some (some (env, nxt)) else search data name fuel (nxt + 1)

def shiftLoop : (ℕ → UInt8) → ℕ → ℕ → ℕ → Option ((ℕ → UInt8) × ℕ)
  | _, 0, _, _ => none
  | data, fuel + 1, env, nxt =>
    let data := store data env [data nxt]
    if data env = 0 ∧ data (nxt + 1) = 0 then some (data, env) else shiftLoop data fuel (env + 1) (nxt + 1)

def closeGap (data : ℕ → UInt8) (env nxt : ℕ) : Option ((ℕ → UInt8) × ℕ) :=
  if data nxt = 0 then if 0 < env then some (data, env - 1) else some (store data env [0], env)
  else shiftLoop data cfgEnvSize env nxt

def deleteAt (data : ℕ → UInt8) (env nxt : ℕ) : Option (ℕ → UInt8) :=
  (closeGap data env (nxt + 1)).map fun r => store r.1 (r.2 + 1) [0]

def envEnd (data : ℕ → UInt8) : ℕ → ℕ → Option ℕ
  | 0, _ => none
  | fuel + 1, env =>
    if data env ≠ 0 ∨ data (env + 1) ≠ 0 then envEnd data fuel (env + 1) else some (if 0 < env then env + 1 else env)

def copyArgs : (ℕ → UInt8) → ℕ → UInt8 → List (List UInt8) → (ℕ → UInt8) × ℕ
  | data, env, _, [] => (data, env)
  | data, env, sep, val :: vals => copyArgs (store data env (sep :: (val ++ [0]))) (env + val.length + 1) 32 vals

def defineAt (data : ℕ → UInt8) (env : ℕ) (name : List UInt8) (args : List (List UInt8)) : ℕ → UInt8 :=
  let r := copyArgs (store data env (name ++ [0])) (env + name.length) 61 args
  store r.1 (r.2 + 1) [0]

structure Result where
  rcode : ℕ
  effects : List Effect
  env : EnvT

def define (t : EnvT) (effects : List Effect) (name : List UInt8) (args : List (List UInt8)) : Option Result :=
  match args with
  | [] => some ⟨0, effects, t.envCrcUpdate⟩
  | s :: _ =>
    (envEnd t.data cfgEnvSize 0).map fun env =>
      if envSize < env + (name.length + 2 + (args.map fun val => val.length + 1).sum) then ⟨1, effects, t⟩
      else ⟨0, effects ++ followUp name s, { t with data := defineAt t.data env name args }.envCrcUpdate⟩

section

/-!
`assign` tells whether `console_assign` takes a device. Without a value the baud rate is read at the null pointer, where
`atNull` is.
-/

variable (assign : Console → List UInt8 → Bool) (atNull : List UInt8)

/-- What is done before a variable is replaced or deleted, or nothing if the command ends there. -/
def replaceable (name : List UInt8) (args : List (List UInt8)) : Option (List Effect) :=
  match consoleOf name, args with
  | some _, [] => none
  | some file, devname :: _ => if assign file devname then some [.console file devname] else none
  | none, _ =>
    if name = text "baudrate" then
      let baudrate := (strtoul (args.head?.getD atNull) 10).1
      if baudrate ∈ cfgBaudrateTable then some [.baudrate baudrate] else none
    else some []

def doSetenv (t : EnvT) (name : List UInt8) (args : List (List UInt8)) : Option Result :=
  (search t.data name cfgEnvSize 0).bind fun found =>
    match found with
    | none => define t [] name args
    | some (env, nxt) =>
      match replaceable assign atNull name args with
      | none => some ⟨1, [], t⟩
      | some effects => (deleteAt t.data env nxt).bind fun data => define { t with data := data } effects name args

end

def defaultSettings : List (List String) := [
  ["safe_recovery_cmd=", "echo Verifying image integrity. ; cksum $linux_offset ",
    " || echo Recovering bootpImage from tftp server 2.2.2.2 port 2555", " && setenv serverip 2.2.2.2 && setenv ipaddr 2.2.2.1",
    " && setenv tftpdstp 2555 && tftp 0x100000 bootpImage", " && cp.b 0x100000 $linux_offset 0x5fffff && reset"],
  ["restore_defaults_cmd=", "if check_restore_default 3; then erase $config_offset +10000; ", "led 0 2 3; fi;"],
  ["device_id=", "0x0012"],
  ["config_offset=", "0x10700000"],
  ["linux_offset=", "0x10040000"],
  ["bootcmd=", "run restore_defaults_cmd; run safe_recovery_cmd; go $linux_offset"],
  ["bootdelay=", "1"],
  ["baudrate=", "38400"],
  ["ethaddr=", "00:0a:0b:0c:0d:10"],
  ["ipaddr=", "192.168.1.1"],
  ["serverip=", "192.168.1.100"],
  ["netmask=", "255.255.255.0"]]

def defaultTexts : List (List UInt8) := defaultSettings.map fun pieces => pieces.flatMap text

def defaultEnvironment : List UInt8 := zstrings defaultTexts ++ [0, 0]

/-- `env_init` and `env_relocate`: the flash is copied if its checksum is right. -/
def envRelocate (ram flash : EnvT) : EnvT :=
  if dataCrc flash.data = flash.crc then ⟨flash.crc, store ram.data 0 (slice flash.data 0 envSize)⟩
  else
    let cleared := store ram.data 0 (List.replicate envSize 0)
    { ram with data := store cleared 0 defaultEnvironment }.envCrcUpdate

def saveenv (ram flash : EnvT) : EnvT := ⟨ram.crc, store flash.data 0 (slice ram.data 0 envSize)⟩

structure Board where
  ram : EnvT
  flash : EnvT

/-- `saveenv` with `ok` false is one that `flash_sect_protect` turns down. -/
inductive Cmd
  | setenv (name : Value) (args : List Value)
  | saveenv (ok : Bool)
  | reset
deriving DecidableEq

def Board.step (assign : Console → List UInt8 → Bool) (atNull : List UInt8) (b : Board) : Cmd → Option Board
  | .setenv name args =>
    (doSetenv assign atNull b.ram name.chars (args.map Value.chars)).map fun r => { b with ram := r.env }
  | .saveenv ok => some (if ok then { b with flash := saveenv b.ram b.flash } else b)
  | .reset => some { b with ram := envRelocate b.ram b.flash }

end Wap610n.Env
