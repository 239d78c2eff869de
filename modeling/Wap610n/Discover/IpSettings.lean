import Wap610n.Lan.Subnet

namespace Wap610n.Discover

open Bytes CString Inet Lan

inductive XmlElement
  | node (name : List UInt8) (text : Option (List UInt8)) (children : List XmlElement)

namespace XmlElement

def name : XmlElement → List UInt8
  | node name _ _ => name

/-- `none` is the null pointer of an element without text. -/
def text : XmlElement → Option (List UInt8)
  | node _ text _ => text

def children : XmlElement → List XmlElement
  | node _ _ children => children

end XmlElement

structure IpArgs where
  lanIPConfigureMode : List UInt8 := []
  lanIP : Option (List UInt8) := some []
  netmask : Option (List UInt8) := some []
  lanGateway : List UInt8 := []
  isGatewayConfigured : Bool := false
  argFlags : BitVec 32 := 0#32
deriving DecidableEq

/-- One turn of the loop over the children; `none` is an error reply. -/
def argStep (a : IpArgs) (el : XmlElement) : Option IpArgs :=
  if el.name = text "Type" then
    el.text.map fun mode => { a with lanIPConfigureMode := mode, argFlags := a.argFlags ||| 0x01#32 }
  else if el.name = text "IpAddress" then
    if el.text = none ∧ a.lanIPConfigureMode = text "Static" then none
    else some { a with lanIP := el.text, argFlags := a.argFlags ||| 0x02#32 }
  else if el.name = text "NetMask" then
    if el.text = none ∧ a.lanIPConfigureMode = text "Static" then none
    else some { a with netmask := el.text, argFlags := a.argFlags ||| 0x04#32 }
  else if el.name = text "Gateway" then
    match el.text with
    | none => some { a with argFlags := a.argFlags ||| 0x08#32 }
    | some gateway =>
      some { a with isGatewayConfigured := true, lanGateway := gateway, argFlags := a.argFlags ||| 0x08#32 }
  else none

def argLoop : List XmlElement → IpArgs → Option IpArgs
  | [], a => if a.argFlags ^^^ 0x0f#32 = 0#32 then some a else none
  | el :: els, a => if a.argFlags ^^^ 0x0f#32 = 0#32 then some a else (argStep a el).bind fun a => argLoop els a

/-- Whether the settings pass; `none` is a null pointer handed to a validator. -/
def staticValid (a : IpArgs) : Option Bool :=
  a.lanIP.bind fun lanIP =>
    if hnapValidateIpaddr lanIP = false then some false
    else a.netmask.map fun netmask =>
      hnapValidateIpaddr netmask && (!a.isGatewayConfigured || hnapValidateIpaddr a.lanGateway) &&
        hnapValidHostIpWithSubnet lanIP netmask &&
          (!a.isGatewayConfigured || hnapValidateGatewayWithIp lanIP a.lanGateway netmask)

structure LanConfig where
  ipConfigMethod : List UInt8
  ipLan : List UInt8
  subnetLan : List UInt8
  defaultGw : List UInt8
deriving DecidableEq

inductive Command
  | killallUdhcpc
  | postApply
  | ifconfig (lanIP netmask : List UInt8)
  | routeDel
  | routeAdd (lanGateway : List UInt8)
  | dhcpStartup
deriving DecidableEq

def Command.line : Command → List UInt8
  | killallUdhcpc => text "killall udhcpc"
  | postApply => text "/root/mtlk/web/post_apply.tcl"
  | ifconfig lanIP netmask => text "ifconfig br0 " ++ lanIP ++ text " netmask " ++ netmask
  | routeDel => text "route del default"
  | routeAdd lanGateway => text "route add default gw " ++ lanGateway
  | dhcpStartup => text "/etc/udhcpc/dhcp.tcl startup &"

def Command.addresses : Command → List (List UInt8)
  | ifconfig lanIP netmask => [lanIP, netmask]
  | routeAdd lanGateway => [lanGateway]
  | _ => []

inductive IpReply
  | error
  | ok
deriving DecidableEq

structure IpOutcome where
  reply : IpReply
  config : LanConfig
  commands : List Command := []
deriving DecidableEq

def applyArgs (config : LanConfig) (a : IpArgs) : Option IpOutcome :=
  if a.lanIPConfigureMode ≠ text "DHCP" ∧ a.lanIPConfigureMode ≠ text "Static" then some { reply := .error, config }
  else if a.lanIPConfigureMode = text "Static" then
    (staticValid a).bind fun valid =>
      if valid = false then some { reply := .error, config }
      else a.lanIP.bind fun lanIP => a.netmask.map fun netmask =>
        { reply := .ok
          config := { ipConfigMethod := text "1", ipLan := lanIP, subnetLan := netmask, defaultGw := a.lanGateway }
          commands := [.killallUdhcpc, .postApply, .ifconfig lanIP netmask, .routeDel, .routeAdd a.lanGateway] }
  else some
    { reply := .ok
      config := { config with ipConfigMethod := text "0" }
      commands := [.killallUdhcpc, .postApply, .dhcpStartup] }

def settingsOf (request : Option XmlElement) : Option (List XmlElement) :=
  request.bind fun envelope => envelope.children.head?.bind fun body => body.children.head?.map fun el => el.children

def ipArgs (request : Option XmlElement) : Option IpArgs := (settingsOf request).bind fun els => argLoop els {}

/-- `none` is a null pointer that is handed to a validator or stored. -/
def ddSetIpSettings (config : LanConfig) (request : Option XmlElement) : Option IpOutcome :=
  match ipArgs request with
  | none => some { reply := .error, config }
  | some a => applyArgs config a

inductive ArgName
  | type
  | ipAddress
  | netMask
  | gateway
deriving DecidableEq

def ArgName.name : ArgName → List UInt8
  | type => text "Type"
  | ipAddress => text "IpAddress"
  | netMask => text "NetMask"
  | gateway => text "Gateway"

def ArgName.flag : ArgName → BitVec 32
  | type => 0x01#32
  | ipAddress => 0x02#32
  | netMask => 0x04#32
  | gateway => 0x08#32

def refuses (mode : List UInt8) (value : Option (List UInt8)) : ArgName → Bool
  | .type => value = none
  | .ipAddress => value = none ∧ mode = text "Static"
  | .netMask => value = none ∧ mode = text "Static"
  | .gateway => false

def storeArg (a : IpArgs) (value : Option (List UInt8)) (arg : ArgName) : IpArgs :=
  let a := { a with argFlags := a.argFlags ||| arg.flag }
  match arg with
  | .type => { a with lanIPConfigureMode := value.getD [] }
  | .ipAddress => { a with lanIP := value }
  | .netMask => { a with netmask := value }
  | .gateway =>
    { a with isGatewayConfigured := a.isGatewayConfigured || value.isSome, lanGateway := value.getD a.lanGateway }

theorem argStep_eq {el : XmlElement} {arg : ArgName} (hname : el.name = arg.name) (a : IpArgs) :
    argStep a el = if refuses a.lanIPConfigureMode el.text arg then none else some (storeArg a el.text arg) := by
  have hnames : text "IpAddress" ≠ text "Type" ∧ text "NetMask" ≠ text "Type" ∧ text "NetMask" ≠ text "IpAddress" ∧
      text "Gateway" ≠ text "Type" ∧ text "Gateway" ≠ text "IpAddress" ∧ text "Gateway" ≠ text "NetMask" := by
    decide
  obtain ⟨hit, hnt, hni, hgt, hgi, hgn⟩ := hnames
  rw [argStep, hname]
  cases arg with
  | type =>
    rw [ArgName.name, if_pos rfl]
    cases el.text <;> rfl
  | ipAddress =>
    rw [ArgName.name, if_neg hit, if_pos rfl, refuses]
    simp only [decide_eq_true_eq]
    rfl
  | netMask =>
    rw [ArgName.name, if_neg hnt, if_neg hni, if_pos rfl, refuses]
    simp only [decide_eq_true_eq]
    rfl
  | gateway =>
    rw [ArgName.name, if_neg hgt, if_neg hgi, if_neg hgn, if_pos rfl, refuses, if_neg Bool.false_ne_true]
    cases el.text with
    | none => simp only [storeArg, Option.isSome_none, Bool.or_false, Option.getD_none, ArgName.flag]
    | some gateway => simp only [storeArg, Option.isSome_some, Bool.or_true, Option.getD_some, ArgName.flag]

theorem argStep_inversion {a a' : IpArgs} {el : XmlElement} (h : argStep a el = some a') :
    ∃ arg : ArgName, el.name = arg.name ∧ a' = storeArg a el.text arg := by
  have hname : ∃ arg : ArgName, el.name = arg.name := by
    by_contra hnone
    have hne (arg : ArgName) : el.name ≠ arg.name := fun heq => hnone ⟨arg, heq⟩
    rw [argStep, if_neg (show el.name ≠ text "Type" from hne .type),
      if_neg (show el.name ≠ text "IpAddress" from hne .ipAddress),
      if_neg (show el.name ≠ text "NetMask" from hne .netMask),
      if_neg (show el.name ≠ text "Gateway" from hne .gateway)] at h
    exact absurd h (Option.some_ne_none a').symm
  obtain ⟨arg, harg⟩ := hname
  rw [argStep_eq harg] at h
  split_ifs at h
  exact ⟨arg, harg, (Option.some.inj h).symm⟩

theorem argLoop_invariant {P : IpArgs → Prop} (hstore : ∀ a value arg, P a → P (storeArg a value arg))
    {els : List XmlElement} {a a' : IpArgs} (ha : P a) (h : argLoop els a = some a') : P a' := by
  induction els generalizing a with
  | nil =>
    rw [argLoop] at h
    split_ifs at h
    exact Option.some.inj h ▸ ha
  | cons el els ih =>
    rw [argLoop] at h
    split_ifs at h
    · exact Option.some.inj h ▸ ha
    · obtain ⟨b, hb, hrest⟩ := Option.bind_eq_some_iff.mp h
      obtain ⟨arg, -, rfl⟩ := argStep_inversion hb
      exact ih (hstore a el.text arg ha) hrest

theorem gateway_unset {request : Option XmlElement} {a : IpArgs} (h : ipArgs request = some a)
    (hgate : a.isGatewayConfigured = false) : a.lanGateway = [] := by
  obtain ⟨els, -, hloop⟩ := Option.bind_eq_some_iff.mp h
  refine argLoop_invariant (P := fun a => a.isGatewayConfigured = false → a.lanGateway = []) ?_ (fun _ => rfl) hloop hgate
  intro a value arg ha
  cases arg with
  | type => exact ha
  | ipAddress => exact ha
  | netMask => exact ha
  | gateway =>
    cases value with
    | none =>
      intro h
      rw [storeArg, Option.isSome_none, Bool.or_false] at h
      exact ha h
    | some gateway =>
      intro h
      rw [storeArg, Option.isSome_some, Bool.or_true] at h
      exact absurd (show true = false from h) (by decide)

theorem isSome_inetAton_of_valid {s : List UInt8} (h : hnapValidateIpaddr s = true) : ∃ addr, inetAton s = some addr :=
  Option.isSome_iff_exists.mp (of_decide_eq_true h).2

theorem applyArgs_static {config : LanConfig} {a : IpArgs} (h : a.lanIPConfigureMode = text "Static") :
    applyArgs config a = (staticValid a).bind fun valid =>
      if valid = false then some { reply := .error, config }
      else a.lanIP.bind fun lanIP => a.netmask.map fun netmask =>
        { reply := .ok
          config := { ipConfigMethod := text "1", ipLan := lanIP, subnetLan := netmask, defaultGw := a.lanGateway }
          commands := [.killallUdhcpc, .postApply, .ifconfig lanIP netmask, .routeDel, .routeAdd a.lanGateway] } := by
  rw [applyArgs, h, if_neg (by decide), if_pos rfl]

theorem static_accepted {config : LanConfig} {a : IpArgs} {out : IpOutcome}
    (hstatic : a.lanIPConfigureMode = text "Static") (hout : applyArgs config a = some out) (hok : out.reply = .ok) :
    ∃ lanIP netmask, a.lanIP = some lanIP ∧ a.netmask = some netmask ∧ hnapValidateIpaddr lanIP = true ∧
      hnapValidateIpaddr netmask = true ∧ (a.isGatewayConfigured = true → hnapValidateIpaddr a.lanGateway = true) ∧
      out.commands = [.killallUdhcpc, .postApply, .ifconfig lanIP netmask, .routeDel, .routeAdd a.lanGateway] := by
  rw [applyArgs_static hstatic] at hout
  obtain ⟨valid, hvalid, hout⟩ := Option.bind_eq_some_iff.mp hout
  split_ifs at hout with hfalse
  · obtain rfl := Option.some.inj hout
    exact absurd (show IpReply.error = IpReply.ok from hok) (by decide)
  · obtain ⟨lanIP, hip, hout⟩ := Option.bind_eq_some_iff.mp hout
    obtain ⟨netmask, hmask, rfl⟩ := Option.map_eq_some_iff.mp hout
    rw [staticValid, hip, hmask, Option.bind_some, Option.map_some] at hvalid
    split_ifs at hvalid with hfirst
    · exact absurd (Option.some.inj hvalid).symm hfalse
    · obtain rfl := Option.some.inj hvalid
      simp only [Bool.not_eq_false, Bool.and_eq_true, Bool.or_eq_true, Bool.not_eq_true'] at hfalse hfirst
      obtain ⟨⟨⟨hmaskOk, hgate⟩, -⟩, -⟩ := hfalse
      refine ⟨lanIP, netmask, hip, hmask, hfirst, hmaskOk, fun hset => hgate.resolve_left ?_, rfl⟩
      rw [hset]
      decide

def ArgsPlain (a : IpArgs) : Prop :=
  ∀ s ∈ a.lanIP.toList ++ a.netmask.toList ++ [a.lanGateway], ∀ c ∈ s, isSpace c = false

theorem ddSetIpSettings_addresses_iff {config : LanConfig} {request : Option XmlElement} {a : IpArgs} {out : IpOutcome}
    (hargs : ipArgs request = some a) (hstatic : a.lanIPConfigureMode = text "Static")
    (hout : ddSetIpSettings config request = some out) (hok : out.reply = .ok) :
    (∀ command ∈ out.commands, ∀ s ∈ command.addresses, ∀ c ∈ s, isAddressChar c = true) ↔ ArgsPlain a := by
  rw [ddSetIpSettings, hargs] at hout
  obtain ⟨lanIP, netmask, hip, hmask, hipOk, hmaskOk, hgateOk, hcommands⟩ := static_accepted hstatic hout hok
  obtain ⟨ipAddr, hipAddr⟩ := isSome_inetAton_of_valid hipOk
  obtain ⟨maskAddr, hmaskAddr⟩ := isSome_inetAton_of_valid hmaskOk
  have hgate : (∀ c ∈ a.lanGateway, isAddressChar c = true) ↔ ∀ c ∈ a.lanGateway, isSpace c = false := by
    cases hset : a.isGatewayConfigured with
    | false =>
      rw [gateway_unset hargs hset]
      exact iff_of_true (fun _ hc => absurd hc List.not_mem_nil) fun _ hc => absurd hc List.not_mem_nil
    | true =>
      obtain ⟨gateAddr, hgateAddr⟩ := isSome_inetAton_of_valid (hgateOk hset)
      exact inetAton_plain_iff hgateAddr
  rw [hcommands, ArgsPlain, hip, hmask]
  simp only [List.forall_mem_cons, Command.addresses, List.not_mem_nil, false_imp_iff, implies_true, true_and, and_true,
    Option.toList_some, List.cons_append, List.nil_append, inetAton_plain_iff hipAddr, inetAton_plain_iff hmaskAddr, hgate,
    and_assoc]

def requestOf (els : List XmlElement) : Option XmlElement :=
  some (.node (text "soap:Envelope") none [.node (text "soap:Body") none [.node (text "SetIpSettings") none els]])

def ipRequest (lanIP : List UInt8) : Option XmlElement :=
  requestOf [.node (text "Type") (some (text "Static")) [], .node (text "IpAddress") (some lanIP) [],
    .node (text "NetMask") (some (text "255.255.255.0")) [], .node (text "Gateway") none []]

def ipRequestArgs (lanIP : List UInt8) : IpArgs :=
  { lanIPConfigureMode := text "Static", lanIP := some lanIP, netmask := some (text "255.255.255.0"),
    argFlags := 0x0f#32 }

def ipRequestOutcome (lanIP : List UInt8) : IpOutcome :=
  { reply := .ok
    config := { ipConfigMethod := text "1", ipLan := lanIP, subnetLan := text "255.255.255.0", defaultGw := [] }
    commands := [.killallUdhcpc, .postApply, .ifconfig lanIP (text "255.255.255.0"), .routeDel, .routeAdd []] }

theorem plain_address_accepted :
    (∀ command ∈ (ipRequestOutcome (text "192.168.1.5")).commands, ∀ s ∈ command.addresses,
      ∀ c ∈ s, isAddressChar c = true) ↔ ArgsPlain (ipRequestArgs (text "192.168.1.5")) :=
  @ddSetIpSettings_addresses_iff ⟨text "0", [], [], []⟩ (ipRequest (text "192.168.1.5")) _ _ (by decide) (by decide)
    (by decide) rfl

theorem reboot_in_address :
    ddSetIpSettings ⟨text "0", [], [], []⟩ (ipRequest (text "192.168.1.5 ;reboot")) =
        some (ipRequestOutcome (text "192.168.1.5 ;reboot")) ∧
      text "ifconfig br0 192.168.1.5 ;reboot netmask 255.255.255.0" ∈
        (ipRequestOutcome (text "192.168.1.5 ;reboot")).commands.map Command.line := by
  decide

end Wap610n.Discover
