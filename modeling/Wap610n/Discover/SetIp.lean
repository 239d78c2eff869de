import Wap610n.Discover.Packet

namespace Wap610n.Discover

open Bytes CString

def headerLines : List UInt8 → List UInt8 → List (List UInt8)
  | line, c :: d :: rest =>
    if c = 13 then
      if d = 10 then line :: if text "\r\n" <+: rest then [] else headerLines [] rest
      else headerLines [] (d :: rest)
    else headerLines (line ++ [c]) (d :: rest)
  | _, _ => []

def parseLines (sysPassword : List UInt8) (lines : List (List UInt8)) (ddi : DeviceDiscover) : Option DeviceDiscover :=
  lines.foldlM (fun ddi line => ddParseHeader sysPassword line ddi) ddi

def linesLength (lines : List (List UInt8)) : ℕ := (lines.map fun line => line.length + 2).sum

theorem linesLength_cons (line : List UInt8) (lines : List (List UInt8)) :
    linesLength (line :: lines) = line.length + 2 + linesLength lines := by
  rw [linesLength, List.map_cons, List.sum_cons, linesLength]

theorem headerLoop_eq {sysPassword line rest : List UInt8} {ddi : DeviceDiscover} {n : ℕ} :
    headerLoop sysPassword line ddi n rest = (parseLines sysPassword (headerLines line rest) ddi).map fun ddi =>
      (ddi, n + linesLength (headerLines line rest)) := by
  induction line, rest using headerLines.induct generalizing ddi n with
  | case1 line rest ih =>
    rw [headerLoop, if_pos rfl, if_pos rfl, headerLines, if_pos rfl, if_pos rfl, parseLines, List.foldlM_cons,
      linesLength_cons]
    cases ddParseHeader sysPassword line ddi with
    | none => rfl
    | some ddi =>
      by_cases hend : text "\r\n" <+: rest
      · simp [hend, linesLength, Nat.add_assoc]
      · have hrest := @ih ddi (n + line.length + 2)
        simpa [hend, parseLines, Nat.add_assoc] using hrest
  | case2 line d rest hd ih =>
    rw [headerLoop, if_pos rfl, if_neg hd, headerLines, if_pos rfl, if_neg hd]
    exact ih
  | case3 line c d rest hc ih =>
    rw [headerLoop, if_neg hc, headerLines, if_neg hc]
    exact ih
  | case4 rest line h =>
    rw [headerLoop.eq_2 _ _ _ _ _ h, headerLines.eq_2 _ _ h]
    rfl

def headerValue (f : Field) (line : List UInt8) : Option (List UInt8) :=
  if 58 ∈ line ∧ (ddExtractHeaderValue line).1 = f.name then some (ddExtractHeaderValue line).2 else none

def lastValue (value : List UInt8 → Option (List UInt8)) (lines : List (List UInt8)) : Option (List UInt8) :=
  (lines.filterMap value).getLast?

theorem lastValue_append (value : List UInt8 → Option (List UInt8)) (lines : List (List UInt8)) (line : List UInt8) :
    lastValue value (lines ++ [line]) = (value line).or (lastValue value lines) := by
  rw [lastValue, List.filterMap_append, List.getLast?_append, lastValue]
  cases h : value line with
  | none => simp [h]
  | some v => simp [h]

def dphyValue (line : List UInt8) : Option (List UInt8) := (headerValue .dphy line).filter fun v => v.length < 18

def actionOf (search capability config : Bool) : BitVec 8 :=
  (if search then 0x01#8 else 0) ||| (if capability then 0x02#8 else 0) ||| (if config then 0x04#8 else 0)

theorem actionOf_or : ∀ s c p s' c' p' : Bool,
    actionOf (s || s') (c || c') (p || p') = actionOf s c p ||| actionOf s' c' p' := by
  decide

theorem actionOf_config : ∀ s c p : Bool, actionOf s c p = 0x04#8 → s = false ∧ c = false ∧ p = true := by
  decide

theorem fieldOf_eq_some {header : List UInt8} {f : Field} : fieldOf header = some f ↔ header = f.name := by
  constructor
  · intro h
    simpa using List.find?_some h
  · rintro rfl
    cases f <;> decide

structure Tracks (sysPassword : List UInt8) (lines : List (List UInt8)) (ddi : DeviceDiscover) : Prop where
  action : ddi.action = actionOf (searchLine ∈ lines) (capabilityLine ∈ lines) (configLine ∈ lines)
  dphy : ddi.dphy = (lastValue dphyValue lines).getD []
  authorizated : ddi.authorizated = true → ∃ value, lastValue (headerValue .authorization) lines = some value ∧
    ddVerifyAuthorization sysPassword value = some true

variable {sysPassword : List UInt8} {lines : List (List UInt8)} {line value : List UInt8} {ddi ddi' : DeviceDiscover}

theorem headerValue_eq_none (f : Field) (h : 58 ∉ line) : headerValue f line = none := if_neg fun hm => h hm.1

theorem dphyValue_eq_none (h : headerValue .dphy line = none) : dphyValue line = none := by
  rw [dphyValue, h, Option.filter_none]

theorem setField_other {f : Field} (hd : f ≠ .dphy) (ha : f ≠ .authorization)
    (h : setField sysPassword value ddi f = some ddi') :
    ddi'.action = ddi.action ∧ ddi'.dphy = ddi.dphy ∧ ddi'.authorizated = ddi.authorizated := by
  cases f with
  | dphy => exact absurd rfl hd
  | authorization => exact absurd rfl ha
  | contentType | contentLength | soapAction =>
    cases h
    exact ⟨rfl, rfl, rfl⟩
  | host | st | forward | sphy | cseq =>
    simp only [setField] at h
    split_ifs at h
    all_goals
      cases h
      exact ⟨rfl, rfl, rfl⟩

def requestBits (line : List UInt8) : BitVec 8 :=
  actionOf (line = searchLine) (line = capabilityLine) (line = configLine)

structure Effect (sysPassword line : List UInt8) (ddi ddi' : DeviceDiscover) : Prop where
  action : ddi'.action = ddi.action ||| requestBits line
  dphy : ddi'.dphy = (dphyValue line).getD ddi.dphy
  authorizated : ddi'.authorizated = true → headerValue .authorization line = none ∧ ddi.authorizated = true ∨
    ∃ value, headerValue .authorization line = some value ∧ ddVerifyAuthorization sysPassword value = some true

theorem effect_of_kept (ha : ddi'.action = ddi.action ||| requestBits line) (hd : headerValue .dphy line = none)
    (hv : headerValue .authorization line = none) (hdphy : ddi'.dphy = ddi.dphy)
    (hauth : ddi'.authorizated = ddi.authorizated) : Effect sysPassword line ddi ddi' where
  action := ha
  dphy := by rw [dphyValue_eq_none hd, Option.getD_none, hdphy]
  authorizated h := Or.inl ⟨hv, hauth ▸ h⟩

theorem effect_of_request {bits : BitVec 8} (hc : 58 ∉ line) (hbits : requestBits line = bits) :
    Effect sysPassword line ddi { ddi with action := ddi.action ||| bits } :=
  effect_of_kept (by rw [hbits]) (headerValue_eq_none _ hc) (headerValue_eq_none _ hc) rfl rfl

theorem setField_effect {f : Field} (hbits : requestBits line = 0#8) (hc : 58 ∈ line)
    (hf : (ddExtractHeaderValue line).1 = f.name)
    (h : setField sysPassword (ddExtractHeaderValue line).2 ddi f = some ddi') : Effect sysPassword line ddi ddi' := by
  have hvalue : headerValue f line = some (ddExtractHeaderValue line).2 := if_pos ⟨hc, hf⟩
  have hnone {g : Field} (hg : f ≠ g) : headerValue g line = none :=
    if_neg fun hm => hg (Option.some.inj ((fieldOf_eq_some.mpr hf).symm.trans (fieldOf_eq_some.mpr hm.2)))
  have hsame : ddi.action = ddi.action ||| requestBits line := by rw [hbits, BitVec.or_zero]
  generalize (ddExtractHeaderValue line).2 = value at h hvalue
  by_cases hdphy : f = .dphy
  · subst hdphy
    have hfilter : dphyValue line = if value.length < 18 then some value else none := by
      rw [dphyValue, hvalue, Option.filter_some]
      simp
    by_cases hlen : value.length < 18
    · rw [if_pos hlen] at hfilter
      rw [setField, if_pos hlen] at h
      cases h
      exact ⟨hsame, by rw [hfilter, Option.getD_some], fun hauth => Or.inl ⟨hnone (by decide), hauth⟩⟩
    · rw [if_neg hlen] at hfilter
      rw [setField, if_neg hlen] at h
      cases h
      exact ⟨hsame, by rw [hfilter, Option.getD_none], fun hauth => Or.inl ⟨hnone (by decide), hauth⟩⟩
  by_cases hauth : f = .authorization
  · subst hauth
    have hdphy : dphyValue line = none := dphyValue_eq_none (hnone (by decide))
    by_cases hempty : value = []
    · rw [setField, if_pos hempty] at h
      cases h
      exact ⟨hsame, by rw [hdphy, Option.getD_none], nofun⟩
    · rw [setField, if_neg hempty, Option.map_eq_some_iff] at h
      obtain ⟨ok, hok, rfl⟩ := h
      exact ⟨hsame, by rw [hdphy, Option.getD_none], fun htrue => Or.inr ⟨value, hvalue, htrue ▸ hok⟩⟩
  · obtain ⟨h1, h2, h3⟩ := setField_other hdphy hauth h
    exact effect_of_kept (h1.trans hsame) (hnone hdphy) (hnone hauth) h2 h3

theorem ddParseHeader_effect (h : ddParseHeader sysPassword line ddi = some ddi') :
    Effect sysPassword line ddi ddi' := by
  unfold ddParseHeader at h
  by_cases hsearch : line = searchLine
  · rw [if_pos hsearch] at h
    cases h
    exact effect_of_request (hsearch ▸ by decide) (hsearch ▸ rfl)
  rw [if_neg hsearch] at h
  by_cases hcap : line = capabilityLine
  · rw [if_pos hcap] at h
    cases h
    exact effect_of_request (hcap ▸ by decide) (hcap ▸ rfl)
  rw [if_neg hcap] at h
  by_cases hconfig : line = configLine
  · rw [if_pos hconfig] at h
    cases h
    exact effect_of_request (hconfig ▸ by decide) (hconfig ▸ rfl)
  rw [if_neg hconfig] at h
  have hbits : requestBits line = 0#8 := by simp [requestBits, actionOf, hsearch, hcap, hconfig]
  have hkept (hd : headerValue .dphy line = none) (hv : headerValue .authorization line = none) :
      Effect sysPassword line ddi ddi :=
    effect_of_kept (by rw [hbits, BitVec.or_zero]) hd hv rfl rfl
  by_cases hc : 58 ∈ line
  swap
  · rw [if_neg hc] at h
    cases h
    exact hkept (headerValue_eq_none _ hc) (headerValue_eq_none _ hc)
  rw [if_pos hc] at h
  cases hf : fieldOf (ddExtractHeaderValue line).1 with
  | some f =>
    rw [hf] at h
    exact setField_effect hbits hc (fieldOf_eq_some.mp hf) h
  | none =>
    rw [hf] at h
    cases h
    have hnone (f : Field) : headerValue f line = none :=
      if_neg fun hm => absurd (hf.symm.trans (fieldOf_eq_some.mpr hm.2)) (by simp)
    exact hkept (hnone _) (hnone _)

theorem Tracks.step (t : Tracks sysPassword lines ddi) (e : Effect sysPassword line ddi ddi') :
    Tracks sysPassword (lines ++ [line]) ddi' where
  action := by
    have hmem (x : List UInt8) : decide (x ∈ lines ++ [line]) = (decide (x ∈ lines) || decide (line = x)) := by
      simp [eq_comm]
    rw [e.action, t.action, requestBits, ← actionOf_or, hmem, hmem, hmem]
  dphy := by
    rw [e.dphy, t.dphy, lastValue_append]
    cases dphyValue line <;> rfl
  authorizated h := by
    rw [lastValue_append]
    rcases e.authorizated h with ⟨hnone, hkept⟩ | ⟨value, hvalue, hok⟩
    · rw [hnone, Option.none_or]
      exact t.authorizated hkept
    · exact ⟨value, by rw [hvalue, Option.some_or], hok⟩

theorem parseLines_tracks {start : DeviceDiscover} (hs : Tracks sysPassword [] start)
    (h : parseLines sysPassword lines start = some ddi) : Tracks sysPassword lines ddi := by
  induction lines using List.reverseRecOn generalizing ddi with
  | nil =>
    cases h
    exact hs
  | append_singleton lines line ih =>
    rw [parseLines, List.foldlM_append] at h
    obtain ⟨ddi₁, h₁, h₂⟩ := Option.bind_eq_some_iff.mp h
    rw [List.foldlM_cons] at h₂
    obtain ⟨ddi₂, h₂, h₃⟩ := Option.bind_eq_some_iff.mp h₂
    cases h₃
    exact (ih h₁).step (ddParseHeader_effect h₂)

theorem ddProcessNoneLocationDiscovery_setIp {dev : Device} {body : List UInt8} {request : List (List UInt8)}
    (h : ddProcessNoneLocationDiscovery dev ddi body = .setIpSettings request) :
    ddi.action = 0x04#8 ∧ ddi.authorizated = true := by
  unfold ddProcessNoneLocationDiscovery at h
  cases hfed : feedBody dev ddi.contentLength.toNat body with
  | none =>
    rw [hfed] at h
    split_ifs at h
  | some fed =>
    rw [hfed] at h
    dsimp only at h
    split_ifs at h with _ _ _ haction hauth
    exact ⟨haction, hauth⟩

theorem ddDispatch_setIp {dev : Device} {body : List UInt8} {request : List (List UInt8)}
    (h : ddDispatch dev ddi body = .setIpSettings request) :
    ddi.action = 0x04#8 ∧ ddi.authorizated = true ∧ sameIgnoringCase ddi.dphy dev.devMac = true ∧
      sameIgnoringCase ddi.dphy broadcastMac = false := by
  unfold ddDispatch at h
  split_ifs at h with h₁ h₂ h₃ h₄ h₅ h₆
  · exact absurd (h₆.symm.trans (ddProcessNoneLocationDiscovery_setIp h).1) (by decide)
  · obtain ⟨haction, hauth⟩ := ddProcessNoneLocationDiscovery_setIp h
    have hbroadcast : sameIgnoringCase ddi.dphy broadcastMac = false := by
      simpa [haction] using h₄
    exact ⟨haction, hauth, by simpa [hbroadcast] using h₃, hbroadcast⟩

theorem macText_ne_nil (mac : Vector UInt8 6) : macText mac ≠ [] := by
  obtain ⟨b, bs, hb⟩ : ∃ b bs, mac.toList = b :: bs := List.exists_cons_of_ne_nil (by simp)
  rw [macText, hb]
  cases bs <;> simp

def datagramLines (data : List UInt8) : List (List UInt8) := headerLines [] (upTo 0 data)

def lastDphy (data : List UInt8) : Option (List UInt8) := lastValue dphyValue (datagramLines data)

def lastAuthorization (data : List UInt8) : Option (List UInt8) :=
  lastValue (headerValue .authorization) (datagramLines data)

theorem ddProcessPacket_setIp {dev : Device} {data : List UInt8} {request : List (List UInt8)}
    (h : ddProcessPacket dev data = some (.setIpSettings request)) :
    (configLine ∈ datagramLines data ∧ searchLine ∉ datagramLines data ∧ capabilityLine ∉ datagramLines data) ∧
      (sameIgnoringCase ((lastDphy data).getD []) dev.devMac = true ∧
        sameIgnoringCase ((lastDphy data).getD []) broadcastMac = false ∧ (dev.mac ≠ none → lastDphy data ≠ none)) ∧
      ∃ value, lastAuthorization data = some value ∧ ddVerifyAuthorization dev.sysPassword value = some true := by
  obtain ⟨⟨ddi, n⟩, hloop, hrest⟩ := Option.bind_eq_some_iff.mp h
  have hlines : parseLines dev.sysPassword (datagramLines data) { devphy := dev.devMac } = some ddi := by
    rw [headerLoop_eq] at hloop
    obtain ⟨ddi', hparse, heq⟩ := Option.map_eq_some_iff.mp hloop
    cases heq
    exact hparse
  have t : Tracks dev.sysPassword (datagramLines data) ddi :=
    parseLines_tracks ⟨rfl, rfl, fun h => absurd h Bool.false_ne_true⟩ hlines
  dsimp only at hrest
  split_ifs at hrest with hlen
  obtain ⟨haction, hauth, hmac, hbroadcast⟩ := ddDispatch_setIp (Option.some.inj hrest)
  obtain ⟨hsearch, hcap, hconfig⟩ := actionOf_config _ _ _ (t.action.symm.trans haction)
  rw [t.dphy] at hmac hbroadcast
  refine ⟨⟨of_decide_eq_true hconfig, of_decide_eq_false hsearch, of_decide_eq_false hcap⟩,
    ⟨hmac, hbroadcast, fun hread hnone => ?_⟩, t.authorizated hauth⟩
  obtain ⟨mac, hread⟩ := Option.ne_none_iff_exists'.mp hread
  have hempty : (macText mac).map toLower = [] := by
    have hsame := of_decide_eq_true hmac
    rw [show lastValue dphyValue (datagramLines data) = none from hnone, Device.devMac, hread] at hsame
    exact hsame.symm
  exact macText_ne_nil mac (List.map_eq_nil_iff.mp hempty)

def exampleDevice : Device where
  mac := some #v[0x00, 0x11, 0x22, 0x33, 0x44, 0xaa]
  sysPassword := text "secret"
  expat := ⟨true, true, fun _ => true⟩
  heap _ := 0

def configDatagram : List UInt8 :=
  text ("POST /HNAP1/ HTTP/1.1\r\nDPhy: 00:11:22:33:44:aa\r\n" ++
    "Authorization: Basic YWRtaW46c2VjcmV0\r\n\r\n")

theorem ddProcessPacket_setIp_configDatagram :
    ddProcessPacket exampleDevice configDatagram = some (.setIpSettings []) ∧ lastDphy configDatagram ≠ none := by
  have hset : ddProcessPacket exampleDevice configDatagram = some (.setIpSettings []) := by decide +kernel
  exact ⟨hset, (ddProcessPacket_setIp hset).2.1.2.2 (by decide +kernel)⟩

end Wap610n.Discover
