import Wap610n.Bridge.Dropped

namespace Wap610n.Bridge

open Bytes

inductive Event
  | receive (indev : List UInt8) (f : Frame) (clone : ℕ → Bool) (alloc : Bool)
  | change (b : NetBridge)

def Event.OnEth0 : Event → Prop
  | .receive indev _ _ _ => indev = eth0
  | .change _ => False

namespace NetBridge

def step (b : NetBridge) : Event → NetBridge × List Action
  | .receive indev f clone alloc => b.brHandleFrame indev f clone alloc
  | .change b' => (b', [])

def Blocked (b : NetBridge) : Prop := b.state eth0 = some .blocking

def QuietUntilLeft : NetBridge → List Event → Prop
  | _, [] => True
  | b, e :: es => (e.OnEth0 → Dropped (b.step e).2) ∧
      (b.Blocked ∧ ¬(b.step e).1.Blocked ∨ (b.step e).1.QuietUntilLeft es)

def LocalSource (b : NetBridge) (addr : EthAddr) : Prop :=
  isValidEtherAddr addr = true ∧ ∃ fdb, b.fdbFind addr = some fdb ∧ fdb.isLocal = true

section Blocking

variable {b : NetBridge} {f : Frame} {clone : ℕ → Bool} {alloc : Bool}

theorem state_setState_self {dev : List UInt8} (h : (b.state dev).isSome = true) (state : PortState) :
    (b.setState dev state).state dev = some state := by
  rw [NetBridge.state, Option.isSome_map, port, List.find?_isSome] at h
  obtain ⟨p, hp, hdev⟩ := h
  have hmem : { p with state := state } ∈ (b.setState dev state).ports :=
    List.mem_map.mpr ⟨p, hp, if_pos (of_decide_eq_true hdev)⟩
  have hstate := state_of_mem hmem
  rwa [of_decide_eq_true hdev] at hstate

theorem dropped_of_blocked (h : b.Blocked) (f : Frame) (clone : ℕ → Bool) (alloc : Bool) :
    Dropped (b.brHandleFrame eth0 f clone alloc).2 := by
  unfold brHandleFrame
  rw [h]
  dsimp only
  split
  · exact dropped_free 0
  split
  · intro a ha
    rw [List.mem_singleton.mp ha]
    split
    · rfl
    · rfl
  · rw [if_neg (by decide)]
    exact dropped_free 0

theorem quiet_of_blocked (h : b.Blocked) (es : List Event) : b.QuietUntilLeft es := by
  induction es generalizing b with
  | nil => trivial
  | cons e es ih =>
    refine ⟨?_, ?_⟩
    · intro he
      cases e with
      | receive indev f clone alloc =>
        obtain rfl : indev = eth0 := he
        exact dropped_of_blocked h f clone alloc
      | change b' => exact he.elim
    · by_cases hstay : (b.step e).1.Blocked
      · exact Or.inr (ih hstay)
      · exact Or.inl ⟨h, hstay⟩

theorem isSome_of_open {dev : List UInt8} (h : b.state dev = some .forwarding ∨ b.state dev = some .learning) :
    (b.state dev).isSome = true := by
  rcases h with h | h
  · exact Option.isSome_iff_exists.mpr ⟨_, h⟩
  · exact Option.isSome_iff_exists.mpr ⟨_, h⟩

theorem brHandleFrame_of_open {indev : List UInt8}
    (hopen : b.state indev = some .forwarding ∨ b.state indev = some .learning)
    (hvalid : isValidEtherAddr f.source = true) :
    b.brHandleFrame indev f clone alloc =
      if b.stpEnabled = true ∧ isLinkLocal f.dest = true then (b, [if f.dest 5 = 0 then .handleBpdu 0 else .kfree 0])
      else (b.brFdbUpdate indev f.source alloc,
        if (b.brFdbUpdate indev f.source alloc).state indev = some .learning then [.kfree 0]
        else (b.brFdbUpdate indev f.source alloc).relay indev f clone) := by
  unfold brHandleFrame brHandleFrameFinish
  rcases hopen with h | h
  · rw [h]
    dsimp only
    rw [if_neg (by rw [hvalid]; decide), if_pos (Or.inl rfl)]
  · rw [h]
    dsimp only
    rw [if_neg (by rw [hvalid]; decide), if_pos (Or.inr rfl)]

theorem not_blocked_of_open (h : b.state eth0 = some .forwarding ∨ b.state eth0 = some .learning) : ¬b.Blocked := by
  intro hb
  rcases h with h | h
  · exact absurd (hb.symm.trans h) (by decide)
  · exact absurd (hb.symm.trans h) (by decide)

def hello : Frame := ⟨fun i => if i.val = 0 then 2 else 0, fun _ => 0xff⟩

theorem hello_delivered (h : b.state eth0 = some .forwarding) :
    ¬Dropped (b.brHandleFrame eth0 hello clone alloc).2 := by
  have hlearn : (b.brFdbUpdate eth0 hello.source alloc).state eth0 ≠ some .learning := by
    rcases b.brFdbUpdate_cases eth0 hello.source alloc with hu | ⟨fdb, hu⟩
    · rcases b.brMakeBlocking_cases eth0 with hb | ⟨change, detected, hb⟩
      · rw [hu, hb, h]
        decide
      · have hport : ({ b with topologyChange := change, topologyChangeDetected := detected }.state eth0).isSome :=
          Option.isSome_iff_exists.mpr ⟨_, h⟩
        rw [hu, hb, state_setState_self hport]
        decide
    · rw [hu]
      intro hl
      exact absurd (h.symm.trans hl) (by decide)
  rw [brHandleFrame_of_open (Or.inl h) (by decide), if_neg (fun hl => absurd hl.2 (by decide)), if_neg hlearn,
    dropped_relay]
  rintro ⟨-, hswallowed⟩
  rw [if_pos (by decide)] at hswallowed
  exact absurd hswallowed.1 (by decide)

theorem not_quiet_of_open (hopen : b.state eth0 = some .forwarding ∨ b.state eth0 = some .learning) :
    ∃ es, ¬b.QuietUntilLeft es := by
  refine ⟨[.change (b.setState eth0 .forwarding), .receive eth0 hello (fun _ => true) true], ?_⟩
  rintro ⟨-, ⟨hblocked, -⟩ | ⟨hdropped, -⟩⟩
  · exact not_blocked_of_open hopen hblocked
  · exact hello_delivered (state_setState_self (isSome_of_open hopen) _) (hdropped rfl)

theorem brHandleFrame_unblocked (hopen : b.state eth0 = some .forwarding ∨ b.state eth0 = some .learning)
    (hvalid : isValidEtherAddr f.source = true)
    (h : b.stpEnabled = true ∧ isLinkLocal f.dest = true ∨ b.holdTime = 0) :
    (b.brHandleFrame eth0 f clone alloc).1 = b := by
  rw [brHandleFrame_of_open hopen hvalid]
  by_cases hdest : b.stpEnabled = true ∧ isLinkLocal f.dest = true
  · rw [if_pos hdest]
  · rw [if_neg hdest, brFdbUpdate, if_pos (h.resolve_left hdest)]

theorem brFdbUpdate_local (hloop : b.loopBreaking = true)
    (hopen : b.state eth0 = some .forwarding ∨ b.state eth0 = some .learning) (hlocal : b.LocalSource f.source)
    (hhold : b.holdTime ≠ 0) :
    b.brFdbUpdate eth0 f.source alloc = b.brTopologyChangeDetection.setState eth0 .blocking := by
  obtain ⟨-, fdb, hfind, hl⟩ := hlocal
  rw [brFdbUpdate, if_neg hhold, hfind]
  dsimp only
  rw [if_pos hl, if_pos ⟨hloop, rfl⟩, brMakeBlocking]
  rcases hopen with h | h
  · rw [h]
  · rw [h]

theorem quiet_after_local_source_iff (hloop : b.loopBreaking = true)
    (hopen : b.state eth0 = some .forwarding ∨ b.state eth0 = some .learning) (hlocal : b.LocalSource f.source) :
    (∀ es, b.QuietUntilLeft (.receive eth0 f clone alloc :: es)) ↔
      ¬(b.stpEnabled = true ∧ isLinkLocal f.dest = true) ∧ b.holdTime ≠ 0 ∧
        b.brTopologyChangeDetection.Swallowed f clone := by
  by_cases hskip : b.stpEnabled = true ∧ isLinkLocal f.dest = true ∨ b.holdTime = 0
  · refine iff_of_false ?_ fun h => hskip.elim h.1 h.2.1
    intro hquiet
    obtain ⟨es, hes⟩ := not_quiet_of_open hopen
    rcases (hquiet es).2 with ⟨hblocked, -⟩ | hrest
    · exact not_blocked_of_open hopen hblocked
    · rw [step, brHandleFrame_unblocked hopen hlocal.1 hskip] at hrest
      exact hes hrest
  obtain ⟨hdest, hhold⟩ := not_or.mp hskip
  have hport : (b.brTopologyChangeDetection.state eth0).isSome = true := isSome_of_open (b := b) hopen
  have hblocked := state_setState_self hport .blocking
  have hstep : b.step (.receive eth0 f clone alloc) = (b.brTopologyChangeDetection.setState eth0 .blocking,
      (b.brTopologyChangeDetection.setState eth0 .blocking).relay eth0 f clone) := by
    rw [step, brHandleFrame_of_open hopen hlocal.1, if_neg hdest, brFdbUpdate_local hloop hopen hlocal hhold, hblocked,
      if_neg (by decide)]
  rw [and_iff_right hdest, and_iff_right hhold, ← swallowed_setState _ .blocking, ← dropped_relay]
  constructor
  · intro hquiet
    have hdropped := (hquiet []).1 rfl
    rwa [hstep] at hdropped
  · intro hdropped es
    rw [QuietUntilLeft, hstep]
    exact ⟨fun _ => hdropped, Or.inr (quiet_of_blocked hblocked es)⟩

end Blocking

def homeBridge : NetBridge where
  ports := [⟨eth0, .forwarding⟩, ⟨text "wlan0", .forwarding⟩]
  fdb := [⟨hello.source, eth0, true, true, 0⟩]
  promisc := false
  stpEnabled := false
  loopBreaking := true
  isRoot := true
  topologyChange := false
  topologyChangeDetected := false
  forwardDelay := 1500
  ageingTime := 30000
  jiffies := 0
  nodup := by decide

theorem homeBridge_local : homeBridge.LocalSource hello.source := ⟨by decide, ⟨hello.source, eth0, true, true, 0⟩, rfl, rfl⟩

theorem quiet_homeBridge_iff :
    (∀ es, homeBridge.QuietUntilLeft (.receive eth0 hello (fun _ => true) true :: es)) ↔
      ¬(homeBridge.stpEnabled = true ∧ isLinkLocal hello.dest = true) ∧ homeBridge.holdTime ≠ 0 ∧
        homeBridge.brTopologyChangeDetection.Swallowed hello fun _ => true :=
  quiet_after_local_source_iff rfl (Or.inl rfl) homeBridge_local

theorem looped_broadcast_delivered :
    homeBridge.LocalSource hello.source ∧ (homeBridge.brHandleFrame eth0 hello (fun _ => true) true).1.Blocked ∧
      (homeBridge.brHandleFrame eth0 hello (fun _ => true) true).2 = [.forward (text "wlan0") 1, .passUp 0] ∧
      ¬homeBridge.QuietUntilLeft [.receive eth0 hello (fun _ => true) true] := by
  refine ⟨homeBridge_local, rfl, rfl, ?_⟩
  intro hquiet
  exact hello_delivered rfl (hquiet.1 rfl)

end NetBridge

end Wap610n.Bridge
