import Wap610n.Env.Rewrite

namespace Wap610n.Env

open Bytes CString

theorem encode_append (a b : List Entry) : encode (a ++ b) = encode a ++ encode b := List.flatMap_append

def Fits (m : Name) (w : Option Value) : ℕ → List Entry → Prop
  | _, [] => True
  | p, e :: es =>
    (p + e.text.length < cfgEnvSize ∧ p + (encode (edit m w e)).length < cfgEnvSize) ∧
      Fits m w (p + (encode (edit m w e)).length) es

structure Editor.Done (s : Editor) (l : List UInt8) : Prop where
  holds : Holds s.mem 4 (l ++ [0])
  currStr : s.currStr = 4 + l.length
  room : s.currStr < cfgEnvSize
  fresh : s.paramFound = false → ∀ i, s.currStr ≤ i → s.mem i = 0
  space : s.outOfSpace = false

variable {m : Name} {w : Option Value}

theorem copyLoop_end {n : List UInt8} {v : Option (List UInt8)} {f l : List UInt8} {s : Editor} {k : ℕ}
    (h : Editor.At v s l k) :
    ∃ r, Editor.copyLoop n v (0 :: f) s = some r ∧ r.Done l ∧ r.paramFound = s.paramFound := by
  have hzero : store s.mem s.currStr [0] s.currStr = 0 := (holds_cons.mp (holds_store s.mem s.currStr [0])).1
  rw [Editor.copyLoop_nul (h.idx ▸ h.count) h.room.le, if_pos h.room, h.namePtr, if_neg (not_not.mpr hzero)]
  refine ⟨_, rfl, ⟨?_, h.currStr, h.room, fun hp => store_zero (h.fresh hp), h.space⟩, rfl⟩
  rw [holds_append, ← h.currStr]
  exact ⟨h.holds.store_out (Or.inl h.currStr.ge), holds_store _ _ _⟩

theorem edit_length_le (e : Entry) : (edit m w e).length ≤ 1 := by
  unfold edit
  split_ifs
  · cases w <;> simp
  · simp

theorem inBounds_iff {es : List Entry} {p k : ℕ} (hk : k + es.length < paramsMax) :
    InBounds m.chars (w.map Value.chars) p k (es.map Entry.text) ↔ Fits m w p es := by
  induction es generalizing p k with
  | nil => exact Iff.rfl
  | cons e es ih =>
    rw [List.length_cons] at hk
    have hone := edit_length_le (m := m) (w := w) e
    have hmem : 61 ∈ e.text := by simp [Entry.text]
    rw [List.map_cons, InBounds, Fits, Room, revise_text, List.length_map, ← encode_eq, ih (by omega)]
    constructor
    · rintro ⟨⟨htext, -, -, hroom⟩, hfits⟩
      exact ⟨⟨htext, hroom⟩, hfits⟩
    · rintro ⟨⟨htext, hroom⟩, hfits⟩
      exact ⟨⟨htext, fun _ _ => hmem, by omega, hroom⟩, hfits⟩

theorem flatMap_revise_text (es : List Entry) :
    (es.map Entry.text).flatMap (revise m.chars (w.map Value.chars)) = (es.flatMap (edit m w)).map Entry.text := by
  rw [List.flatMap_map, List.map_flatMap]
  simp only [revise_text]

theorem copyLoop_encode {es : List Entry} {f l : List UInt8} {s : Editor} {k : ℕ}
    (h : Editor.At (w.map Value.chars) s l k) (hk : k + es.length < paramsMax) :
    (Fits m w (4 + l.length) es ∧ ∃ r, Editor.copyLoop m.chars (w.map Value.chars) (encode es ++ 0 :: f) s = some r ∧
      r.Done (l ++ encode (es.flatMap (edit m w))) ∧
      r.paramFound = (s.paramFound || es.any fun e => m.chars <+: e.name.chars)) ∨
    (¬Fits m w (4 + l.length) es ∧
      Editor.copyLoop m.chars (w.map Value.chars) (encode es ++ 0 :: f) s = none) := by
  have hts : ∀ t ∈ es.map Entry.text, t ≠ [] ∧ ∀ c ∈ t, c ≠ 0 := by
    intro t ht
    obtain ⟨e, -, rfl⟩ := List.mem_map.mp ht
    exact ⟨e.text_ne_nil, e.text_clean⟩
  have hany : (es.map Entry.text).any (fun t => m.chars <+: t) = es.any fun e => m.chars <+: e.name.chars := by
    rw [List.any_map]
    congr 1
    funext e
    exact decide_eq_decide.mpr (prefix_append_cons_iff fun c hc => (m.clean c hc).2)
  rw [encode_eq es, ← inBounds_iff hk]
  rcases Editor.copyLoop_strings (f := 0 :: f) h (fun c hc => (m.clean c hc).1) hts with
    ⟨hb, s', heq, hat, hp⟩ | ⟨hb, hnone⟩
  · rw [flatMap_revise_text, ← encode_eq] at hat
    obtain ⟨r, hr, hd, hpr⟩ := copyLoop_end (n := m.chars) (f := f) hat
    exact Or.inl ⟨hb, r, heq.trans hr, hd, by rw [hpr, hp, hany]⟩
  · exact Or.inr ⟨hb, hnone⟩

structure Sector (es : List Entry) (sector : List UInt8) : Prop where
  length : sector.length = cfgEnvSize
  data : ∃ rest, sector.drop 4 = encode es ++ 0 :: rest
  distinct : (es.map Entry.name).Nodup
  count : es.length < paramsMax

theorem getenvValue_envData {sector : ℕ → UInt8} {es : List Entry} (h : Holds sector 4 (encode es ++ [0]))
    (hl : (encode es).length ≤ cfgEnvSize) (q : Name) : getenvValue (envData sector) q.chars = find q es :=
  getenvValue_encode q (holds_envData h) hl

theorem Sector.encode_length {es : List Entry} {sector : List UInt8} (h : Sector es sector) :
    4 + (encode es).length < cfgEnvSize := by
  obtain ⟨rest, hrest⟩ := h.data
  have hlen := congrArg List.length hrest
  rw [List.length_drop, h.length, List.length_append, List.length_cons] at hlen
  unfold cfgEnvSize at *
  omega

theorem Sector.getenv {es : List Entry} {sector : List UInt8} (h : Sector es sector) (q : Name) :
    getenvValue (envData (byteAt sector)) q.chars = find q es := by
  obtain ⟨rest, hrest⟩ := h.data
  rw [← List.singleton_append, ← List.append_assoc] at hrest
  have := h.encode_length
  exact getenvValue_envData (holds_byteAt hrest) (by omega) q

theorem start_at (v : Option (List UInt8)) (sector : List UInt8) :
    Editor.At v { mem := store (fun _ => 0) 0 (sector.take 4) } [] 0 := by
  refine ⟨holds_nil _ _, rfl, rfl, Nat.le_of_ble_eq_true rfl, rfl, Nat.le_of_ble_eq_true rfl, fun _ => rfl,
    fun _ i hi => ?_, rfl⟩
  have hlen : (sector.take 4).length ≤ 4 := List.length_take_le _ _
  dsimp only at hi ⊢
  exact store_out (Or.inr (by omega))

theorem sealed_holds {mem : ℕ → UInt8} {l : List UInt8} (h : Holds mem 4 l) (crc : BitVec 32) :
    Holds (store mem 0 (leBytes crc)) 4 l := h.store_out (Or.inr (by rw [leBytes_length]))

theorem editSector_edit {es : List Entry} {sector : List UInt8} (h : Sector es sector)
    (hw : w = none ∨ es.any (fun e => m.chars <+: e.name.chars) = true) :
    (Fits m w 4 es ∧ ∃ out, editSector sector m.chars (w.map Value.chars) = some out ∧
      ∀ q : Name, getenvValue (envData out) q.chars = find q (es.flatMap (edit m w))) ∨
    (¬Fits m w 4 es ∧ editSector sector m.chars (w.map Value.chars) = none) := by
  obtain ⟨rest, hrest⟩ := h.data
  unfold editSector
  rw [hrest]
  rcases copyLoop_encode (m := m) (w := w) (f := rest) (start_at _ sector)
      (show 0 + es.length < paramsMax by have := h.count; omega) with ⟨hfits, r, hr, hd, hp⟩ | ⟨hfits, hnone⟩
  swap
  · exact Or.inr ⟨hfits, by dsimp only; rw [hnone]; rfl⟩
  refine Or.inl ⟨hfits, ?_⟩
  have hroom : (encode (es.flatMap (edit m w))).length ≤ cfgEnvSize := by
    have hlt := hd.room
    rw [hd.currStr, List.nil_append] at hlt
    omega
  have hedit : r.complete m.chars (w.map Value.chars) = some r.mem := by
    cases w with
    | none => rfl
    | some v =>
      have hfound : r.paramFound = true := by rw [hp, hw.resolve_left (by simp), Bool.or_true]
      simp [Editor.complete, hfound]
  dsimp only
  rw [hr, Option.bind_some, hedit]
  exact ⟨_, rfl, getenvValue_envData (sealed_holds hd.holds _) hroom⟩

theorem append_out {s : Editor} {l n w : List UInt8} (h : s.Done l)
    (hover : ¬4 + l.length + n.length + w.length + 1 < cfgEnvSize) : s.append n w = none := by
  have hc := h.currStr
  unfold Editor.append strcpy put
  by_cases hname : s.currStr + n.length < cfgEnvSize
  · rw [if_pos hname, Option.bind_some, if_pos hname, Option.bind_some, if_neg (by omega)]
  · rw [if_neg hname]
    rfl

theorem append_holds {s : Editor} {l n w : List UInt8} (h : s.Done l) (hp : s.paramFound = false)
    (hroom : 4 + l.length + n.length + w.length + 1 < cfgEnvSize) :
    ∃ mem, s.append n w = some mem ∧ Holds mem 4 (l ++ (n ++ 61 :: w ++ [0])) ∧
      mem (4 + l.length + n.length + w.length + 2) = 0 := by
  have hc := h.currStr
  unfold Editor.append strcpy put
  rw [if_pos (by omega), Option.bind_some, if_pos (by omega), Option.bind_some, if_pos (by omega)]
  refine ⟨_, rfl, ?_, ?_⟩
  · have hparts : l ++ (n ++ 61 :: w ++ [0]) = l ++ (n ++ ([61] ++ (w ++ [0]))) := by simp
    rw [hparts, holds_append, holds_append, holds_append, ← hc, List.length_singleton]
    refine ⟨?_, ?_, ?_, holds_store _ _ _⟩
    · refine ((Holds.store_out ?_ (Or.inl ?_)).store_out (Or.inl ?_)).store_out (Or.inl ?_)
      · exact (holds_append.mp h.holds).1
      all_goals omega
    · refine (Holds.store_out ?_ (Or.inl le_rfl)).store_out (Or.inl (by omega))
      exact (holds_append.mp (holds_store _ _ _)).1
    · exact (holds_store _ _ _).store_out (Or.inl le_rfl)
  · -- the buffer behind the old end is still as `memset` left it
    rw [store_out (Or.inr (by simp; omega)), store_out (Or.inr (by simp; omega)), store_out (Or.inr (by simp; omega))]
    exact h.fresh hp _ (by omega)

theorem flatMap_eq_self {α : Type*} {f : α → List α} {l : List α} (h : ∀ x ∈ l, f x = [x]) : l.flatMap f = l := by
  induction l with
  | nil => rfl
  | cons x l ih =>
    rw [List.flatMap_cons, h x List.mem_cons_self, ih fun y hy => h y (List.mem_cons_of_mem _ hy),
      List.singleton_append]

theorem editSector_append {v : Value} {es : List Entry} {sector : List UInt8} (h : Sector es sector)
    (hany : es.any (fun e => m.chars <+: e.name.chars) = false) (hfits : Fits m (some v) 4 es)
    (hroom : 4 + (encode (es ++ [⟨m, v⟩])).length < cfgEnvSize) :
    ∃ out, editSector sector m.chars (some v.chars) = some out ∧
      ∀ q : Name, getenvValue (envData out) q.chars = find q (es ++ [⟨m, v⟩]) := by
  obtain ⟨rest, hrest⟩ := h.data
  unfold editSector
  rw [hrest]
  rcases copyLoop_encode (m := m) (w := some v) (f := rest) (start_at _ sector)
      (show 0 + es.length < paramsMax by have := h.count; omega) with ⟨-, r, hr, hd, hp⟩ | ⟨hn, -⟩
  swap
  · exact absurd hfits hn
  have habsent : es.flatMap (edit m (some v)) = es := by
    apply flatMap_eq_self
    intro e he
    exact edit_other (by simpa using List.any_eq_false.mp hany e he)
  rw [habsent, List.nil_append] at hd
  rw [hany, Bool.or_false] at hp
  rw [encode_append, encode_cons, encode_nil, List.append_nil] at hroom
  have htext : (Entry.text ⟨m, v⟩).length = m.chars.length + v.chars.length + 1 := Entry.text_length _
  simp only [List.length_append, List.length_singleton] at hroom
  obtain ⟨mem, hmem, hholds, hzero⟩ := append_holds (n := m.chars) (w := v.chars) hd hp (by omega)
  have hcomplete : r.complete m.chars (some v.chars) = some mem := by
    simp [Editor.complete, hp, hd.space, hmem]
  dsimp only
  rw [Option.map_some] at hr
  rw [hr, Option.bind_some, hcomplete]
  refine ⟨_, rfl, getenvValue_envData (sealed_holds ?_ _) ?_⟩
  · rw [encode_append, encode_cons, encode_nil, List.append_nil, holds_append]
    refine ⟨hholds, holds_cons.mpr ⟨?_, holds_nil _ _⟩⟩
    rw [← hzero]
    congr 1
    simp only [List.length_append, List.length_singleton]
    omega
  · simp only [encode_append, encode_cons, encode_nil, List.append_nil, List.length_append, List.length_singleton]
    omega

theorem fits_of_le {es : List Entry} {p : ℕ} (h : ∀ e ∈ es, (encode (edit m w e)).length ≤ e.text.length + 1)
    (hp : p + (encode es).length < cfgEnvSize) : Fits m w p es := by
  induction es generalizing p with
  | nil => trivial
  | cons e es ih =>
    have he := h e List.mem_cons_self
    rw [encode_cons, List.length_append, List.length_append, List.length_singleton] at hp
    exact ⟨⟨by omega, by omega⟩, ih (fun x hx => h x (List.mem_cons_of_mem _ hx)) (by omega)⟩

theorem fits_of_ge {es : List Entry} {p : ℕ} (h : ∀ e ∈ es, e.text.length + 1 ≤ (encode (edit m w e)).length)
    (hp : p + (encode (es.flatMap (edit m w))).length < cfgEnvSize) : Fits m w p es := by
  induction es generalizing p with
  | nil => trivial
  | cons e es ih =>
    have he := h e List.mem_cons_self
    rw [List.flatMap_cons, encode_append, List.length_append] at hp
    exact ⟨⟨by omega, by omega⟩, ih (fun x hx => h x (List.mem_cons_of_mem _ hx)) (by omega)⟩

end Wap610n.Env
