import Mathlib.Data.List.GetD
import Mathlib.Tactic.IntervalCases

namespace Wap610n.Bytes

def text (s : String) : List UInt8 := s.toList.map fun c => UInt8.ofNat c.toNat

theorem text_ofList (l : List Char) : text (String.ofList l) = l.map fun c => UInt8.ofNat c.toNat := by
  rw [text, String.toList_ofList]

theorem forall_mem_of_all {p : UInt8 → Prop} [DecidablePred p] {l : List UInt8} (h : l.all (fun c => p c) = true) :
    ∀ c ∈ l, p c := by
  simpa using h

def leWord (a b c d : UInt8) : BitVec 32 :=
  BitVec.ofNat 32 (a.toNat + 256 * b.toNat + 65536 * c.toNat + 16777216 * d.toNat)

def leBytes (w : BitVec 32) : List UInt8 :=
  [UInt8.ofNat w.toNat, UInt8.ofNat (w.toNat / 256), UInt8.ofNat (w.toNat / 65536),
    UInt8.ofNat (w.toNat / 16777216)]

@[simp] theorem leBytes_length (w : BitVec 32) : (leBytes w).length = 4 := rfl

theorem leWord_toNat (a b c d : UInt8) :
    (leWord a b c d).toNat = a.toNat + 256 * b.toNat + 65536 * c.toNat + 16777216 * d.toNat := by
  have ha := a.toNat_lt
  have hb := b.toNat_lt
  have hc := c.toNat_lt
  have hd := d.toNat_lt
  rw [leWord, BitVec.toNat_ofNat, Nat.mod_eq_of_lt (by omega)]

theorem leWord_leBytes (w : BitVec 32) :
    leWord (UInt8.ofNat w.toNat) (UInt8.ofNat (w.toNat / 256)) (UInt8.ofNat (w.toNat / 65536))
      (UInt8.ofNat (w.toNat / 16777216)) = w := by
  apply BitVec.eq_of_toNat_eq
  have hw := w.isLt
  rw [leWord_toNat]
  simp only [UInt8.toNat_ofNat']
  omega

theorem leWord_inj {a b c d a' b' c' d' : UInt8} (h : leWord a b c d = leWord a' b' c' d') :
    a = a' ∧ b = b' ∧ c = c' ∧ d = d' := by
  have hn := congrArg BitVec.toNat h
  rw [leWord_toNat, leWord_toNat] at hn
  have ha := a.toNat_lt
  have hb := b.toNat_lt
  have hc := c.toNat_lt
  have ha' := a'.toNat_lt
  have hb' := b'.toNat_lt
  have hc' := c'.toNat_lt
  refine ⟨UInt8.toNat_inj.mp ?_, UInt8.toNat_inj.mp ?_, UInt8.toNat_inj.mp ?_,
    UInt8.toNat_inj.mp ?_⟩ <;> omega

def wordAt (m : ℕ → UInt8) (p : ℕ) : BitVec 32 := leWord (m p) (m (p + 1)) (m (p + 2)) (m (p + 3))

theorem wordAt_congr {m m' : ℕ → UInt8} {p q : ℕ} (h : ∀ i < 4, m (p + i) = m' (q + i)) :
    wordAt m p = wordAt m' q := by
  have h0 := h 0 (by omega)
  have h1 := h 1 (by omega)
  have h2 := h 2 (by omega)
  have h3 := h 3 (by omega)
  simp only [Nat.add_zero] at h0
  rw [wordAt, wordAt, h0, h1, h2, h3]

theorem wordAt_inj {m m' : ℕ → UInt8} {p q : ℕ} (h : wordAt m p = wordAt m' q) :
    ∀ i < 4, m (p + i) = m' (q + i) := by
  obtain ⟨h0, h1, h2, h3⟩ := leWord_inj h
  intro i hi
  interval_cases i
  · exact h0
  · exact h1
  · exact h2
  · exact h3

def store (m : ℕ → UInt8) (p : ℕ) (bs : List UInt8) : ℕ → UInt8 := fun i =>
  if p ≤ i ∧ i < p + bs.length then bs.getD (i - p) 0 else m i

theorem store_out {m : ℕ → UInt8} {p : ℕ} {bs : List UInt8} {i : ℕ}
    (h : i < p ∨ p + bs.length ≤ i) : store m p bs i = m i := by
  rw [store, if_neg (by omega)]

theorem store_in {m : ℕ → UInt8} {p : ℕ} {bs : List UInt8} {i : ℕ} (h : i < bs.length) :
    store m p bs (p + i) = bs.getD i 0 := by
  rw [store, if_pos (by omega), Nat.add_sub_cancel_left]

theorem store_nil (m : ℕ → UInt8) (p : ℕ) : store m p [] = m := by
  funext i
  apply store_out
  rw [List.length_nil]
  omega

theorem store_append (m : ℕ → UInt8) (p : ℕ) (a b : List UInt8) :
    store (store m p a) (p + a.length) b = store m p (a ++ b) := by
  funext i
  by_cases hb : p + a.length ≤ i ∧ i < p + a.length + b.length
  · obtain ⟨k, rfl⟩ := Nat.exists_eq_add_of_le hb.1
    rw [store_in (by omega), Nat.add_assoc, store_in (by rw [List.length_append]; omega),
      List.getD_append_right _ _ _ _ (by omega), Nat.add_sub_cancel_left]
  · rw [store_out (by omega)]
    by_cases ha : p ≤ i ∧ i < p + a.length
    · obtain ⟨k, rfl⟩ := Nat.exists_eq_add_of_le ha.1
      rw [store_in (by omega), store_in (by rw [List.length_append]; omega), List.getD_append _ _ _ _ (by omega)]
    · rw [store_out (by omega), store_out (by rw [List.length_append]; omega)]

theorem store_store {m : ℕ → UInt8} {p : ℕ} {a b : List UInt8} (h : a.length ≤ b.length) :
    store (store m p a) p b = store m p b := by
  funext i
  by_cases hi : p ≤ i ∧ i < p + b.length
  · obtain ⟨k, rfl⟩ := Nat.exists_eq_add_of_le hi.1
    rw [store_in (by omega), store_in (by omega)]
  · rw [store_out (by omega), store_out (by omega), store_out (by omega)]

theorem wordAt_store (m : ℕ → UInt8) (p : ℕ) (w : BitVec 32) :
    wordAt (store m p (leBytes w)) p = w := by
  have h (i : ℕ) (hi : i < 4) : store m p (leBytes w) (p + i) = (leBytes w).getD i 0 :=
    store_in (by simpa using hi)
  have h0 := h 0 (by omega)
  rw [Nat.add_zero] at h0
  rw [wordAt, h0, h 1 (by omega), h 2 (by omega), h 3 (by omega)]
  exact leWord_leBytes w

theorem wordAt_store_out {m : ℕ → UInt8} {p q : ℕ} {bs : List UInt8}
    (h : q + 4 ≤ p ∨ p + bs.length ≤ q) : wordAt (store m p bs) q = wordAt m q := by
  apply wordAt_congr
  intro i hi
  apply store_out
  omega

def slice (m : ℕ → UInt8) (p n : ℕ) : List UInt8 := (List.range n).map fun i => m (p + i)

@[simp] theorem slice_length (m : ℕ → UInt8) (p n : ℕ) : (slice m p n).length = n := by simp [slice]

theorem slice_getD {m : ℕ → UInt8} {p n i : ℕ} (h : i < n) : (slice m p n).getD i 0 = m (p + i) := by
  simp [slice, List.getD, h]

theorem slice_congr {m m' : ℕ → UInt8} {p q n : ℕ} (h : ∀ i < n, m (p + i) = m' (q + i)) :
    slice m p n = slice m' q n := by
  apply List.map_congr_left
  intro i hi
  exact h i (List.mem_range.mp hi)

theorem slice_add (m : ℕ → UInt8) (p a b : ℕ) : slice m p (a + b) = slice m p a ++ slice m (p + a) b := by
  simp only [slice, List.range_add, List.map_append, List.map_map, Function.comp_def, Nat.add_assoc]

def Holds (m : ℕ → UInt8) (p : ℕ) (l : List UInt8) : Prop := slice m p l.length = l

theorem holds_nil (m : ℕ → UInt8) (p : ℕ) : Holds m p [] := rfl

theorem holds_append {m : ℕ → UInt8} {p : ℕ} {a b : List UInt8} :
    Holds m p (a ++ b) ↔ Holds m p a ∧ Holds m (p + a.length) b := by
  unfold Holds
  rw [List.length_append, slice_add]
  constructor
  · intro h
    exact List.append_inj h (slice_length _ _ _)
  · rintro ⟨ha, hb⟩
    rw [ha, hb]

theorem holds_cons {m : ℕ → UInt8} {p : ℕ} {c : UInt8} {l : List UInt8} :
    Holds m p (c :: l) ↔ m p = c ∧ Holds m (p + 1) l := by
  rw [← List.singleton_append, holds_append]
  exact and_congr_left' (by simp [Holds, slice])

theorem holds_store (m : ℕ → UInt8) (p : ℕ) (l : List UInt8) : Holds (store m p l) p l := by
  apply List.ext_getElem (slice_length _ _ _)
  intro i h hl
  have := slice_getD (m := store m p l) (p := p) hl
  rw [store_in hl] at this
  simpa [List.getD, h, hl] using this

theorem store_of_holds {m : ℕ → UInt8} {p : ℕ} {l : List UInt8} (h : Holds m p l) : store m p l = m := by
  funext i
  by_cases hi : p ≤ i ∧ i < p + l.length
  · obtain ⟨k, rfl⟩ := Nat.exists_eq_add_of_le hi.1
    have hk : k < l.length := by omega
    rw [store_in hk, ← slice_getD (m := m) (p := p) hk, show slice m p l.length = l from h]
  · exact store_out (by omega)

theorem Holds.congr {m m' : ℕ → UInt8} {p : ℕ} {l : List UInt8} (h : Holds m p l)
    (hm : ∀ i, p ≤ i → i < p + l.length → m' i = m i) : Holds m' p l := by
  unfold Holds
  rw [slice_congr fun i hi => hm (p + i) (by omega) (by omega)]
  exact h

theorem Holds.store_out {m : ℕ → UInt8} {p q : ℕ} {l bs : List UInt8} (h : Holds m p l)
    (hout : p + l.length ≤ q ∨ q + bs.length ≤ p) : Holds (store m q bs) p l := by
  apply h.congr
  intro i hp hl
  apply Bytes.store_out
  omega

def byteAt (buf : List UInt8) (i : ℕ) : UInt8 := buf.getD i 0

theorem holds_byteAt {l x r : List UInt8} {p : ℕ} (h : l.drop p = x ++ r) : Holds (byteAt l) p x := by
  apply List.ext_getElem (slice_length _ _ _)
  intro i _ hx
  simp [slice, byteAt, List.getD, ← List.getElem?_drop, h, List.getElem?_append_left hx, hx]

theorem wordAt_of_holds {m : ℕ → UInt8} {p : ℕ} {w : BitVec 32} (h : Holds m p (leBytes w)) : wordAt m p = w := by
  rw [← wordAt_store m p w]
  apply wordAt_congr
  intro i hi
  have hi' : i < (leBytes w).length := by rwa [leBytes_length]
  rw [store_in hi', ← slice_getD (m := m) hi', h]

def readWord (buf : List UInt8) (p : ℤ) : Option (BitVec 32) :=
  if 0 ≤ p ∧ p + 4 ≤ buf.length then some (wordAt (byteAt buf) p.toNat) else none

def readSlice (buf : List UInt8) (p n : ℕ) : Option (List UInt8) :=
  if p + n ≤ buf.length then some (slice (byteAt buf) p n) else none

def writeAt (buf : List UInt8) (p : ℕ) (bs : List UInt8) : List UInt8 :=
  buf.take p ++ List.replicate (p - buf.length) 0 ++ bs ++ buf.drop (p + bs.length)

theorem writeAt_length {buf : List UInt8} {p : ℕ} {bs : List UInt8} (h : p + bs.length ≤ buf.length) :
    (writeAt buf p bs).length = buf.length := by
  simp only [writeAt, List.length_append, List.length_take, List.length_replicate, List.length_drop]
  omega

theorem writeAt_end (buf bs : List UInt8) : writeAt buf buf.length bs = buf ++ bs := by
  simp [writeAt, List.drop_eq_nil_of_le]

theorem byteAt_writeAt {buf : List UInt8} {p : ℕ} {bs : List UInt8} (h : p + bs.length ≤ buf.length) :
    byteAt (writeAt buf p bs) = store (byteAt buf) p bs := by
  have hz : p - buf.length = 0 := by omega
  have hp : (buf.take p).length = p := by rw [List.length_take]; omega
  funext i
  simp only [byteAt, writeAt, hz, List.replicate_zero, List.append_nil, store, List.getD]
  by_cases h1 : i < p
  · rw [if_neg (by omega), List.append_assoc, List.getElem?_append_left (by omega),
      List.getElem?_take_of_lt h1]
  · by_cases h2 : i < p + bs.length
    · rw [if_pos (by omega), List.getElem?_append_left (by simp only [List.length_append]; omega),
        List.getElem?_append_right (by omega), hp]
    · rw [if_neg (by omega), List.getElem?_append_right (by simp only [List.length_append]; omega),
        List.getElem?_drop]
      congr 2
      simp only [List.length_append]
      omega

theorem ext_byteAt {a b : List UInt8} (hl : a.length = b.length) (h : ∀ i < a.length, byteAt a i = byteAt b i) :
    a = b := by
  apply List.ext_getElem hl
  intro i ha hb
  simpa [byteAt, List.getD, ha, hb] using h i ha

end Wap610n.Bytes
