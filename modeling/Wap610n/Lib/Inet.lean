import Mathlib.Data.Nat.Bitwise
import Wap610n.Lib.Stdio

/-!
Dotted addresses, as uClibc's `inet_aton` and `inet_ntoa` have them. Addresses are in the order of the host.
-/

namespace Wap610n.Inet

open CString Stdio

def octet : ℕ → List UInt8 → Option (ℕ × List UInt8)
  | value, [] => some (value, [])
  | value, c :: s =>
    if isDigit c then
      if 255 < value * 10 + (c.toNat - 48) then none else octet (value * 10 + (c.toNat - 48)) s
    else some (value, c :: s)

def inetPart (s : List UInt8) : Option (ℕ × List UInt8) := if s.head?.any isDigit then octet 0 s else none

def partCloses (parts : ℕ) (s : List UInt8) : Bool := if parts = 0 then s.head?.all isSpace else s.head? == some 46

def inetAtonFrom : ℕ → BitVec 32 → List UInt8 → Option (BitVec 32)
  | 0, addr, _ => some addr
  | parts + 1, addr, s =>
    match inetPart s with
    | none => none
    | some (value, s) =>
      if partCloses parts s then inetAtonFrom parts (addr <<< 8 ||| BitVec.ofNat 32 value) (s.drop 1) else none

def inetAton (s : List UInt8) : Option (BitVec 32) := inetAtonFrom 4 0 s

def inetByte (a : BitVec 32) (i : ℕ) : ℕ := (a >>> (8 * i) &&& 0xff#32).toNat

def inetNtoa (a : BitVec 32) : List UInt8 :=
  showNat (inetByte a 3) ++ 46 :: (showNat (inetByte a 2) ++ 46 ::
    (showNat (inetByte a 1) ++ 46 :: showNat (inetByte a 0)))

/-- How many numbers `sscanf` stores for a format of `n` conversions `%d` with dots between them. -/
def scanDotted : ℕ → List UInt8 → ℕ
  | 0, _ => 0
  | n + 1, s =>
    match scanInt s with
    | none => 0
    | some (_, 46 :: s) => scanDotted n s + 1
    | some _ => 1

theorem octet_digits {value n : ℕ} {s r : List UInt8} (h : octet value s = some (n, r)) :
    ∃ x, s = x ++ r ∧ ∀ c ∈ x, isDigit c = true := by
  induction s generalizing value with
  | nil =>
    cases h
    exact ⟨[], rfl, fun _ hc => absurd hc List.not_mem_nil⟩
  | cons c s ih =>
    rw [octet] at h
    split_ifs at h with hc
    · obtain ⟨x, rfl, hx⟩ := ih h
      exact ⟨c :: x, rfl, List.forall_mem_cons.mpr ⟨hc, hx⟩⟩
    · cases h
      exact ⟨[], rfl, fun _ hc => absurd hc List.not_mem_nil⟩

theorem inetPart_digits {n : ℕ} {s r : List UInt8} (h : inetPart s = some (n, r)) :
    ∃ x, s = x ++ r ∧ ∀ c ∈ x, isDigit c = true := by
  rw [inetPart] at h
  split_ifs at h
  exact octet_digits h

def isAddressChar (c : UInt8) : Bool := isDigit c || c == 46

theorem inetAtonFrom_shape {parts : ℕ} {addr a : BitVec 32} {s : List UInt8}
    (h : inetAtonFrom (parts + 1) addr s = some a) :
    ∃ x y, s = x ++ y ∧ (∀ c ∈ x, isAddressChar c = true) ∧ y.head?.all isSpace = true := by
  induction parts generalizing addr s with
  | zero =>
    rw [inetAtonFrom] at h
    split at h
    · cases h
    · rename_i value r hpart
      obtain ⟨x, rfl, hx⟩ := inetPart_digits hpart
      split_ifs at h with hend
      exact ⟨x, r, rfl, fun c hc => by rw [isAddressChar, hx c hc, Bool.true_or], hend⟩
  | succ parts ih =>
    rw [inetAtonFrom] at h
    split at h
    · cases h
    · rename_i value r hpart
      obtain ⟨x, rfl, hx⟩ := inetPart_digits hpart
      split_ifs at h with hdot
      obtain ⟨r, rfl⟩ := List.head?_eq_some_iff.mp (beq_iff_eq.mp hdot)
      obtain ⟨z, y, rfl, hz, hy⟩ := ih h
      refine ⟨x ++ 46 :: z, y, by rw [List.append_assoc, List.cons_append], ?_, hy⟩
      intro c hc
      rcases List.mem_append.mp hc with hc | hc
      · rw [isAddressChar, hx c hc, Bool.true_or]
      · rcases List.mem_cons.mp hc with rfl | hc
        · rfl
        · exact hz c hc

theorem isSpace_of_isAddressChar : ∀ c : UInt8, isAddressChar c = true → isSpace c = false := by
  intro c h
  rw [isAddressChar, isDigit, Bool.or_eq_true, decide_eq_true_eq, beq_iff_eq] at h
  rw [isSpace, decide_eq_false_iff_not]
  rcases h with ⟨hlow, _⟩ | rfl
  · rintro (rfl | ⟨_, hhigh⟩)
    · exact absurd hlow (by decide)
    · exact absurd (UInt8.le_trans hlow hhigh) (by decide)
  · decide

theorem inetAton_plain_iff {s : List UInt8} {a : BitVec 32} (h : inetAton s = some a) :
    (∀ c ∈ s, isAddressChar c = true) ↔ ∀ c ∈ s, isSpace c = false := by
  refine ⟨fun hs c hc => isSpace_of_isAddressChar c (hs c hc), fun hs => ?_⟩
  obtain ⟨x, y, rfl, hx, hy⟩ := inetAtonFrom_shape h
  cases y with
  | nil => rwa [List.append_nil]
  | cons c y =>
    have hspace : isSpace c = true := hy
    rw [hs c (List.mem_append_right x List.mem_cons_self)] at hspace
    exact absurd hspace (by decide)

theorem inetByte_eq (a : BitVec 32) (i : ℕ) : inetByte a i = a.toNat / 256 ^ i % 256 := by
  have hmask : (0xff#32).toNat = 2 ^ 8 - 1 := rfl
  rw [inetByte, BitVec.toNat_and, hmask, Nat.and_two_pow_sub_one_eq_mod, BitVec.toNat_ushiftRight,
    Nat.shiftRight_eq_div_pow, Nat.pow_mul]

theorem octet_showNat {n : ℕ} (hn : n ≤ 255) (s : List UInt8) : octet 0 (showNat n ++ s) = octet n s := by
  apply read_showNat _ hn
  intro v d s hd hle
  have hdigit : isDigit (UInt8.ofNat (48 + d)) = true := decide_eq_true (digit_range d hd).1
  rw [octet, if_pos hdigit, (digit_range d hd).2, if_neg (by omega)]

theorem octet_end {n : ℕ} {s : List UInt8} (hs : s.head?.any isDigit = false) : octet n s = some (n, s) := by
  cases s with
  | nil => rfl
  | cons c s => exact if_neg (Bool.eq_false_iff.mp hs)

theorem inetPart_showNat {n : ℕ} (hn : n ≤ 255) {s : List UInt8} (hs : s.head?.any isDigit = false) :
    inetPart (showNat n ++ s) = some (n, s) := by
  obtain ⟨c, ds, hshow⟩ := List.exists_cons_of_ne_nil (showNat_ne_nil n)
  have hdigit : isDigit c = true := decide_eq_true (@mem_showNat n c (hshow ▸ List.mem_cons_self))
  have hhead : ((showNat n ++ s).head?.any isDigit) = true := by
    rw [hshow]
    exact hdigit
  rw [inetPart, if_pos hhead, octet_showNat hn, octet_end hs]

theorem toNat_shift_or {addr : BitVec 32} {n : ℕ} (haddr : addr.toNat < 2 ^ 24) (hn : n ≤ 255) :
    (addr <<< 8 ||| BitVec.ofNat 32 n).toNat = addr.toNat * 256 + n := by
  rw [BitVec.toNat_or, BitVec.toNat_shiftLeft, BitVec.toNat_ofNat, Nat.mod_eq_of_lt (show n < 2 ^ 32 by omega),
    Nat.mod_eq_of_lt (by rw [Nat.shiftLeft_eq]; omega), ← Nat.shiftLeft_add_eq_or_of_lt (show n < 2 ^ 8 by omega),
    Nat.shiftLeft_eq]

theorem inetAtonFrom_part {parts n : ℕ} (hn : n ≤ 255) (addr : BitVec 32) (s : List UInt8) :
    inetAtonFrom (parts + 2) addr (showNat n ++ 46 :: s) =
      inetAtonFrom (parts + 1) (addr <<< 8 ||| BitVec.ofNat 32 n) s := by
  rw [inetAtonFrom, inetPart_showNat hn rfl]
  rfl

theorem inetAtonFrom_last {n : ℕ} (hn : n ≤ 255) (addr : BitVec 32) :
    inetAtonFrom 1 addr (showNat n) = some (addr <<< 8 ||| BitVec.ofNat 32 n) := by
  rw [← List.append_nil (showNat n), inetAtonFrom, inetPart_showNat hn rfl]
  rfl

theorem inetAton_inetNtoa (a : BitVec 32) : inetAton (inetNtoa a) = some a := by
  have hbyte (i : ℕ) : inetByte a i ≤ 255 := by
    rw [inetByte_eq]
    omega
  rw [inetAton, inetNtoa, inetAtonFrom_part (hbyte 3), inetAtonFrom_part (hbyte 2), inetAtonFrom_part (hbyte 1),
    inetAtonFrom_last (hbyte 0)]
  congr 1
  have h3 := @toNat_shift_or 0 _ (by decide) (hbyte 3)
  rw [show (0 : BitVec 32).toNat = 0 from rfl, Nat.zero_mul, Nat.zero_add] at h3
  have h2 := toNat_shift_or (by rw [h3]; exact (hbyte 3).trans_lt (by decide)) (hbyte 2)
  rw [h3] at h2
  have hb3 := hbyte 3
  have hb2 := hbyte 2
  have hb1 := hbyte 1
  have h1 := toNat_shift_or (by rw [h2]; omega) (hbyte 1)
  rw [h2] at h1
  have h0 := toNat_shift_or (by rw [h1]; omega) (hbyte 0)
  apply BitVec.eq_of_toNat_eq
  rw [h0, h1]
  simp only [inetByte_eq]
  have ha := a.isLt
  omega

end Wap610n.Inet
