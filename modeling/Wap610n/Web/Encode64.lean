import Mathlib.Data.Nat.Bitwise
import Wap610n.Web.Base64

namespace Wap610n.Web

open Bytes

def alphabet64 : List UInt8 := text "ABCDEFGHIJKLMNOPQRSTUVWXYZabcdefghijklmnopqrstuvwxyz0123456789+/"

def shiftGroup : ℕ → List UInt8 → ℕ
  | j + 1, c :: group => c.toNat <<< (j * 8) ||| shiftGroup j group
  | _, _ => 0

def sextet (shiftbuf i : ℕ) : ℕ := shiftbuf >>> (18 - 6 * i) &&& 0x3f

def encodeGroup (room : ℕ) (group : List UInt8) : List UInt8 :=
  (((List.range (group.length + 1)).take room).map fun i => alphabet64.getD (sextet (shiftGroup 3 group) i) 0) ++
    List.replicate (3 - group.length) 61

def websEncode64From (outlen : ℕ) (outbuf : List UInt8) : List UInt8 → List UInt8
  | [] => outbuf
  | [a] => outbuf ++ encodeGroup (outlen - outbuf.length) [a]
  | [a, b] => outbuf ++ encodeGroup (outlen - outbuf.length) [a, b]
  | a :: b :: c :: s => websEncode64From outlen (outbuf ++ encodeGroup (outlen - outbuf.length) [a, b, c]) s

def websEncode64 (string : List UInt8) (outlen : ℕ) : List UInt8 := websEncode64From outlen [] string

example : websEncode64 (text "admin:secr") 16 = text "YWRtaW46c2Vjcg==" := by decide

def b64Digit (size : ℕ) (s : B64State) (d : ℕ) : B64State :=
  { space := if s.space.length < size then s.space ++ (b64Byte s.phase s.prev d).toList else s.space
    phase := (s.phase + 1) % 4
    prev := d }

theorem b64Decode_eq (str : List UInt8) (size : ℕ) :
    b64Decode str size = ((str.filterMap b64Value).foldl (b64Digit size) {}).space := by
  rw [List.foldl_filterMap, b64Decode]
  congr 2
  funext s c
  rw [b64Step]
  cases b64Value c <;> rfl

theorem alphabet64_values : alphabet64.map b64Value = (List.range 64).map some := by
  rw [alphabet64, text_ofList]
  decide +kernel

theorem b64Value_letter {n : ℕ} (hn : n < 64) : b64Value (alphabet64.getD n 0) = some n := by
  have hvalue : (alphabet64.map b64Value)[n]? = some (some n) := by
    rw [alphabet64_values, List.getElem?_map, List.getElem?_range hn, Option.map_some]
  obtain ⟨c, hc, hb⟩ := Option.map_eq_some_iff.mp ((List.getElem?_map ..).symm.trans hvalue)
  rw [List.getD_eq_getElem?_getD, hc, Option.getD_some, hb]

theorem getElem?_b64Value {c : UInt8} {v : ℕ} (h : b64Value c = some v) : alphabet64[v]? = some c := by
  have hall : (List.range 256).all fun n =>
      (b64Value (UInt8.ofNat n)).all fun v => alphabet64[v]? == some (UInt8.ofNat n) := by
    rw [alphabet64, text_ofList]
    decide +kernel
  have hc := List.all_eq_true.mp hall c.toNat (List.mem_range.mpr c.toNat_lt)
  rwa [UInt8.ofNat_toNat, h, Option.all_some, beq_iff_eq] at hc

theorem isSome_b64Value_iff {c : UInt8} : (b64Value c).isSome = true ↔ c ∈ alphabet64 := by
  constructor
  · intro h
    obtain ⟨v, hv⟩ := Option.isSome_iff_exists.mp h
    exact List.mem_of_getElem? (getElem?_b64Value hv)
  · intro h
    have hmem := List.mem_map_of_mem (f := b64Value) h
    rw [alphabet64_values] at hmem
    obtain ⟨v, -, hv⟩ := List.mem_map.mp hmem
    rw [← hv, Option.isSome_some]

theorem sextet_eq (n i : ℕ) : sextet n i = n / 2 ^ (18 - 6 * i) % 64 := by
  rw [sextet, Nat.and_two_pow_sub_one_eq_mod _ 6, Nat.shiftRight_eq_div_pow]

theorem letters_digits {l : List ℕ} (hl : ∀ n ∈ l, n < 64) :
    (l.map fun n => alphabet64.getD n 0).filterMap b64Value = l := by
  induction l with
  | nil => rfl
  | cons n l ih =>
    rw [List.forall_mem_cons] at hl
    rw [List.map_cons, List.filterMap_cons_some (b64Value_letter hl.1), ih hl.2]

theorem encodeGroup_digits {room : ℕ} {group : List UInt8} (hroom : group.length + 1 ≤ room) :
    (encodeGroup room group).filterMap b64Value =
      (List.range (group.length + 1)).map (sextet (shiftGroup 3 group)) := by
  have hpad (n : ℕ) : (List.replicate n (61 : UInt8)).filterMap b64Value = [] := by
    apply List.filterMap_eq_nil_iff.mpr
    intro c hc
    rw [List.eq_of_mem_replicate hc]
    rfl
  have hletters := @letters_digits ((List.range (group.length + 1)).map (sextet (shiftGroup 3 group))) (by
    intro n hn
    obtain ⟨i, -, rfl⟩ := List.mem_map.mp hn
    rw [sextet_eq]
    exact Nat.mod_lt _ (by decide))
  rw [List.map_map] at hletters
  rw [encodeGroup, List.take_of_length_le (by rwa [List.length_range]), List.filterMap_append, hpad, List.append_nil]
  exact hletters

theorem shiftGroup_eq (a b c : UInt8) :
    shiftGroup 3 [a, b, c] = a.toNat * 65536 + (b.toNat * 256 + c.toNat) ∧
      shiftGroup 3 [a, b] = a.toNat * 65536 + b.toNat * 256 ∧ shiftGroup 3 [a] = a.toNat * 65536 := by
  have hb := b.toNat_lt
  have hc := c.toNat_lt
  have hlow : b.toNat <<< 8 ||| c.toNat = b.toNat * 256 + c.toNat := by
    rw [← Nat.shiftLeft_add_eq_or_of_lt hc, Nat.shiftLeft_eq]
  have hhigh {n : ℕ} (hn : n < 65536) : a.toNat <<< 16 ||| n = a.toNat * 65536 + n := by
    rw [← Nat.shiftLeft_add_eq_or_of_lt hn, Nat.shiftLeft_eq]
  have hone : b.toNat <<< 8 = b.toNat * 256 := Nat.shiftLeft_eq _ _
  simp only [shiftGroup, Nat.zero_mul, Nat.reduceMul, Nat.shiftLeft_zero, Nat.or_zero]
  refine ⟨?_, ?_, ?_⟩
  · rw [hlow, hhigh (by omega)]
  · rw [hone, hhigh (by omega)]
  · exact Nat.shiftLeft_eq _ _

theorem b64Byte_eq {p d : ℕ} (hd : d < 64) : b64Byte 1 p d = some (UInt8.ofNat (p * 4 + d / 16)) ∧
    b64Byte 2 p d = some (UInt8.ofNat (p % 16 * 16 + d / 4)) ∧
      b64Byte 3 p d = some (UInt8.ofNat (p % 4 * 64 + d)) := by
  have htop : (d &&& 0x30) >>> 4 = d / 16 := by
    rw [Nat.shiftRight_and_distrib, show 48 >>> 4 = 2 ^ 2 - 1 from rfl, Nat.and_two_pow_sub_one_eq_mod,
      Nat.shiftRight_eq_div_pow]
    omega
  have hmid : (d &&& 0x3c) >>> 2 = d / 4 := by
    rw [Nat.shiftRight_and_distrib, show 60 >>> 2 = 2 ^ 4 - 1 from rfl, Nat.and_two_pow_sub_one_eq_mod,
      Nat.shiftRight_eq_div_pow]
    omega
  refine ⟨?_, ?_, ?_⟩
  · rw [b64Byte, htop, ← Nat.shiftLeft_add_eq_or_of_lt (show d / 16 < 2 ^ 2 by omega), Nat.shiftLeft_eq]
  · rw [b64Byte, hmid, Nat.and_two_pow_sub_one_eq_mod _ 4,
      ← Nat.shiftLeft_add_eq_or_of_lt (show d / 4 < 2 ^ 4 by omega), Nat.shiftLeft_eq]
  · rw [b64Byte, Nat.and_two_pow_sub_one_eq_mod _ 2, ← Nat.shiftLeft_add_eq_or_of_lt (show d < 2 ^ 6 by omega),
      Nat.shiftLeft_eq]
    · exact fun h => absurd h (by decide)
    · exact fun h => absurd h (by decide)
    · exact fun h => absurd h (by decide)

theorem b64Digit_room {size phase prev : ℕ} {space : List UInt8} (h : space.length < size) (d : ℕ) :
    b64Digit size ⟨space, phase, prev⟩ d = ⟨space ++ (b64Byte phase prev d).toList, (phase + 1) % 4, d⟩ := by
  rw [b64Digit, if_pos h]

section Group

variable {size n : ℕ} {space : List UInt8} (prev : ℕ)

theorem b64Byte_sextet (hn : n < 2 ^ 24) :
    b64Byte 1 (sextet n 0) (sextet n 1) = some (UInt8.ofNat (n / 65536)) ∧
      b64Byte 2 (sextet n 1) (sextet n 2) = some (UInt8.ofNat (n / 256 % 256)) ∧
        b64Byte 3 (sextet n 2) (sextet n 3) = some (UInt8.ofNat (n % 256)) := by
  have hlt (i : ℕ) : sextet n i < 64 := by
    rw [sextet_eq]
    exact Nat.mod_lt _ (by decide)
  rw [(b64Byte_eq (hlt 1)).1, (b64Byte_eq (hlt 2)).2.1, (b64Byte_eq (hlt 3)).2.2]
  simp only [sextet_eq, Nat.reduceMul, Nat.reduceSub, Nat.reducePow]
  refine ⟨?_, ?_, ?_⟩
  · congr 2
    omega
  · congr 2
    omega
  · congr 2
    omega

theorem foldl_two (hn : n < 2 ^ 24) (hroom : space.length < size) :
    ((List.range 2).map (sextet n)).foldl (b64Digit size) ⟨space, 0, prev⟩ =
      ⟨space ++ [UInt8.ofNat (n / 65536)], 2, sextet n 1⟩ := by
  have hstart : b64Digit size ⟨space, 0, prev⟩ (sextet n 0) = ⟨space, 1, sextet n 0⟩ := by
    rw [b64Digit_room hroom, b64Byte, Option.toList_none, List.append_nil]
  change b64Digit size (b64Digit size ⟨space, 0, prev⟩ (sextet n 0)) (sextet n 1) = _
  rw [hstart, b64Digit_room hroom, (b64Byte_sextet hn).1]
  rfl

theorem foldl_three (hn : n < 2 ^ 24) (hroom : space.length + 1 < size) :
    ((List.range 3).map (sextet n)).foldl (b64Digit size) ⟨space, 0, prev⟩ =
      ⟨space ++ [UInt8.ofNat (n / 65536), UInt8.ofNat (n / 256 % 256)], 3, sextet n 2⟩ := by
  rw [List.range_succ, List.map_append, List.foldl_append, foldl_two prev hn (by omega)]
  change b64Digit size _ (sextet n 2) = _
  rw [b64Digit_room (by rwa [List.length_append]), (b64Byte_sextet hn).2.1, Option.toList_some, List.append_assoc]
  rfl

theorem foldl_four (hn : n < 2 ^ 24) (hroom : space.length + 2 < size) :
    ((List.range 4).map (sextet n)).foldl (b64Digit size) ⟨space, 0, prev⟩ =
      ⟨space ++ [UInt8.ofNat (n / 65536), UInt8.ofNat (n / 256 % 256), UInt8.ofNat (n % 256)], 0, sextet n 3⟩ := by
  rw [List.range_succ, List.map_append, List.foldl_append, foldl_three prev hn (by omega)]
  change b64Digit size _ (sextet n 3) = _
  rw [b64Digit_room (by rwa [List.length_append]), (b64Byte_sextet hn).2.2, Option.toList_some, List.append_assoc]
  rfl

variable {room : ℕ} (a b c : UInt8)

theorem decode_group_one (hroom : 2 ≤ room) (hsize : space.length < size) :
    ((encodeGroup room [a]).filterMap b64Value).foldl (b64Digit size) ⟨space, 0, prev⟩ =
      ⟨space ++ [a], 2, sextet (shiftGroup 3 [a]) 1⟩ := by
  have ha := a.toNat_lt
  have hn := (shiftGroup_eq a a a).2.2
  have hbyte : shiftGroup 3 [a] / 65536 = a.toNat := by omega
  rw [encodeGroup_digits hroom]
  refine (foldl_two prev (by omega) hsize).trans ?_
  rw [hbyte, UInt8.ofNat_toNat]

theorem decode_group_two (hroom : 3 ≤ room) (hsize : space.length + 1 < size) :
    ((encodeGroup room [a, b]).filterMap b64Value).foldl (b64Digit size) ⟨space, 0, prev⟩ =
      ⟨space ++ [a, b], 3, sextet (shiftGroup 3 [a, b]) 2⟩ := by
  have ha := a.toNat_lt
  have hb := b.toNat_lt
  have hn := (shiftGroup_eq a b b).2.1
  have hfirst : shiftGroup 3 [a, b] / 65536 = a.toNat := by omega
  have hsecond : shiftGroup 3 [a, b] / 256 % 256 = b.toNat := by omega
  rw [encodeGroup_digits hroom]
  refine (foldl_three prev (by omega) hsize).trans ?_
  rw [hfirst, hsecond, UInt8.ofNat_toNat, UInt8.ofNat_toNat]

theorem decode_group_three (hroom : 4 ≤ room) (hsize : space.length + 2 < size) :
    ((encodeGroup room [a, b, c]).filterMap b64Value).foldl (b64Digit size) ⟨space, 0, prev⟩ =
      ⟨space ++ [a, b, c], 0, sextet (shiftGroup 3 [a, b, c]) 3⟩ := by
  have ha := a.toNat_lt
  have hb := b.toNat_lt
  have hc := c.toNat_lt
  have hn := (shiftGroup_eq a b c).1
  have hfirst : shiftGroup 3 [a, b, c] / 65536 = a.toNat := by omega
  have hsecond : shiftGroup 3 [a, b, c] / 256 % 256 = b.toNat := by omega
  have hthird : shiftGroup 3 [a, b, c] % 256 = c.toNat := by omega
  rw [encodeGroup_digits hroom]
  refine (foldl_four prev (by omega) hsize).trans ?_
  rw [hfirst, hsecond, hthird, UInt8.ofNat_toNat, UInt8.ofNat_toNat, UInt8.ofNat_toNat]

theorem encodeGroup_length_three (hroom : 4 ≤ room) : (encodeGroup room [a, b, c]).length = 4 := by
  rw [encodeGroup, List.take_of_length_le (by rwa [List.length_range])]
  rfl

end Group

theorem decode_websEncode64From {size outlen : ℕ} {outbuf space s : List UInt8} {prev : ℕ}
    (hout : (outbuf.filterMap b64Value).foldl (b64Digit size) {} = ⟨space, 0, prev⟩)
    (hroom : outbuf.length + 4 * ((s.length + 2) / 3) ≤ outlen) (hsize : space.length + s.length ≤ size) :
    (((websEncode64From outlen outbuf s).filterMap b64Value).foldl (b64Digit size) {}).space = space ++ s := by
  -- only a last group of fewer than three bytes leaves the decoder in another phase
  induction outbuf, s using websEncode64From.induct outlen generalizing space prev with
  | case1 outbuf => rw [websEncode64From, hout, List.append_nil]
  | case2 outbuf a =>
    rw [List.length_singleton] at hroom hsize
    rw [websEncode64From, List.filterMap_append, List.foldl_append, hout,
      decode_group_one prev a (by omega) (by omega)]
  | case3 outbuf a b =>
    rw [List.length_cons, List.length_singleton] at hroom hsize
    rw [websEncode64From, List.filterMap_append, List.foldl_append, hout,
      decode_group_two prev a b (by omega) (by omega)]
  | case4 outbuf a b c s ih =>
    rw [List.length_cons, List.length_cons, List.length_cons] at hroom hsize
    have hgroup := @decode_group_three size space prev (outlen - outbuf.length) a b c (by omega) (by omega)
    rw [websEncode64From, @ih (space ++ [a, b, c]) (sextet (shiftGroup 3 [a, b, c]) 3), List.append_assoc]
    · rfl
    · rw [List.filterMap_append, List.foldl_append, hout, hgroup]
    · rw [List.length_append, encodeGroup_length_three a b c (by omega)]
      omega
    · rw [List.length_append, List.length_cons, List.length_cons, List.length_singleton]
      omega

inductive Sprinkled : List UInt8 → List UInt8 → Prop
  | nil : Sprinkled [] []
  | keep (c : UInt8) {s t : List UInt8} : Sprinkled s t → Sprinkled (c :: s) (c :: t)
  | junk {c : UInt8} {s t : List UInt8} : c ∉ alphabet64 → c ≠ 0 → Sprinkled s t → Sprinkled s (c :: t)

theorem Sprinkled.digits {s t : List UInt8} (h : Sprinkled s t) : t.filterMap b64Value = s.filterMap b64Value := by
  induction h with
  | nil => rfl
  | keep c _ ih => rw [List.filterMap_cons, List.filterMap_cons, ih]
  | junk hc _ _ ih =>
    rw [← isSome_b64Value_iff, Bool.not_eq_true, Option.isSome_eq_false_iff, Option.isNone_iff_eq_none] at hc
    rw [List.filterMap_cons_none hc, ih]

theorem b64Byte_length (phase prev d : ℕ) : (b64Byte phase prev d).toList.length = min phase 1 := by
  rcases phase with _ | _ | _ | phase
  · rfl
  · rfl
  · rfl
  · rw [Nat.min_eq_right (by omega)]
    rfl

structure DigitsRead (size n : ℕ) (s : B64State) : Prop where
  phase : s.phase = n % 4
  fits : s.space.length ≤ size
  ratio : 4 * s.space.length ≤ 3 * n

theorem DigitsRead.digit {size n : ℕ} {s : B64State} (h : DigitsRead size n s) (d : ℕ) :
    DigitsRead size (n + 1) (b64Digit size s d) := by
  obtain ⟨hphase, hfits, hratio⟩ := h
  have hphase' : (s.phase + 1) % 4 = (n + 1) % 4 := by omega
  have hratio' : 4 * (s.space.length + min s.phase 1) ≤ 3 * (n + 1) := by
    have hcases : n % 4 = 0 ∨ n % 4 = 1 ∨ n % 4 = 2 ∨ n % 4 = 3 := by omega
    rcases hcases with h | h | h | h <;> omega
  rw [b64Digit]
  split_ifs with hroom
  · refine ⟨hphase', ?_, ?_⟩
    · rw [List.length_append, b64Byte_length]
      omega
    · rwa [List.length_append, b64Byte_length]
  · exact ⟨hphase', hfits, by dsimp only; omega⟩

theorem DigitsRead.foldl {size n : ℕ} {s : B64State} (h : DigitsRead size n s) (ds : List ℕ) :
    DigitsRead size (n + ds.length) (ds.foldl (b64Digit size) s) := by
  induction ds generalizing n s with
  | nil => exact h
  | cons d ds ih =>
    have hrest := ih (h.digit d)
    rwa [Nat.add_assoc, Nat.add_comm 1] at hrest

def b64Grow (s : B64State) (d : ℕ) : B64State :=
  { space := s.space ++ (b64Byte s.phase s.prev d).toList
    phase := (s.phase + 1) % 4
    prev := d }

theorem DigitsRead.foldl_grow {size n : ℕ} {s : B64State} (h : DigitsRead size n s) {ds : List ℕ}
    (hsize : n + ds.length ≤ size) : ds.foldl (b64Digit size) s = ds.foldl b64Grow s := by
  induction ds generalizing n s with
  | nil => rfl
  | cons d ds ih =>
    rw [List.length_cons] at hsize
    have hratio := h.ratio
    have hgrow : b64Digit size s d = b64Grow s d := by
      rw [b64Digit, if_pos (by omega), b64Grow]
    rw [List.foldl_cons, List.foldl_cons, ← hgrow]
    exact ih (h.digit d) (by omega)

theorem digitsRead_start (size : ℕ) : DigitsRead size 0 {} := ⟨rfl, Nat.zero_le _, Nat.zero_le _⟩

theorem b64Decode_congr {s t : List UInt8} {size size' : ℕ} (h : s.filterMap b64Value = t.filterMap b64Value)
    (hs : s.length ≤ size) (ht : t.length ≤ size') : b64Decode s size = b64Decode t size' := by
  have hdigits {l : List UInt8} {n : ℕ} (hl : l.length ≤ n) : 0 + (l.filterMap b64Value).length ≤ n := by
    rw [Nat.zero_add]
    exact (List.length_filterMap_le _ _).trans hl
  rw [b64Decode_eq, b64Decode_eq, (digitsRead_start size).foldl_grow (hdigits hs),
    (digitsRead_start size').foldl_grow (hdigits ht), h]

theorem b64Decode_websEncode64 :
    (∀ (s t : List UInt8) (outlen size : ℕ), 4 * ((s.length + 2) / 3) ≤ outlen → Sprinkled (websEncode64 s outlen) t →
      s.length ≤ size → b64Decode t size = s) ∧
    ∀ (str : List UInt8) (size : ℕ),
      (b64Decode str size).length ≤ min size (3 * (str.countP (· ∈ alphabet64)) / 4) := by
  constructor
  · intro s t outlen size hout ht hsize
    have hdecode := @decode_websEncode64From size outlen [] [] s 0 rfl (by rwa [List.length_nil, Nat.zero_add])
      (by rwa [List.length_nil, Nat.zero_add])
    rw [b64Decode_eq, ht.digits]
    exact hdecode
  · intro str size
    have hread := (digitsRead_start size).foldl (str.filterMap b64Value)
    have hcount : (str.filterMap b64Value).length = str.countP (· ∈ alphabet64) := by
      rw [List.length_filterMap_eq_countP]
      apply List.countP_congr
      intro c _
      rw [isSome_b64Value_iff, decide_eq_true_eq]
    rw [Nat.zero_add, hcount] at hread
    have hratio := hread.ratio
    rw [b64Decode_eq]
    exact le_min hread.fits (by omega)

theorem b64Decode_folded_line : b64Decode (text "YWRt\r\naW4=") 5 = text "admin" := by
  apply b64Decode_websEncode64.1 (text "admin") _ 8 5 (by decide) _ (by decide)
  rw [show websEncode64 (text "admin") 8 = text "YWRtaW4=" by decide]
  exact .keep _ (.keep _ (.keep _ (.keep _ (.junk (by decide) (by decide) (.junk (by decide) (by decide)
    (.keep _ (.keep _ (.keep _ (.keep _ .nil)))))))))

end Wap610n.Web
