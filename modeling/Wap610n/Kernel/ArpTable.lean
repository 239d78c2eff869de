import Wap610n.Lib.Bytes
import Wap610n.Lib.Inet

namespace Wap610n.Kernel

open Bytes CString Stdio Inet

def showHex : ℕ → ℕ → List UInt8
  | 0, _ => []
  | fuel + 1, n => (if n < 16 then [] else showHex fuel (n / 16)) ++ [(text "0123456789abcdef").getD (n % 16) 0]

def padRight (width : ℕ) (s : List UInt8) : List UInt8 := s ++ List.replicate (width - s.length) 32

/-- An entry for an Ethernet device; its name is as the kernel allows it, without white space. -/
structure ArpEntry where
  primaryKey : BitVec 32
  hatype : BitVec 16
  flags : BitVec 32
  ha : List UInt8
  dev : List UInt8
  ha_length : ha.length = 6
  dev_word : IsWord dev
  dev_nul : 0 ∉ dev
  dev_length : dev.length < 16

namespace ArpEntry

def hexByte (b : UInt8) : List UInt8 :=
  [(text "0123456789ABCDEF").getD (b.toNat / 16) 0, (text "0123456789ABCDEF").getD (b.toNat % 16) 0, 58]

/-- The colon behind the last byte is overwritten by the NUL. -/
def hbuffer (e : ArpEntry) : List UInt8 := (e.ha.flatMap hexByte).dropLast

def arpFormatNeighEntry (e : ArpEntry) : List UInt8 :=
  padRight 16 (inetNtoa e.primaryKey) ++ text " 0x" ++ padRight 10 (showHex 8 e.hatype.toNat) ++ text "0x" ++
    padRight 10 (showHex 8 e.flags.toNat) ++ e.hbuffer ++ text "     *        " ++ e.dev

end ArpEntry

def arpSeqShow (entries : List ArpEntry) : List UInt8 :=
  (text "IP address       HW type     Flags       HW address            Mask     Device" ::
    entries.map ArpEntry.arpFormatNeighEntry).flatMap (· ++ [10])

def Plain (w : List UInt8) : Prop := ∀ c ∈ w, isSpace c = false ∧ c ≠ 0

theorem Plain.append {a b : List UInt8} (ha : Plain a) (hb : Plain b) : Plain (a ++ b) := by
  intro c hc
  rcases List.mem_append.mp hc with hc | hc
  · exact ha c hc
  · exact hb c hc

theorem Plain.isWord {w : List UInt8} (h : Plain w) (hne : w ≠ []) : IsWord w := ⟨hne, fun c hc => (h c hc).1⟩

theorem hexDigit_plain : ∀ d < 16,
    (isSpace ((text "0123456789abcdef").getD d 0) = false ∧ (text "0123456789abcdef").getD d 0 ≠ 0) ∧
      isSpace ((text "0123456789ABCDEF").getD d 0) = false ∧ (text "0123456789ABCDEF").getD d 0 ≠ 0 := by
  decide

theorem showHex_plain (fuel n : ℕ) : Plain (showHex fuel n) := by
  induction fuel generalizing n with
  | zero =>
    intro c hc
    exact absurd hc List.not_mem_nil
  | succ fuel ih =>
    rw [showHex]
    apply Plain.append
    · split_ifs
      · intro c hc
        exact absurd hc List.not_mem_nil
      · exact ih (n / 16)
    · intro c hc
      rw [List.mem_singleton.mp hc]
      exact (hexDigit_plain (n % 16) (Nat.mod_lt n (by decide))).1

theorem showHex_length (fuel n : ℕ) : (showHex fuel n).length ≤ fuel := by
  induction fuel generalizing n with
  | zero => exact Nat.le_refl 0
  | succ fuel ih =>
    rw [showHex, List.length_append, List.length_singleton]
    split_ifs
    · exact Nat.succ_le_succ (Nat.zero_le fuel)
    · exact Nat.succ_le_succ (ih (n / 16))

theorem inetNtoa_plain (a : BitVec 32) : Plain (inetNtoa a) := by
  have hnat : ∀ n, Plain (showNat n) := by
    intro n c hc
    have hrange := mem_showNat hc
    refine ⟨isSpace_of_isAddressChar c ?_, ?_⟩
    · rw [isAddressChar, isDigit, decide_eq_true hrange, Bool.true_or]
    · rintro rfl
      exact absurd hrange.1 (by decide)
  have hdot : ∀ {s}, Plain s → Plain (46 :: s) := by
    intro s hs c hc
    rcases List.mem_cons.mp hc with rfl | hc
    · decide
    · exact hs c hc
  exact (hnat _).append (hdot ((hnat _).append (hdot ((hnat _).append (hdot (hnat _))))))

theorem showNat_byte : ∀ n < 256, (showNat n).length ≤ 3 := by
  decide +kernel

theorem inetNtoa_length (a : BitVec 32) : (inetNtoa a).length ≤ 15 := by
  have hbyte : ∀ i, (showNat (inetByte a i)).length ≤ 3 := by
    intro i
    apply showNat_byte
    rw [inetByte_eq]
    exact Nat.mod_lt _ (by decide)
  have h0 := hbyte 0
  have h1 := hbyte 1
  have h2 := hbyte 2
  have h3 := hbyte 3
  simp only [inetNtoa, List.length_append, List.length_cons]
  omega

namespace ArpEntry

variable (e : ArpEntry)

theorem hbuffer_plain : Plain e.hbuffer := by
  intro c hc
  obtain ⟨b, -, hc⟩ := List.mem_flatMap.mp (List.mem_of_mem_dropLast hc)
  have hlt := b.toNat_lt
  have hhigh := (hexDigit_plain (b.toNat / 16) (by omega)).2
  have hlow := (hexDigit_plain (b.toNat % 16) (by omega)).2
  rcases List.mem_cons.mp hc with rfl | hc
  · exact hhigh
  rcases List.mem_cons.mp hc with rfl | hc
  · exact hlow
  · rw [List.mem_singleton.mp hc]
    decide

theorem hbuffer_length : e.hbuffer.length = 17 := by
  have hbytes : (e.ha.flatMap hexByte).length = 3 * e.ha.length := by
    induction e.ha with
    | nil => rfl
    | cons b ha ih =>
      have hbyte : (hexByte b).length = 3 := rfl
      rw [List.flatMap_cons, List.length_append, ih, List.length_cons, hbyte]
      omega
  rw [hbuffer, List.length_dropLast, hbytes, e.ha_length]

theorem dev_plain : Plain e.dev := fun c hc => ⟨e.dev_word.2 c hc, fun h => e.dev_nul (h ▸ hc)⟩

theorem arpFormatNeighEntry_chars : ∀ c ∈ e.arpFormatNeighEntry, c ≠ 10 ∧ c ≠ 0 := by
  have hplain : ∀ {w}, Plain w → ∀ c ∈ w, c ≠ 10 ∧ c ≠ 0 := by
    intro w hw c hc
    refine ⟨?_, (hw c hc).2⟩
    rintro rfl
    exact absurd (hw 10 hc).1 (by decide)
  have hpad : ∀ {w} (k : ℕ), Plain w → ∀ c ∈ padRight k w, c ≠ 10 ∧ c ≠ 0 := by
    intro w k hw c hc
    rcases List.mem_append.mp hc with hc | hc
    · exact hplain hw c hc
    · rw [List.eq_of_mem_replicate hc]
      decide
  simp only [arpFormatNeighEntry, List.forall_mem_append]
  have hblank : ∀ c ∈ text " 0x", c ≠ 10 ∧ c ≠ 0 := forall_mem_of_all (by decide)
  have hhex : ∀ c ∈ text "0x", c ≠ 10 ∧ c ≠ 0 := forall_mem_of_all (by decide)
  have hmask : ∀ c ∈ text "     *        ", c ≠ 10 ∧ c ≠ 0 := forall_mem_of_all (by decide)
  exact ⟨⟨⟨⟨⟨⟨⟨hpad 16 (inetNtoa_plain _), hblank⟩, hpad 10 (showHex_plain _ _)⟩, hhex⟩,
    hpad 10 (showHex_plain _ _)⟩, hplain e.hbuffer_plain⟩, hmask⟩, hplain e.dev_plain⟩

theorem padRight_length {width : ℕ} {s : List UInt8} (h : s.length ≤ width) : (padRight width s).length = width := by
  rw [padRight, List.length_append, List.length_replicate]
  omega

theorem arpFormatNeighEntry_length : e.arpFormatNeighEntry.length < 88 := by
  have hdev := e.dev_length
  have hip : (inetNtoa e.primaryKey).length ≤ 16 := Nat.le_succ_of_le (inetNtoa_length _)
  have htype : (showHex 8 e.hatype.toNat).length ≤ 10 := (showHex_length 8 _).trans (by decide)
  have hflags : (showHex 8 e.flags.toNat).length ≤ 10 := (showHex_length 8 _).trans (by decide)
  have hblank : (text " 0x").length = 3 := rfl
  have hhex : (text "0x").length = 2 := rfl
  have hmask : (text "     *        ").length = 14 := rfl
  simp only [arpFormatNeighEntry, List.length_append, padRight_length hip, padRight_length htype,
    padRight_length hflags, e.hbuffer_length, hblank, hhex, hmask]
  omega

end ArpEntry

theorem lines_arpSeqShow (entries : List ArpEntry) : (lines 512 (arpSeqShow entries)).drop 1 =
    entries.map fun e => e.arpFormatNeighEntry ++ [10] := by
  have hlines : ∀ line ∈ text "IP address       HW type     Flags       HW address            Mask     Device" ::
      entries.map ArpEntry.arpFormatNeighEntry, 10 ∉ line ∧ line.length + 1 < 512 := by
    rw [List.forall_mem_cons]
    refine ⟨by decide, ?_⟩
    intro line hline
    obtain ⟨e, -, rfl⟩ := List.mem_map.mp hline
    have hlen := e.arpFormatNeighEntry_length
    exact ⟨fun hmem => (e.arpFormatNeighEntry_chars 10 hmem).1 rfl, by omega⟩
  rw [arpSeqShow, lines_flatMap hlines, List.map_cons, List.map_map, List.drop_succ_cons, List.drop_zero]
  rfl

end Wap610n.Kernel
