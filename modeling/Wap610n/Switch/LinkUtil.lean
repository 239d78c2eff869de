import Wap610n.Kernel.ArpTable

namespace Wap610n.Switch

open Bytes CString Stdio Inet Kernel

def awkPrint (configName line : List UInt8) : Option (List UInt8) :=
  if configName.isPrefixOf line then some ((((line.splitOn 61).getD 1 []).filter (· ≠ 32)).erase 13) else none

def awkValues (configName config : List UInt8) : List (List UInt8) :=
  (config.splitOn 10).filterMap (awkPrint configName)

def getConfig (configName config : List UInt8) : ℤ × List UInt8 :=
  match (lines 512 ((awkValues configName config).flatMap (· ++ [10]))).head? with
  | none => (-1, [])
  | some configValue => (0, upTo 0 configValue)

/-- With `isDHCP` 0; the array `gateway` is empty before. -/
def getClientGateway (config : List UInt8) : ℤ × List UInt8 :=
  let configValue := (getConfig (text "default_gw") config).2
  if configValue.length ≥ 16 then (-1, [])
  else if configValue.length ≠ 0 then (0, configValue)
  else (0, text "0.0.0.0")

def gatewayFound (gateway : List UInt8) : List Value → Bool
  | [.word ip, .word _, .word flags, .word hwAddr, .word _, .word _] =>
    gateway = ip ∧ hwAddr ≠ text "00:00:00:00:00:00" ∧ flags ≠ text "0x0"
  | _ => false

/-- A result of `none` is a word that does not fit its array. -/
def arpLoop (gateway : List UInt8) : List (List UInt8) → Option ℤ
  | [] => some 0
  | buf :: rest =>
    (sscanf [.word 16, .word 16, .word 16, .word 24, .word 16, .word 8] (upTo 0 buf)).bind fun values =>
      if gatewayFound gateway values then some 1 else arpLoop gateway rest

def checkGatewayInArptable (gateway arpTable : List UInt8) : Option ℤ := arpLoop gateway ((lines 512 arpTable).drop 1)

/-- The table is the one left by the pings that are sent in between. -/
def detectLayer3LinkByPackets (config arpTable : List UInt8) : Option ℤ :=
  let (status, gateway) := getClientGateway config
  if status = -1 then some (-1)
  else if gateway = text "0.0.0.0" then some (-1)
  else checkGatewayInArptable gateway arpTable

section Table

variable (e : ArpEntry)

def columns : List Column :=
  [⟨16, inetNtoa e.primaryKey, List.replicate (16 - (inetNtoa e.primaryKey).length) 32 ++ text " "⟩,
    ⟨16, text "0x" ++ showHex 8 e.hatype.toNat, List.replicate (10 - (showHex 8 e.hatype.toNat).length) 32⟩,
    ⟨16, text "0x" ++ showHex 8 e.flags.toNat, List.replicate (10 - (showHex 8 e.flags.toNat).length) 32⟩,
    ⟨24, e.hbuffer, text "     "⟩, ⟨16, text "*", text "        "⟩, ⟨8, e.dev, [10]⟩]

theorem row_eq_columns :
    e.arpFormatNeighEntry ++ [10] = (columns e).flatMap fun col => col.word ++ col.blank := by
  have hblank : text " 0x" = text " " ++ text "0x" := rfl
  have hmask : text "     *        " = text "     " ++ (text "*" ++ text "        ") := rfl
  simp only [ArpEntry.arpFormatNeighEntry, padRight, columns, List.flatMap_cons, List.flatMap_nil, hblank, hmask,
    List.append_assoc, List.append_nil]

theorem isBlank_hex (n : ℕ) : IsBlank (List.replicate (10 - (showHex 8 n).length) 32) := by
  have hlen := showHex_length 8 n
  refine ⟨?_, ?_⟩
  · rw [Ne, List.replicate_eq_nil_iff]
    omega
  · intro c hc
    rw [List.eq_of_mem_replicate hc]
    decide

theorem isWord_hex (n : ℕ) : IsWord (text "0x" ++ showHex 8 n) := by
  have hx : Plain (text "0x") := forall_mem_of_all (by decide)
  exact (hx.append (showHex_plain 8 n)).isWord (List.append_ne_nil_of_left_ne_nil (by decide) _)

theorem columns_separate : ∀ col ∈ columns e, col.Separate := by
  have hip : inetNtoa e.primaryKey ≠ [] := List.append_ne_nil_of_left_ne_nil (showNat_ne_nil _) _
  have hha : e.hbuffer ≠ [] := by
    rw [← List.length_pos_iff, e.hbuffer_length]
    decide
  have hpad : IsBlank (List.replicate (16 - (inetNtoa e.primaryKey).length) 32 ++ text " ") := by
    refine ⟨List.append_ne_nil_of_right_ne_nil _ (by decide), ?_⟩
    intro c hc
    rcases List.mem_append.mp hc with hc | hc
    · rw [List.eq_of_mem_replicate hc]
      decide
    · rw [List.mem_singleton.mp hc]
      decide
  have hfive : IsBlank (text "     ") := ⟨by decide, forall_mem_of_all (by decide)⟩
  have hstar : IsWord (text "*") := ⟨by decide, forall_mem_of_all (by decide)⟩
  have height : IsBlank (text "        ") := ⟨by decide, forall_mem_of_all (by decide)⟩
  have hnewline : IsBlank [10] := ⟨by decide, forall_mem_of_all (by decide)⟩
  unfold columns Column.Separate
  simp only [List.forall_mem_cons]
  exact ⟨⟨(inetNtoa_plain _).isWord hip, hpad⟩, ⟨isWord_hex _, isBlank_hex _⟩, ⟨isWord_hex _, isBlank_hex _⟩,
    ⟨e.hbuffer_plain.isWord hha, hfive⟩, ⟨hstar, height⟩, ⟨e.dev_word, hnewline⟩,
    fun col hcol => absurd hcol List.not_mem_nil⟩

theorem columns_fit : (∀ col ∈ columns e, col.word.length < col.size) ↔ e.dev.length < 8 := by
  have hip := inetNtoa_length e.primaryKey
  have htype := showHex_length 8 e.hatype.toNat
  have hflags := showHex_length 8 e.flags.toNat
  have hha := e.hbuffer_length
  have hx : (text "0x").length = 2 := rfl
  have hstar : (text "*").length = 1 := rfl
  unfold columns
  simp only [List.forall_mem_cons, List.length_append, hx, hstar]
  constructor
  · intro h
    exact h.2.2.2.2.2.1
  · intro h
    exact ⟨by omega, by omega, by omega, by omega, by omega, h, fun col hcol => absurd hcol List.not_mem_nil⟩

theorem sscanf_row : sscanf [.word 16, .word 16, .word 16, .word 24, .word 16, .word 8]
    (upTo 0 (e.arpFormatNeighEntry ++ [10])) =
      if e.dev.length < 8 then some ((columns e).map fun col => Value.word col.word) else none := by
  have hnul : 0 ∉ e.arpFormatNeighEntry ++ [10] := by
    intro hmem
    rcases List.mem_append.mp hmem with hmem | hmem
    · exact (e.arpFormatNeighEntry_chars 0 hmem).2 rfl
    · exact absurd hmem (by decide)
  rw [upTo_of_notMem hnul, row_eq_columns]
  refine (sscanf_columns (columns_separate e)).trans ?_
  rw [if_congr (columns_fit e) rfl rfl]

end Table

theorem arpLoop_newline (t : List UInt8) (entries : List ArpEntry) :
    arpLoop (t ++ [10]) (entries.map fun e => e.arpFormatNeighEntry ++ [10]) =
      if ∀ e ∈ entries, e.dev.length < 8 then some 0 else none := by
  induction entries with
  | nil => rfl
  | cons e entries ih =>
    rw [List.map_cons, arpLoop, sscanf_row]
    by_cases hdev : e.dev.length < 8
    swap
    · rw [if_neg hdev, if_neg fun h => hdev (h e List.mem_cons_self)]
      rfl
    have hword : t ++ [10] ≠ inetNtoa e.primaryKey := by
      intro heq
      have hmem : (10 : UInt8) ∈ inetNtoa e.primaryKey := heq ▸ List.mem_append_right t (List.mem_singleton_self 10)
      exact absurd (inetNtoa_plain _ 10 hmem).1 (by decide)
    have hfound : gatewayFound (t ++ [10]) ((columns e).map fun col => Value.word col.word) = false :=
      decide_eq_false fun h => hword h.1
    rw [if_pos hdev, Option.bind_some, hfound, if_neg Bool.false_ne_true, ih]
    simp only [List.forall_mem_cons, hdev, true_and]

end Wap610n.Switch
