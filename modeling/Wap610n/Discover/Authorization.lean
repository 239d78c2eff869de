import Wap610n.Discover.Header
import Wap610n.Web.Encode64

namespace Wap610n.Discover

open Bytes CString Web

def afterColon (s : List UInt8) : List UInt8 := s.drop ((upTo 58 s).length + 1)

def trimBlanks (s : List UInt8) : List UInt8 := (s.dropWhile isBlank).rdropWhile isBlank

def NoOuterBlank (s : List UInt8) : Prop := ∀ hs : s ≠ [], isBlank (s.head hs) = false ∧ isBlank (s.getLast hs) = false

def sentPassword (pair : List UInt8) : Option (List UInt8) := if 58 ∈ pair then some (afterColon pair) else none

def heldPassword (pair : List UInt8) : Option (List UInt8) :=
  if 58 ∈ upTo 0 pair then some (trimBlanks (afterColon (upTo 0 pair))) else none

def decodeText (s : List UInt8) : List UInt8 := b64Decode s s.length

def BasicCredentials (value password : List UInt8) : Prop :=
  ∃ n cert, value = text "Basic" ++ (List.replicate (n + 1) 32 ++ cert) ∧
    sentPassword (decodeText cert) = some password

theorem b64Value_of_isBlank {c : UInt8} (h : isBlank c = true) : b64Value c = none := by
  rcases of_decide_eq_true h with rfl | rfl <;> rfl

theorem filterMap_dropWhile_isBlank (s : List UInt8) :
    (s.dropWhile isBlank).filterMap b64Value = s.filterMap b64Value := by
  induction s with
  | nil => rfl
  | cons c s ih =>
    rw [List.dropWhile_cons]
    split_ifs with h
    · rw [ih, List.filterMap_cons_none (b64Value_of_isBlank h)]
    · rfl

theorem decodeText_congr {s t : List UInt8} (h : s.filterMap b64Value = t.filterMap b64Value) :
    decodeText s = decodeText t := b64Decode_congr h le_rfl le_rfl

theorem decodeText_blanks (n : ℕ) (s : List UInt8) : decodeText (List.replicate n 32 ++ s) = decodeText s := by
  apply decodeText_congr
  rw [List.filterMap_append, List.filterMap_eq_nil_iff.mpr, List.nil_append]
  intro c hc
  rw [List.eq_of_mem_replicate hc]
  rfl

theorem trimBlanks_length_le (s : List UInt8) : (trimBlanks s).length ≤ s.length :=
  (List.rdropWhile_prefix _ _).length_le.trans (List.dropWhile_suffix _).length_le

theorem trimBlanks_eq_self_iff {s : List UInt8} : trimBlanks s = s ↔ NoOuterBlank s := by
  constructor
  · intro h hs
    have hdrop : s.dropWhile isBlank = s := by
      apply (List.dropWhile_suffix _).eq_of_length_le
      calc s.length = (trimBlanks s).length := by rw [h]
        _ ≤ (s.dropWhile isBlank).length := (List.rdropWhile_prefix _ _).length_le
    rw [trimBlanks, hdrop] at h
    refine ⟨Bool.eq_false_iff.mpr ?_, Bool.eq_false_iff.mpr (List.rdropWhile_eq_self_iff.mp h hs)⟩
    rw [List.head_eq_getElem]
    exact List.dropWhile_eq_self_iff.mp hdrop _
  · intro h
    have hdrop : s.dropWhile isBlank = s := by
      apply List.dropWhile_eq_self_iff.mpr
      intro hlen
      rw [← List.head_eq_getElem (List.ne_nil_of_length_pos hlen), (h _).1]
      exact Bool.false_ne_true
    rw [trimBlanks, hdrop, List.rdropWhile_eq_self_iff]
    intro hs
    rw [(h hs).2]
    exact Bool.false_ne_true

theorem afterColon_append {a b : List UInt8} (h : 58 ∈ a) : afterColon (a ++ b) = afterColon a ++ b := by
  obtain ⟨r, hnot, hr⟩ := eq_upTo_append h
  have hcut {s : List UInt8} : afterColon (upTo 58 a ++ 58 :: s) = s := by
    rw [afterColon, upTo_append_cons hnot, ← List.drop_drop, List.drop_left]
    rfl
  have happ : a ++ b = upTo 58 a ++ 58 :: (r ++ b) := by
    nth_rewrite 1 [hr]
    rw [List.append_assoc, List.cons_append]
  have ha : afterColon a = r := by
    nth_rewrite 1 [hr]
    exact hcut
  rw [happ, hcut, ha]

theorem heldPassword_eq_iff {pair : List UInt8} (h : 58 ∈ pair) :
    heldPassword pair = sentPassword pair ↔ 0 ∉ pair ∧ NoOuterBlank (afterColon pair) := by
  rw [sentPassword, if_pos h]
  constructor
  · intro heq
    rw [heldPassword] at heq
    split_ifs at heq with hmem
    have hpass := Option.some.inj heq
    obtain ⟨rest, hrest⟩ := List.takeWhile_prefix (l := pair) fun d => decide (d ≠ 0)
    have hcut : afterColon pair = afterColon (upTo 0 pair) ++ rest := by
      nth_rewrite 1 [← hrest]
      exact afterColon_append hmem
    have hlen := congrArg List.length hpass
    have hle := trimBlanks_length_le (afterColon (upTo 0 pair))
    rw [hcut, List.length_append] at hlen
    have hnil : rest = [] := List.length_eq_zero_iff.mp (by omega)
    have hfull : upTo 0 pair = pair := by
      rw [hnil, List.append_nil] at hrest
      exact hrest
    rw [hfull] at hpass
    refine ⟨?_, trimBlanks_eq_self_iff.mp hpass⟩
    intro hzero
    obtain ⟨r, hnot, -⟩ := eq_upTo_append hzero
    rw [hfull] at hnot
    exact hnot hzero
  · rintro ⟨hzero, hblank⟩
    rw [heldPassword, upTo_of_notMem hzero, if_pos h, trimBlanks_eq_self_iff.mpr hblank]

section Value

variable {scheme rest : List UInt8} (hscheme : 32 ∉ scheme) (password : List UInt8)
include hscheme

theorem ddVerifyAuthorization_eq : ddVerifyAuthorization password (scheme ++ 32 :: rest) =
    some (decide (scheme = text "Basic" ∧ heldPassword (decodeText (32 :: rest)) = some password)) := by
  have hcert : b64Decode ((32 :: rest).dropWhile isBlank) ((32 :: rest).dropWhile isBlank).length =
      decodeText (32 :: rest) := decodeText_congr (filterMap_dropWhile_isBlank (32 :: rest))
  rw [ddVerifyAuthorization, strchr_append_cons hscheme, Option.map_some, upTo_append_cons hscheme]
  dsimp only
  rw [hcert, heldPassword]
  congr 2
  split_ifs with hmem
  · rw [Option.some.injEq, and_iff_right hmem]
    rfl
  · simp only [hmem, false_and, and_false]

theorem basicCredentials_iff : BasicCredentials (scheme ++ 32 :: rest) password ↔
    scheme = text "Basic" ∧ sentPassword (decodeText (32 :: rest)) = some password := by
  have hbasic : 32 ∉ text "Basic" := by decide
  constructor
  · rintro ⟨n, cert, hvalue, hpass⟩
    rw [List.replicate_succ, List.cons_append] at hvalue
    have hname := congrArg (upTo 32) hvalue
    rw [upTo_append_cons hscheme, upTo_append_cons hbasic] at hname
    rw [hname] at hvalue
    have hrest := List.append_cancel_left hvalue
    rw [← List.cons_append, ← List.replicate_succ] at hrest
    exact ⟨hname, by rw [hrest, decodeText_blanks, hpass]⟩
  · rintro ⟨rfl, hpass⟩
    exact ⟨0, rest, rfl, (decodeText_blanks 1 rest) ▸ hpass⟩

end Value

def AuthorizationPlain (value password : List UInt8) : Prop :=
  32 ∈ value ∧ (upTo 32 value = text "Basic" →
    let pair := decodeText (value.drop (upTo 32 value).length)
    (58 ∈ pair → 0 ∉ pair ∧ NoOuterBlank (afterColon pair)) ∨
      heldPassword pair ≠ some password ∧ sentPassword pair ≠ some password)

theorem held_iff_sent {pair password : List UInt8} :
    (heldPassword pair = some password ↔ sentPassword pair = some password) ↔
      (58 ∈ pair → 0 ∉ pair ∧ NoOuterBlank (afterColon pair)) ∨
        heldPassword pair ≠ some password ∧ sentPassword pair ≠ some password := by
  by_cases hmem : 58 ∈ pair
  · rw [← heldPassword_eq_iff hmem]
    constructor
    · intro h
      by_cases hheld : heldPassword pair = some password
      · exact Or.inl fun _ => hheld.trans (h.mp hheld).symm
      · exact Or.inr ⟨hheld, fun hsent => hheld (h.mpr hsent)⟩
    · rintro (h | ⟨hheld, hsent⟩)
      · rw [h hmem]
      · exact iff_of_false hheld hsent
  · have hnone : heldPassword pair = none := if_neg fun h => hmem ((List.takeWhile_prefix _).subset h)
    have hsent : sentPassword pair = none := if_neg hmem
    rw [hnone, hsent]
    exact iff_of_true Iff.rfl (Or.inl fun h => absurd h hmem)

theorem ddVerifyAuthorization_exact_iff (value password : List UInt8) :
    (∃ ok, ddVerifyAuthorization password value = some ok ∧ (ok = true ↔ BasicCredentials value password)) ↔
      AuthorizationPlain value password := by
  by_cases hblank : 32 ∈ value
  · obtain ⟨scheme, rest, hscheme, rfl⟩ : ∃ scheme rest, 32 ∉ scheme ∧ value = scheme ++ 32 :: rest := by
      obtain ⟨rest, hscheme, hvalue⟩ := eq_upTo_append hblank
      exact ⟨_, rest, hscheme, hvalue⟩
    rw [ddVerifyAuthorization_eq hscheme, basicCredentials_iff hscheme, AuthorizationPlain, and_iff_right hblank,
      upTo_append_cons hscheme, List.drop_left, ← held_iff_sent]
    simp only [Option.some.injEq, exists_eq_left', decide_eq_true_eq]
    exact and_congr_right_iff
  · have hnone : ddVerifyAuthorization password value = none := by
      rw [ddVerifyAuthorization, strchr_eq_none.mpr hblank, Option.map_none]
    rw [hnone]
    exact iff_of_false (fun ⟨_, h, _⟩ => absurd h (Option.some_ne_none _).symm) fun h => hblank h.1

theorem authorization_inexact : ddVerifyAuthorization (text "secret") (text "Basic") = none ∧
    ddVerifyAuthorization (text "secret") (text "Basic" ++ 32 :: text "dTogc2VjcmV0IA==") = some true ∧
      ¬BasicCredentials (text "Basic" ++ 32 :: text "dTogc2VjcmV0IA==") (text "secret") := by
  refine ⟨by decide, by decide, ?_⟩
  rw [basicCredentials_iff (by decide)]
  decide

end Wap610n.Discover
