import Wap610n.Discover.Body

namespace Wap610n.Discover

open Bytes CString

theorem headerLines_append {l : List UInt8} (hl : ∀ c ∈ l, c ≠ 0 ∧ c ≠ 13) (line s : List UInt8) :
    headerLines line (l ++ s) = headerLines (line ++ l) s := by
  induction l generalizing line with
  | nil => simp
  | cons c l ih =>
    have hrest := ih (fun x hx => hl x (List.mem_cons_of_mem _ hx)) (line ++ [c])
    rw [List.append_assoc, List.singleton_append] at hrest
    rw [← hrest, List.cons_append]
    cases l ++ s with
    | nil => simp [headerLines]
    | cons d t => rw [headerLines, if_neg (hl c List.mem_cons_self).2]

theorem nul_notMem {l : List UInt8} (hl : ∀ c ∈ l, c ≠ 0 ∧ c ≠ 13) : 0 ∉ l := fun h => (hl 0 h).1 rfl

theorem upTo_cons {c : UInt8} (hc : c ≠ 0) (s : List UInt8) : upTo 0 (c :: s) = c :: upTo 0 s := by
  simp [upTo, hc]

theorem not_crlf_upTo {l s : List UInt8} (hblank : ¬blankLine <:+: l ++ 13 :: 10 :: s) :
    ¬text "\r\n" <+: upTo 0 s := by
  rintro hp
  obtain ⟨r, hr⟩ := hp.trans (List.takeWhile_prefix _)
  apply hblank
  refine ⟨l, r, ?_⟩
  rw [← hr, blankLine_eq, crlf_eq, List.append_assoc]
  rfl

theorem headerLines_stray {l s : List UInt8} (hhead : s.head? ≠ some 10) :
    headerLines l (13 :: upTo 0 s) = headerLines [] (upTo 0 s) := by
  cases s with
  | nil => simp [upTo, headerLines]
  | cons d s =>
    have hd : d ≠ 10 := by simpa using hhead
    by_cases h0 : d = 0
    · simp [upTo, h0, headerLines]
    · rw [upTo_cons h0, headerLines, if_pos rfl, if_neg hd]

theorem headerLines_tail {l : List UInt8} (hl : ∀ c ∈ l, c ≠ 0 ∧ c ≠ 13) : headerLines [] l = [] := by
  have hnone := headerLines_append hl [] []
  rw [List.append_nil] at hnone
  rw [hnone, headerLines.eq_2 _ _ (by simp)]

theorem Outside.linesLength {n : ℕ} {data : List UInt8} (h : Outside n data) (hblank : ¬blankLine <:+: data) :
    Discover.linesLength (datagramLines data) + n = data.length := by
  have hshort : Discover.linesLength [] = 0 := rfl
  unfold datagramLines
  induction h with
  | @tail l hl =>
    rw [upTo_of_notMem (nul_notMem hl), headerLines_tail hl, hshort, Nat.zero_add]
  | @nul l r hl =>
    rw [upTo_append_cons (nul_notMem hl), headerLines_tail hl, hshort, List.length_append, List.length_cons]
    omega
  | @line n l s hl _ ih =>
    have hs : ¬blankLine <:+: s := fun hin => hblank (hin.trans ⟨l ++ [13, 10], [], by simp⟩)
    have hrest := ih hs
    rw [upTo_append (nul_notMem hl), upTo_cons (by decide), upTo_cons (by decide), headerLines_append hl,
      List.nil_append, headerLines, if_pos rfl, if_pos rfl, if_neg (not_crlf_upTo hblank), linesLength_cons,
      List.length_append, List.length_cons, List.length_cons]
    omega
  | @stray n l s hl hhead _ ih =>
    have hs : ¬blankLine <:+: s := fun hin => hblank (hin.trans ⟨l ++ [13], [], by simp⟩)
    have hrest := ih hs
    rw [upTo_append (nul_notMem hl), upTo_cons (by decide), headerLines_append hl, List.nil_append,
      headerLines_stray hhead, List.length_append, List.length_cons]
    omega

theorem exists_outside {l : List UInt8} (hl : ∀ c ∈ l, c ≠ 0 ∧ c ≠ 13) (s : List UInt8) : ∃ n, Outside n (l ++ s) := by
  induction hn : s.length using Nat.strong_induction_on generalizing l s with
  | _ k ih =>
    have hnil : ∀ c ∈ ([] : List UInt8), c ≠ 0 ∧ c ≠ 13 := fun _ h => absurd h List.not_mem_nil
    cases s with
    | nil => exact ⟨_, by rw [List.append_nil]; exact .tail hl⟩
    | cons c s =>
      rw [List.length_cons] at hn
      by_cases h0 : c = 0
      · exact ⟨_, by rw [h0]; exact .nul hl⟩
      by_cases h13 : c = 13
      · rw [h13]
        cases s with
        | nil => exact ⟨_, .stray hl (by simp) (.tail hnil)⟩
        | cons d s =>
          rw [List.length_cons] at hn
          by_cases hd : d = 10
          · obtain ⟨n, h⟩ := ih s.length (by omega) hnil s rfl
            exact ⟨n, by rw [hd]; exact .line hl h⟩
          · obtain ⟨n, h⟩ := ih (s.length + 1) (by omega) hnil (d :: s) rfl
            exact ⟨_, .stray hl (by simpa using hd) h⟩
      · obtain ⟨n, h⟩ := ih s.length (by omega) (l := l ++ [c]) (by
          intro x hx
          rcases List.mem_append.mp hx with hx | hx
          · exact hl x hx
          · rw [List.mem_singleton.mp hx]
            exact ⟨h0, h13⟩) s rfl
        exact ⟨n, by rwa [List.append_assoc, List.singleton_append] at h⟩

theorem outside_iff {n : ℕ} {data : List UInt8} (hblank : ¬blankLine <:+: data) :
    Outside n data ↔ linesLength (datagramLines data) + n = data.length := by
  refine ⟨fun h => h.linesLength hblank, fun h => ?_⟩
  obtain ⟨m, hm⟩ := exists_outside (l := []) (fun _ h => absurd h List.not_mem_nil) data
  rw [List.nil_append] at hm
  have := hm.linesLength hblank
  rwa [show n = m by omega]

theorem bodyRight_iff (dev : Device) (data : List UInt8) :
    BodyRight dev data ↔ (∀ line ∈ datagramLines data, ¬BadAuthorization line) ∧ PlainHeader data := by
  rw [bodyRight_of_lines]
  apply and_congr_right'
  unfold PlainHeader afterBlankLine
  cases h : strstr blankLine data with
  | none =>
    have hblank : ¬blankLine <:+: data := by
      rw [← strstr_isSome, h]
      simp
    simp only [Option.map_none, Option.getD_none, List.drop_eq_nil_iff]
    rw [outside_iff hblank]
    omega
  | some t =>
    obtain ⟨a, ha, r, hr⟩ := strstr_split h
    have htake : data.take (data.length - t.length) = a := by
      rw [ha, List.length_append, Nat.add_sub_cancel, List.take_left]
    have hdrop : t.drop 4 = r := by rw [← hr, blankLine_eq]; rfl
    have hlen : data.length = a.length + 4 + r.length := by
      rw [ha, ← hr, blankLine_eq]
      simp only [List.length_append, List.length_cons, List.length_nil]
      omega
    simp only [Option.map_some, Option.getD_some]
    rw [htake, hdrop, ← linesLength_eq_iff h ha]
    constructor
    · rintro ⟨hle, heq⟩
      have := congrArg List.length heq
      rw [List.length_drop] at this
      omega
    · intro heq
      refine ⟨by omega, ?_⟩
      rw [heq, ha, Nat.add_assoc, List.drop_append, ← hr, blankLine_eq]
      simp

def capDatagram : List UInt8 := text "GET /HNAP1/CAP HTTP/1.1\r\n"

theorem body_wrong : bodyOf exampleDevice capDatagram = some (-2, []) ∧ ¬BodyRight exampleDevice capDatagram ∧
    bodyOf exampleDevice (text "\r\r\n\r\nX") = some (2, text "\nX") ∧
    ¬BodyRight exampleDevice (text "\r\r\n\r\nX") := by
  have hcap : bodyOf exampleDevice capDatagram = some (-2, []) := by decide
  have hstray : bodyOf exampleDevice (text "\r\r\n\r\nX") = some (2, text "\nX") := by decide
  refine ⟨hcap, ?_, hstray, ?_⟩
  · rintro ⟨bodyLen, body, h, hlen, -⟩
    cases Option.some.inj (hcap.symm.trans h)
    exact absurd hlen (by decide)
  · rintro ⟨bodyLen, body, h, -, hbody⟩
    cases Option.some.inj (hstray.symm.trans h)
    exact absurd hbody (by decide)

end Wap610n.Discover
