import Wap610n.Discover.SetIp

namespace Wap610n.Discover

open Bytes CString

def blankLine : List UInt8 := text "\r\n\r\n"

def bodyOf (dev : Device) (data : List UInt8) : Option (ℤ × List UInt8) :=
  (headerLoop dev.sysPassword [] { devphy := dev.devMac } 0 (upTo 0 data)).map fun (_, dataRead) =>
    ((data.length : ℤ) - (dataRead + 2), data.drop (dataRead + 2))

def afterBlankLine (data : List UInt8) : List UInt8 := ((strstr blankLine data).map fun t => t.drop 4).getD []

def BodyRight (dev : Device) (data : List UInt8) : Prop :=
  ∃ bodyLen body, bodyOf dev data = some (bodyLen, body) ∧ 0 ≤ bodyLen ∧ body = afterBlankLine data

def BadAuthorization (line : List UInt8) : Prop :=
  ∃ value, headerValue .authorization line = some value ∧ value ≠ [] ∧ 32 ∉ value

def NoStrayCr : List UInt8 → Prop
  | [] => True
  | c :: s => (c = 13 → s.head? = some 10) ∧ NoStrayCr s

/-- In the datagram `n` bytes are not in a line that ends at a CR LF: what stands behind the last line or before
a stray CR, and all from the first NUL on. -/
inductive Outside : ℕ → List UInt8 → Prop
  | tail {l : List UInt8} (hl : ∀ c ∈ l, c ≠ 0 ∧ c ≠ 13) : Outside l.length l
  | nul {l r : List UInt8} (hl : ∀ c ∈ l, c ≠ 0 ∧ c ≠ 13) : Outside (l.length + 1 + r.length) (l ++ 0 :: r)
  | line {n : ℕ} {l s : List UInt8} (hl : ∀ c ∈ l, c ≠ 0 ∧ c ≠ 13) (h : Outside n s) : Outside n (l ++ 13 :: 10 :: s)
  | stray {n : ℕ} {l s : List UInt8} (hl : ∀ c ∈ l, c ≠ 0 ∧ c ≠ 13) (hs : s.head? ≠ some 10) (h : Outside n s) :
    Outside (l.length + 1 + n) (l ++ 13 :: s)

def PlainHeader (data : List UInt8) : Prop :=
  match strstr blankLine data with
  | some t => 0 ∉ data.take (data.length - t.length) ∧ NoStrayCr (data.take (data.length - t.length) ++ text "\r\n")
  | none => Outside 2 data

theorem strstr_split {needle s t : List UInt8} (h : strstr needle s = some t) : ∃ a, s = a ++ t ∧ needle <+: t := by
  induction s with
  | nil =>
    unfold strstr at h
    split_ifs at h with hn
    cases h
    exact ⟨[], rfl, hn ▸ List.prefix_rfl⟩
  | cons c s ih =>
    unfold strstr at h
    split_ifs at h with hp
    · cases h
      exact ⟨[], rfl, hp⟩
    · obtain ⟨a, rfl, hpre⟩ := ih h
      exact ⟨c :: a, rfl, hpre⟩

theorem headerLines_length_le (line s : List UInt8) : linesLength (headerLines line s) ≤ line.length + s.length := by
  induction line, s using headerLines.induct with
  | case1 line rest ih =>
    rw [headerLines, if_pos rfl, if_pos rfl, linesLength_cons, List.length_cons, List.length_cons]
    split_ifs
    · rw [linesLength, List.map_nil, List.sum_nil]
      omega
    · rw [List.length_nil] at ih
      omega
  | case2 line d rest hd ih =>
    rw [headerLines, if_pos rfl, if_neg hd]
    rw [List.length_nil] at ih
    rw [List.length_cons]
    omega
  | case3 line c d rest hc ih =>
    rw [headerLines, if_neg hc]
    rw [List.length_append, List.length_singleton] at ih
    rw [List.length_cons]
    omega
  | case4 s line h =>
    rw [headerLines.eq_2 _ _ h, linesLength, List.map_nil, List.sum_nil]
    omega

theorem blankLine_eq : blankLine = [13, 10, 13, 10] := rfl

theorem crlf_eq : text "\r\n" = [13, 10] := rfl

theorem strstr_skip {needle s t : List UInt8} {c : UInt8} (hn : ¬needle <+: c :: s)
    (h : strstr needle (c :: s) = some t) : strstr needle s = some t := by
  rwa [strstr, if_neg hn] at h

theorem strstr_cons {needle s t a : List UInt8} {c : UInt8} (hn : ¬needle <+: c :: s)
    (h : strstr needle (c :: s) = some t) (hs : c :: s = a ++ t) :
    ∃ b, a = c :: b ∧ s = b ++ t ∧ strstr needle s = some t := by
  have hrest := strstr_skip hn h
  obtain ⟨b, rfl, -⟩ := strstr_split hrest
  exact ⟨b, List.append_cancel_right hs.symm, rfl, hrest⟩

theorem blankLine_crlf_iff {rest : List UInt8} : blankLine <+: 13 :: 10 :: rest ↔ text "\r\n" <+: rest := by
  simp [blankLine_eq, crlf_eq, List.cons_prefix_cons]

theorem not_blankLine_start {c : UInt8} (hc : c ≠ 13) (s : List UInt8) : ¬blankLine <+: c :: s := by
  simp [blankLine_eq, List.cons_prefix_cons, Ne.symm hc]

theorem headerLines_blankLine {s a t : List UInt8} (line : List UInt8) (h : strstr blankLine s = some t)
    (hs : s = a ++ t) :
    linesLength (headerLines line s) ≤ line.length + a.length + 2 ∧
      (linesLength (headerLines line s) = line.length + a.length + 2 ↔ NoStrayCr (a ++ text "\r\n")) := by
  induction line, s using headerLines.induct generalizing a with
  | case1 line rest ih =>
    rw [headerLines, if_pos rfl, if_pos rfl, linesLength_cons]
    by_cases hend : text "\r\n" <+: rest
    · rw [strstr, if_pos (blankLine_crlf_iff.mpr hend), Option.some.injEq] at h
      have ha : a = [] := List.append_left_eq_self.mp (hs.symm.trans h)
      rw [if_pos hend, ha]
      simp [linesLength, NoStrayCr, crlf_eq]
    · obtain ⟨a, rfl, hs, h⟩ := strstr_cons (fun hp => hend (blankLine_crlf_iff.mp hp)) h hs
      obtain ⟨b, rfl, rfl, hrest⟩ := strstr_cons (not_blankLine_start (by decide) _) h hs
      obtain ⟨hle, hiff⟩ := ih hrest rfl
      rw [List.length_nil] at hle hiff
      have hstray : NoStrayCr (13 :: 10 :: b ++ text "\r\n") ↔ NoStrayCr (b ++ text "\r\n") := by
        simp [NoStrayCr]
      rw [if_neg hend, List.length_cons, List.length_cons, hstray, ← hiff]
      omega
  | case2 line d rest hd ih =>
    have hpre : ¬blankLine <+: 13 :: d :: rest := by
      simp [blankLine_eq, List.cons_prefix_cons, Ne.symm hd]
    obtain ⟨b, rfl, hb, hrest⟩ := strstr_cons hpre h hs
    obtain ⟨hle, -⟩ := ih hrest hb
    have hhead : (b ++ text "\r\n").head? ≠ some 10 := by
      cases b with
      | nil => simp [crlf_eq]
      | cons e b =>
        rw [List.cons_append, List.cons.injEq] at hb
        simpa [← hb.1] using hd
    rw [List.length_nil] at hle
    rw [headerLines, if_pos rfl, if_neg hd, List.length_cons]
    refine ⟨by omega, iff_of_false (by omega) fun hno => hhead (hno.1 rfl)⟩
  | case3 line c d rest hc ih =>
    obtain ⟨b, rfl, hb, hrest⟩ := strstr_cons (not_blankLine_start hc _) h hs
    obtain ⟨hle, hiff⟩ := ih hrest hb
    rw [List.length_append, List.length_singleton] at hle hiff
    have hstray : NoStrayCr (c :: b ++ text "\r\n") ↔ NoStrayCr (b ++ text "\r\n") := by simp [NoStrayCr, hc]
    rw [headerLines, if_neg hc, List.length_cons, hstray, ← hiff]
    omega
  | case4 s line hshort =>
    obtain ⟨b, hb, r, rfl⟩ := strstr_split h
    exfalso
    cases b with
    | nil => exact hshort 13 10 _ hb
    | cons e b =>
      cases b with
      | nil => exact hshort e 13 _ hb
      | cons e' b => exact hshort e e' _ hb

theorem strstr_upTo {data t : List UInt8} (h : strstr blankLine data = some t)
    (h0 : 0 ∉ data.take (data.length - t.length)) : strstr blankLine (upTo 0 data) = some (upTo 0 t) := by
  induction data with
  | nil => simp [strstr, blankLine_eq] at h
  | cons c s ih =>
    by_cases hpre : blankLine <+: c :: s
    · rw [strstr, if_pos hpre, Option.some.injEq] at h
      rw [← h]
      obtain ⟨r, hr⟩ := hpre
      rw [← hr]
      simp [upTo, blankLine_eq, strstr, List.cons_prefix_cons]
    · have hs := strstr_skip hpre h
      obtain ⟨a, rfl, -⟩ := strstr_split hs
      have hlen : (c :: (a ++ t)).length - t.length = a.length + 1 := by
        rw [List.length_cons, List.length_append]
        omega
      rw [hlen, List.take_succ_cons, List.take_left, List.mem_cons, not_or] at h0
      have hup : upTo 0 (c :: (a ++ t)) = c :: upTo 0 (a ++ t) := by simp [upTo, Ne.symm h0.1]
      have hsub : ¬blankLine <+: c :: upTo 0 (a ++ t) := by
        intro hp
        exact hpre (hp.trans (List.cons_prefix_cons.mpr ⟨rfl, List.takeWhile_prefix _⟩))
      rw [hup, strstr, if_neg hsub]
      apply ih hs
      rw [List.length_append, Nat.add_sub_cancel, List.take_left]
      exact h0.2

theorem setField_eq_none {sysPassword value : List UInt8} {ddi : DeviceDiscover} {f : Field} :
    setField sysPassword value ddi f = none ↔ f = .authorization ∧ value ≠ [] ∧ 32 ∉ value := by
  cases f with
  | authorization =>
    rw [setField]
    split_ifs with hempty
    · simp [hempty]
    · simp [hempty, ddVerifyAuthorization, strchr_eq_none]
  | _ => simp [setField]

theorem badAuthorization_iff {line : List UInt8} : BadAuthorization line ↔ 58 ∈ line ∧
    (ddExtractHeaderValue line).1 = Field.authorization.name ∧ (ddExtractHeaderValue line).2 ≠ [] ∧
    32 ∉ (ddExtractHeaderValue line).2 := by
  unfold BadAuthorization headerValue
  split_ifs with h
  · simp [h.1, h.2]
  · simp only [false_and, exists_false, false_iff]
    exact fun hbad => h ⟨hbad.1, hbad.2.1⟩

theorem ddParseHeader_eq_none (sysPassword : List UInt8) {line : List UInt8} (ddi : DeviceDiscover) :
    ddParseHeader sysPassword line ddi = none ↔ BadAuthorization line := by
  have hrequest (hc : 58 ∉ line) : False ↔ BadAuthorization line :=
    iff_of_false not_false fun hbad => hc (badAuthorization_iff.mp hbad).1
  unfold ddParseHeader
  split_ifs with hsearch hcap hconfig hc
  · exact hrequest (hsearch ▸ by decide)
  · exact hrequest (hcap ▸ by decide)
  · exact hrequest (hconfig ▸ by decide)
  · rw [badAuthorization_iff]
    cases hf : fieldOf (ddExtractHeaderValue line).1 with
    | some f =>
      rw [setField_eq_none, fieldOf_eq_some.mp hf]
      have hname : f.name = Field.authorization.name ↔ f = .authorization := by
        rw [← fieldOf_eq_some, ← fieldOf_eq_some.mp hf, hf, Option.some.injEq]
      rw [hname]
      exact (and_iff_right hc).symm
    | none =>
      refine iff_of_false (by simp) fun hbad => ?_
      rw [fieldOf_eq_some.mpr hbad.2.1] at hf
      exact absurd hf (by simp)
  · exact hrequest hc

theorem parseLines_isSome (sysPassword : List UInt8) {lines : List (List UInt8)} (ddi : DeviceDiscover) :
    (parseLines sysPassword lines ddi).isSome ↔ ∀ line ∈ lines, ¬BadAuthorization line := by
  induction lines generalizing ddi with
  | nil => simp [parseLines]
  | cons line lines ih =>
    rw [parseLines, List.foldlM_cons, List.forall_mem_cons, ← ddParseHeader_eq_none sysPassword ddi]
    cases ddParseHeader sysPassword line ddi with
    | none => simp
    | some ddi => simpa [parseLines] using ih ddi

theorem bodyRight_of_lines (dev : Device) (data : List UInt8) :
    BodyRight dev data ↔ (∀ line ∈ datagramLines data, ¬BadAuthorization line) ∧
      linesLength (datagramLines data) + 2 ≤ data.length ∧
      data.drop (linesLength (datagramLines data) + 2) = afterBlankLine data := by
  unfold BodyRight bodyOf
  rw [headerLoop_eq, ← parseLines_isSome dev.sysPassword { devphy := dev.devMac }, Nat.zero_add]
  change (∃ bodyLen body, Option.map _ (Option.map _ (parseLines _ (datagramLines data) _)) = _ ∧ _) ↔ _
  cases parseLines dev.sysPassword (datagramLines data) { devphy := dev.devMac } with
  | none => simp
  | some ddi =>
    simp only [Option.map_some, Option.some.injEq, Prod.mk.injEq, Option.isSome_some, true_and]
    constructor
    · rintro ⟨bodyLen, body, ⟨rfl, rfl⟩, hlen, hbody⟩
      exact ⟨by change 0 ≤ (data.length : ℤ) - ((linesLength (datagramLines data) : ℕ) + 2) at hlen; omega, hbody⟩
    · rintro ⟨hlen, hbody⟩
      refine ⟨_, _, ⟨rfl, rfl⟩, ?_, hbody⟩
      change 0 ≤ (data.length : ℤ) - ((linesLength (datagramLines data) : ℕ) + 2)
      omega

theorem linesLength_eq_iff {data a t : List UInt8} (h : strstr blankLine data = some t) (hd : data = a ++ t) :
    linesLength (datagramLines data) = a.length + 2 ↔ 0 ∉ a ∧ NoStrayCr (a ++ text "\r\n") := by
  by_cases h0 : 0 ∈ a
  · obtain ⟨b, r, rfl, hb⟩ := List.eq_append_cons_of_mem h0
    have hup : upTo 0 data = b := by rw [hd, List.append_assoc, List.cons_append, upTo_append_cons hb]
    have hle := headerLines_length_le [] (upTo 0 data)
    rw [hup, List.length_nil] at hle
    refine iff_of_false (fun heq => ?_) fun hplain => hplain.1 h0
    rw [datagramLines, hup, List.length_append, List.length_cons] at heq
    omega
  · have htake : data.take (data.length - t.length) = a := by
      rw [hd, List.length_append, Nat.add_sub_cancel, List.take_left]
    have hup : upTo 0 data = a ++ upTo 0 t := by
      rw [hd, upTo, List.takeWhile_append_of_pos, upTo]
      intro c hc
      exact decide_eq_true fun heq => h0 (heq ▸ hc)
    have hcount := (headerLines_blankLine [] (strstr_upTo h (htake ▸ h0)) hup).2
    rw [List.length_nil, Nat.zero_add] at hcount
    rw [datagramLines, hcount]
    exact (and_iff_right h0).symm

end Wap610n.Discover
