import Wap610n.Web.Multipart

namespace Wap610n.Web

open Bytes CString Search

inductive Turn
  | lost
  | next (endPart : List UInt8)
  | again
  | part (buf part endPart : List UInt8)

/-- `again` is a line that announces a part and has no end: the turn leaves `endPart` where it was. -/
def turnOf (boundary : List UInt8) (lenHeap : ℕ) (part : List UInt8) : Turn :=
  match gstrchr 10 part with
  | none => .lost
  | some line =>
    match gstrstr (text "Content-Disposition") (line.drop 1) with
    | none => .next (line.drop 1)
    | some _ =>
      match gstrchr 10 (line.drop 1) with
      | none => .again
      | some endLine =>
        match endOfHeader (line.drop 1) with
        | none => .lost
        | some body =>
          match xmemstr body boundary (body.length - lenHeap) with
          | none => .lost
          | some endPart =>
            .part ((line.drop 1).take (clip maxLine ((line.drop 1).length - endLine.length))) body endPart

theorem scanPart_eq (boundary : List UInt8) (lenHeap : ℕ) (s : Scan) (part : List UInt8) :
    scanPart boundary lenHeap s part =
      match turnOf boundary lenHeap part with
      | .lost => { s with endPart := none }
      | .next endPart => { s with endPart := some endPart }
      | .again => s
      | .part buf body endPart => storePart s buf body endPart := by
  rw [scanPart, turnOf]
  cases gstrchr 10 part with
  | none => rfl
  | some line =>
    dsimp only
    cases gstrstr (text "Content-Disposition") (line.drop 1) with
    | none => rfl
    | some _ =>
      dsimp only
      cases gstrchr 10 (line.drop 1) with
      | none => rfl
      | some endLine =>
        dsimp only
        cases endOfHeader (line.drop 1) with
        | none => rfl
        | some body =>
          dsimp only
          cases xmemstr body boundary (body.length - lenHeap) <;> rfl

theorem endOfHeader_suffix {s body : List UInt8} (h : endOfHeader s = some body) : body <:+ s := by
  induction s with
  | nil => cases h
  | cons c s ih =>
    rw [endOfHeader] at h
    split_ifs at h with hnul hline
    · cases hblank : afterBlankLine s with
      | none =>
        rw [hblank] at h
        exact (ih h).trans (List.suffix_cons c s)
      | some r =>
        rw [hblank] at h
        obtain rfl := Option.some.inj h
        have hr : r <:+ s := by
          unfold afterBlankLine at hblank
          split at hblank
          · obtain rfl := Option.some.inj hblank
            exact List.suffix_cons _ _
          · obtain rfl := Option.some.inj hblank
            exact (List.suffix_cons _ _).trans (List.suffix_cons _ _)
          · cases hblank
        exact hr.trans (List.suffix_cons c s)
    · exact (ih h).trans (List.suffix_cons c s)

theorem line_forward {part line : List UInt8} (h : gstrchr 10 part = some line) :
    (line.drop 1).length < part.length := by
  obtain ⟨a, r, rfl, rfl, -⟩ := findChar_some h
  rw [List.drop_one, List.tail_cons, List.length_append, List.length_cons]
  omega

theorem turnOf_next {boundary part endPart : List UInt8} {lenHeap : ℕ}
    (h : turnOf boundary lenHeap part = .next endPart) :
    gstrstr (text "Content-Disposition") endPart = none ∧ endPart.length < part.length := by
  unfold turnOf at h
  split at h
  · cases h
  · next line hline =>
    split at h
    · next hnone =>
      obtain rfl := Turn.next.inj h
      exact ⟨hnone, line_forward hline⟩
    · repeat (split at h; cases h)
      cases h

def NamesFile (buf : List UInt8) : Prop := (gstrstr (text "filename=") buf).isSome

theorem storePart_endPart (s : Scan) (buf part endPart : List UInt8) :
    (storePart s buf part endPart).endPart = some endPart := by
  unfold storePart
  dsimp only
  split
  · split_ifs <;> rfl
  · split <;> rfl

theorem storePart_firstFile {s : Scan} {buf : List UInt8} (part endPart : List UInt8) (hfirst : s.firstUploadFile = false)
    (hfile : NamesFile buf) :
    (storePart s buf part endPart).fileContent = part ∧
      (storePart s buf part endPart).fileContentLen = part.length - endPart.length - 2 ∧
      (storePart s buf part endPart).firstUploadFile = true := by
  obtain ⟨startStr, hstart⟩ := Option.isSome_iff_exists.mp hfile
  unfold storePart
  rw [hstart]
  dsimp only
  rw [hfirst, if_neg Bool.false_ne_true]
  exact ⟨rfl, rfl, rfl⟩

theorem storePart_frame {s : Scan} {buf : List UInt8} (part endPart : List UInt8)
    (h : s.firstUploadFile = true ∨ ¬ NamesFile buf) :
    (storePart s buf part endPart).fileContent = s.fileContent ∧
      (storePart s buf part endPart).fileContentLen = s.fileContentLen ∧
      (storePart s buf part endPart).firstUploadFile = s.firstUploadFile := by
  unfold storePart
  dsimp only
  split
  · next startStr hstart =>
    have hfirst : s.firstUploadFile = true := by
      apply h.resolve_right
      exact not_not.mpr (Option.isSome_of_mem hstart)
    rw [if_pos hfirst]
    exact ⟨rfl, rfl, rfl⟩
  · split <;> exact ⟨rfl, rfl, rfl⟩

theorem scanParts_none (boundary : List UInt8) (fuel lenHeap : ℕ) (u : Extracted) (first : Bool) :
    scanParts boundary lenHeap fuel ⟨u, none, first⟩ = some u := by
  cases fuel with
  | zero => rfl
  | succ fuel => rfl

theorem scanParts_quiet {boundary : List UInt8} {fuel lenHeap : ℕ} {m : List UInt8} (hfuel : m.length ≤ fuel)
    (u : Extracted) (first : Bool) (h : gstrstr (text "Content-Disposition") m = none) :
    scanParts boundary lenHeap fuel ⟨u, some m, first⟩ = some u := by
  induction fuel generalizing m with
  | zero =>
    rw [List.eq_nil_of_length_eq_zero (Nat.le_zero.mp hfuel)]
    rfl
  | succ fuel ih =>
    rw [scanParts, Option.bind_some]
    cases hpart : gstrstr boundary m with
    | none => rfl
    | some part =>
      obtain ⟨a, rfl, ha, -⟩ := find_some hpart
      dsimp only
      rw [scanPart]
      cases hline : gstrchr 10 part with
      | none => exact scanParts_none boundary fuel lenHeap u first
      | some line =>
        obtain ⟨b, r, rfl, rfl, hb, -⟩ := findChar_some hline
        have hab : 0 ∉ a ++ (b ++ [10]) := by
          simp only [List.mem_append, not_or]
          exact ⟨ha, hb, by decide⟩
        have hsplit : a ++ (b ++ 10 :: r) = (a ++ (b ++ [10])) ++ r := by
          simp only [List.append_assoc, List.singleton_append]
        have hnone : gstrstr (text "Content-Disposition") r = none :=
          find_none_suffix hab (hsplit ▸ h)
        simp only [List.drop_one, List.tail_cons]
        rw [hnone]
        apply ih _ hnone
        rw [List.length_append, List.length_append, List.length_cons] at hfuel
        omega

end Wap610n.Web
