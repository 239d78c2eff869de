import Wap610n.Discover.Packet

namespace Wap610n.Discover

open Bytes CString

def toRead (contentLen bodyRead : ℕ) : ℕ := min (contentLen - bodyRead) 9999

def copiedLine (body : ℕ → UInt8) (contentLen bodyRead : ℕ) : List UInt8 :=
  upTo 0 (slice body bodyRead (toRead contentLen bodyRead))

def pieces (body : ℕ → UInt8) (contentLen : ℕ) : ℕ → ℕ → Bool → List (List UInt8)
  | 0, _, _ => []
  | fuel + 1, bodyRead, xmlStart =>
    if bodyRead < contentLen then
      if xmlStart = true ∨ 60 ∈ copiedLine body contentLen bodyRead then
        xmlPiece xmlStart (copiedLine body contentLen bodyRead) ::
          pieces body contentLen fuel (bodyRead + toRead contentLen bodyRead) true
      else pieces body contentLen fuel (bodyRead + toRead contentLen bodyRead) false
    else []

def accepts (expat : Expat) : List (List UInt8) → List (List UInt8) → Bool
  | _, [] => true
  | fed, piece :: rest => expat.parse (fed ++ [piece]) && accepts expat (fed ++ [piece]) rest

theorem feedLoop_succ (expat : Expat) (body : ℕ → UInt8) (contentLen fuel bodyRead : ℕ) (xmlStart : Bool)
    (fed : List (List UInt8)) :
    feedLoop expat body contentLen (fuel + 1) bodyRead xmlStart fed =
      if bodyRead < contentLen then
        if xmlStart = true ∨ 60 ∈ copiedLine body contentLen bodyRead then
          if expat.parse (fed ++ [xmlPiece xmlStart (copiedLine body contentLen bodyRead)]) then
            feedLoop expat body contentLen fuel (bodyRead + toRead contentLen bodyRead) true
              (fed ++ [xmlPiece xmlStart (copiedLine body contentLen bodyRead)])
          else none
        else feedLoop expat body contentLen fuel (bodyRead + toRead contentLen bodyRead) false fed
      else some fed :=
  rfl

theorem feedLoop_eq (expat : Expat) (body : ℕ → UInt8) (contentLen fuel bodyRead : ℕ) (xmlStart : Bool)
    (fed : List (List UInt8)) :
    feedLoop expat body contentLen fuel bodyRead xmlStart fed =
      if accepts expat fed (pieces body contentLen fuel bodyRead xmlStart) then
        some (fed ++ pieces body contentLen fuel bodyRead xmlStart)
      else none := by
  induction fuel generalizing bodyRead xmlStart fed with
  | zero => rw [feedLoop, pieces, accepts, if_pos rfl, List.append_nil]
  | succ fuel ih =>
    rw [feedLoop_succ, pieces]
    by_cases hread : bodyRead < contentLen
    · rw [if_pos hread, if_pos hread]
      by_cases hstart : xmlStart = true ∨ 60 ∈ copiedLine body contentLen bodyRead
      · rw [if_pos hstart, if_pos hstart, ih, accepts, List.append_assoc, List.singleton_append]
        cases expat.parse (fed ++ [xmlPiece xmlStart (copiedLine body contentLen bodyRead)]) <;> rfl
      · rw [if_neg hstart, if_neg hstart, ih]
    · rw [if_neg hread, if_neg hread, accepts, if_pos rfl, List.append_nil]

theorem copiedLine_congr {body body' : ℕ → UInt8} {contentLen : ℕ} (h : ∀ i < contentLen, body i = body' i)
    (bodyRead : ℕ) : copiedLine body contentLen bodyRead = copiedLine body' contentLen bodyRead := by
  have hslice : slice body bodyRead (toRead contentLen bodyRead) =
      slice body' bodyRead (toRead contentLen bodyRead) := by
    apply slice_congr
    intro i hi
    rw [toRead] at hi
    exact h _ (by omega)
  rw [copiedLine, copiedLine, hslice]

theorem pieces_congr {body body' : ℕ → UInt8} {contentLen : ℕ} (h : ∀ i < contentLen, body i = body' i)
    (fuel bodyRead : ℕ) (xmlStart : Bool) :
    pieces body contentLen fuel bodyRead xmlStart = pieces body' contentLen fuel bodyRead xmlStart := by
  induction fuel generalizing bodyRead xmlStart with
  | zero => rfl
  | succ fuel ih => rw [pieces, pieces, copiedLine_congr h, ih, ih]

theorem xmlPiece_append (xmlStart : Bool) (a b : List UInt8) (h : xmlStart = true ∨ 60 ∈ a) :
    xmlPiece xmlStart (a ++ b) = xmlPiece xmlStart a ++ b := by
  cases xmlStart with
  | true => rfl
  | false =>
    have hmem : 60 ∈ a := h.resolve_left Bool.false_ne_true
    have hne : a.dropWhile (fun c => decide (c ≠ 60)) ≠ [] := by
      intro hnil
      have hall := List.dropWhile_eq_nil_iff.mp hnil 60 hmem
      exact absurd hall (by decide)
    rw [xmlPiece, if_neg Bool.false_ne_true, List.dropWhile_append, xmlPiece, if_neg Bool.false_ne_true]
    rw [if_neg (by rwa [List.isEmpty_iff])]

theorem xmlPiece_skip {a b : List UInt8} (h : 60 ∉ a) : xmlPiece false (a ++ b) = xmlPiece false b := by
  apply List.dropWhile_append_of_pos
  intro c hc
  exact decide_eq_true fun heq => h (heq ▸ hc)

theorem copiedLine_of_ne_zero {body : ℕ → UInt8} {contentLen bodyRead : ℕ} (h0 : ∀ i < contentLen, body i ≠ 0) :
    copiedLine body contentLen bodyRead = slice body bodyRead (toRead contentLen bodyRead) := by
  apply upTo_of_notMem
  intro hmem
  obtain ⟨i, hi, hzero⟩ := List.mem_map.mp hmem
  rw [List.mem_range, toRead] at hi
  exact h0 _ (by omega) hzero

theorem slice_toRead (body : ℕ → UInt8) (contentLen bodyRead : ℕ) :
    slice body bodyRead (contentLen - bodyRead) = slice body bodyRead (toRead contentLen bodyRead) ++
      slice body (bodyRead + toRead contentLen bodyRead) (contentLen - (bodyRead + toRead contentLen bodyRead)) := by
  rw [← slice_add]
  congr 1
  rw [toRead]
  omega

theorem pieces_flatten {body : ℕ → UInt8} {contentLen : ℕ} (h0 : ∀ i < contentLen, body i ≠ 0) {fuel bodyRead : ℕ}
    (hfuel : contentLen - bodyRead ≤ fuel) (xmlStart : Bool) :
    (pieces body contentLen fuel bodyRead xmlStart).flatten =
      xmlPiece xmlStart (slice body bodyRead (contentLen - bodyRead)) := by
  have hend {n : ℕ} (r : ℕ) (hn : n = 0) (start : Bool) : [].flatten = xmlPiece start (slice body r n) := by
    subst hn
    cases start <;> rfl
  induction fuel generalizing bodyRead xmlStart with
  | zero => exact hend bodyRead (Nat.le_zero.mp hfuel) xmlStart
  | succ fuel ih =>
    have hrest := @ih (bodyRead + toRead contentLen bodyRead)
    rw [pieces, slice_toRead, copiedLine_of_ne_zero h0]
    split_ifs with hread hstart
    · -- a `<` is in this chunk or was in an earlier one
      rw [List.flatten_cons, hrest (by rw [toRead]; omega), xmlPiece_append xmlStart _ _ hstart]
      rfl
    · rw [not_or] at hstart
      rw [hrest (by rw [toRead]; omega), Bool.eq_false_iff.mpr hstart.1, xmlPiece_skip hstart.2]
    · rw [← slice_toRead]
      exact hend bodyRead (by omega) xmlStart

def bodyAt (dev : Device) (bodyContent : List UInt8) (i : ℕ) : UInt8 :=
  if i < bodyContent.length then byteAt bodyContent i else dev.heap i

theorem bodyAt_eq {dev : Device} {bodyContent : List UInt8} {i : ℕ} (h : i < bodyContent.length) :
    bodyAt dev bodyContent i = byteAt bodyContent i := if_pos h

def bodyPieces (bodyContent : List UInt8) (n : ℕ) : List (List UInt8) := pieces (byteAt bodyContent) n n 0 false

theorem bodyPieces_flatten {bodyContent : List UInt8} {n : ℕ} (h0 : 0 ∉ bodyContent) (hn : n ≤ bodyContent.length) :
    (bodyPieces bodyContent n).flatten = (bodyContent.take n).dropWhile fun c => c ≠ 60 := by
  have hbytes : ∀ i < n, byteAt bodyContent i ≠ 0 := by
    intro i hi hzero
    have hlt : i < bodyContent.length := by omega
    rw [byteAt, List.getD_eq_getElem _ _ hlt] at hzero
    exact h0 (hzero ▸ List.getElem_mem hlt)
  have htake : slice (byteAt bodyContent) 0 (n - 0) = bodyContent.take n := by
    have hlen : (bodyContent.take n).length = n := by rw [List.length_take, Nat.min_eq_left hn]
    have hholds := @holds_byteAt bodyContent (bodyContent.take n) (bodyContent.drop n) 0
      (by rw [List.drop_zero, List.take_append_drop])
    rwa [Holds, hlen] at hholds
  rw [bodyPieces, pieces_flatten hbytes (Nat.sub_le n 0), htake]
  rfl

theorem feedBody_eq {dev : Device} {bodyContent : List UInt8} {n : ℕ} (hn : n ≤ bodyContent.length) :
    feedBody dev n bodyContent =
      if accepts dev.expat [] (bodyPieces bodyContent n) then some (bodyPieces bodyContent n) else none := by
  rw [feedBody]
  by_cases hnil : bodyContent = []
  · rw [hnil, List.length_nil, Nat.le_zero] at hn
    rw [if_pos hnil, hn]
    rfl
  · have hpieces : pieces (bodyAt dev bodyContent) n n 0 false = bodyPieces bodyContent n := by
      apply pieces_congr
      intro i hi
      exact bodyAt_eq (by omega)
    rw [if_neg hnil, ← hpieces]
    exact feedLoop_eq dev.expat (bodyAt dev bodyContent) n n 0 false []

theorem feedBody_flatten {bodyContent : List UInt8} {n : ℕ} (h0 : 0 ∉ bodyContent) (hn : n ≤ bodyContent.length) :
    ∃ handed : List (List UInt8), handed.flatten = ((bodyContent.take n).dropWhile fun c => c ≠ 60) ∧
      ∀ dev : Device, feedBody dev n bodyContent = if accepts dev.expat [] handed then some handed else none :=
  ⟨bodyPieces bodyContent n, bodyPieces_flatten h0 hn, fun _ => feedBody_eq hn⟩

def longBody : List UInt8 := text "  <a>" ++ List.replicate 20000 65 ++ text "</a>\n"

theorem longBody_length : longBody.length = 20010 := by
  rw [longBody, List.length_append, List.length_append, List.length_replicate]
  rfl

theorem feedBody_flatten_long : ∃ handed : List (List UInt8),
    handed.flatten = ((longBody.take 20009).dropWhile fun c => c ≠ 60) ∧
    ∀ dev : Device, feedBody dev 20009 longBody = if accepts dev.expat [] handed then some handed else none := by
  apply feedBody_flatten
  · rw [longBody, List.mem_append, List.mem_append, List.mem_replicate]
    decide
  · rw [longBody_length]
    decide

section Reads

variable (expat : Expat) (body : ℕ → UInt8) (contentLen : ℕ)

/-- A turn of the copy loop after its reads; `none` is an error of the parser. -/
def feedTurn (bodyRead : ℕ) (xmlStart : Bool) (fed : List (List UInt8)) : Option (Bool × List (List UInt8)) :=
  if xmlStart = true ∨ 60 ∈ copiedLine body contentLen bodyRead then
    if expat.parse (fed ++ [xmlPiece xmlStart (copiedLine body contentLen bodyRead)]) then
      some (true, fed ++ [xmlPiece xmlStart (copiedLine body contentLen bodyRead)])
    else none
  else some (false, fed)

theorem feedLoop_turn (fuel bodyRead : ℕ) (xmlStart : Bool) (fed : List (List UInt8)) :
    feedLoop expat body contentLen (fuel + 1) bodyRead xmlStart fed =
      if bodyRead < contentLen then
        (feedTurn expat body contentLen bodyRead xmlStart fed).bind fun turn =>
          feedLoop expat body contentLen fuel (bodyRead + toRead contentLen bodyRead) turn.1 turn.2
      else some fed := by
  rw [feedLoop_succ, feedTurn]
  by_cases hread : bodyRead < contentLen
  · rw [if_pos hread, if_pos hread]
    split_ifs <;> rfl
  · rw [if_neg hread, if_neg hread]

def feedReads : ℕ → ℕ → Bool → List (List UInt8) → List ℕ
  | 0, _, _, _ => []
  | fuel + 1, bodyRead, xmlStart, fed =>
    if bodyRead < contentLen then
      (List.range (toRead contentLen bodyRead)).map (bodyRead + ·) ++
        match feedTurn expat body contentLen bodyRead xmlStart fed with
        | none => []
        | some turn => feedReads fuel (bodyRead + toRead contentLen bodyRead) turn.1 turn.2
    else []

variable {expat body contentLen} {fuel bodyRead : ℕ} {xmlStart : Bool} {fed : List (List UInt8)}

theorem feedReads_lt {i : ℕ} (h : i ∈ feedReads expat body contentLen fuel bodyRead xmlStart fed) :
    i < contentLen := by
  induction fuel generalizing bodyRead xmlStart fed with
  | zero => exact absurd h List.not_mem_nil
  | succ fuel ih =>
    rw [feedReads] at h
    split_ifs at h with hread
    · rcases List.mem_append.mp h with h | h
      · obtain ⟨j, hj, rfl⟩ := List.mem_map.mp h
        rw [List.mem_range, toRead] at hj
        omega
      · cases hturn : feedTurn expat body contentLen bodyRead xmlStart fed with
        | none =>
          rw [hturn] at h
          exact absurd h List.not_mem_nil
        | some turn =>
          rw [hturn] at h
          exact ih h
    · exact absurd h List.not_mem_nil

theorem accepts_pieces_succ (hread : bodyRead < contentLen) :
    accepts expat fed (pieces body contentLen (fuel + 1) bodyRead xmlStart) =
      (feedTurn expat body contentLen bodyRead xmlStart fed).elim false fun turn =>
        accepts expat turn.2 (pieces body contentLen fuel (bodyRead + toRead contentLen bodyRead) turn.1) := by
  rw [pieces, if_pos hread, feedTurn]
  by_cases hstart : xmlStart = true ∨ 60 ∈ copiedLine body contentLen bodyRead
  · rw [if_pos hstart, if_pos hstart, accepts]
    cases expat.parse (fed ++ [xmlPiece xmlStart (copiedLine body contentLen bodyRead)]) <;> rfl
  · rw [if_neg hstart, if_neg hstart, Option.elim_some]

theorem feedTurn_congr {contentLen' : ℕ} (h : toRead contentLen bodyRead = toRead contentLen' bodyRead) :
    feedTurn expat body contentLen bodyRead xmlStart fed = feedTurn expat body contentLen' bodyRead xmlStart fed := by
  rw [feedTurn, feedTurn, copiedLine, copiedLine, h]

theorem accepts_chunk (hto : toRead contentLen bodyRead = 9999) (k : ℕ) :
    accepts expat fed (pieces body (bodyRead + 9999 * (k + 1)) (fuel + 1) bodyRead xmlStart) =
      (feedTurn expat body contentLen bodyRead xmlStart fed).elim false fun turn =>
        accepts expat turn.2 (pieces body (bodyRead + 9999 + 9999 * k) fuel (bodyRead + 9999) turn.1) := by
  have hfull : toRead (bodyRead + 9999 * (k + 1)) bodyRead = 9999 := by
    rw [toRead]
    omega
  have hend : bodyRead + 9999 * (k + 1) = bodyRead + 9999 + 9999 * k := by omega
  rw [accepts_pieces_succ (by omega), feedTurn_congr (hto.trans hfull.symm), hfull, hend]

theorem accepts_nothing : accepts expat fed (pieces body (bodyRead + 9999 * 0) fuel bodyRead xmlStart) = true := by
  cases fuel with
  | zero => rfl
  | succ fuel =>
    rw [pieces, if_neg (by omega)]
    rfl

theorem chunk_inside_iff {n limit : ℕ} (hn : 0 < n) :
    (∀ i ∈ (List.range n).map (bodyRead + ·), i < limit) ↔ bodyRead + n ≤ limit := by
  simp only [List.forall_mem_map, List.mem_range]
  constructor
  · intro h
    have hlast := h (n - 1) (by omega)
    omega
  · intro h i hi
    omega

theorem feedReads_inside_iff {limit : ℕ} (hlimit : limit < contentLen) (hread : bodyRead < contentLen)
    (hfuel : contentLen - bodyRead ≤ fuel) :
    (∀ i ∈ feedReads expat body contentLen fuel bodyRead xmlStart fed, i < limit) ↔
      ∃ k, bodyRead + 9999 * k ≤ limit ∧
        accepts expat fed (pieces body (bodyRead + 9999 * k) fuel bodyRead xmlStart) = false := by
  induction fuel generalizing bodyRead xmlStart fed with
  | zero => omega
  | succ fuel ih =>
    have hsucc {k : ℕ} (hk : accepts expat fed (pieces body (bodyRead + 9999 * k) (fuel + 1) bodyRead xmlStart) = false) :
        ∃ j, k = j + 1 := by
      cases k with
      | zero => exact absurd (accepts_nothing.symm.trans hk) (by decide)
      | succ j => exact ⟨j, rfl⟩
    rw [feedReads, if_pos hread, List.forall_mem_append, chunk_inside_iff (by rw [toRead]; omega)]
    by_cases hlast : contentLen ≤ bodyRead + 9999
    · -- this chunk goes up to the end of the announced length
      have hto : bodyRead + toRead contentLen bodyRead = contentLen := by
        rw [toRead]
        omega
      constructor
      · rintro ⟨h, -⟩
        omega
      · rintro ⟨k, hk, hacc⟩
        obtain ⟨j, rfl⟩ := hsucc hacc
        omega
    · have hfit {j : ℕ} (hj : bodyRead + 9999 * (j + 1) ≤ limit) : bodyRead + 9999 ≤ limit :=
        (Nat.add_le_add_left (Nat.le_mul_of_pos_right 9999 (Nat.succ_pos j)) bodyRead).trans hj
      have hto : toRead contentLen bodyRead = 9999 := by
        rw [toRead]
        omega
      rw [hto]
      cases hturn : feedTurn expat body contentLen bodyRead xmlStart fed with
      | none =>
        constructor
        · rintro ⟨h, -⟩
          exact ⟨0 + 1, by omega, by rw [accepts_chunk hto, hturn, Option.elim_none]⟩
        · rintro ⟨k, hk, hacc⟩
          obtain ⟨j, rfl⟩ := hsucc hacc
          exact ⟨hfit hk, fun _ hi => absurd hi List.not_mem_nil⟩
      | some turn =>
        dsimp only
        rw [ih (by omega) (by omega)]
        constructor
        · rintro ⟨-, k, hk, hacc⟩
          exact ⟨k + 1, by omega, by rw [accepts_chunk hto k, hturn, Option.elim_some, hacc]⟩
        · rintro ⟨k, hk, hacc⟩
          obtain ⟨j, rfl⟩ := hsucc hacc
          rw [accepts_chunk hto j, hturn, Option.elim_some] at hacc
          exact ⟨hfit hk, j, by omega, hacc⟩

theorem pieces_fuel {fuel' : ℕ} (h : contentLen - bodyRead ≤ fuel) (h' : contentLen - bodyRead ≤ fuel') :
    pieces body contentLen fuel bodyRead xmlStart = pieces body contentLen fuel' bodyRead xmlStart := by
  induction fuel generalizing bodyRead xmlStart fuel' with
  | zero =>
    cases fuel' with
    | zero => rfl
    | succ fuel' => rw [pieces, pieces, if_neg (by omega)]
  | succ fuel ih =>
    cases fuel' with
    | zero => rw [pieces, pieces, if_neg (by omega)]
    | succ fuel' =>
      rw [pieces, pieces]
      by_cases hread : bodyRead < contentLen
      · have hto : 1 ≤ toRead contentLen bodyRead := by
          rw [toRead]
          omega
        have hrest (start : Bool) := @ih (bodyRead + toRead contentLen bodyRead) start fuel' (by omega) (by omega)
        rw [hrest, hrest]
      · rw [if_neg hread, if_neg hread]

end Reads

def bodyReads (dev : Device) (contentLength : ℕ) (bodyContent : List UInt8) : List ℕ :=
  if bodyContent = [] then []
  else feedReads dev.expat (bodyAt dev bodyContent) contentLength contentLength 0 false []

def ReadsFit (dev : Device) (contentLength : ℕ) (bodyContent : List UInt8) : Prop :=
  bodyContent = [] ∨ contentLength ≤ bodyContent.length ∨
    ∃ k, 9999 * k ≤ bodyContent.length ∧ accepts dev.expat [] (bodyPieces bodyContent (9999 * k)) = false

theorem bodyReads_inside_iff {dev : Device} {value bodyContent : List UInt8} {ddi ddi' : DeviceDiscover}
    (h : setField dev.sysPassword value ddi .contentLength = some ddi') :
    (∀ i ∈ bodyReads dev ddi'.contentLength.toNat bodyContent, i < bodyContent.length) ↔
      ReadsFit dev (BitVec.ofInt 16 (atoi value)).toNat bodyContent := by
  obtain rfl := Option.some.inj h
  rw [bodyReads, ReadsFit]
  generalize (BitVec.ofInt 16 (atoi value)).toNat = n
  by_cases hnil : bodyContent = []
  · rw [if_pos hnil]
    exact iff_of_true (fun _ hi => absurd hi List.not_mem_nil) (Or.inl hnil)
  rw [if_neg hnil, or_iff_right hnil]
  by_cases hfit : n ≤ bodyContent.length
  · exact iff_of_true (fun i hi => (feedReads_lt hi).trans_le hfit) (Or.inl hfit)
  rw [or_iff_right hfit, feedReads_inside_iff (by omega) (by omega) (Nat.sub_le _ _)]
  apply exists_congr
  intro k
  rw [Nat.zero_add]
  apply and_congr_right
  intro hk
  have hpieces : pieces (bodyAt dev bodyContent) (9999 * k) n 0 false = bodyPieces bodyContent (9999 * k) := by
    rw [bodyPieces, ← pieces_congr (fun i hi => bodyAt_eq (by omega))]
    exact pieces_fuel (by omega) (Nat.sub_le _ _)
  rw [hpieces]

def lenientDevice : Device :=
  { mac := none, sysPassword := text "admin", expat := ⟨true, true, fun _ => true⟩, heap := fun _ => 65 }

theorem bodyReads_inside_long :
    (∀ i ∈ bodyReads lenientDevice 20010 longBody, i < longBody.length) ↔
      ReadsFit lenientDevice (BitVec.ofInt 16 (atoi (text "20010"))).toNat longBody :=
  @bodyReads_inside_iff lenientDevice (text "20010") longBody { devphy := [] }
    { devphy := [], contentLength := 20010#16 } rfl

theorem content_length_beyond_body :
    setField lenientDevice.sysPassword (text "10") { devphy := [] } .contentLength =
        some { devphy := [], contentLength := 10#16 } ∧
      9 ∈ bodyReads lenientDevice (10#16).toNat (text "<") ∧ (text "<").length = 1 :=
  ⟨rfl, by decide, rfl⟩

end Wap610n.Discover
