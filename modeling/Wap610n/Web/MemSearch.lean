import Wap610n.Web.PartScan

/-!
`xmemstr` with its reads. A pointer into the block is an offset, the pattern is the memory from its first character on,
and `none` is a read outside of either.
-/

namespace Wap610n.Web

def OccursAt (n s : List UInt8) (p : ℕ) : Prop := n <+: s.drop p

inductive Compared
  | same | differs | blockEnds
deriving DecidableEq

def Compared.result : Compared → Option Bool
  | same => some true
  | differs => some false
  | blockEnds => none

namespace Block

def xmemCompare (blk : List UInt8) : List UInt8 → ℕ → ℕ → Option Compared
  | [], _, _ => none
  | chFind :: locFind, locMem, szMem =>
    if chFind = 0 then some .same
    else
      match szMem with
      | 0 => some .blockEnds
      | szMem + 1 =>
        blk[locMem]?.bind fun chMem =>
          if chMem ≠ chFind then some .differs else xmemCompare blk locFind (locMem + 1) szMem

def xmemstrFrom (blk : List UInt8) (firstFindCh : UInt8) (find : List UInt8) : ℕ → ℕ → Option (Option ℕ)
  | _, 0 => some none
  | memBlk, memSize + 1 =>
    blk[memBlk]?.bind fun chMem =>
      if chMem = firstFindCh then
        match xmemCompare blk find (memBlk + 1) memSize with
        | none => none
        | some .blockEnds => some none
        | some .same => some (some memBlk)
        | some .differs => xmemstrFrom blk firstFindCh find (memBlk + 1) memSize
      else xmemstrFrom blk firstFindCh find (memBlk + 1) memSize

def xmemstr (blk find : List UInt8) (memSize : ℤ) : Option (Option ℕ) :=
  match find with
  | [] => none
  | firstFindCh :: find =>
    if firstFindCh = 0 then some (some 0) else xmemstrFrom blk firstFindCh find 0 memSize.toNat

variable {blk n : List UInt8} {c : UInt8}

theorem drop_cons {p sz : ℕ} (h : blk.length = p + (sz + 1)) :
    ∃ d, blk[p]? = some d ∧ blk.drop p = d :: blk.drop (p + 1) := by
  have hlt : p < blk.length := by omega
  exact ⟨blk[p], List.getElem?_eq_getElem hlt, List.drop_eq_getElem_cons hlt⟩

theorem xmemCompare_nul (blk rest : List UInt8) (loc sz : ℕ) : xmemCompare blk (0 :: rest) loc sz = some .same := by
  rw [xmemCompare.eq_def]
  rfl

theorem xmemCompare_end (hc : c ≠ 0) (blk rest : List UInt8) (loc : ℕ) :
    xmemCompare blk (c :: rest) loc 0 = some .blockEnds := by
  rw [xmemCompare.eq_def]
  exact if_neg hc

theorem xmemCompare_succ (hc : c ≠ 0) (rest : List UInt8) {loc : ℕ} {d : UInt8} (hd : blk[loc]? = some d) (sz : ℕ) :
    xmemCompare blk (c :: rest) loc (sz + 1) =
      if d ≠ c then some .differs else xmemCompare blk rest (loc + 1) sz := by
  rw [xmemCompare.eq_def]
  dsimp only
  rw [if_neg hc, hd, Option.bind_some]

theorem xmemCompare_eq (h0 : 0 ∉ n) (rest : List UInt8) {loc sz : ℕ} (hsz : blk.length = loc + sz) :
    xmemCompare blk (n ++ 0 :: rest) loc sz =
      some (if n <+: blk.drop loc then .same else if blk.drop loc <+: n then .blockEnds else .differs) := by
  induction n generalizing loc sz with
  | nil => rw [List.nil_append, xmemCompare_nul, if_pos List.nil_prefix]
  | cons c n ih =>
    rw [List.mem_cons, not_or] at h0
    rw [List.cons_append]
    cases sz with
    | zero =>
      have hnil : blk.drop loc = [] := List.drop_eq_nil_of_le (by omega)
      rw [xmemCompare_end (Ne.symm h0.1), hnil, if_neg (by simp), if_pos List.nil_prefix]
    | succ sz =>
      obtain ⟨d, hd, hdrop⟩ := drop_cons hsz
      rw [xmemCompare_succ (Ne.symm h0.1) _ hd, hdrop]
      by_cases hdc : d = c
      · subst hdc
        rw [if_neg (not_not.mpr rfl), ih h0.2 (by omega)]
        simp only [List.cons_prefix_cons, true_and]
      · have hcd : ¬c = d := Ne.symm hdc
        rw [if_pos hdc]
        simp only [List.cons_prefix_cons, hdc, hcd, false_and, if_false]

def FirstFrom (n s : List UInt8) (p : ℕ) : Option ℕ → Prop
  | some q => p ≤ q ∧ OccursAt n s q ∧ ∀ k, p ≤ k → k < q → ¬OccursAt n s k
  | none => ∀ k, p ≤ k → ¬OccursAt n s k

theorem FirstFrom.skip {s : List UInt8} {p : ℕ} {r : Option ℕ} (h : FirstFrom n s (p + 1) r) (hp : ¬OccursAt n s p) :
    FirstFrom n s p r := by
  have hstep : ∀ k, p ≤ k → k = p ∨ p + 1 ≤ k := by
    intro k hk
    omega
  cases r with
  | none =>
    intro k hk
    rcases hstep k hk with rfl | hk
    · exact hp
    · exact h k hk
  | some q =>
    obtain ⟨hle, hocc, hno⟩ := h
    refine ⟨Nat.le_of_succ_le hle, hocc, ?_⟩
    intro k hk hlt
    rcases hstep k hk with rfl | hk
    · exact hp
    · exact hno k hk hlt

theorem not_occursAt_of_end {p k : ℕ} (hpre : blk.drop (p + 1) <+: n) (hno : ¬n <+: blk.drop (p + 1)) (hk : p ≤ k) :
    ¬OccursAt (c :: n) blk k := by
  intro hocc
  have hlen := hocc.length_le
  have hle := hpre.length_le
  have hne : (blk.drop (p + 1)).length ≠ n.length := by
    intro heq
    exact hno (hpre.eq_of_length heq ▸ List.prefix_refl _)
  rw [List.length_cons, List.length_drop] at hlen
  rw [List.length_drop] at hle hne
  omega

theorem xmemstrFrom_first (h0 : 0 ∉ n) (rest : List UInt8) {p sz : ℕ} (hsz : blk.length = p + sz) :
    ∃ r, xmemstrFrom blk c (n ++ 0 :: rest) p sz = some r ∧ FirstFrom (c :: n) blk p r := by
  induction sz generalizing p with
  | zero =>
    refine ⟨none, rfl, ?_⟩
    intro k hk hocc
    have hlen := hocc.length_le
    rw [List.length_cons, List.length_drop] at hlen
    omega
  | succ sz ih =>
    obtain ⟨d, hd, hdrop⟩ := drop_cons hsz
    obtain ⟨r, hr, hfirst⟩ := ih (p := p + 1) (by omega)
    rw [xmemstrFrom, hd, Option.bind_some]
    split_ifs with hdc
    · subst hdc
      rw [xmemCompare_eq h0 rest (by omega)]
      split_ifs with hsame hend
      · refine ⟨some p, rfl, le_rfl, ?_, fun k hk hlt => absurd hlt (Nat.not_lt.mpr hk)⟩
        rw [OccursAt, hdrop]
        exact List.cons_prefix_cons.mpr ⟨rfl, hsame⟩
      · exact ⟨none, rfl, fun k hk => not_occursAt_of_end hend hsame hk⟩
      · refine ⟨r, hr, hfirst.skip ?_⟩
        rw [OccursAt, hdrop, List.cons_prefix_cons]
        exact fun h => hsame h.2
    · refine ⟨r, hr, hfirst.skip ?_⟩
      rw [OccursAt, hdrop, List.cons_prefix_cons]
      exact fun h => hdc h.1.symm

theorem xmemCompare_memory (h0 : 0 ∉ n) (rest heap : List UInt8) {loc sz : ℕ} (hsz : blk.length = loc + sz) :
    (xmemCompare blk (n ++ 0 :: rest) loc sz).map Compared.result =
      some (Web.xmemCompare n (blk.drop loc ++ heap) sz) := by
  induction n generalizing loc sz with
  | nil =>
    rw [List.nil_append, xmemCompare_nul, Web.xmemCompare]
    rfl
  | cons c n ih =>
    rw [List.mem_cons, not_or] at h0
    rw [List.cons_append]
    cases sz with
    | zero =>
      rw [xmemCompare_end (Ne.symm h0.1), Web.xmemCompare]
      rfl
    | succ sz =>
      obtain ⟨d, hd, hdrop⟩ := drop_cons hsz
      rw [xmemCompare_succ (Ne.symm h0.1) _ hd, hdrop, List.cons_append, Web.xmemCompare]
      split_ifs
      · rfl
      · exact ih h0.2 (by omega)

theorem xmemstrFrom_memory (h0 : 0 ∉ n) (rest heap : List UInt8) {p sz : ℕ} (hsz : blk.length = p + sz) :
    (xmemstrFrom blk c (n ++ 0 :: rest) p sz).map (Option.map fun q => blk.drop q ++ heap) =
      some (Web.xmemstrFrom c n (blk.drop p ++ heap) sz) := by
  induction sz generalizing p with
  | zero =>
    rw [Web.xmemstrFrom]
    rfl
  | succ sz ih =>
    obtain ⟨d, hd, hdrop⟩ := drop_cons hsz
    have hcompare := xmemCompare_memory h0 rest heap (show blk.length = p + 1 + sz by omega)
    have hrest := ih (p := p + 1) (by omega)
    rw [xmemstrFrom, hd, Option.bind_some, hdrop, List.cons_append, Web.xmemstrFrom]
    split_ifs with hdc
    · obtain ⟨r, hr, hresult⟩ := Option.map_eq_some_iff.mp hcompare
      rw [hr, ← hresult]
      cases r with
      | same =>
        change some (some (blk.drop p ++ heap)) = some (some (d :: (blk.drop (p + 1) ++ heap)))
        rw [hdrop, List.cons_append]
      | differs => exact hrest
      | blockEnds => rfl
    · exact hrest

theorem xmemstr_memory {pattern : List UInt8} (hne : pattern ≠ []) (h0 : 0 ∉ pattern) (rest heap : List UInt8) :
    (xmemstr blk (pattern ++ 0 :: rest) blk.length).map (Option.map fun q => blk.drop q ++ heap) =
      some (Web.xmemstr (blk ++ heap) pattern blk.length) := by
  obtain ⟨c, n, rfl⟩ := List.exists_cons_of_ne_nil hne
  rw [List.mem_cons, not_or] at h0
  rw [List.cons_append, xmemstr, if_neg (Ne.symm h0.1)]
  exact xmemstrFrom_memory h0.2 rest heap (Nat.zero_add _).symm

end Block

theorem xmemstr_first_occurrence {blk pattern : List UInt8} {memSize : ℤ} (hsize : blk.length = memSize.toNat)
    (hne : pattern ≠ []) (h0 : 0 ∉ pattern) (rest : List UInt8) :
    ∃ r, Block.xmemstr blk (pattern ++ 0 :: rest) memSize = some r ∧
      (∀ p, r = some p ↔ OccursAt pattern blk p ∧ ∀ k < p, ¬OccursAt pattern blk k) ∧
      (r = none ↔ ∀ p, ¬OccursAt pattern blk p) := by
  obtain ⟨c, n, rfl⟩ := List.exists_cons_of_ne_nil hne
  rw [List.mem_cons, not_or] at h0
  obtain ⟨r, hr, hfirst⟩ := Block.xmemstrFrom_first (c := c) h0.2 rest (hsize.trans (Nat.zero_add _).symm)
  refine ⟨r, ?_, ?_⟩
  · rw [List.cons_append, Block.xmemstr, if_neg (Ne.symm h0.1), hr]
  cases r with
  | none =>
    have hno : ∀ p, ¬OccursAt (c :: n) blk p := fun p => hfirst p (Nat.zero_le p)
    refine ⟨fun p => ⟨?_, ?_⟩, iff_of_true rfl hno⟩
    · intro h
      cases h
    · intro h
      exact absurd h.1 (hno p)
  | some q =>
    obtain ⟨-, hocc, hbefore⟩ := hfirst
    refine ⟨fun p => ⟨?_, ?_⟩, ?_, ?_⟩
    · intro h
      obtain rfl := Option.some.inj h
      exact ⟨hocc, fun k hk => hbefore k (Nat.zero_le k) hk⟩
    · rintro ⟨hp, hnone⟩
      rcases Nat.lt_trichotomy p q with hlt | rfl | hlt
      · exact absurd hp (hbefore p (Nat.zero_le p) hlt)
      · rfl
      · exact absurd hocc (hnone q hlt)
    · intro h
      cases h
    · intro h
      exact absurd hocc (h q)

theorem xmemstr_after_partial_match : ∃ r, Block.xmemstr [97, 97, 98] ([97, 98] ++ 0 :: []) 3 = some r ∧
    (∀ p, r = some p ↔ OccursAt [97, 98] [97, 97, 98] p ∧ ∀ k < p, ¬OccursAt [97, 98] [97, 97, 98] k) ∧
    (r = none ↔ ∀ p, ¬OccursAt [97, 98] [97, 97, 98] p) :=
  xmemstr_first_occurrence rfl (by decide) (by decide) []

end Wap610n.Web
