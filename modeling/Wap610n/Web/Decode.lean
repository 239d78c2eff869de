import Wap610n.Web.Url

namespace Wap610n.Web

open CString

def isEscape : List UInt8 → Bool
  | c :: a :: b :: _ => c = 37 ∧ (hexValue a).isSome ∧ (hexValue b).isSome
  | _ => false

def escapeFree : List UInt8 → Bool
  | c :: ip => c ≠ 43 ∧ isEscape (c :: ip) = false ∧ escapeFree ip
  | [] => true

theorem escapeFree_cons {c : UInt8} {ip : List UInt8} :
    escapeFree (c :: ip) ↔ c ≠ 43 ∧ isEscape (c :: ip) = false ∧ escapeFree ip := by
  rw [escapeFree, decide_eq_true_iff]

theorem websDecodeUrl_length_le (s : List UInt8) : (websDecodeUrl s).length ≤ s.length := by
  fun_induction websDecodeUrl s with
  | case6 => rfl
  | case1 | case2 | case3 | case4 | case5 =>
    simp only [List.length_cons] at *
    omega

theorem websDecodeUrl_cons {c : UInt8} {ip : List UInt8} (h : isEscape (c :: ip) = false) :
    websDecodeUrl (c :: ip) = (if c = 43 then 32 else c) :: websDecodeUrl ip := by
  match ip with
  | [] => rfl
  | [_] => rfl
  | a :: b :: ip =>
    rw [websDecodeUrl]
    rw [isEscape, decide_eq_false_iff_not] at h
    split_ifs with hplus hpercent
    · rfl
    · split
      · rename_i x y ha hb
        exact absurd ⟨hpercent, by rw [ha]; rfl, by rw [hb]; rfl⟩ h
      · rfl
    · rfl

theorem websDecodeUrl_escape {s : List UInt8} (h : isEscape s) : (websDecodeUrl s).length < s.length := by
  match s with
  | c :: a :: b :: ip =>
    rw [isEscape, decide_eq_true_iff] at h
    obtain ⟨rfl, ha, hb⟩ := h
    obtain ⟨x, hx⟩ := Option.isSome_iff_exists.mp ha
    obtain ⟨y, hy⟩ := Option.isSome_iff_exists.mp hb
    have := websDecodeUrl_length_le ip
    rw [websDecodeUrl, if_neg (by decide), if_pos rfl, hx, hy]
    simp only [List.length_cons]
    omega

theorem websDecodeUrl_of_length {c : UInt8} {ip : List UInt8}
    (h : (websDecodeUrl (c :: ip)).length = (c :: ip).length) :
    isEscape (c :: ip) = false ∧ (websDecodeUrl ip).length = ip.length := by
  have hesc : isEscape (c :: ip) = false := by
    rw [Bool.eq_false_iff]
    intro hesc
    exact absurd h (websDecodeUrl_escape hesc).ne
  rw [websDecodeUrl_cons hesc, List.length_cons, List.length_cons] at h
  exact ⟨hesc, by omega⟩

theorem plus_notMem_websDecodeUrl {s : List UInt8} (h : (websDecodeUrl s).length = s.length) :
    43 ∉ websDecodeUrl s := by
  induction s with
  | nil => exact List.not_mem_nil
  | cons c ip ih =>
    obtain ⟨hesc, hlen⟩ := websDecodeUrl_of_length h
    rw [websDecodeUrl_cons hesc, List.mem_cons, not_or]
    refine ⟨?_, ih hlen⟩
    split_ifs with hc
    · decide
    · exact Ne.symm hc

theorem escapeFree_of_length {s : List UInt8} (h : (websDecodeUrl s).length = s.length) (hplus : 43 ∉ s) :
    escapeFree s := by
  induction s with
  | nil => rfl
  | cons c ip ih =>
    obtain ⟨hesc, hlen⟩ := websDecodeUrl_of_length h
    rw [List.mem_cons, not_or] at hplus
    exact escapeFree_cons.mpr ⟨Ne.symm hplus.1, hesc, ih hlen hplus.2⟩

theorem websDecodeUrl_of_escapeFree {s : List UInt8} (h : escapeFree s) : websDecodeUrl s = s := by
  induction s with
  | nil => rfl
  | cons c ip ih =>
    obtain ⟨hplus, hesc, hip⟩ := escapeFree_cons.mp h
    rw [websDecodeUrl_cons hesc, if_neg hplus, ih hip]

theorem escapeFree_of_websDecodeUrl {s : List UInt8} (h : websDecodeUrl s = s) : escapeFree s := by
  have hlen : (websDecodeUrl s).length = s.length := by rw [h]
  have hplus := plus_notMem_websDecodeUrl hlen
  rw [h] at hplus
  exact escapeFree_of_length hlen hplus

end Wap610n.Web
