import Wap610n.Web.Url

namespace Wap610n.Web

open Bytes

structure StrBuf where
  s : List UInt8
  size : ℕ

def strInc : ℕ := 64

def StrBuf.putChar (max : ℕ) (buf : StrBuf) (c : UInt8) : StrBuf :=
  if buf.s.length + 1 ≥ buf.size then
    if buf.size + strInc > max ∧ buf.size + strInc > strInc then buf
    else ⟨buf.s ++ [c], buf.size + strInc⟩
  else ⟨buf.s ++ [c], buf.size⟩

/-- `formatted` is the text that the format describes. -/
def fmtAlloc (n : ℕ) (formatted : List UInt8) : List UInt8 := (formatted.foldl (StrBuf.putChar n) ⟨[], 0⟩).s

theorem putChar_take {buf : StrBuf} {c : UInt8} (hd : strInc ∣ buf.size) (hs : buf.size ≤ 192)
    (hl : buf.s.length ≤ buf.size - 1) :
    (buf.putChar 255 c).s = (buf.s ++ [c]).take 191 ∧ strInc ∣ (buf.putChar 255 c).size ∧
      (buf.putChar 255 c).size ≤ 192 ∧ (buf.putChar 255 c).s.length ≤ (buf.putChar 255 c).size - 1 := by
  unfold StrBuf.putChar strInc at *
  obtain ⟨k, hk⟩ := hd
  split_ifs with hfull hmax
  · have h191 : buf.s.length = 191 := by omega
    exact ⟨by rw [← h191, List.take_left], ⟨k, hk⟩, hs, hl⟩
  · refine ⟨(List.take_of_length_le ?_).symm, ⟨k + 1, by dsimp only; omega⟩, by dsimp only; omega, ?_⟩
    · rw [List.length_append, List.length_singleton]
      omega
    · dsimp only
      rw [List.length_append, List.length_singleton]
      omega
  · refine ⟨(List.take_of_length_le ?_).symm, ⟨k, hk⟩, hs, ?_⟩
    · rw [List.length_append, List.length_singleton]
      omega
    · dsimp only
      rw [List.length_append, List.length_singleton]
      omega

theorem take_take_append (n : ℕ) (a b : List UInt8) : (a.take n ++ b).take n = (a ++ b).take n := by
  rw [List.take_append, List.take_append, List.take_take, Nat.min_self, List.length_take]
  congr 2
  omega

theorem foldl_putChar_take {buf : StrBuf} {l : List UInt8} (hd : strInc ∣ buf.size) (hs : buf.size ≤ 192)
    (hl : buf.s.length ≤ buf.size - 1) : (l.foldl (StrBuf.putChar 255) buf).s = (buf.s ++ l).take 191 := by
  induction l generalizing buf with
  | nil =>
    rw [List.foldl_nil, List.append_nil, List.take_of_length_le (by omega)]
  | cons c l ih =>
    obtain ⟨hput, hd', hs', hl'⟩ := putChar_take (c := c) hd hs hl
    rw [List.foldl_cons, ih hd' hs' hl', hput, take_take_append, List.append_assoc, List.singleton_append]

theorem fmtAlloc_take (l : List UInt8) : fmtAlloc 255 l = l.take 191 :=
  foldl_putChar_take (Nat.dvd_zero _) (Nat.zero_le _) (Nat.zero_le _)

def orNull (s : Option (List UInt8)) : List UInt8 := s.getD (text "(null)")

def colons (parts : List (List UInt8)) : List UInt8 := (parts.intersperse [58]).flatten

def a1 (c : Credentials) (password : List UInt8) : List UInt8 := colons [orNull c.userName, orNull c.realm, password]

def digestWith (md5 : List UInt8 → List UInt8) (method : List UInt8) (c : Credentials) (text₁ : List UInt8) :
    List UInt8 :=
  let a1prime := md5 text₁
  let a2prime := md5 (fmtAlloc 255 (colons [method, orNull c.uri]))
  let preDigest :=
    match c.qop with
    | none => fmtAlloc 255 (colons [a1prime, orNull c.nonce, a2prime])
    | some qop => fmtAlloc 255 (colons [a1prime, orNull c.nonce, orNull c.nc, orNull c.cnonce, qop, a2prime])
  md5 preDigest

def websCalcDigest (md5 : List UInt8 → List UInt8) (method : List UInt8) (c : Credentials) (password : List UInt8) :
    List UInt8 :=
  digestWith md5 method c (fmtAlloc 255 (a1 c password))

theorem websCalcDigest_of_le {md5 : List UInt8 → List UInt8} {method : List UInt8} {c : Credentials}
    {password : List UInt8} (h : (a1 c password).length ≤ 191) :
    websCalcDigest md5 method c password = digestWith md5 method c (a1 c password) := by
  rw [websCalcDigest, fmtAlloc_take, List.take_of_length_le h]

theorem websCalcDigest_of_long {md5 : List UInt8 → List UInt8} {method : List UInt8} {c : Credentials}
    (h : 191 ≤ (orNull c.userName).length) (p q : List UInt8) :
    websCalcDigest md5 method c p = websCalcDigest md5 method c q := by
  have ha1 (p : List UInt8) : fmtAlloc 255 (a1 c p) = (orNull c.userName).take 191 := by
    rw [fmtAlloc_take]
    exact List.take_append_of_le_length h
  rw [websCalcDigest, websCalcDigest, ha1, ha1]

end Wap610n.Web
