import Wap610n.Survey.ApList

/-!
The format of the listing, and the record that the lines of a cell give.
-/

namespace Wap610n.Survey

open Bytes CString

structure PlainLine (line : List UInt8) : Prop where
  nul : 0 ∉ line
  lineEnd : 10 ∉ line
  short : line.length ≤ 1022

instance (line : List UInt8) : Decidable (PlainLine line) :=
  decidable_of_iff (0 ∉ line ∧ 10 ∉ line ∧ line.length ≤ 1022)
    ⟨fun h => ⟨h.1, h.2.1, h.2.2⟩, fun h => ⟨h.nul, h.lineEnd, h.short⟩⟩

def IsLevel (value : List UInt8) : Prop := value ≠ [] ∧ 32 ∉ value ∧ 58 ∉ value

instance (value : List UInt8) : Decidable (IsLevel value) :=
  inferInstanceAs (Decidable (value ≠ [] ∧ 32 ∉ value ∧ 58 ∉ value))

/-- A line below the line of a cell, other than its `ESSID`; a note is neither a tag nor a line of levels. -/
inductive Attribute
  | tag (name value : List UInt8)
  | levels (indent : ℕ) (l : Levels)
  | note (line : List UInt8)

def Levels.line (l : Levels) (rest : List UInt8) : List UInt8 :=
  text "Quality" ++ 61 :: (l.quality ++ 32 :: 32 ::
    (text "Signal level" ++ 61 :: (l.signal ++ 32 :: (text "dBm  " ++
      (text "Noise level" ++ 61 :: (l.noise ++ 32 :: (text "dBm" ++ rest)))))))

namespace Attribute

def line : Attribute → List UInt8
  | tag name value => name ++ 58 :: value
  | levels indent l => List.replicate indent 32 ++ l.line []
  | note line => line

def Valid : Attribute → Prop
  | tag name _ => 58 ∉ name ∧ skipBlanks name ≠ text "ESSID"
  | levels _ l => IsLevel l.quality ∧ IsLevel l.signal ∧ IsLevel l.noise
  | note line => 58 ∉ line ∧ ¬ text "Quality" <:+: line

instance : DecidablePred Valid
  | tag name _ => inferInstanceAs (Decidable (58 ∉ name ∧ skipBlanks name ≠ text "ESSID"))
  | levels _ l => inferInstanceAs (Decidable (IsLevel l.quality ∧ IsLevel l.signal ∧ IsLevel l.noise))
  | note line => inferInstanceAs (Decidable (58 ∉ line ∧ ¬ text "Quality" <:+: line))

def setAp (ap : Ap) : Attribute → Ap
  | tag name value => setTag ap (skipBlanks name) (skipBlanks value)
  | levels _ _ => ap
  | note _ => ap

def setLevels (old : Option Levels) : Attribute → Option Levels
  | tag _ _ => old
  | levels _ l => some l
  | note _ => old

def narrow : Attribute → Bool
  | tag _ _ => true
  | levels _ l => l.quality.length < 5 ∧ l.signal.length < 5 ∧ l.noise.length < 5
  | note _ => true

end Attribute

structure CellText where
  label : List UInt8
  address : List UInt8
  before : List Attribute
  indent : ℕ
  essid : List UInt8
  after : List Attribute

namespace CellText

variable (c : CellText)

def head : List UInt8 := text "          Cell " ++ (c.label ++ (text " - Address" ++ 58 :: 32 :: c.address))

def quotedEssid : List UInt8 := 34 :: (c.essid ++ [34])

def essidLine : List UInt8 := List.replicate c.indent 32 ++ text "ESSID" ++ 58 :: c.quotedEssid

def attributes : List Attribute := c.before ++ c.after

def attributeLines : List (List UInt8) := c.before.map Attribute.line ++ c.essidLine :: c.after.map Attribute.line

def ap : Ap :=
  c.after.foldl Attribute.setAp
    { c.before.foldl Attribute.setAp { Ap.cleared with address := c.address } with essid := c.quotedEssid }

def levels : Option Levels := c.attributes.foldl Attribute.setLevels none

def record : List UInt8 := apInfo c.ap (c.levels.getD ⟨[], [], []⟩)

end CellText

structure Cell extends CellText where
  label_ok : ∀ c ∈ label, 48 ≤ c ∧ c ≤ 57
  address_length : address.length = 17
  address_ok : ∀ c ∈ address, c = 58 ∨ (hexValue c).isSome
  attributes_ok : ∀ a ∈ toCellText.attributes, a.Valid
  plain : ∀ line ∈ toCellText.head :: toCellText.attributeLines, PlainLine line

structure Listing where
  header : List UInt8
  header_plain : PlainLine header
  cells : List Cell

def cellLines (cells : List Cell) : List (List UInt8) := cells.flatMap fun c => c.head :: c.attributeLines

def Listing.content (listing : Listing) : List UInt8 :=
  (listing.header :: cellLines listing.cells).flatMap (· ++ [10])

end Wap610n.Survey
