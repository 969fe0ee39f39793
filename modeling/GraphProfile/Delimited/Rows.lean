import GraphProfile.Glyph

set_option autoImplicit false

/-!
# Rows of delimited text

Bytes are sorted one at a time into fields and rows. A line feed or a carriage return ends a row, and lines with
nothing on them are no rows. A quote at the start of a field opens it for delimiters and line ends, up to the
next quote that stands alone; two quotes together are one of the field's own. What follows a closing quote
belongs to the field, and a quote that is never closed runs to the end of the text.

A byte order mark at the very beginning is no part of the first field.
-/
namespace GraphProfile.Delimited

/-- Where a row begins: bytes and rows are counted from zero, lines from one. -/
structure Position where
  byte : Nat
  line : Nat
  row : Nat
deriving DecidableEq

structure Row where
  start : Position
  fields : List (List UInt8)
deriving DecidableEq

inductive Mode where
  | rowStart
  | fieldStart
  | plain
  | quoted
  /-- After a quote inside a quoted field: the end of the field, or the first of two. -/
  | quoteSeen
deriving DecidableEq

/-- What happens to a byte: it belongs to the field, or to no field, or ends one, or ends the row too. -/
inductive Move where
  | keep
  | drop
  | endField
  | endRow
deriving DecidableEq

def quote : UInt8 := 34

def isLineEnd (b : UInt8) : Bool := b == 10 || b == 13

def step (delimiter : UInt8) (mode : Mode) (b : UInt8) : Mode × Move :=
  match mode with
  | .rowStart => if isLineEnd b then (.rowStart, .drop) else opened b
  | .fieldStart => opened b
  | .plain => unquoted b
  | .quoted => if b == quote then (.quoteSeen, .drop) else (.quoted, .keep)
  | .quoteSeen => if b == quote then (.quoted, .keep) else unquoted b
where
  unquoted (b : UInt8) : Mode × Move :=
    if b == delimiter then (.fieldStart, .endField)
    else if isLineEnd b then (.rowStart, .endRow)
    else (.plain, .keep)
  opened (b : UInt8) : Mode × Move := if b == quote then (.quoted, .drop) else unquoted b

/-- Field, fields and rows are kept last first. -/
structure Scan where
  mode : Mode
  field : List UInt8
  fields : List (List UInt8)
  rows : List Row
  start : Position
  byte : Nat
  line : Nat

namespace Scan

def atByte (n : Nat) : Scan := ⟨.rowStart, [], [], [], ⟨0, 1, 0⟩, n, 1⟩

def endField (s : Scan) : Scan := { s with field := [], fields := s.field.reverse :: s.fields }

def endRow (s : Scan) : Scan :=
  { s.endField with
    fields := []
    rows := ⟨s.start, s.endField.fields.reverse⟩ :: s.rows
    start := ⟨s.byte, s.line, s.start.row + 1⟩ }

def feed (delimiter : UInt8) (s : Scan) (b : UInt8) : Scan :=
  let (mode, move) := step delimiter s.mode b
  let s := { s with mode, byte := s.byte + 1, line := if b == 10 then s.line + 1 else s.line }
  match move with
  | .keep => { s with field := b :: s.field }
  | .drop => s
  | .endField => s.endField
  | .endRow => s.endRow

/-- The end of the text ends a row that has begun. -/
def finish (s : Scan) : List Row :=
  if s.mode = .rowStart then s.rows.reverse else s.endRow.rows.reverse

end Scan

def splitMark : List UInt8 → Nat × List UInt8
  | 0xEF :: 0xBB :: 0xBF :: bytes => (3, bytes)
  | bytes => (0, bytes)

def rows (delimiter : UInt8) (bytes : List UInt8) : List Row :=
  ((splitMark bytes).2.foldl (Scan.feed delimiter) (.atByte (splitMark bytes).1)).finish

inductive Fault where
  | unequal (start : Position) (fields expected : Nat)
  | notText (start : Position) (field readable : Nat)
deriving DecidableEq

namespace Fault

def start : Fault → Position
  | .unequal p _ _ => p
  | .notText p _ _ => p

def message : Fault → String
  | .unequal p fields expected =>
    s!"CSV error: record {p.row} (line: {p.line}, byte: {p.byte}): found record with {fields} fields, " ++
      s!"but the previous record has {expected} fields"
  | .notText p field readable =>
    s!"CSV parse error: record {p.row} (line {p.line}, field: {field}, byte: {p.byte}): " ++
      s!"invalid utf-8: invalid UTF-8 in field {field} near byte index {readable}"

end Fault

def fieldText (start : Position) (index : Nat) (field : List UInt8) : Except Fault String :=
  let glyphs := Glyph.ofBytes ⟨field.toArray⟩
  match Glyph.text? glyphs with
  | some s => .ok s
  | none => .error (.notText start index (Glyph.textSize glyphs))

/-- The number of fields is looked at before their text. -/
def Row.texts (expected : Nat) (r : Row) : Except Fault (List String) :=
  if r.fields.length ≠ expected then .error (.unequal r.start r.fields.length expected)
  else r.fields.zipIdx.mapM fun field => fieldText r.start field.2 field.1

def texts (rs : List Row) : Except Fault (List (List String)) :=
  rs.mapM (Row.texts (rs.head?.elim 0 fun r => r.fields.length))

end GraphProfile.Delimited
