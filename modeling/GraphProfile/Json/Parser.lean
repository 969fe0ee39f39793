import GraphProfile.Glyph
import GraphProfile.Json.Basic

set_option autoImplicit false

/-!
# Reading JSON

The reader takes a value from the front of the glyphs and says what remains. Control characters may not stand
in strings, numbers have no leading zeros, and only four characters are blank. What a string means in Unicode
is worked out last: an escape may name half of a surrogate pair, which counts only together with the other.
-/
namespace GraphProfile.Json

def isBlank : Glyph → Bool
  | .char c => c == ' ' || c == '\n' || c == '\t' || c == '\r'
  | .stray _ => false

def skip (gs : List Glyph) : List Glyph := gs.dropWhile isBlank

def after? : List Char → List Glyph → Option (List Glyph)
  | [], gs => some gs
  | c :: cs, .char d :: gs => if c = d then after? cs gs else none
  | _ :: _, _ => none

def digit? : Glyph → Option Char
  | .char c => if c.isDigit then some c else none
  | .stray _ => none

def digits : List Glyph → List Char × List Glyph
  | [] => ([], [])
  | g :: gs =>
    match digit? g with
    | some c => ((digits gs).1.cons c, (digits gs).2)
    | none => ([], g :: gs)

def digits₁? (gs : List Glyph) : Option (List Char × List Glyph) :=
  if (digits gs).1 = [] then none else some (digits gs)

def whole? (gs : List Glyph) : Option (List Char × List Glyph) :=
  match digits gs with
  | ([], _) => none
  | ('0' :: _ :: _, _) => none
  | found => some found

def fraction? : List Glyph → Option (List Char × List Glyph)
  | .char '.' :: gs => (digits₁? gs).map fun found => ('.' :: found.1, found.2)
  | gs => some ([], gs)

def exponentSign : List Glyph → List Char × List Glyph
  | .char '+' :: gs => (['+'], gs)
  | .char '-' :: gs => (['-'], gs)
  | gs => ([], gs)

def power? : List Glyph → Option (List Char × List Glyph)
  | .char 'e' :: gs =>
    (digits₁? (exponentSign gs).2).map fun found => ('e' :: ((exponentSign gs).1 ++ found.1), found.2)
  | .char 'E' :: gs =>
    (digits₁? (exponentSign gs).2).map fun found => ('E' :: ((exponentSign gs).1 ++ found.1), found.2)
  | gs => some ([], gs)

def minus : List Glyph → List Char × List Glyph
  | .char '-' :: gs => (['-'], gs)
  | gs => ([], gs)

def number? (gs : List Glyph) : Option (String × List Glyph) := do
  let (whole, gs₁) ← whole? (minus gs).2
  let (fraction, gs₂) ← fraction? gs₁
  let (power, gs₃) ← power? gs₂
  return (String.ofList ((minus gs).1 ++ whole ++ fraction ++ power), gs₃)

/-- A piece of a string: a character, half of a surrogate pair, or no text. -/
inductive Piece where
  | char (c : Char)
  | half (unit : Nat)
  | stray

def hexValue? : Glyph → Option Nat
  | .char c =>
    if '0' ≤ c ∧ c ≤ '9' then some (c.toNat - 48)
    else if 'a' ≤ c ∧ c ≤ 'f' then some (c.toNat - 87)
    else if 'A' ≤ c ∧ c ≤ 'F' then some (c.toNat - 55)
    else none
  | .stray _ => none

def unit? (a b c d : Glyph) : Option Nat := do
  let a ← hexValue? a
  let b ← hexValue? b
  let c ← hexValue? c
  let d ← hexValue? d
  return a * 4096 + b * 256 + c * 16 + d

def pieceOfUnit (u : Nat) : Piece :=
  if 0xD800 ≤ u ∧ u ≤ 0xDFFF then .half u else .char (Char.ofNat u)

def unescape? : Char → Option Char
  | '"' => some '"'
  | '\\' => some '\\'
  | '/' => some '/'
  | 'b' => some '\x08'
  | 'f' => some '\x0c'
  | 'n' => some '\n'
  | 'r' => some '\r'
  | 't' => some '\t'
  | _ => none

/-- The pieces up to the closing quote, the opening one being read already. -/
def pieces? : List Glyph → List Piece → Option (List Piece × List Glyph)
  | [], _ => none
  | .char '"' :: gs, acc => some (acc.reverse, gs)
  | .char '\\' :: .char 'u' :: a :: b :: c :: d :: gs, acc =>
    match unit? a b c d with
    | some u => pieces? gs (pieceOfUnit u :: acc)
    | none => none
  | .char '\\' :: .char e :: gs, acc =>
    match unescape? e with
    | some c => pieces? gs (.char c :: acc)
    | none => none
  | .char '\\' :: _, _ => none
  | .char c :: gs, acc => if c.toNat < 32 then none else pieces? gs (.char c :: acc)
  | .stray _ :: gs, acc => pieces? gs (.stray :: acc)

/-- The two halves of a pair name one character beyond `0xFFFF`. -/
def content? : List Piece → List Char → Option (List Char)
  | [], acc => some acc.reverse
  | .char c :: ps, acc => content? ps (c :: acc)
  | .half high :: .half low :: ps, acc =>
    if high < 0xDC00 ∧ 0xDC00 ≤ low then
      content? ps (Char.ofNat (0x10000 + (high - 0xD800) * 0x400 + (low - 0xDC00)) :: acc)
    else none
  | _, _ => none

def string? (gs : List Glyph) : Option (Option String × List Glyph) :=
  (pieces? gs []).map fun found => ((content? found.1 []).map String.ofList, found.2)

mutual

/-- A value at the front. The bound is on the number of steps; one more than there are glyphs is enough. -/
def value? : Nat → List Glyph → Option (Json × List Glyph)
  | 0, _ => none
  | n + 1, gs =>
    match gs with
    | .char '"' :: gs => (string? gs).map fun found => (.string found.1, found.2)
    | .char '[' :: gs =>
      match skip gs with
      | .char ']' :: gs => some (.array [], gs)
      | gs => items? n gs []
    | .char '\x7b' :: gs =>
      match skip gs with
      | .char '\x7d' :: gs => some (.object [], gs)
      | gs => fields? n gs []
    | .char 'n' :: gs => (after? ['u', 'l', 'l'] gs).map fun gs => (.null, gs)
    | .char 't' :: gs => (after? ['r', 'u', 'e'] gs).map fun gs => (.bool true, gs)
    | .char 'f' :: gs => (after? ['a', 'l', 's', 'e'] gs).map fun gs => (.bool false, gs)
    | gs => (number? gs).map fun found => (.number found.1, found.2)

/-- The items of an array from one of them on, to its end. -/
def items? : Nat → List Glyph → List Json → Option (Json × List Glyph)
  | 0, _, _ => none
  | n + 1, gs, acc =>
    match value? n (skip gs) with
    | none => none
    | some (x, gs) =>
      match skip gs with
      | .char ',' :: gs => items? n gs (x :: acc)
      | .char ']' :: gs => some (.array (x :: acc).reverse, gs)
      | _ => none

def fields? : Nat → List Glyph → List (Option String × Json) → Option (Json × List Glyph)
  | 0, _, _ => none
  | n + 1, gs, acc =>
    match skip gs with
    | .char '"' :: gs =>
      match string? gs with
      | none => none
      | some (k, gs) =>
        match skip gs with
        | .char ':' :: gs =>
          match value? n (skip gs) with
          | none => none
          | some (x, gs) =>
            match skip gs with
            | .char ',' :: gs => fields? n gs ((k, x) :: acc)
            | .char '\x7d' :: gs => some (.object ((k, x) :: acc).reverse, gs)
            | _ => none
        | _ => none
    | _ => none

end

/-- The one value that the glyphs spell, with blanks around it. -/
def ofGlyphs? (gs : List Glyph) : Option Json :=
  match value? (gs.length + 1) (skip gs) with
  | some (x, rest) => if skip rest = [] then some x else none
  | none => none

def parse? (bytes : ByteArray) : Option Json := ofGlyphs? (Glyph.ofBytes bytes)

end GraphProfile.Json
