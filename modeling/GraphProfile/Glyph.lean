set_option autoImplicit false

/-!
# Bytes as text

A file is bytes, and most of them spell characters in UTF-8. A `Glyph` is a character, or a byte that starts
none. Bytes below 128 stand for themselves wherever they are, so a reader that looks for ASCII marks can work on
glyphs and leave the question whether all is text to the place where text is asked for.
-/
namespace GraphProfile

inductive Glyph where
  | char (c : Char)
  | stray (b : UInt8)
deriving DecidableEq

namespace Glyph

def collect (bytes : ByteArray) (i : Nat) (acc : List Glyph) : List Glyph :=
  if h : i < bytes.size then
    match bytes.utf8DecodeChar? i with
    | some c => collect bytes (i + c.utf8Size) (.char c :: acc)
    | none => collect bytes (i + 1) (.stray bytes[i] :: acc)
  else acc.reverse
termination_by bytes.size - i
decreasing_by
  · have := c.utf8Size_pos
    omega
  · omega

def ofBytes (bytes : ByteArray) : List Glyph := collect bytes 0 []

def char? : Glyph → Option Char
  | .char c => some c
  | .stray _ => none

def text? (gs : List Glyph) : Option String := (gs.mapM char?).map String.ofList

/-- How many bytes are spelled before the first stray one. -/
def textSize : List Glyph → Nat
  | .char c :: gs => c.utf8Size + textSize gs
  | _ => 0

end Glyph
end GraphProfile
