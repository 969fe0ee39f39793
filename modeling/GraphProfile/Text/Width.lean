import GraphProfile.Text.Emoji
import GraphProfile.Text.Letter
import GraphProfile.Text.Wide

set_option autoImplicit false

/-!
# Width of text

How many columns a line of text takes in a terminal. Most characters take one, wide ones and pictures two, marks
none. What stands after a character can change that: it is measured from the end of the line, and with each
character goes what is to be known of the text after it.
-/
namespace GraphProfile.Text

def charWidth (c : Char) : Nat :=
  if isMark c then 0
  else if isWide c || isPicture c then 2
  else if c.toNat = 0x17D8 then 3
  else 1

/-- What a text begins with, selectors apart. -/
inductive Beginning where
  | plain
  | letter (letter : Letter) (joined : Bool)
  | emoji (emoji : Emoji)
deriving DecidableEq

namespace Beginning

def ofChar (c : Char) : Beginning :=
  match Letter.ofChar? c with
  | some l => .letter l false
  | none => (Emoji.ofChar? c).elim .plain .emoji

def isJoinedEmoji : Beginning → Bool
  | .emoji e => e.isJoined
  | _ => false

def keepsStyles : Beginning → Bool
  | .letter l _ => l.keepsStyles
  | _ => false

def before? (b : Beginning) (c : Char) : Option (Int × Beginning) :=
  match b with
  | .plain => none
  | .letter l joined => (l.before? joined c).map fun (w, next) => (w, next.elim .plain fun m => .letter m false)
  | .emoji e => (e.before? c).map fun (w, next) => (w, .emoji next)

end Beginning

/-- What a selector asks of the character before it. -/
inductive Style where
  | picture
  | narrow
  | fullWidth
deriving DecidableEq

def Style.ofChar? (c : Char) : Option Style :=
  match c.toNat with
  | 0xFE0F => some .picture
  | 0xFE0E => some .narrow
  | 0xFE01 => some .fullWidth
  | _ => none

def isCurlyQuote (c : Char) : Bool := inRanges [(0x2018, 0x2019), (0x201C, 0x201D)] c

/-- What a text begins with, and the styles that are asked of what comes before it. -/
structure Context where
  beginning : Beginning
  picture : Bool
  narrow : Bool
  fullWidth : Bool
deriving DecidableEq

namespace Context

def of (b : Beginning) : Context := ⟨b, false, false, false⟩

def plain : Context := of .plain

def add (x : Context) : Style → Context
  | .picture => { x with picture := true }
  | .narrow => { x with narrow := true }
  | .fullWidth => { x with fullWidth := true }

/-- A selector parts most texts from what comes before it. -/
def ask (x : Context) (s : Style) : Context :=
  if x.beginning.keepsStyles ∨ (s = .picture ∧ x.beginning.isJoinedEmoji) then x.add s else plain.add s

/-- A character in front of the text, and what it adds to the width. -/
abbrev Step := Int × Context

def alone (c : Char) : Step := (charWidth c, of (.ofChar c))

def stepJoining (x : Context) (c : Char) : Step :=
  if x.fullWidth then alone c
  else
    match x.beginning.before? c with
    | some (w, b) => (w, of b)
    | none => alone c

def stepMark (x : Context) (c : Char) : Step :=
  match x.beginning with
  | .letter l _ =>
    if l.keepsMarks ∧ c = joiner then (0, { x with beginning := .letter l true })
    else if l.keepsMarks ∧ isIgnorableMark c then (0, x)
    else x.stepJoining c
  | _ => x.stepJoining c

def stepStyle (x : Context) (c : Char) : Step :=
  match Style.ofChar? c with
  | some s => (0, x.ask s)
  | none =>
    if x.narrow then
      if isNarrowedByStyle c then (1, plain) else stepMark { x with narrow := false } c
    else if x.fullWidth ∧ isCurlyQuote c then (2, plain)
    else stepMark { x with fullWidth := false } c

/-- Characters up to the no-break space take one column, and what comes after them does not matter. -/
def stepBasic (x : Context) (c : Char) : Step :=
  if c.toNat ≤ 0xA0 then (1, plain) else x.stepStyle c

def step (x : Context) (c : Char) : Step :=
  if x.picture then
    if isStyled c then (if x.beginning.isJoinedEmoji then 0 else 2, of (.emoji .picture))
    else if x.beginning.keepsStyles then stepBasic { x with picture := false } c
    else plain.stepBasic c
  else x.stepBasic c

end Context

def measure (cs : List Char) : Context.Step :=
  cs.foldr (fun c after => let s := after.2.step c; (s.1 + after.1, s.2)) (0, Context.plain)

def width (s : String) : Nat := (measure s.toList).1.toNat

end GraphProfile.Text
