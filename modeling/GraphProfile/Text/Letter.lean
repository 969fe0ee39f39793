import GraphProfile.Text.Mark

set_option autoImplicit false

namespace GraphProfile.Text

/-- A letter that a text begins with, in so far as what stands before it can join it. -/
inductive Letter where
  | alef
  | lamed
  | buginese
  /-- A Buginese letter under its vowel. -/
  | bugineseVowel
  | tifinagh
  /-- A Tifinagh letter under the sign that joins it. -/
  | tifinaghJoined
  | lisuTone
  | turkic
  | khmer
  | kiratRaiE
  | kiratRaiAi
deriving DecidableEq

def alefRanges : List (Nat × Nat) :=
  [(0x622, 0x623), (0x625, 0x625), (0x627, 0x627), (0x671, 0x673), (0x675, 0x675), (0x773, 0x774), (0x870, 0x882)]

def lamRanges : List (Nat × Nat) :=
  [(0x644, 0x644), (0x6B5, 0x6B8), (0x76A, 0x76A), (0x8A6, 0x8A6), (0x8C7, 0x8C7)]

/-- Khmer letters that can be written below another. -/
def khmerRanges : List (Nat × Nat) :=
  [(0x1780, 0x1782), (0x1784, 0x1787), (0x1789, 0x178C), (0x178E, 0x1793), (0x1795, 0x1798), (0x179B, 0x179D),
   (0x17A0, 0x17A0), (0x17A2, 0x17A2), (0x17A7, 0x17A7), (0x17AB, 0x17AC), (0x17AF, 0x17AF)]

def tifinaghRanges : List (Nat × Nat) := [(0x2D31, 0x2D65), (0x2D6F, 0x2D6F)]

namespace Letter

def ofChar? (c : Char) : Option Letter :=
  if inRanges alefRanges c then some .alef
  else if inRanges khmerRanges c then some .khmer
  else if inRanges tifinaghRanges c then some .tifinagh
  else
    match c.toNat with
    | 0x5DC => some .lamed
    | 0x1A10 => some .buginese
    | 0xA4FC | 0xA4FD => some .lisuTone
    | 0x10C03 => some .turkic
    | 0x16D67 => some .kiratRaiE
    | 0x16D68 => some .kiratRaiAi
    | _ => none

/-- A selector before the letter leaves what can join it as it is. -/
def keepsStyles (l : Letter) : Bool := l != .kiratRaiE && l != .kiratRaiAi

/-- Joiners and marks that are to be ignored leave what can join the letter as it is. -/
def keepsMarks (l : Letter) : Bool := l.keepsStyles && l != .alef

/-- What a character before the letter adds to its width, if the two join. -/
def before? (l : Letter) (joined : Bool) (c : Char) : Option (Int × Option Letter) :=
  let n := c.toNat
  match l with
  | .alef =>
    if inRanges lamRanges c then some (0, none)
    else if isTransparent c then some (0, some .alef)
    else none
  | .lamed => if joined ∧ n = 0x5D0 then some (0, none) else none
  | .buginese => if joined ∧ n = 0x1A17 then some (0, some .bugineseVowel) else none
  | .bugineseVowel => if n = 0x1A15 then some (0, none) else none
  | .tifinagh =>
    if n = 0x2D7F then some (1, some .tifinaghJoined)
    else if joined ∧ inRanges tifinaghRanges c then some (0, none)
    else none
  | .tifinaghJoined => if inRanges tifinaghRanges c then some (-1, none) else none
  | .lisuTone => if 0xA4F8 ≤ n ∧ n ≤ 0xA4FB then some (0, none) else none
  | .turkic => if joined ∧ n = 0x10C32 then some (0, none) else none
  | .khmer => if n = 0x17D2 then some (-1, none) else none
  | .kiratRaiE =>
    if n = 0x16D67 then some (0, some .kiratRaiAi)
    else if n = 0x16D68 then some (1, some .kiratRaiE)
    else if n = 0x16D63 ∨ n = 0x16D69 then some (0, none)
    else none
  | .kiratRaiAi => if n = 0x16D63 then some (0, none) else none

end Letter
end GraphProfile.Text
