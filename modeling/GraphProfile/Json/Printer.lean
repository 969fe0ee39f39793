import GraphProfile.Json.Basic

set_option autoImplicit false

/-!
# Writing JSON

One printer with two forms: `pretty` puts every item on a line of its own, indented by two spaces a level, with
empty arrays and objects kept together; `compact` writes no blanks at all.
-/
namespace GraphProfile.Json

structure Form where
  lineBreak : Nat → List Char
  afterColon : List Char

def prettyForm : Form := ⟨fun depth => '\n' :: List.replicate (2 * depth) ' ', [' ']⟩

def compactForm : Form := ⟨fun _ => [], []⟩

def hexDigit (n : Nat) : Char := Nat.digitChar n

def escape (c : Char) : List Char :=
  match c with
  | '"' => ['\\', '"']
  | '\\' => ['\\', '\\']
  | '\n' => ['\\', 'n']
  | '\r' => ['\\', 'r']
  | '\t' => ['\\', 't']
  | '\x08' => ['\\', 'b']
  | '\x0c' => ['\\', 'f']
  | c =>
    if c.toNat < 32 then ['\\', 'u', '0', '0', hexDigit (c.toNat / 16), hexDigit (c.toNat % 16)]
    else [c]

/-- A string without content is written as half a surrogate pair, which has none either. -/
def stringChars : Option String → List Char
  | some s => '"' :: (s.toList.flatMap escape ++ ['"'])
  | none => ['"', '\\', 'u', 'd', '8', '0', '0', '"']

mutual

def chars (form : Form) (depth : Nat) : Json → List Char
  | .null => ['n', 'u', 'l', 'l']
  | .bool true => ['t', 'r', 'u', 'e']
  | .bool false => ['f', 'a', 'l', 's', 'e']
  | .number spelling => spelling.toList
  | .string content => stringChars content
  | .array [] => ['[', ']']
  | .array (x :: xs) =>
    '[' :: (form.lineBreak (depth + 1) ++ (chars form (depth + 1) x ++
      (itemsChars form (depth + 1) xs ++ (form.lineBreak depth ++ [']']))))
  | .object [] => ['\x7b', '\x7d']
  | .object ((k, x) :: xs) =>
    '\x7b' :: (form.lineBreak (depth + 1) ++ (stringChars k ++ (':' :: (form.afterColon ++
      (chars form (depth + 1) x ++ (fieldsChars form (depth + 1) xs ++ (form.lineBreak depth ++ ['\x7d'])))))))

def itemsChars (form : Form) (depth : Nat) : List Json → List Char
  | [] => []
  | x :: xs => ',' :: (form.lineBreak depth ++ (chars form depth x ++ itemsChars form depth xs))

def fieldsChars (form : Form) (depth : Nat) : List (Option String × Json) → List Char
  | [] => []
  | (k, x) :: xs =>
    ',' :: (form.lineBreak depth ++ (stringChars k ++ (':' :: (form.afterColon ++
      (chars form depth x ++ fieldsChars form depth xs)))))

end

def pretty (j : Json) : String := String.ofList (chars prettyForm 0 j)

def compact (j : Json) : String := String.ofList (chars compactForm 0 j)

end GraphProfile.Json
