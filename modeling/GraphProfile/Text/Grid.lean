import GraphProfile.Text.Width

set_option autoImplicit false

namespace GraphProfile.Text

structure Grid where
  header : List String
  rows : List (List String)

namespace Grid

def cellLines (cell : String) : List String := cell.splitOn "\n"

def cellWidth (cell : String) : Nat := ((cellLines cell).map width).foldl max 0

def widths (g : Grid) : List Nat :=
  g.rows.foldl (fun ws row => List.zipWith max ws (row.map cellWidth)) (g.header.map cellWidth)

def rule (left across middle right : String) (ws : List Nat) : String :=
  left ++ String.intercalate middle (ws.map fun w => String.join (List.replicate (w + 2) across)) ++ right

def padded (w : Nat) (line : String) : String :=
  " " ++ line ++ String.ofList (List.replicate (w - width line + 1) ' ')

def rowLine (ws : List Nat) (row : List (List String)) (i : Nat) : String :=
  "│" ++ String.intercalate "┆" (List.zipWith (fun w cell => padded w (cell[i]?.getD "")) ws row) ++ "│"

def rowLines (ws : List Nat) (row : List String) : List String :=
  let cells := row.map cellLines
  (List.range ((cells.map List.length).foldl max 0)).map (rowLine ws cells)

def lines (g : Grid) : List String :=
  let ws := g.widths
  rule "┌" "─" "┬" "┐" ws :: rowLines ws g.header ++ rule "╞" "═" "╪" "╡" ws ::
    (g.rows.flatMap (rowLines ws) ++ [rule "└" "─" "┴" "┘" ws])

def text (g : Grid) : String := String.join (g.lines.map (· ++ "\n"))

end Grid
end GraphProfile.Text
