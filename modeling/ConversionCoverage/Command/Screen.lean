import ConversionCoverage.Command.Run

/-!
# Plain screens

What a command shows, as plain text: styles are dropped, panels become paragraphs, and the columns
of tables are filled up with blanks.
-/

namespace ConversionCoverage.Screen

def widths (rows : List (List Text)) : List Nat :=
  let columns := (rows.map List.length).foldl max 0
  (List.range columns).map fun i =>
    ((rows.map fun row => (row[i]?.getD []).length).foldl max 0)

def rowLine (widths : List Nat) (row : List Text) : Text :=
  Text.join "  " ((row.zip widths).map fun (cell, width) => cell.padRight width)

/-- What is shown, as lines. -/
def lines : Shown → List Text
  | .line t => [Markup.plain t]
  | .panel t title => [Markup.plain title, Markup.plain t]
  | .table columns rows =>
    let all := (columns :: rows).map fun row => row.map Markup.plain
    all.map (rowLine (widths all))

def toText (shown : List Shown) : Text := (shown.flatMap lines).flatMap fun line => line ++ "\n"

end ConversionCoverage.Screen
