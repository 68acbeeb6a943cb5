import LayoutDesigner.Text

/-!
# String literals of the script

A text stands in a script between double quotes. Backslashes, double quotes and line ends are
escaped; everything else stands for itself.
-/

namespace LayoutDesigner.Script

/-- A code point inside a literal. -/
def escapePoint (c : CodePoint) : Text :=
  if c = '\\' then "\\\\"
  else if c = '"' then "\\\""
  else if c = '\r' then "\\r"
  else if c = '\n' then "\\n"
  else [c]

/-- A text inside a literal. -/
def escape (t : Text) : Text := t.flatMap escapePoint

/-- A text is escaped point by point. -/
theorem escape_cons (c : CodePoint) (t : Text) : escape (c :: t) = escapePoint c ++ escape t :=
  List.flatMap_cons

/-- A text as a literal. -/
def literal (t : Text) : Text := ("\"" : Text) ++ escape t ++ ("\"" : Text)

end LayoutDesigner.Script
