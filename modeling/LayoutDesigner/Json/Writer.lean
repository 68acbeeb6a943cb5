import LayoutDesigner.Json.Reader

/-!
# Writing documents

A document is written with an item or member a line, two blanks of indentation for each level, and
only those escapes that are needed. The text is made in pieces, in the order in which they reach a
file.
-/

namespace LayoutDesigner.Json

/-- A code point inside a string. -/
def writePoint (c : CodePoint) : Text :=
  match c.toChar with
  | '"' => "\\\""
  | '\\' => "\\\\"
  | '\n' => "\\n"
  | '\r' => "\\r"
  | '\t' => "\\t"
  | '\x08' => "\\b"
  | '\x0c' => "\\f"
  | _ => if c.val < 0x20 then "\\u" ++ Text.hex c.val 4 else [c]

/-- A string between quotes. -/
def writeString (t : Text) : Text := ("\"" : Text) ++ t.flatMap writePoint ++ ("\"" : Text)

/-- A number; what is no finite number has a word. -/
def writeNumber : Number → Text
  | .int n => Text.ofInt n
  | .real x =>
    match Number.classify x with
    | .nan => "NaN"
    | .infinite negative => if negative then "-Infinity" else "Infinity"
    | .finite _ => Number.floatText x

/-- The start of a line at a level. -/
def lineStart (level : Nat) : Text := ("\n" : Text) ++ List.replicate (2 * level) (' ' : CodePoint)

mutual

/-- The pieces of a value whose lines are at `level`. -/
def pieces (level : Nat) : Document → List Text
  | .null => ["null"]
  | .bool b => [if b then "true" else "false"]
  | .num n => [writeNumber n]
  | .str t => [writeString t]
  | .arr [] => ["[]"]
  | .arr (v :: rest) =>
    itemPieces (level + 1) (("[" : Text) ++ lineStart (level + 1)) (v :: rest) ++
      [lineStart level, "]"]
  | .obj [] => ["\x7b\x7d"]
  | .obj (m :: rest) =>
    ([("\x7b" : Text), lineStart (level + 1)] : List Text) ++ memberPieces (level + 1) (m :: rest) ++
      [lineStart level, "\x7d"]

/-- The pieces of the items of a list; `before` is what comes before the first. An item that is no
list and no object is one piece with what comes before it. -/
def itemPieces (level : Nat) (before : Text) : List Document → List Text
  | [] => []
  | v :: rest =>
    (match v, pieces level v with
      | .arr _, ps => before :: ps
      | .obj _, ps => before :: ps
      | _, ps => [before ++ ps.flatten]) ++
      itemPieces level (("," : Text) ++ lineStart level) rest

/-- The pieces of the members of an object. -/
def memberPieces (level : Nat) : List (Text × Document) → List Text
  | [] => []
  | [(key, v)] => [writeString key, ": "] ++ pieces level v
  | (key, v) :: m :: rest =>
    [writeString key, ": "] ++ pieces level v ++ [("," : Text) ++ lineStart level] ++
      memberPieces level (m :: rest)

end

/-- The pieces of a document in a file: the document and a line feed. -/
def filePieces (v : Document) : List Text := pieces 0 v ++ [("\n" : Text)]

/-- The text of a document in a file. -/
def fileText (v : Document) : Text := (filePieces v).flatten

end LayoutDesigner.Json
