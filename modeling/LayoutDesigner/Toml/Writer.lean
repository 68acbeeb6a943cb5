import LayoutDesigner.Toml.Reader

/-!
# Writing settings files

A table is written as a header and its plain members, and then the tables in it. A list of tables is
written as headers too, unless each of its tables fits on a line.
-/

namespace LayoutDesigner.Toml

/-- The greatest length of a line with a table of a list. -/
def lineLimit : Nat := 100

/-- A code point inside a text. -/
def writePoint (c : CodePoint) : Text :=
  match c.toChar with
  | '\x08' => "\\b"
  | '\n' => "\\n"
  | '\x0c' => "\\f"
  | '\r' => "\\r"
  | '"' => "\\\""
  | '\\' => "\\\\"
  | _ => if isControl c then "\\u" ++ Text.hex c.val 4 else [c]

/-- A text between quotes. -/
def writeText (t : Text) : Text := ("\"" : Text) ++ t.flatMap writePoint ++ ("\"" : Text)

/-- A key, between quotes where it needs them. -/
def writeKey (key : Text) : Text := if !key.isEmpty && key.all isBareKey then key else writeText key

/-- The start of a line of a list at a level. -/
def listIndent (level : Nat) : Text := List.replicate (4 * level) (' ' : CodePoint)

mutual

/-- A value after its key. Null has no form. -/
def writeValue (level : Nat) : Document → Except Fault Text
  | .null => .error .wrongType
  | .bool b => .ok (if b then "true" else "false")
  | .num n => .ok n.text
  | .str t => .ok (writeText t)
  | .arr [] => .ok "[]"
  | .arr (v :: rest) => do
    let first ← writeValue (level + 1) v
    let others ← writeItems (level + 1) rest
    return ("[\n" : Text) ++ Text.join ",\n" ((first :: others).map (listIndent (level + 1) ++ ·)) ++
      (",\n" : Text) ++ listIndent level ++ ("]" : Text)
  | .obj [] => .ok "\x7b\x7d"
  | .obj ((key, v) :: rest) => do
    let first ← writeValue 0 v
    let others ← writePairs rest
    return ("\x7b " : Text) ++ Text.join ", " ((writeKey key ++ (" = " : Text) ++ first) :: others) ++
      (" \x7d" : Text)

/-- The items of a list. -/
def writeItems (level : Nat) : List Document → Except Fault (List Text)
  | [] => .ok []
  | v :: rest => do
    let first ← writeValue level v
    return first :: (← writeItems level rest)

/-- The pairs of a table on one line. -/
def writePairs : List (Text × Document) → Except Fault (List Text)
  | [] => .ok []
  | (key, v) :: rest => do
    let first ← writeValue 0 v
    return (writeKey key ++ (" = " : Text) ++ first) :: (← writePairs rest)

end

/-- Whether the item of a list fits on a line. -/
def fitsLine (v : Document) : Except Fault Bool := do
  let written ← writeValue 0 v
  return written.length + 5 ≤ lineLimit && !written.elem ('\n' : CodePoint)

/-- Whether a value is a list of tables, at least one. -/
def isTableList : List Document → Bool
  | [] => false
  | items => items.all fun v => match v with
    | .obj _ => true
    | _ => false

/-- Whether every item of a list fits on a line; the first that does not ends the question. -/
def allFit : List Document → Except Fault Bool
  | [] => .ok true
  | v :: rest => do
    if ← fitsLine v then allFit rest else return false

/-- How a member of a table is written. -/
inductive Form where
  | plain
  | table
  | tables

/-- The form of a member. -/
def formOf : Document → Except Fault Form
  | .obj _ => .ok .table
  | .arr items => do
    if isTableList items && !(← allFit items) then return .tables else return .plain
  | _ => .ok .plain

/-- The depth of lists and tables inside one another. -/
def nesting : Document → Nat
  | .arr items => nestingOfItems items + 1
  | .obj members => nestingOfMembers members + 1
  | _ => 0
where
  /-- The greatest depth of the items. -/
  nestingOfItems : List Document → Nat
    | [] => 0
    | v :: rest => max (nesting v) (nestingOfItems rest)
  /-- The greatest depth of the members. -/
  nestingOfMembers : List (Text × Document) → Nat
    | [] => 0
    | (_, v) :: rest => max (nesting v) (nestingOfMembers rest)

/-- The plain members of a table, a line each. -/
def plainLines : List (Text × Document) → Except Fault (List Text)
  | [] => .ok []
  | (key, v) :: rest => do
    match ← formOf v with
    | .plain =>
      let written ← writeValue 0 v
      return (writeKey key ++ (" = " : Text) ++ written ++ ("\n" : Text)) :: (← plainLines rest)
    | _ => plainLines rest

/-- The tables inside a table with their keys; those of a list are marked. -/
def innerTables : List (Text × Document) → Except Fault (List (Text × List (Text × Document) × Bool))
  | [] => .ok []
  | (key, v) :: rest => do
    let found := match ← formOf v, v with
      | .table, .obj members => [(key, members, false)]
      | .tables, .arr items => items.filterMap fun item => match item with
        | .obj members => some (key, members, true)
        | _ => none
      | _, _ => []
    return found ++ (← innerTables rest)

/-- The text of a table with the given name, empty for the whole file. `depth` bounds the depth of
tables. -/
def writeTable : (depth : Nat) → (name : Text) → (inList : Bool) → List (Text × Document) →
    Except Fault Text
  | 0, _, _, _ => .ok []
  | depth + 1, name, inList, members => do
    let inner ← innerTables members
    let lines ← plainLines members
    let headed := inList || (!name.isEmpty && (!lines.isEmpty || inner.isEmpty))
    let header : Text :=
      if inList then ("[[" : Text) ++ name ++ ("]]\n" : Text)
      else if headed then ("[" : Text) ++ name ++ ("]\n" : Text)
      else []
    let parts ← inner.mapM fun (key, members, inList) =>
      let key := writeKey key
      writeTable depth (if name.isEmpty then key else name ++ ("." : Text) ++ key) inList members
    let started := headed || !lines.isEmpty
    let body := header ++ lines.flatten
    return if started then parts.foldl (fun t part => t ++ ("\n" : Text) ++ part) body
      else Text.join "\n" parts

/-- The text of a document as a settings file. -/
def write (members : List (Text × Document)) : Except Fault Text :=
  writeTable (nesting (.obj members) + 1) [] false members

end LayoutDesigner.Toml
