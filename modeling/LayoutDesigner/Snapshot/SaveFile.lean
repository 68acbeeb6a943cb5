import LayoutDesigner.Json.Writer
import LayoutDesigner.Session
import LayoutDesigner.Text.Utf8

/-!
# Save files

A design is saved in one file that holds its snapshot as text. Reading tells a missing file from one
that holds no document. Writing puts the pieces of the text into the emptied file one by one, so a
piece that cannot be encoded leaves the pieces before it.
-/

namespace LayoutDesigner

/-- The bytes of a save file, if there is one. -/
abbrev SaveFile := Option (List UInt8)

namespace SaveFile

/-- The document of a text in a save file. -/
def readText (t : Text) (depth : Nat := usualDepth) : Except Fault Document :=
  match Json.read t depth with
  | .ok v => .ok v
  | .error .malformed => .error .unreadableSnapshot
  | .error (.numeralTooLong digits) => .error (.numeralTooLong digits)
  | .error .tooDeep => .error .tooDeep

/-- The document in a save file; nothing where there is no file. -/
def read (file : SaveFile) (depth : Nat := usualDepth) : Except Fault (Option Document) :=
  match file with
  | none => .ok none
  | some bytes =>
    match Text.decode? bytes with
    | none => .error .undecodable
    | some t => (readText t depth).map some

/-- Write pieces of text at the end of the file. -/
def append : List Text → Edit SaveFile Unit
  | [] => pure ()
  | piece :: rest =>
    match piece.encode? with
    | none => throw .unencodable
    | some bytes => do
      modify fun file => some (file.getD [] ++ bytes)
      append rest

/-- Write a document in the place of what the file held. -/
def write (v : Document) : Edit SaveFile Unit := do
  set (some [] : SaveFile)
  append (Json.filePieces v)

/-- The text that a file shows, with replacement characters for what is no text. -/
def shownText (file : SaveFile) : Option Text := file.map Text.decodeLossy

end SaveFile

namespace Session

/-- Save the design to a file. -/
def save : Edit (Session Number × SaveFile) Unit := do
  let (s, _) ← get
  let data ← s.takeSnapshot
  Edit.focus Prod.snd (fun pair file => (pair.1, file)) (SaveFile.write data)
  Edit.focus Prod.fst (fun pair s => (s, pair.2)) confirmSaved

/-- Load the design from a file. -/
def load (file : SaveFile) : Edit (Session Number) Bool := do loadFrom (file.read (← get).depth)

/-- Whether a script comes out the same after the design was saved and loaded. -/
def roundTrip : Edit (Session Number) Bool := do
  let before ← exportScript
  let s ← get
  let data ← SaveFile.readText (Json.fileText (← s.takeSnapshot)) s.depth
  let _ ← loadSnapshot data
  let after ← exportScript
  return before = after

end Session

end LayoutDesigner
