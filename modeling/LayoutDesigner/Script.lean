import LayoutDesigner.Project
import LayoutDesigner.Script.Assignment
import LayoutDesigner.Script.Order
import LayoutDesigner.Text.Utf8
import LayoutDesigner.Text.Word

/-!
# The generated script

The script rebuilds a design at run time: first the screen that holds it, then every node below the
root with its extensions. The same design always gives the same text.
-/

namespace LayoutDesigner

/-- A script: its statements, and whether they stand inside one block. -/
structure Script where
  nested : Bool
  statements : List Script.Statement

namespace Script

/-- The line of a statement, moved in where it stands inside a block. -/
def Statement.line (nested : Bool) : Statement → Text
  | .blank => []
  | s => if nested then ("  " : Text) ++ s.render else s.render

/-- The lines of a script. -/
def lines (script : Script) : List Text :=
  let body := script.statements.map (Statement.line script.nested)
  if script.nested then ([("do" : Text)] : List Text) ++ body ++ [("end" : Text)] else body

/-- The text of a script, without blanks at its end. -/
def text (script : Script) : Text := (Text.join "\n" script.lines).stripRight

variable {α : Type} [Arith α]

/-- The name of the screen: that of the project without blanks around it, or the kind's. -/
def screenName (p : Project α) : Except Fault Text :=
  match p.guiName with
  | .str t => .ok (t.strip.orElse "ScreenGui")
  | v => if v.truthy then .error .wrongMember else .ok "ScreenGui"

/-- The statements that create the screen. -/
def header (p : Project α) : Except Fault (List Statement) := do
  let name ← screenName p
  let parent : List Statement :=
    if p.usesCoreGui then [.assign screenVariable parentProperty .coreGui]
    else [.localPlayer, .assign screenVariable parentProperty .playerGui]
  return [.create screenVariable "ScreenGui", .assign screenVariable "Name" (.text name),
      .assign screenVariable "ResetOnSpawn" (.truth p.resetOnSpawn.truthy)] ++ parent ++ [.blank]

/-- The statements that create the extensions of the node that `owner` stands for. -/
def extensionStatements (names : Names) (owner : Text) :
    List (Extension α) → Except Fault (List Statement × Names)
  | [] => .ok ([], names)
  | e :: rest => do
    let (v, names) := names.ofExtension owner e
    let assignments := (← e.assignments).map fun (property, value) => Statement.assign v property value
    let (others, names) ← extensionStatements names owner rest
    return (.create v e.shownKind.shown :: assignments ++
      .assign v parentProperty (.reference owner) :: others, names)

/-- The statements that create a node. A variable that follows what the node is called needs a
text. -/
def nodeStatements (names : Names) (n : Node α) : Except Fault (List Statement × Names) := do
  if !names.counted then let _ ← n.calledText
  let (v, names) := names.ofNode n
  let assignments := (← n.assignments).map fun (property, value) => Statement.assign v property value
  let (extensions, names) ← extensionStatements names v n.extensions
  let parent :=
    if n.parent = root then screenVariable else (names.lookup n.parent).getD screenVariable
  return (.create v n.kind.name :: assignments ++ extensions ++
    [.assign v parentProperty (.reference parent), .blank], names)

/-- The statements that create the listed nodes. -/
def treeStatements (s : Store α) (names : Names) : List Text → Except Fault (List Statement)
  | [] => .ok []
  | id :: rest =>
    match s.find? id with
    | none => treeStatements s names rest
    | some n => do
      let (first, names) ← nodeStatements names n
      return first ++ (← treeStatements s names rest)

/-- The script of a design. -/
def ofStore (s : Store α) (p : Project α) : Except Fault Script := do
  let first ← header p
  s.checkAllLayers
  let rest ← treeStatements s { counted := p.isNested } (writingOrder s)
  return ⟨p.isNested, first ++ rest⟩

/-- The text of the script of a design. -/
def generate (s : Store α) (p : Project α) : Except Fault Text := do return (← ofStore s p).text

/-- Runs of code points that are no part of a file name become one underscore. -/
def joinRuns (inRun : Bool) : Text → Text
  | [] => []
  | c :: rest =>
    if c.isWord || c = '-' then c :: joinRuns false rest
    else if inRun then joinRuns true rest
    else '_' :: joinRuns true rest

/-- The file name that is offered for a script. -/
def fileName (p : Project α) : Except Fault Text :=
  match p.guiName with
  | .str t => .ok (joinRuns false (t.orElse "ui") ++ (".lua" : Text))
  | v => if v.truthy then .error .wrongType else .ok "ui.lua"

/-- The bytes of a script's text in a file. -/
def bytes (text : Text) : Except Fault (List UInt8) :=
  match text.encode? with
  | some bytes => .ok bytes
  | none => .error .unencodable

end Script

end LayoutDesigner
