import LayoutDesigner.Session.Command
import LayoutDesigner.Shell.Outline

/-!
# The explorer

The explorer shows the hierarchy of a design as a tree. Its top row stands for the screen; below it
come the nodes that are drawn, siblings from the lowest layer up. A click on a row selects its node;
a row that is dropped on another one moves its node.
-/

namespace LayoutDesigner.Shell

open Store (TreeRow)

/-- A row of the explorer with the rows below it. -/
inductive Branch (α : Type) where
  | node (row : TreeRow α) (children : List (Branch α))

namespace Branch

variable {α : Type}

/-- The row at the top of a branch. -/
def row : Branch α → TreeRow α
  | node row _ => row

/-- The branches below the row at the top. -/
def children : Branch α → List (Branch α)
  | node _ children => children

/-- Put a row before branches: those at the start that lie deeper come below it. -/
def place (row : TreeRow α) (branches : List (Branch α)) : List (Branch α) :=
  let isBelow (b : Branch α) : Bool := row.depth < b.row.depth
  node row (branches.takeWhile isBelow) :: branches.dropWhile isBelow

/-- The tree of rows that tell how deep they lie, parents before children. -/
def ofRows (rows : List (TreeRow α)) : List (Branch α) := rows.foldr place []

mutual

/-- A branch as a document: the columns of its row and the branches below. -/
def toDocument : Branch Number → Outline
  | node row children =>
    .arr [row.name, .str row.kind.name, .str row.layer.shown, .arr (listDocuments children)]

/-- Branches as documents. -/
def listDocuments : List (Branch Number) → List Outline
  | [] => []
  | b :: rest => toDocument b :: listDocuments rest

end

end Branch

/-- What the explorer was built from. -/
structure Explorer.Content (α : Type) where
  title : Value α
  rows : List (TreeRow α)
  selectedId : Option Text

/-- The explorer. Its rows are counted from the top row, which is row 0. -/
structure Explorer (α : Type) where
  content : Option (Explorer.Content α) := none
  /-- The row that the keyboard is on. -/
  current : Option Nat := none
  /-- The row that is marked. -/
  marked : Option Nat := none

namespace Explorer

variable {α : Type}

/-- The rows of nodes. -/
def rows (e : Explorer α) : List (TreeRow α) := (e.content.map Content.rows).getD []

/-- The ids of all rows, from the top row down. -/
def ids (e : Explorer α) : List Text := root :: e.rows.map TreeRow.id

/-- The id of a row. -/
def idOf (e : Explorer α) (row : Option Nat) : Option Text := row.bind fun i => e.ids[i]?

/-- The tree below the top row. -/
def tree (e : Explorer α) : List (Branch α) := Branch.ofRows e.rows

/-- The row of a node among the rows of nodes. -/
def rowOf (rows : List (TreeRow α)) (id : Text) : Option Nat :=
  (rows.findIdx? fun r => r.id = id).map (· + 1)

/-- The height of a row. -/
def rowHeight : Nat := 20

/-- The row at a height. -/
def rowAt (e : Explorer α) (height : Int) : Option Nat :=
  let row := height / rowHeight
  if 0 ≤ height ∧ row.toNat < e.ids.length then some row.toNat else none

variable [Arith α]

/-- Whether two contents are equal. -/
def Content.same (a b : Content α) : Bool :=
  a.title.same b.title && a.rows.length == b.rows.length &&
    (a.rows.zip b.rows).all (fun (old, new) => old.same new) && a.selectedId == b.selectedId

/-- The explorer built from a content, the row of the selected node marked. -/
def build (c : Content α) : Explorer α :=
  let row := c.selectedId.bind (rowOf c.rows)
  ⟨some c, row, row⟩

/-- Build the explorer again where what it shows has changed. -/
def refresh (e : Explorer α) (s : Session α) : Except Fault (Explorer α) := do
  s.store.checkAllLayers
  let new : Content α := ⟨s.project.guiName, s.store.treeRows, s.selectedId⟩
  return if e.content.any fun old => old.same new then e else build new

/-- Go to a row. Answers the command that follows where the mark moves: a row of a node selects it,
any other selects nothing. -/
def click (e : Explorer α) (row : Option Nat) : Explorer α × Option (Command α) :=
  let clicked := { e with current := row, marked := row }
  if e.marked = row then (clicked, none)
  else
    match e.idOf row with
    | none => (clicked, some .clearSelection)
    | some id => (clicked, some (if id = root then .clearSelection else .select (.str id)))

/-- The position of a drop at a height on a row; the top row takes everything inside. -/
def dropPosition (s : Store α) (row : Nat) (target : Text) (y : α) : Except Fault DropPosition := do
  if target = root then return .inside
  let offset ← Arith.sub y (Arith.ofInt (row * rowHeight : Nat))
  let canContain := (s.find? target).any fun n => n.kind.isContainer
  Stage.rowDropPosition (Arith.ofInt rowHeight) offset canContain

/-- The command that follows where the current row is dropped at a height. -/
def drop (e : Explorer α) (s : Store α) (y : α) (height : Int) :
    Except Fault (Option (Command α)) := do
  let row? := e.rowAt height
  match e.idOf e.current, row?, e.idOf row? with
  | some dragged, some row, some target =>
    if dragged = root ∨ dragged = target then return none
    let position ← dropPosition s row target y
    return some (.reorderDrop (.str dragged) (.str target) (.str position.name))
  | _, _, _ => return none

end Explorer

namespace Explorer

/-- What the explorer shows, as a document. -/
def toDocument (e : Explorer Number) : Outline :=
  let title := (e.content.map Content.title).getD .null
  let top : Outline :=
    .arr [title, .str "ScreenGui", .str [], .arr (Branch.listDocuments e.tree)]
  .obj [("rows", .arr [top]), ("ids", .arr (e.ids.map .str)),
    ("selected", Session.idValue (e.idOf e.marked))]

/-- The outline of the explorer. -/
def outline : Outline :=
  Outline.plain "ExplorerTree"
    [("setHeaderLabels", .arr [.str "Name", .str "Type", .str "Z"]),
      ("setColumnWidth", Outline.numbers [1, 110]), ("setSelectionMode", .str "SingleSelection"),
      ("setDragEnabled", .bool true), ("setAcceptDrops", .bool true),
      ("setDropIndicatorShown", .bool true), ("setDragDropMode", .str "InternalMove")] []

end Explorer

end LayoutDesigner.Shell
