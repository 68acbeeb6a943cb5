import LayoutDesigner.Shell.ExtensionEditor

/-!
# The property panel

The panel shows the selected node, its extensions and the project in fields that can be edited. An
edit stands for one command of the session; afterwards the panel reads everything again. What is
being typed into a text field is left alone.
-/

namespace LayoutDesigner.Shell

/-- The text fields of the panel. -/
inductive Entry where
  | name | x | y | w | h | anchor | text | image | guiName
  deriving DecidableEq, Repr

/-- The lists of choices of the panel. -/
inductive Choice where
  | parent | font | extensionKind | runtimeParent | outputMode
  deriving DecidableEq, Repr

/-- The boxes to tick of the panel. -/
inductive Tick where
  | border | textScaled | resetOnSpawn
  deriving DecidableEq, Repr

/-- The fields for whole numbers of the panel. -/
inductive Counter where
  | zIndex | canvasW | canvasH | scrollbar
  deriving DecidableEq, Repr

namespace Entry

/-- The property that a field edits; the name of the screen belongs to the project. -/
def field? : Entry → Option Field
  | .name => some .name
  | .x => some .x
  | .y => some .y
  | .w => some .w
  | .h => some .h
  | .anchor => some .anchor
  | .text => some .text
  | .image => some .image
  | .guiName => none

/-- The name of a field. -/
def label : Entry → Text
  | .name => "name_edit"
  | .x => "geom_edits.x"
  | .y => "geom_edits.y"
  | .w => "geom_edits.w"
  | .h => "geom_edits.h"
  | .anchor => "anchor_edit"
  | .text => "text_edit"
  | .image => "image_edit"
  | .guiName => "gui_name_edit"

/-- Every field, from the top down. -/
def all : List Entry := [.name, .x, .y, .w, .h, .anchor, .text, .image, .guiName]

end Entry

namespace Choice

/-- The choice that a new panel shows: the first of a list that has any. -/
def initial : Choice → Option Nat
  | .parent => none
  | _ => some 0

/-- The name of a list. -/
def label : Choice → Text
  | .parent => "parent_combo"
  | .font => "font_combo"
  | .extensionKind => "ext_add_combo"
  | .runtimeParent => "runtime_parent_combo"
  | .outputMode => "output_mode_combo"

/-- Every list, from the top down. -/
def all : List Choice := [.parent, .font, .extensionKind, .runtimeParent, .outputMode]

end Choice

namespace Tick

/-- The name of a box. -/
def label : Tick → Text
  | .border => "border_check"
  | .textScaled => "text_scaled_check"
  | .resetOnSpawn => "reset_check"

/-- Every box, from the top down. -/
def all : List Tick := [.border, .textScaled, .resetOnSpawn]

end Tick

namespace Counter

/-- The property that a field edits. -/
def field : Counter → Field
  | .zIndex => .zIndex
  | .canvasW => .canvasW
  | .canvasH => .canvasH
  | .scrollbar => .scrollbarThickness

/-- The name of a field. -/
def label : Counter → Text
  | .zIndex => "z_spin"
  | .canvasW => "scroll_spins.canvas_w"
  | .canvasH => "scroll_spins.canvas_h"
  | .scrollbar => "scroll_spins.scrollbar_thickness"

/-- Every field, from the top down. -/
def all : List Counter := [.zIndex, .canvasW, .canvasH, .scrollbar]

/-- The least number of a field. -/
def least : Counter → Int
  | .zIndex => 1
  | _ => 0

/-- The greatest number of every field. -/
def greatest : Int := 100000

/-- A number kept in the range of a field. -/
def limit (c : Counter) (n : Int) : Int := max c.least (min greatest n)

end Counter

/-- Which rows of the form belong to the kind of the shown node. -/
structure RowKinds where
  textual : Bool := false
  imageLike : Bool := false
  scrollable : Bool := false

/-- The property panel. -/
structure PropertyPanel where
  kind : Text := "-"
  /-- Whether a node is shown. -/
  enabled : Bool := false
  entry : Entry → TextField := fun _ => {}
  /-- The node and the choices that the list of parents was filled with. -/
  parentsOf : Option (Text × List (Text × Text)) := none
  choice : Choice → Option Nat := Choice.initial
  tick : Tick → Bool := fun _ => false
  counter : Counter → Int := Counter.least
  opacity : Number := Arith.zero
  background : Option Text := none
  textColor : Option Text := none
  rows : RowKinds := {}
  /-- The node and the extensions that the editors were made for. -/
  editorsOf : Option Text × List (Text × Text) := (none, [])
  editors : List ExtensionEditor := []

namespace PropertyPanel

/-- A function with one value replaced. -/
def replaceAt {κ β : Type} [DecidableEq κ] (f : κ → β) (key : κ) (value : β) : κ → β := fun k =>
  if k = key then value else f k

/-- Let a text field show a text, unless something is being typed into it. -/
def displayEntry (p : PropertyPanel) (e : Entry) (text : Value Number) : PropertyPanel :=
  { p with entry := replaceAt p.entry e ((p.entry e).display text) }

/-- Set a choice. -/
def setChoice (p : PropertyPanel) (c : Choice) (index : Option Nat) : PropertyPanel :=
  { p with choice := replaceAt p.choice c index }

/-- Tick a box or not. -/
def setTick (p : PropertyPanel) (t : Tick) (on : Bool) : PropertyPanel :=
  { p with tick := replaceAt p.tick t on }

/-- Set a number, kept in its range. -/
def setCounter (p : PropertyPanel) (c : Counter) (n : Int) : PropertyPanel :=
  { p with counter := replaceAt p.counter c (c.limit n) }

/-- Set the opacity: rounded to two places and kept between zero and one. -/
def setOpacity (p : PropertyPanel) (x : Number) : PropertyPanel :=
  { p with opacity := Arith.clamp (hundredths x) Arith.zero Arith.one }

/-- The parents that are offered, with the text that each is offered under. -/
def parents (p : PropertyPanel) : List (Text × Text) := (p.parentsOf.map Prod.snd).getD []

/-- The items of a list of choices: what each shows and what it stands for. -/
def itemsOf (p : PropertyPanel) : Choice → List (Text × Value Number)
  | .parent => p.parents.map fun (id, label) => (label, .str id)
  | .font => fonts.map fun font => (font, .null)
  | .extensionKind => ExtensionKind.all.map fun kind => (kind.name, .null)
  | .runtimeParent => [playerGui, coreGui].map fun name => (name, .null)
  | .outputMode => [("Variables", .str variablesMode), ("Nested", .str nestedMode)]

/-- The item that is chosen in a list of choices. -/
def chosenItem (p : PropertyPanel) (c : Choice) : Option (Text × Value Number) :=
  (p.choice c).bind fun i => (p.itemsOf c)[i]?

/-- The text of the chosen item, empty where there is none. -/
def chosenText (p : PropertyPanel) (c : Choice) : Text := (p.chosenItem c).elim [] Prod.fst

/-- Show no node. The text fields become empty, all else stays as it is. -/
def clearNode (p : PropertyPanel) : PropertyPanel :=
  { p with
    kind := "-"
    entry := fun e => if e = .guiName then p.entry e else (p.entry e).clear
    parentsOf := none
    choice := replaceAt p.choice .parent none
    rows := {} }

/-- Fill the list of parents where the choices have changed, and choose the parent of the node. -/
def showParents (p : PropertyPanel) (v : Properties Number) : PropertyPanel :=
  let index := v.parentChoices.findIdx? fun (id, _) => id = v.node.parent
  { p with
    parentsOf := some (v.node.id, v.parentChoices)
    choice := replaceAt p.choice .parent (some (index.getD 0)) }

/-- Show what belongs to a text. -/
def showText (p : PropertyPanel) (v : Properties Number) : PropertyPanel :=
  let index := fonts.findIdx? fun font => (v.node.written .font).same (.str font)
  let p := (p.displayEntry .text (v.node.written .text)).setTick .textScaled v.node.textScaled
  { p with textColor := some v.textColor }.setChoice .font (some (index.getD 0))

/-- Show what belongs to a scrolling frame. -/
def showScrolling (p : PropertyPanel) (n : Node Number) : Except Fault PropertyPanel := do
  let number (a : Attribute) : Except Fault Int := (n.written a).asInteger Number.readInt?
  let p := p.setCounter .canvasW (← number .canvasWidth)
  let p := p.setCounter .canvasH (← number .canvasHeight)
  return p.setCounter .scrollbar (← number .scrollbarThickness)

/-- Show the properties of a node. -/
def showNode (p : PropertyPanel) (v : Properties Number) : Except Fault PropertyPanel := do
  let n := v.node
  let numeral (x : Number) : Except Fault (Value Number) := do
    return .str (← (Value.num x).scriptNumeral)
  let p := { p with kind := n.kind.name }.displayEntry .name (n.written .name)
  let p := p.displayEntry .x (← numeral n.x)
  let p := p.displayEntry .y (← numeral n.y)
  let p := p.displayEntry .w (← numeral n.w)
  let p := p.displayEntry .h (← numeral n.h)
  let p := p.displayEntry .anchor (.str v.anchor)
  let p := p.setCounter .zIndex (← (n.written .zIndex).asInteger Number.readInt?)
  let p := { p with background := some v.bgColor }.setOpacity (← (n.written .bgAlpha).asReal)
  let p := (p.setTick .border n.border).showParents v
  let p := { p with rows := ⟨n.kind.isTextual, n.kind.isImageLike, n.kind.isScrollable⟩ }
  let p := if n.kind.isTextual then p.showText v else p
  let p := if n.kind.isImageLike then p.displayEntry .image (n.written .image) else p
  if n.kind.isScrollable then p.showScrolling n else return p

/-- Show the metadata of the project. -/
def showProject (p : PropertyPanel) (project : Project Number) : PropertyPanel :=
  let p := p.displayEntry .guiName project.guiName
  let p := p.setTick .resetOnSpawn project.resetOnSpawn.truthy
  let parents := p.itemsOf .runtimeParent
  let p := match parents.findIdx? fun (name, _) => project.runtimeParent.same (.str name) with
    | some i => p.setChoice .runtimeParent (some i)
    | none => p
  let mode := (p.itemsOf .outputMode).findIdx? fun (_, value) => project.outputMode.same value
  p.setChoice .outputMode (some (mode.getD 0))

/-- Show the extensions of the shown node: in the editors that are there where they are those of
the same extensions, else in new ones. -/
def showExtensions (p : PropertyPanel) (node? : Option (Node Number)) :
    Except Fault PropertyPanel := do
  let extensions := (node?.map Node.extensions).getD []
  let of := (node?.map Node.id, extensions.map fun e => (e.id, e.shownKind.shown))
  let nodeId := (node?.map Node.id).getD []
  let editors ←
    if of = p.editorsOf then (p.editors.zip extensions).mapM fun (editor, e) => editor.showing e
    else extensions.mapM fun e => ExtensionEditor.new nodeId e
  return { p with editorsOf := of, editors }

/-- Read the session again. -/
def refresh (p : PropertyPanel) (s : Session Number) : Except Fault PropertyPanel := do
  let values ← s.propertyValues
  let p := { p with enabled := values.isSome }
  let p ← match values with
    | none => pure p.clearNode
    | some v => p.showNode v
  (p.showProject s.project).showExtensions (values.map Properties.node)

/-- The command that sets a property of the selected node; without one there is none. -/
def commit (s : Session Number) (property : Text) (v : Value Number) : Option (Command Number) :=
  if s.selected.isSome then some (.setProperty (.str property) v) else none

/-- The command that sets a field of the project. -/
def commitProject (field : Text) (v : Value Number) : Option (Command Number) :=
  some (.setProjectField (.str field) v)

/-- Type into a text field. -/
def type (p : PropertyPanel) (e : Entry) (field : TextField) : PropertyPanel :=
  { p with entry := replaceAt p.entry e field }

/-- The command that a text field stands for when its text is finished. -/
def finish (p : PropertyPanel) (s : Session Number) (e : Entry) : Option (Command Number) :=
  let text := (p.entry e).text
  match e.field? with
  | some field => commit s field.label text
  | none => commitProject "gui_name" text

/-- Choose the item at a place, nothing where there is none. -/
def choose (p : PropertyPanel) (c : Choice) (index : Int) : PropertyPanel :=
  let inList := 0 ≤ index ∧ index.toNat < (p.itemsOf c).length
  p.setChoice c (if inList then some index.toNat else none)

/-- The command that a choice stands for. -/
def chosen (p : PropertyPanel) (s : Session Number) : Choice → Option (Command Number)
  | .parent => (p.chosenItem .parent).bind fun (_, id) => commit s "parent" id
  | .font => commit s Field.font.label (.str (p.chosenText .font))
  | .extensionKind => none
  | .runtimeParent => commitProject "runtime_parent" (.str (p.chosenText .runtimeParent))
  | .outputMode => commitProject "output_mode" ((p.chosenItem .outputMode).elim .null Prod.snd)

/-- The command that a ticked box stands for. -/
def ticked (s : Session Number) (on : Bool) : Tick → Option (Command Number)
  | .border => commit s Field.border.label (.bool on)
  | .textScaled => commit s Field.textScaled.label (.bool on)
  | .resetOnSpawn => commitProject "reset_on_spawn" (.bool on)

/-- The command that a number stands for. -/
def counted (p : PropertyPanel) (s : Session Number) (c : Counter) : Option (Command Number) :=
  commit s c.field.label (.int (p.counter c))

/-- The command that the opacity stands for. -/
def faded (p : PropertyPanel) (s : Session Number) : Option (Command Number) :=
  commit s Field.bgAlpha.label (.num p.opacity)

/-- The command that adds an extension of the chosen kind. -/
def addition (p : PropertyPanel) : Command Number := .addExtension (.str (p.chosenText .extensionKind))

end PropertyPanel

end LayoutDesigner.Shell
