import LayoutDesigner.Shell

/-!
# Using the property panel

What typing, choosing, ticking and clicking in the property panel does: the widget changes, and the
command that it stands for is run.
-/

namespace LayoutDesigner.Shell

/-- The property panel, where there is one. -/
def needPanel : Edit Shell PropertyPanel := do
  match (← get).panel with
  | some p => return p
  | none => throw .wrongMember

/-- Change the property panel. -/
def setPanel (p : PropertyPanel) : Edit Shell Unit := modify ({ · with panel := some p })

/-- The editor of an extension at a place in the panel. -/
def needEditor (place : Nat) : Edit Shell ExtensionEditor := do
  match (← needPanel).editors[place]? with
  | some editor => return editor
  | none => throw .outOfRange

/-- The text fields that can be typed into. -/
inductive FieldName where
  | entry (e : Entry)
  /-- The field of a property in the editor of an extension. -/
  | property (place : Nat) (key : Text)

/-- The editor and the key in a name such as `ext.0.color`. -/
def propertyOf? (name : Text) : Option (Nat × Text) :=
  match Text.splitOn '.' name with
  | start :: place :: key =>
    if start = ("ext" : Text) then
      (Number.readInt? place).map fun n => (n.toNat, Text.join "." key)
    else none
  | _ => none

/-- The text field of a name. -/
def FieldName.ofLabel? (name : Text) : Option FieldName :=
  ((propertyOf? name).map fun (place, key) => .property place key) <|>
    (Entry.all.find? fun e => e.label = name).map .entry

/-- Type into a text field, which keeps the keyboard or gives it back. -/
def typeInto (name : FieldName) (text : Text) (focused : Bool) : Edit Shell Unit := do
  let p ← needPanel
  let field := TextField.typed text focused
  match name with
  | .entry e => setPanel (p.type e field)
  | .property place key => do
    let editor ← needEditor place
    if !(editor.fields.any fun (k, _) => k = key) then throw (.missingKey key.quoted)
    setPanel { p with editors := p.editors.set place (editor.type key field) }

/-- Finish the text of a text field. -/
def finish (name : FieldName) (text : Text) : Edit Shell Unit := do
  let p ← needPanel
  match name with
  | .entry e => orderIf (p.finish (← get).session e)
  | .property place key => do order ((← needEditor place).commit key (.str text))

/-- Type a text into a text field and finish it. -/
def enter (name : FieldName) (text : Text) (focused : Bool) : Edit Shell Unit := do
  typeInto name text focused
  finish name text

/-- Choose an item. -/
def choose (c : Choice) (index : Int) : Edit Shell Unit := do
  let p := (← needPanel).choose c index
  setPanel p
  orderIf (p.chosen (← get).session c)

/-- Tick a box or not. -/
def tick (t : Tick) (on : Bool) : Edit Shell Unit := do
  let p ← needPanel
  if p.tick t = on then return
  setPanel (p.setTick t on)
  orderIf (PropertyPanel.ticked (← get).session on t)

/-- Set a whole number. -/
def count (c : Counter) (n : Int) : Edit Shell Unit := do
  let p := (← needPanel).setCounter c n
  setPanel p
  orderIf (p.counted (← get).session c)

/-- Set the opacity. -/
def fade (x : Number) : Edit Shell Unit := do
  let old ← needPanel
  let p := old.setOpacity x
  if Arith.same old.opacity p.opacity then return
  setPanel p
  orderIf (p.faded (← get).session)

/-- The colours that can be picked. -/
inductive ColorName where
  | background
  | text
  deriving DecidableEq, Repr

/-- The title of the dialog for a colour. -/
def ColorName.title : ColorName → Text
  | .background => "Pick Background Color"
  | .text => "Pick Text Color"

/-- Pick a colour for the selected node. -/
def pickColor (name : ColorName) : Edit Shell Unit := do
  let shell ← get
  match ← shell.session.propertyValues with
  | none => return
  | some v => do
    let (field, present) := match name with
      | .background => (Field.bgColor, v.bgColor)
      | .text => (Field.textColor, v.textColor)
    happen (.colorDialog present name.title)
    match shell.replies.color with
    | none => return
    | some color => orderIf (PropertyPanel.commit (← get).session field.label (.str color))

/-- Add an extension of the chosen kind. -/
def addExtension : Edit Shell Unit := do order (← needPanel).addition

/-- Remove the extension at a place. -/
def removeExtension (place : Nat) : Edit Shell Unit := do order (← needEditor place).removal

end LayoutDesigner.Shell
