import LayoutDesigner.DrawOrder
import LayoutDesigner.Property
import LayoutDesigner.Script
import LayoutDesigner.Snapshot
import LayoutDesigner.Stage

/-!
# The designer's session

A session is one open design: its stage, its project, the selection and the last script. A command
runs to its end and then tells once that something changed; what it has to say to the user goes out
before as a notice. A command that fails tells nothing and keeps what it changed until then.
-/

namespace LayoutDesigner

/-- What a session tells those who watch it. -/
inductive Signal where
  | notice (message detail : Text)
  | changed

/-- One open design. -/
structure Session (α : Type) where
  stage : Stage α
  /-- How far a copy is from the node that it copies, as it was configured. -/
  duplicateOffset : Value α
  /-- The metadata of new projects. -/
  projectDefaults : Project α
  project : Project α
  selectedId : Option Text := none
  showSafeArea : Bool := false
  script : Text := []
  status : Text × Text := ("Ready.", [])
  /-- The supply of ids, and how many of them are taken. -/
  idSupply : Nat → Text
  idsTaken : Nat := 0
  /-- How many calls may be nested to read or to copy what is inside other values. -/
  depth : Nat := usualDepth
  /-- What was told, oldest first. -/
  signals : List Signal := []

namespace Session

/-- What is said where a snapshot cannot be used. -/
def loadFailedNotice : Text := "Load failed (corrupt save)."

/-- What is said where there is nothing to load. -/
def nothingSavedNotice : Text := "Nothing saved yet."

/-- What is said where nothing else is to be said. -/
def readyNotice : Text := "Ready."

/-- The text of the node of a new project. -/
def firstText : Text := "hello world"

variable {α : Type}

/-- A new session. -/
def new (canvas : Value α × Value α) (leastSide duplicateOffset : Value α) (zoom : α)
    (zoomRange : Value α) (defaults : Project α) (idSupply : Nat → Text) (depth : Nat := usualDepth) :
    Session α :=
  { stage := { store := { canvasW := canvas.1, canvasH := canvas.2 }, zoom, zoomRange, leastSide }
    duplicateOffset, projectDefaults := defaults, project := defaults, idSupply, depth }

/-- The store of the design. -/
def store (s : Session α) : Store α := s.stage.store

/-- The selected node. -/
def selected (s : Session α) : Option (Node α) := s.store.lookup s.selectedId

/-- Whether there is a script to hand out. -/
def exportEnabled (s : Session α) : Bool := !s.script.strip.isEmpty

/-- Forget what was told. -/
def clearSignals (s : Session α) : Session α := { s with signals := [] }

/-- Edit the stage of the session. -/
def onStage {β : Type} (edit : Edit (Stage α) β) : Edit (Session α) β :=
  Edit.focus Session.stage (fun s stage => { s with stage }) edit

/-- Edit the store of the session. -/
def onStore {β : Type} (edit : Edit (Store α) β) : Edit (Session α) β := onStage (Stage.onStore edit)

/-- Take a fresh id. -/
def freshId : Edit (Session α) Text :=
  modifyGet fun s => (s.idSupply s.idsTaken, { s with idsTaken := s.idsTaken + 1 })

/-- Tell the user something. -/
def notice (message : Text) (detail : Text := []) : Edit (Session α) Unit :=
  modify fun s => { s with status := (message, detail), signals := s.signals ++ [.notice message detail] }

/-- Tell that something changed. -/
def notify : Edit (Session α) Unit := modify fun s => { s with signals := s.signals ++ [.changed] }

/-- A command: run it to its end and then tell that something changed. -/
def notifying {β : Type} (edit : Edit (Session α) β) : Edit (Session α) β := do
  let answer ← edit
  notify
  return answer

variable [Arith α]

/-- Position and size of a node as the user is told them. -/
def geometryDetail (n : Node α) : Except Fault Text := do
  let x ← (Value.num n.x).scriptNumeral
  let y ← (Value.num n.y).scriptNumeral
  let w ← (Value.num n.w).scriptNumeral
  let h ← (Value.num n.h).scriptNumeral
  return ("x:" : Text) ++ x ++ (" y:" : Text) ++ y ++ (" w:" : Text) ++ w ++ (" h:" : Text) ++ h

/-- Select the node with an id, or nothing, and tell the user what is selected. -/
def selectQuiet (id? : Option Text) : Edit (Session α) Unit := do
  match (← get).store.lookup id? with
  | none =>
    modify ({ · with selectedId := none })
    notice readyNotice
  | some n =>
    modify ({ · with selectedId := some n.id })
    let detail ← geometryDetail n
    notice (("Selected: " : Text) ++ n.kind.name ++ (" (" : Text) ++ n.displayName ++ (")" : Text))
      (detail ++ (" z:" : Text) ++ (n.written .zIndex).shown)

/-- Tell the user that a node is being edited. -/
def noticeEditing (n : Node α) : Edit (Session α) Unit := do
  notice (("Editing: " : Text) ++ n.kind.name) (← geometryDetail n)

/-- Tell the user that a node has a new parent. -/
def noticeParented (n : Node α) (parent : Text) : Edit (Session α) Unit :=
  notice (("Parented " : Text) ++ n.displayName ++ (" → " : Text) ++ parent)

/-- Select the node that a value names. -/
def select (id : Value α) : Edit (Session α) Unit :=
  notifying do selectQuiet (← id.asId)

/-- Start a new project: one text label in the middle and the default metadata. -/
def newProject : Edit (Session α) Unit := notifying do
  onStage Stage.losePointer
  onStore (modify Store.clear)
  modify fun s => { s with project := s.projectDefaults }
  let id ← freshId
  onStore (Store.createNode (.str Kind.textLabel.name) id root)
  onStore (modify (·.modifyNode id ({ · with text := firstText })))
  modify ({ · with selectedId := some id })
  onStage (Stage.setZoom (.num Arith.one))
  modify ({ · with showSafeArea := false })
  let s ← get
  let script ← Script.generate s.store s.project
  modify ({ · with script })
  notice "New project created."

/-- Edit a field of the project. -/
def setProjectField (field value : Value α) : Edit (Session α) Bool := notifying do
  match field with
  | .str name =>
    modifyGet fun s =>
      let (project, done) := s.project.setField name value
      (done, { s with project })
  | _ => return false

/-- Set the zoom, within its range. -/
def setZoom (value : Value α) : Edit (Session α) Unit := notifying (onStage (Stage.setZoom value))

/-- Show or hide the guide of the safe area. -/
def setShowSafeArea (visible : Value α) : Edit (Session α) Unit :=
  notifying (modify ({ · with showSafeArea := visible.truthy }))

/-- Create a node of a kind in the middle of the surface and select it. Answers its id; what names
no kind creates nothing. -/
def createNode (kind : Value α) : Edit (Session α) (Option Text) := notifying do
  match ← Kind.ofValue? kind with
  | none => return none
  | some _ =>
    let id ← freshId
    onStore (Store.createNode kind id root)
    selectQuiet (some id)
    return some id

/-- Delete the selected node and everything below it. Answers how many nodes that were. -/
def deleteSelected : Edit (Session α) Nat := notifying do
  match (← get).selectedId with
  | none => return 0
  | some id =>
    let removed ← onStore (Store.deleteSubtree id)
    modify ({ · with selectedId := none })
    notice readyNotice
    return removed.length

/-- Duplicate the selected node and select the copy. Answers the id of the copy. -/
def duplicateSelected : Edit (Session α) (Option Text) := notifying do
  match (← get).selectedId with
  | none => return none
  | some id =>
    let newId ← freshId
    let s ← get
    match s.store.find? id with
    | none => return none
    | some n =>
      let copy ← s.store.copyOf n newId s.duplicateOffset s.depth
      let extensionIds ← copy.extensions.mapM fun _ => freshId
      onStore (Store.place (copy.relabelExtensions extensionIds))
      selectQuiet (some newId)
      return some newId

/-- Exchange the selected node with its neighbour among its siblings. -/
def moveSelected (up : Bool) : Edit (Session α) Bool := notifying do
  match (← get).selectedId with
  | none => return false
  | some id => onStore (Store.swapWithNeighbor id up)

/-- Put a node into a container and tell the user its name. -/
def dropInside (dragged : Node α) (target? : Option Text) : Edit (Session α) Bool := do
  let some target := target? | return false
  let container := (← get).store.find? target
  if target ≠ root ∧ !(container.any fun c => c.kind.isContainer) then return false
  let label : Text :=
    if target = root then "ROOT" else (container.map Node.displayName).getD []
  if !(← onStore (Store.reparent dragged.id target)) then return false
  noticeParented dragged label
  return true

/-- Put a node beside another one and tell the user. -/
def dropBeside (dragged : Node α) (target? : Option Text) (position : DropPosition) :
    Edit (Session α) Bool := do
  let some target := target? | return false
  if !(← onStore (Store.reorderRelative dragged.id target position)) then return false
  notice "Reordered (Explorer order = ZIndex)."
  return true

/-- A row of the hierarchy view is dropped on another one. -/
def reorderDrop (dragged target position : Value α) : Edit (Session α) Bool := notifying do
  let s ← get
  match s.store.lookup (← dragged.asId) with
  | none => return false
  | some d =>
    if target.same (.str d.id) then return false
    let target? ← target.asId
    if s.store.isDescendant target? (some d.id) then return false
    match position with
    | .str name =>
      match DropPosition.ofName? name with
      | none => return false
      | some .inside => dropInside d target?
      | some position => dropBeside d target? position
    | _ => return false

/-- Edit a property of the selected node; the property `parent` moves it under another parent. -/
def setProperty (field value : Value α) : Edit (Session α) Bool := notifying do
  let s ← get
  match s.selected, field with
  | some n, .str name =>
    if name = ("parent" : Text) then onStore (Store.reparent n.id value.shown)
    else if !(← onStore (Store.applyField n.id name value)) then return false
    else
      match (← get).store.find? n.id with
      | some edited => noticeEditing edited
      | none => pure ()
      return true
  | _, _ => return false

/-- Add an extension to the selected node. Answers the extension. -/
def addExtension (kind : Value α) : Edit (Session α) (Option (Extension α)) := notifying do
  match (← kind.asId).bind ExtensionKind.ofName? with
  | none => return none
  | some k =>
    match (← get).selected with
    | none =>
      notice "Select an instance first."
      return none
    | some n =>
      let e : Extension α := Extension.new k (← freshId)
      onStore (modify (·.modifyNode n.id fun n => { n with extensions := n.extensions ++ [e] }))
      notice (("Added " : Text) ++ k.name ++ ("." : Text))
      return some e

/-- Remove the extensions of a node that have an id. Answers whether there were any. -/
def removeExtension (nodeId extensionId : Value α) : Edit (Session α) Bool := notifying do
  match (← get).store.lookup (← nodeId.asId) with
  | none => return false
  | some n =>
    let kept := n.extensions.filter fun e => e.id ≠ extensionId.idText
    onStore (modify (·.modifyNode n.id ({ · with extensions := kept })))
    return kept.length != n.extensions.length

/-- The extensions with the property of the one at a place written. -/
def writeProp (extensions : List (Extension α)) (place : Nat) (key : Text) (value : Value α) :
    List (Extension α) :=
  extensions.modify place fun e => { e with props := Value.setMember key value e.props }

/-- Set a property of an extension of a node. Only the properties in the table of its kind can be
set. -/
def setExtensionProp (nodeId extensionId key value : Value α) : Edit (Session α) Bool := notifying do
  match (← get).store.lookup (← nodeId.asId) with
  | none => return false
  | some n =>
    let place := n.extensions.findIdx fun e => e.id = extensionId.idText
    match n.extensions[place]?, ← keyOf n.extensions[place]? with
    | some e, some key =>
      match e.kind.property? key with
      | none => return false
      | some type =>
        let value ← type.coerce value
        if e.unchecked.isSome then throw .wrongType
        onStore (modify (·.modifyNode n.id fun n =>
          { n with extensions := writeProp n.extensions place key value }))
        return true
    | _, _ => return false
where
  /-- The key as an id; it is looked at only where there is an extension to look it up in. -/
  keyOf (e? : Option (Extension α)) : Except Fault (Option Text) :=
    match e? with
    | none => .ok none
    | some e => do
      let _ ← e.shownKind.asId
      key.asId

/-- The pointer goes down. -/
def pointerDown (e : PointerEvent α) : Edit (Session α) Bool := notifying do
  match ← onStage (Stage.aim e) with
  | .ignored => return false
  | .missed =>
    selectQuiet none
    return false
  | .hit n =>
    selectQuiet (some n.id)
    onStage (Stage.grab n e)
    return true

/-- The node that is dragged. -/
def dragged (s : Session α) : Option (Node α) := s.store.lookup (s.stage.drag.map Gesture.nodeId)

/-- The pointer moves. -/
def pointerMove (e : PointerEvent α) : Edit (Session α) Bool := notifying do
  let moved ← onStage (Stage.pointerMove e)
  match moved, (← get).dragged with
  | true, some n =>
    noticeEditing n
    return true
  | moved, _ => return moved

/-- The pointer is let go. -/
def pointerUp (e : PointerEvent α) : Edit (Session α) Bool := notifying do
  let id? := (← get).stage.drag.map Gesture.nodeId
  let reparented ← onStage (Stage.pointerUp e)
  let store := (← get).store
  match reparented, store.lookup id? with
  | true, some n =>
    noticeParented n ((store.find? n.parent).elim ("ROOT" : Text) Node.displayName)
    return true
  | reparented, _ => return reparented

/-- The pointer is lost. -/
def losePointer : Edit (Session α) Unit := notifying (onStage Stage.losePointer)

/-- Make the script of the design. -/
def exportScript : Edit (Session α) Text := notifying do
  let s ← get
  let script ← Script.generate s.store s.project
  modify ({ · with script })
  notice "Exported Lua."
  return script

/-- The snapshot of the design. -/
def snapshot (s : Session α) : Value α :=
  Snapshot.ofStore s.store s.project s.selectedId (.num s.stage.zoom) (.bool s.showSafeArea)

/-- Take the snapshot of the design. This fails where a colour cannot be written, and where the properties
of an extension cannot be copied. -/
def takeSnapshot (s : Session α) : Except Fault (Value α) := do
  s.store.needColors
  s.store.needCopies s.depth
  return s.snapshot

/-- Whether a fault says that a document is no usable snapshot. -/
def isUnusable : Fault → Bool
  | .unusableSnapshot _ => true
  | .unreadableSnapshot => true
  | _ => false

/-- Put what was read from a snapshot in the place of the design. -/
def replaceBy (loaded : Snapshot.Loaded α) : Edit (Session α) Unit := do
  onStage Stage.losePointer
  onStore (modify (·.replaceAll loaded.store.nodes))
  modify ({ · with project := loaded.project, selectedId := loaded.selectedId })
  onStage (Stage.setZoom (.num loaded.zoom))
  modify ({ · with showSafeArea := loaded.showSafeArea })
  let count := loaded.dropped.length
  notice "Loaded." (if count = 0 then [] else Text.ofNat count ++ (" record(s) dropped" : Text))

/-- Load a snapshot in the place of the design. What is no usable snapshot changes nothing. -/
def loadSnapshot (data : Value α) : Edit (Session α) Bool := notifying do
  let s ← get
  match Snapshot.read data (s.store.canvasW, s.store.canvasH) s.project s.stage.leastSide s.depth with
  | .ok loaded =>
    replaceBy loaded
    return true
  | .error fault =>
    if isUnusable fault then
      notice loadFailedNotice
      return false
    else throw fault

/-- Tell that there is nothing to load. -/
def nothingSaved : Edit (Session α) Bool := notifying do
  notice nothingSavedNotice
  return false

/-- Load what was found in a save file: a document, nothing, or what cannot be read. A null document
counts as nothing. -/
def loadFrom (found : Except Fault (Option (Value α))) : Edit (Session α) Bool := do
  match found with
  | .ok none => nothingSaved
  | .ok (some .null) => nothingSaved
  | .ok (some data) => loadSnapshot data
  | .error fault =>
    if isUnusable fault then
      notifying do
        notice loadFailedNotice
        return false
    else throw fault

/-- Tell that the design was saved. -/
def confirmSaved : Edit (Session α) Unit := notifying (notice "Saved.")

/-- What the property panel shows of the selected node. -/
def propertyValues (s : Session α) : Except Fault (Option (Properties α)) :=
  match s.selected with
  | none => .ok none
  | some n => (s.store.properties n s.depth).map some

end Session

end LayoutDesigner
