import LayoutDesigner.Node

/-!
# Node records

A node is kept in files as an object. Reading is lenient: unknown members are skipped, and a member
that is missing or of the wrong type leaves the default of the node's kind. Only a record without
a known type or without an id is refused.
-/

namespace LayoutDesigner.Node

variable {α : Type} [Arith α]

/-- The size of the surface that a record's default position refers to. -/
def recordSurface : Value α × Value α := (.int 980, .int 620)

/-- The members of an object, and none of any other value. -/
def membersOf : Value α → List (Text × Value α)
  | .obj members => members
  | _ => []

/-- The extensions of a record. Items that are no records of extensions are left out; a value whose
items cannot be listed is refused. -/
def readExtensions (v : Value α) (depth : Nat := usualDepth) : Except Fault (List (Extension α)) :=
  if !v.truthy then .ok []
  else
    match v with
    | .arr items => collect items
    | .str _ => .ok []
    | .obj _ => .ok []
    | _ => .error .wrongType
where
  /-- The extensions among the items. -/
  collect : List (Value α) → Except Fault (List (Extension α))
    | [] => .ok []
    | .obj members :: rest =>
      match Extension.ofRecord members depth with
      | .ok e => (collect rest).map (e :: ·)
      | .error (.unknownExtensionRecord _) => collect rest
      | .error fault => .error fault
    | _ :: rest => collect rest

/-- The finite real that a member stands for. -/
def readReal (members : List (Text × Value α)) (key : Text) (default : α) : Except Fault α :=
  (Value.field key members).toNumber (.num default)

/-- A member as a fraction between zero and one. -/
def readFraction (members : List (Text × Value α)) (key : Text) (default : α) : Except Fault α := do
  return Arith.clamp (← readReal members key default) Arith.zero Arith.one

/-- A member as an integer, a half going up. -/
def readInteger (members : List (Text × Value α)) (key : Text) (default : Int) : Except Fault Int := do
  return Arith.floorHalf (← readReal members key (Arith.ofInt default))

/-- A member as a truth value. -/
def readTruth (members : List (Text × Value α)) (key : Text) (default : Bool) : Bool :=
  ((Value.member? key members).getD (.bool default)).toBool

/-- A member as text, or `default` where it counts as false. -/
def readText (members : List (Text × Value α)) (key default : Text) : Text :=
  let v := Value.field key members
  if v.truthy then v.shown else default

/-- Read a node from its record; `depth` calls may be nested to copy what its extensions have. -/
def ofRecord (record : Value α) (depth : Nat := usualDepth) : Except Fault (Node α) := do
  let .obj d := record | throw .recordNotObject
  let typeValue := Value.field "type" d
  let some kind ← Kind.ofValue? typeValue | throw (.unknownRecordType typeValue.quoted)
  let .str id := Value.field "id" d | throw .recordWithoutId
  if id.isEmpty then throw .recordWithoutId
  let base ← create kind id root recordSurface 1
  let canvas := membersOf (Value.field "canvasSize" d)
  let extensions ← readExtensions (Value.field "uiObjects" d) depth
  let parent := match Value.field "parentId" d with
    | .str p => p.orElse root
    | _ => root
  let x ← readReal d "x" base.x
  let y ← readReal d "y" base.y
  let w ← readReal d "w" base.w
  let h ← readReal d "h" base.h
  let anchorX ← readFraction d "anchorX" Arith.half
  let anchorY ← readFraction d "anchorY" Arith.half
  let z ← readInteger d "zIndex" 1
  let bgColor ← Rgb.ofValue (Value.field "bgColor" d) base.bgColor
  let bgAlpha ← readFraction d "bgAlpha" Arith.one
  let textColor ← Rgb.ofValue (Value.field "textColor" d) base.textColor
  let canvasW ← readInteger canvas "w" base.canvasW
  let canvasH ← readInteger canvas "h" base.canvasH
  let scrollbarThickness ← readInteger d "scrollBarThickness" base.scrollbarThickness
  let text := match Value.field "text" d with
    | .null => base.text
    | v => v.shown
  return {
    id, kind, name := readText d "name" kind.name, parent, x, y, w, h, anchorX, anchorY
    z := max 1 z, bgColor, bgAlpha, border := readTruth d "border" base.border
    text, textColor, textScaled := readTruth d "textScaled" base.textScaled
    font := readText d "font" defaultFont, image := readText d "image" []
    canvasW, canvasH, scrollbarThickness, extensions }

/-- The members of a node's record in canonical order. -/
def recordKeys : List Text :=
  ["id", "type", "name", "parentId", "x", "y", "w", "h", "anchorX", "anchorY", "zIndex", "bgColor",
    "bgAlpha", "border", "text", "textColor", "textScaled", "font", "image", "canvasSize",
    "scrollBarThickness", "uiObjects"]

/-- The members of a record in canonical order; members with other keys follow as they came. -/
def sortKeys (members : List (Text × Value α)) : List (Text × Value α) :=
  (recordKeys.filterMap fun key => (Value.member? key members).map (key, ·)) ++
    members.filter fun (key, _) => !recordKeys.elem key

/-- A node in short: its id, kind and parent, its layer, its geometry and its anchor. -/
def toRow (n : Node α) : Value α :=
  .arr ([n.written .id, .str n.kind.name, n.written .parent] ++
    [Attribute.zIndex, .x, .y, .w, .h, .anchorX, .anchorY].map n.written)

/-- Fails where an attribute that is a colour has no three channels that come to integers. -/
def needColor (n : Node α) (a : Attribute) : Except Fault Unit :=
  match n.unchecked.value? a with
  | none => .ok ()
  | some v => (Rgb.ofItems v).map fun _ => ()

/-- Fails where a colour has no three channels that come to integers. -/
def needColors (n : Node α) : Except Fault Unit := do
  n.needColor .bgColor
  n.needColor .textColor

/-- Fails where an extension has properties that are nested too deeply to be copied. -/
def needCopies (depth : Nat) (n : Node α) : Except Fault Unit := n.extensions.forM (Extension.needCopy depth)

/-- Fails where a node cannot be copied as a whole: the properties of its extensions lie inside five
other values then, each of which takes two calls. -/
def needCopy (depth : Nat) (n : Node α) : Except Fault Unit := n.needCopies (depth - 10)

/-- The members of a node's record. -/
def toMembers (n : Node α) : List (Text × Value α) :=
  [("id", n.written .id), ("type", .str n.kind.name), ("name", n.written .name),
    ("parentId", n.written .parent),
    ("x", n.written .x), ("y", n.written .y), ("w", n.written .w), ("h", n.written .h),
    ("anchorX", n.written .anchorX), ("anchorY", n.written .anchorY),
    ("zIndex", n.written .zIndex), ("bgColor", n.bgColor.toRecord),
    ("bgAlpha", n.written .bgAlpha), ("border", n.written .border),
    ("text", n.written .text), ("textColor", n.textColor.toRecord),
    ("textScaled", n.written .textScaled), ("font", n.written .font),
    ("image", n.written .image),
    ("canvasSize", .obj [("w", n.written .canvasWidth), ("h", n.written .canvasHeight)]),
    ("scrollBarThickness", n.written .scrollbarThickness),
    ("uiObjects", .arr (n.extensions.map Extension.toRecord))]

/-- The record of a node. -/
def toRecord (n : Node α) : Value α := .obj n.toMembers

end LayoutDesigner.Node
