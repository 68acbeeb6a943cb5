import LayoutDesigner.Kind
import LayoutDesigner.Extension

/-!
# Nodes

A node is one placed element. Its position is that of an anchor point in the space of its parent;
the anchor is given as fractions of the node's own box. The parent is named by its id, and the
design surface by the reserved id `ROOT`.
-/

namespace LayoutDesigner

/-- The id that stands for the design surface. -/
def root : Text := "ROOT"

/-- The least side of a node where no other is configured. -/
def leastSide : Int := 20

/-- The attributes that may hold a value of a foreign type. -/
inductive Attribute where
  | id | parent | name | x | y | w | h | anchorX | anchorY | zIndex | bgColor | bgAlpha | border
  | text | textColor | textScaled | font | image
  | canvasWidth | canvasHeight | scrollbarThickness
  deriving DecidableEq, Repr

/-- Values that were put in for attributes as they came. -/
abbrev Unchecked (α : Type) := List (Attribute × Value α)

namespace Unchecked

variable {α : Type}

/-- The value of an attribute, if there is one. -/
def value? (u : Unchecked α) (a : Attribute) : Option (Value α) :=
  (u.find? fun entry => entry.1 = a).map Prod.snd

/-- The values of all attributes but one. -/
def without (u : Unchecked α) (a : Attribute) : Unchecked α := u.filter fun entry => entry.1 ≠ a

/-- Whether none of the attributes has a value that is no number. -/
def areNumbers [Arith α] (u : Unchecked α) (attributes : List Attribute) : Bool :=
  attributes.all fun a => (u.value? a).all fun v => v.number?.isSome

/-- Fails where one of the attributes has a value that is no number. -/
def needNumbers [Arith α] (u : Unchecked α) (attributes : List Attribute) : Except Fault Unit :=
  if u.areNumbers attributes then .ok () else .error .wrongType

end Unchecked

/-- One placed element. -/
structure Node (α : Type) where
  id : Text
  kind : Kind
  name : Text
  parent : Text
  x : α
  y : α
  w : α
  h : α
  anchorX : α
  anchorY : α
  z : Int
  bgColor : Rgb
  bgAlpha : α
  border : Bool
  text : Text
  textColor : Rgb
  textScaled : Bool
  font : Text
  image : Text
  canvasW : Int
  canvasH : Int
  scrollbarThickness : Int
  extensions : List (Extension α)
  /-- Attributes that were put in as they came, without being read as what they should be. No edit
  and no load makes any. They are shown as they are, and a computation with one that is no number
  fails; all else goes by the typed fields, which hold what the values come to. -/
  unchecked : Unchecked α := []

namespace Node

variable {α : Type}

/-- What a node is called where its name is empty: its kind. -/
def displayName (n : Node α) : Text := n.name.orElse n.kind.name

/-- The order in which siblings are drawn: by layer, then by id. -/
def drawnBefore (a b : Node α) : Bool := a.z < b.z || (a.z == b.z && !b.id.before a.id)

/-- Whether layer and id of the node are no values of a foreign type. -/
def isOrdered (n : Node α) : Bool :=
  (n.unchecked.value? .zIndex).isNone && (n.unchecked.value? .id).isNone

/-- An attribute that takes no foreign value any more. -/
def checked (n : Node α) (a : Attribute) : Node α := { n with unchecked := n.unchecked.without a }

/-- Keep a value of a foreign type for an attribute. -/
def keep (n : Node α) (a : Attribute) (v : Value α) : Node α :=
  { n with unchecked := (a, v) :: n.unchecked.without a }

/-- Name the parent of the node. -/
def setParent (n : Node α) (parent : Text) : Node α := { n.checked .parent with parent }

/-- Put the node's anchor at a place along the first axis. -/
def setX (n : Node α) (x : α) : Node α := { n.checked .x with x }

/-- Put the node's anchor at a place along the second axis. -/
def setY (n : Node α) (y : α) : Node α := { n.checked .y with y }

/-- Make the node as wide as given. -/
def setW (n : Node α) (w : α) : Node α := { n.checked .w with w }

/-- Make the node as high as given. -/
def setH (n : Node α) (h : α) : Node α := { n.checked .h with h }

/-- Put the node on a layer. -/
def setZ (n : Node α) (z : Int) : Node α := { n.checked .zIndex with z }

/-- Put the node on the layer of another one. -/
def takeLayer (n other : Node α) : Node α :=
  match other.unchecked.value? .zIndex with
  | some layer => (n.setZ other.z).keep .zIndex layer
  | none => n.setZ other.z

variable [Arith α]

/-- An attribute as the script and the record show it. -/
def written (n : Node α) (a : Attribute) : Value α :=
  match n.unchecked.value? a with
  | some v => v
  | none =>
    match a with
    | .id => .str n.id
    | .parent => .str n.parent
    | .name => .str n.name
    | .x => .num n.x
    | .y => .num n.y
    | .w => .num n.w
    | .h => .num n.h
    | .anchorX => .num n.anchorX
    | .anchorY => .num n.anchorY
    | .zIndex => .int n.z
    | .bgColor => .arr n.bgColor.channels
    | .bgAlpha => .num n.bgAlpha
    | .border => .bool n.border
    | .text => .str n.text
    | .textColor => .arr n.textColor.channels
    | .textScaled => .bool n.textScaled
    | .font => .str n.font
    | .image => .str n.image
    | .canvasWidth => .int n.canvasW
    | .canvasHeight => .int n.canvasH
    | .scrollbarThickness => .int n.scrollbarThickness

/-- Whether a node is on a lower layer than another one. -/
def isLower (a b : Node α) : Bool :=
  match a.unchecked.value? .zIndex, b.unchecked.value? .zIndex with
  | none, none => a.z < b.z
  | _, _ => (a.written .zIndex).isLess (b.written .zIndex)

/-- What siblings are ordered by: layer and id as they are written. -/
def rank (n : Node α) : Value α := .arr [n.written .zIndex, n.written .id]

/-- What a node is called, as it is shown: its kind where the name counts as false. -/
def called (n : Node α) : Value α :=
  let name := n.written .name
  if name.truthy then name else .str n.kind.name

/-- What a node is called, where that has to be a text. -/
def calledText (n : Node α) : Except Fault Text :=
  match n.called with
  | .str t => .ok t
  | _ => .error .wrongType

/-- A new node of a kind, its anchor in the middle of a parent of the given size. It is not kept
inside the parent. -/
def create (kind : Kind) (id parent : Text) (parentSize : Value α × Value α) (z : Int) :
    Except Fault (Node α) := do
  let d := kind.descriptor
  let x ← roundHalfUp (← Arith.mul (← parentSize.1.asOperand) Arith.half)
  let y ← roundHalfUp (← Arith.mul (← parentSize.2.asOperand) Arith.half)
  return {
    id, kind, name := d.name, parent
    x := Arith.ofInt x, y := Arith.ofInt y, w := Arith.ofInt d.size.1, h := Arith.ofInt d.size.2
    anchorX := Arith.half, anchorY := Arith.half, z
    bgColor := d.bgColor, bgAlpha := Arith.one, border := d.border, text := d.text
    textColor := Rgb.white, textScaled := true, font := defaultFont, image := []
    canvasW := d.canvasSize.1, canvasH := d.canvasSize.2
    scrollbarThickness := d.scrollbarThickness, extensions := [] }

end Node

end LayoutDesigner
