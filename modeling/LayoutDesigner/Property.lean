import LayoutDesigner.Containment
import LayoutDesigner.Project

/-!
# Editing properties

A property edit takes whatever was typed and makes it fit: what is no number becomes zero, a bad
colour becomes white, an anchor is read from two numbers with a comma between them. Afterwards the
node and everything below it is kept inside its parent.
-/

namespace LayoutDesigner

/-- The properties of nodes that can be edited. -/
inductive Field where
  | name | x | y | w | h | anchor | zIndex | bgColor | bgAlpha | border
  | text | textColor | textScaled | font
  | image
  | canvasW | canvasH | scrollbarThickness
  deriving DecidableEq, Repr

namespace Field

/-- Every property: first those of all kinds, then those of texts, images and scrolling frames. -/
def all : List Field :=
  [.name, .x, .y, .w, .h, .anchor, .zIndex, .bgColor, .bgAlpha, .border, .text, .textColor,
    .textScaled, .font, .image, .canvasW, .canvasH, .scrollbarThickness]

/-- The name of a property. -/
def label : Field → Text
  | .name => "name" | .x => "x" | .y => "y" | .w => "w" | .h => "h"
  | .anchor => "anchor" | .zIndex => "z_index" | .bgColor => "bg_color"
  | .bgAlpha => "bg_alpha" | .border => "border" | .text => "text"
  | .textColor => "text_color" | .textScaled => "text_scaled" | .font => "font"
  | .image => "image" | .canvasW => "canvas_w" | .canvasH => "canvas_h"
  | .scrollbarThickness => "scrollbar_thickness"

/-- The property of a name. -/
def ofName? (t : Text) : Option Field := all.find? fun f => f.label = t

/-- Whether elements of a kind have the property. -/
def appliesTo (f : Field) (k : Kind) : Bool :=
  match f with
  | .text => k.isTextual
  | .textColor => k.isTextual
  | .textScaled => k.isTextual
  | .font => k.isTextual
  | .image => k.isImageLike
  | .canvasW => k.isScrollable
  | .canvasH => k.isScrollable
  | .scrollbarThickness => k.isScrollable
  | _ => true

/-- Whether every kind has the property. -/
def isCommon (f : Field) : Bool := Kind.all.all f.appliesTo

end Field

variable {α : Type} [Arith α]

/-- A number between zero and one, zero where the value is no number. -/
def readAnchorPart (v : Value α) : Except Fault α := do
  return Arith.clamp (← v.toNumberOrZero) Arith.zero Arith.one

/-- Read an anchor from `ax,ay` or from a list; a missing or bad part is zero. -/
def parseAnchor (v : Value α) : Except Fault (α × α) := do
  let parts : List (Value α) := match v with
    | .str t => (Text.splitOn ',' t).map .str
    | .arr items => items
    | _ => []
  let x ← readAnchorPart (parts[0]?.getD .null)
  let y ← readAnchorPart (parts[1]?.getD .null)
  return (x, y)

/-- A colour typed as digits, white where it cannot be read. -/
def typedColor (v : Value α) : Rgb :=
  (Rgb.ofHex? (if v.truthy then v.shown else [])).getD Rgb.white

/-- A text typed for an attribute; null is the empty text. -/
def typedText : Value α → Text
  | .null => []
  | v => v.shown

/-- A text typed for an attribute that cannot be empty, without blanks around it. -/
def typedName (v : Value α) (default : Text) : Text :=
  (if v.truthy then v.shown else []).strip.orElse default

namespace Node

/-- An anchor as it is edited. -/
def anchorText (n : Node α) : Except Fault Text := do
  let x ← (Value.num n.anchorX).scriptNumeral
  let y ← (Value.num n.anchorY).scriptNumeral
  return x ++ ("," : Text) ++ y

/-- Write one property of a node. -/
def setField (n : Node α) (f : Field) (v : Value α) : Except Fault (Node α) := do
  match f with
  | .name => return { n.checked .name with name := typedName v n.kind.name }
  | .x => return n.setX (← v.toNumberOrZero)
  | .y => return n.setY (← v.toNumberOrZero)
  | .w => return n.setW (← v.toNumberOrZero)
  | .h => return n.setH (← v.toNumberOrZero)
  | .anchor =>
    let (anchorX, anchorY) ← parseAnchor v
    return { (n.checked .anchorX).checked .anchorY with anchorX, anchorY }
  | .zIndex => return n.setZ (max 1 (Arith.floorHalf (← v.toNumber (.int 1))))
  | .bgColor => return { n.checked .bgColor with bgColor := typedColor v }
  | .bgAlpha =>
    return { n.checked .bgAlpha with
      bgAlpha := Arith.clamp (← v.toNumberOrZero) Arith.zero Arith.one }
  | .border => return { n.checked .border with border := v.toBool }
  | .text => return { n.checked .text with text := typedText v }
  | .textColor => return { n.checked .textColor with textColor := typedColor v }
  | .textScaled => return { n.checked .textScaled with textScaled := v.toBool }
  | .font => return { n.checked .font with font := typedName v defaultFont }
  | .image => return { n.checked .image with image := typedText v }
  | .canvasW =>
    return { n.checked .canvasWidth with canvasW := max 0 (Arith.floorHalf (← v.toNumber (.int 0))) }
  | .canvasH =>
    return { n.checked .canvasHeight with canvasH := max 0 (Arith.floorHalf (← v.toNumber (.int 0))) }
  | .scrollbarThickness =>
    return { n.checked .scrollbarThickness with
      scrollbarThickness := max 0 (Arith.floorHalf (← v.toNumber (.int 0))) }

end Node

namespace Store

/-- Whether a node has a property of the given name. -/
def fieldApplies (n : Node α) (name : Text) : Bool :=
  (Field.ofName? name).any fun f => f.appliesTo n.kind

/-- Write a property of a node and keep its subtree inside. Answers false where the node has no such
property. -/
def applyField (id name : Text) (v : Value α) : Edit (Store α) Bool := do
  match (← get).find? id, Field.ofName? name with
  | some n, some f =>
    if !f.appliesTo n.kind then return false
    let n ← n.setField f v
    modify (·.put n)
    if f = .zIndex then
      (← get).checkLayers n.parent
      modify (·.normalizeZ n.parent)
    clampSubtree id (Value.int leastSide)
    return true
  | _, _ => return false

/-- The parents that a node may have, with the labels they are offered under: the root and every
container but the node and what is below it. -/
def parentChoices (s : Store α) (n : Node α) : List (Text × Text) :=
  (root, ("ROOT (Canvas)" : Text)) ::
    (s.containers.filter fun other => other.id ≠ n.id && !s.isBelow other.id n.id).map fun other =>
      (other.id, other.displayName ++ (" (" : Text) ++ other.kind.name ++ (")" : Text))

end Store

/-- A colour of a node as digits; a foreign value has to have exactly three channels. -/
def Node.colorText (n : Node α) (a : Attribute) (c : Rgb) : Except Fault Text := do
  match n.unchecked.value? a with
  | none => return c.toHex
  | some v => Rgb.hexOfItems v

/-- What the property panel shows of a node. -/
structure Properties (α : Type) where
  node : Node α
  parentChoices : List (Text × Text)
  anchor : Text
  bgColor : Text
  textColor : Text

/-- What the property panel shows of a node of the store; its extensions are shown by copies. -/
def Store.properties (s : Store α) (n : Node α) (depth : Nat := usualDepth) : Except Fault (Properties α) := do
  let bgColor ← n.colorText .bgColor n.bgColor
  let textColor ← n.colorText .textColor n.textColor
  let anchor ← n.anchorText
  n.needCopies depth
  return ⟨n, s.parentChoices n, anchor, bgColor, textColor⟩

/-- The shown properties as a document. -/
def Properties.toValue (p : Properties α) : Value α :=
  let n := p.node
  .obj [("id", .str n.id), ("kind", .str n.kind.name), ("name", n.written .name),
    ("parent", n.written .parent),
    ("parent_choices", .arr (p.parentChoices.map fun (id, label) => .arr [.str id, .str label])),
    ("x", n.written .x), ("y", n.written .y), ("w", n.written .w), ("h", n.written .h),
    ("anchor", .str p.anchor), ("z_index", n.written .zIndex), ("bg_color", .str p.bgColor),
    ("bg_alpha", n.written .bgAlpha),
    ("border", n.written .border), ("text", n.written .text), ("text_color", .str p.textColor),
    ("text_scaled", n.written .textScaled), ("font", n.written .font),
    ("image", n.written .image), ("canvas_w", n.written .canvasWidth),
    ("canvas_h", n.written .canvasHeight),
    ("scrollbar_thickness", n.written .scrollbarThickness),
    ("extensions", .arr (n.extensions.map Extension.toRecord)),
    ("is_container", .bool n.kind.isContainer), ("is_textual", .bool n.kind.isTextual),
    ("is_image_like", .bool n.kind.isImageLike), ("is_scrollable", .bool n.kind.isScrollable)]

end LayoutDesigner
