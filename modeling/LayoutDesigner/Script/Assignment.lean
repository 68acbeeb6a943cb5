import LayoutDesigner.Script.Statement

/-!
# What the script assigns

The properties of an instance with the expressions that are assigned to them, for extensions and
for nodes.
-/

namespace LayoutDesigner

open Script (Expr)

variable {α : Type} [Arith α]

namespace Extension

/-- A property of an extension as a finite real. -/
def number (e : Extension α) (key : Text) (default : α) : Except Fault α :=
  (Value.field key e.props).toNumber (.num default)

/-- A property of an extension as an integer offset. -/
def offset (e : Extension α) (key : Text) (default : Int) : Except Fault Expr := do
  Expr.roundedOffset (.num (← e.number key (Arith.ofInt default)))

/-- A property of an extension as the nearest integer. -/
def rounded (e : Extension α) (key : Text) (default : Int) : Except Fault Int := do
  roundHalfUp (← e.number key (Arith.ofInt default))

/-- What the script assigns to an extension; only the properties in the table of its kind are
read. -/
def assignments (e : Extension α) : Except Fault (List (Text × Expr)) := do
  match e.kind with
  | .corner => return [("CornerRadius", ← e.offset "cornerRadius" 8)]
  | .stroke =>
    let color ← Rgb.ofValue (Value.field "color" e.props) Rgb.white
    let transparency ← e.number "transparency" (Arith.ofDecimal 2 1)
    let thickness ← e.rounded "thickness" 2
    return [("Thickness", Expr.ofInt thickness), ("Color", Expr.ofRgb color),
      ("Transparency", .numeral (Arith.twoPlaces (Arith.clamp transparency Arith.zero Arith.one)))]
  | .aspectRatioConstraint =>
    let ratio ← e.number "aspectRatio" Arith.one
    return [("AspectRatio", .numeral (← (Value.num ratio).scriptNumeral))]
  | .textSizeConstraint =>
    return [("MinTextSize", Expr.ofInt (← e.rounded "minTextSize" 8)),
      ("MaxTextSize", Expr.ofInt (← e.rounded "maxTextSize" 48))]
  | .sizeConstraint =>
    return [
      ("MinSize", .vector (Text.ofInt (← e.rounded "minW" 0)) (Text.ofInt (← e.rounded "minH" 0))),
      ("MaxSize", .vector (Text.ofInt (← e.rounded "maxW" 0)) (Text.ofInt (← e.rounded "maxH" 0)))]
  | .scale =>
    let scale ← e.number "scale" Arith.one
    return [("Scale", .numeral (← (Value.num scale).scriptNumeral))]
  | .padding =>
    return [("PaddingLeft", ← e.offset "left" 0), ("PaddingRight", ← e.offset "right" 0),
      ("PaddingTop", ← e.offset "top" 0), ("PaddingBottom", ← e.offset "bottom" 0)]
  | .gradient => return []
  | .gridLayout => return []
  | .listLayout => return []
  | .pageLayout => return []
  | .tableLayout => return []

end Extension

namespace Node

/-- How much of the background is seen through, between zero and one. -/
def transparency (n : Node α) : Except Fault α := do
  n.unchecked.needNumbers [.bgAlpha]
  return Arith.clamp (← Arith.sub (Arith.ofInt 1) n.bgAlpha) Arith.zero Arith.one

/-- The path of an image without blanks around it. -/
def imagePath (v : Value α) : Except Fault Text :=
  match v with
  | .str t => .ok t.strip
  | v => if v.truthy then .error .wrongMember else .ok []

/-- What every node is assigned. -/
def commonAssignments (n : Node α) : Except Fault (List (Text × Expr)) := do
  let size ← Expr.roundedOffsets (.num n.w) (.num n.h)
  n.unchecked.needNumbers [.x, .anchorX, .w, .y, .anchorY, .h]
  let left ← Arith.sub n.x (← Arith.mul n.anchorX n.w)
  let top ← Arith.sub n.y (← Arith.mul n.anchorY n.h)
  let position ← Expr.roundedOffsets (.num left) (.num top)
  let anchorX ← (Value.num n.anchorX).scriptNumeral
  let anchorY ← (Value.num n.anchorY).scriptNumeral
  let z ← Expr.rounded (n.written .zIndex)
  let color ← Expr.ofChannels (n.written .bgColor)
  let transparency ← n.transparency
  return [("Name", .text n.displayName), ("Size", size), ("Position", position),
    ("AnchorPoint", .vector anchorX anchorY), ("ZIndex", z),
    ("BackgroundColor3", color),
    ("BackgroundTransparency", .numeral (Arith.twoPlaces transparency)),
    ("BorderSizePixel", Expr.ofInt (if n.border then 1 else 0))]

/-- What a node that shows text is assigned. -/
def textAssignments (n : Node α) : Except Fault (List (Text × Expr)) := do
  let color ← Expr.ofChannels (n.written .textColor)
  let text := match n.written .text with
    | .null => []
    | v => v.shown
  let font := n.written .font
  return [("TextColor3", color), ("Text", .text text), ("TextScaled", .truth n.textScaled),
    ("Font", .font (if font.truthy then font.shown else defaultFont))]

/-- What a node that shows an image is assigned: the image, where there is one. -/
def imageAssignments (n : Node α) : Except Fault (List (Text × Expr)) := do
  let path ← imagePath (n.written .image)
  return if path.isEmpty then [] else [("Image", .text path)]

/-- What a node that scrolls is assigned. -/
def scrollAssignments (n : Node α) : Except Fault (List (Text × Expr)) := do
  let canvas ← Expr.roundedOffsets (n.written .canvasWidth) (n.written .canvasHeight)
  let thickness ← Expr.rounded (n.written .scrollbarThickness)
  return [("CanvasSize", canvas), ("ScrollBarThickness", thickness)]

/-- What the script assigns to a node, its parent apart. -/
def assignments (n : Node α) : Except Fault (List (Text × Expr)) := do
  let common ← n.commonAssignments
  let texts ← if n.kind.isTextual then n.textAssignments else .ok []
  let images ← if n.kind.isImageLike then n.imageAssignments else .ok []
  let scrolls ← if n.kind.isScrollable then n.scrollAssignments else .ok []
  return common ++ texts ++ images ++ scrolls

end Node

end LayoutDesigner
