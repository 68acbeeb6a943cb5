import LayoutDesigner.Handle
import LayoutDesigner.Settings

/-!
# Painting

What is painted of a node and of the canvas behind the nodes, as a list of painting steps in the
coordinates of the canvas. A node is painted from its own corner.
-/

namespace LayoutDesigner.Shell

/-- A colour to paint with: channels and an opacity, or one that the settings spell. -/
inductive Ink where
  | channels (color : Rgb) (opacity : Number)
  | spelled (color : Document)

/-- The letters of a text that is painted. -/
structure Lettering where
  family : Text
  bold : Bool
  pixels : Int

/-- How a long text is broken. -/
inductive Wrapping where
  | atWords
  | anywhere
  deriving DecidableEq, Repr

/-- One step of painting. -/
inductive PaintStep where
  | pen (ink : Ink) (dashed : Bool)
  | noPen
  | brush (ink : Ink)
  | noBrush
  | lettering (l : Lettering)
  | box (r : Rect Number)
  | line (p q : Point Number)
  | text (r : Rect Number) (wrapping : Wrapping) (t : Document)

namespace Ink

/-- An opaque colour. -/
def solid (r g b : Int) : Ink := .channels ⟨r, g, b⟩ Arith.one

/-- The colour as a document. -/
def toDocument : Ink → Document
  | .channels c opacity => .arr [.int c.r, .int c.g, .int c.b, .num opacity]
  | .spelled color => color

end Ink

namespace Wrapping

/-- The number of the layout: centred both ways, and the way of breaking. -/
def flags : Wrapping → Int
  | .atWords => 0x84 + 0x1000
  | .anywhere => 0x84 + 0x2000

end Wrapping

/-- A box as a document. -/
def boxDocument (r : Rect Number) : Document := .arr [.num r.x, .num r.y, .num r.w, .num r.h]

/-- A point as a document. -/
def pointDocument (p : Point Number) : Document := .arr [.num p.1, .num p.2]

/-- A step of painting as a document: its name and what it is given. -/
def PaintStep.toDocument : PaintStep → Document
  | .pen ink dashed =>
    let style : Document := .str (if dashed then "DashLine" else "SolidLine")
    .arr [.str "setPen", .arr [ink.toDocument, .num Arith.one, style]]
  | .noPen => .arr [.str "setPen", .str "NoPen"]
  | .brush ink => .arr [.str "setBrush", ink.toDocument]
  | .noBrush => .arr [.str "setBrush", .str "NoBrush"]
  | .lettering l =>
    .arr [.str "setFont",
      .obj [("family", .str l.family), ("bold", .bool l.bold), ("px", .int l.pixels)]]
  | .box r => .arr [.str "drawRect", boxDocument r]
  | .line p q => .arr [.str "drawLine", pointDocument p, pointDocument q]
  | .text r wrapping t => .arr [.str "drawText", boxDocument r, .int wrapping.flags, t]

/-- A box with real coordinates. -/
def realBox (x y w h : Number) : Except Fault (Rect Number) := do
  return ⟨← Arith.toReal x, ← Arith.toReal y, ← Arith.toReal w, ← Arith.toReal h⟩

/-- The letters that stand in for a font. -/
def fontFamily (font : Text) : Text :=
  let plain := Text.replace "Bold" "" font
  if plain = ("Gotham" : Text) then "Helvetica"
  else if plain = ("Code" : Text) then "Courier New"
  else "Arial"

/-- An attribute that must be a text to be painted. -/
def needText : Document → Except Fault Text
  | .str t => .ok t
  | _ => .error .wrongMember

/-- The height of letters that do not follow their box. -/
def fixedPixels : Int := 14

/-- The least height of letters that follow their box. -/
def leastPixels : Int := 6

/-- The letters of a node's text in a box of height `h`; scaled ones take 45 of 100 parts of it. -/
def letteringOf (n : Node Number) (h : Number) : Except Fault Lettering := do
  let font ← needText (n.written .font)
  let pixels ←
    if n.textScaled then do
      let scaled ← Arith.truncate (← Arith.mul h (Arith.ofDecimal 45 2))
      pure (max leastPixels scaled)
    else pure fixedPixels
  return ⟨fontFamily font, font.endsWith "Bold", pixels⟩

/-- The painting of what a node shows inside its box. -/
def paintContent (n : Node Number) (r : Rect Number) : Except Fault (List PaintStep) := do
  if n.kind.isTextual then
    n.needColor .textColor
    return [.pen (.channels n.textColor Arith.one) false, .lettering (← letteringOf n r.h),
      .text r .atWords (n.written .text)]
  else if n.kind.isImageLike then
    let image ← needText (n.written .image)
    return [.pen (.solid 160 160 170) false,
      .text r .anywhere (.str (image.strip.orElse n.kind.name))]
  else if n.kind.isScrollable then
    let bar ← (n.written .scrollbarThickness).asReal
    let left ← Arith.sub (← Arith.add r.x r.w) bar
    return [.noPen, .brush (.solid 90 90 100), .box ⟨left, r.y, bar, r.h⟩]
  else return []

/-- The colour of the frame of the selected node. -/
def handleBorder (s : Settings) : Ink := .spelled (s.value .handleBorder)

/-- The side of a resize handle. -/
def handleSize (s : Settings) : Except Fault Number := (s.value .handleSize).asOperand

/-- The painting of the eight handles of a box. -/
def paintHandles (s : Settings) (r : Rect Number) : Except Fault (List PaintStep) := do
  let boxes ← (← Handle.rects r.w r.h (← handleSize s)).mapM fun (_, b) => do
    return PaintStep.box (← realBox b.x b.y b.w b.h)
  return [.pen (handleBorder s) false, .brush (.spelled (s.value .handleFill))] ++ boxes

/-- The painting that tells that a node is selected: a dashed frame and the handles. -/
def paintSelection (s : Settings) (r : Rect Number) : Except Fault (List PaintStep) := do
  return [.pen (handleBorder s) true, .noBrush, .box r] ++ (← paintHandles s r)

/-- The painting of a node of the given size. -/
def paintNode (s : Settings) (n : Node Number) (w h : Number) (selected : Bool) :
    Except Fault (List PaintStep) := do
  let r : Rect Number := ⟨Arith.zero, Arith.zero, w, h⟩
  n.needColor .bgColor
  let opacity := Arith.clamp (← (n.written .bgAlpha).asReal) Arith.zero Arith.one
  let edge : PaintStep := if n.border then .pen (.solid 0 0 0) false else .noPen
  let content ← paintContent n r
  let selection ← if selected then paintSelection s r else pure []
  return [.brush (.channels n.bgColor opacity), edge, .box r] ++ content ++ selection

/-- The distance between the lines of the grid. -/
def gridStep : Nat := 20

/-- The height of the bar at the top that the safe area leaves free. -/
def safeAreaTop : Int := 36

/-- The places of the lines of the grid along a side: every multiple of the step below it. -/
def gridLines (side : Number) : List Number :=
  let count := match Arith.truncate side with
    | .ok n => n.toNat / gridStep + 1
    | .error _ => 0
  let places : List Number := (List.range count).map fun k => .int ((k + 1) * gridStep : Nat)
  places.filter fun place => Arith.lt place side

/-- The painting of the surface behind the nodes. -/
def paintBackground (s : Store Number) (showSafeArea : Bool) : Except Fault (List PaintStep) := do
  let canvasW ← s.canvasW.asOperand
  let canvasH ← s.canvasH.asOperand
  let canvas ← realBox (.int 0) (.int 0) canvasW canvasH
  let across ← (gridLines canvasW).mapM fun x => do
    let x ← Arith.toReal x
    return PaintStep.line (x, Arith.zero) (x, canvas.h)
  let down ← (gridLines canvasH).mapM fun y => do
    let y ← Arith.toReal y
    return PaintStep.line (Arith.zero, y) (canvas.w, y)
  let top : Number := .int safeAreaTop
  let safeArea : List PaintStep ←
    if showSafeArea then do
      let r : Rect Number := ⟨canvas.x, ← Arith.add canvas.y top, canvas.w, ← Arith.sub canvas.h top⟩
      pure [.pen (.solid 255 196 0) true, .noBrush, .box r]
    else pure []
  return [.pen (.solid 70 70 80) false, .brush (.solid 18 18 22), .box canvas,
    .pen (.solid 32 32 38) false] ++ across ++ down ++ safeArea

end LayoutDesigner.Shell
