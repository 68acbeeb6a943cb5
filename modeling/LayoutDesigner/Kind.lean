import LayoutDesigner.Color

/-!
# Kinds of element

A design is made of elements of eight kinds. A kind fixes what an element can do and what a new one
looks like.
-/

namespace LayoutDesigner

/-- The kinds of element, in the order in which they are offered. -/
inductive Kind where
  | frame
  | scrollingFrame
  | textLabel
  | textButton
  | textBox
  | imageLabel
  | imageButton
  | viewportFrame
  deriving DecidableEq, Repr

/-- What an element of a kind can do and what a new one looks like. -/
structure KindDescriptor where
  name : Text
  isContainer : Bool := false
  isTextual : Bool := false
  isImageLike : Bool := false
  isScrollable : Bool := false
  size : Int × Int := (240, 90)
  bgColor : Rgb := ⟨50, 50, 55⟩
  border : Bool := false
  text : Text := ""
  canvasSize : Int × Int := (0, 0)
  scrollbarThickness : Int := 8

/-- A line of the table of kinds. -/
def KindDescriptor.toRow {α : Type} [Arith α] (d : KindDescriptor) : Value α :=
  let pair (p : Int × Int) : Value α := .arr [.int p.1, .int p.2]
  .arr [.str d.name, .bool d.isContainer, .bool d.isTextual, .bool d.isImageLike,
    .bool d.isScrollable, pair d.size, .arr d.bgColor.channels, .bool d.border, .str d.text,
    pair d.canvasSize, .int d.scrollbarThickness]

namespace Kind

/-- Every kind, in table order. -/
def all : List Kind :=
  [.frame, .scrollingFrame, .textLabel, .textButton, .textBox, .imageLabel, .imageButton,
    .viewportFrame]

/-- The table of kinds. -/
def descriptor : Kind → KindDescriptor
  | .frame =>
    { name := "Frame", isContainer := true, size := (320, 180), bgColor := ⟨38, 38, 44⟩ }
  | .scrollingFrame =>
    { name := "ScrollingFrame", isContainer := true, isScrollable := true, size := (360, 220),
      bgColor := ⟨35, 35, 42⟩, canvasSize := (520, 360), scrollbarThickness := 10 }
  | .textLabel =>
    { name := "TextLabel", isTextual := true, size := (300, 100), bgColor := ⟨30, 30, 30⟩,
      text := "TextLabel" }
  | .textButton =>
    { name := "TextButton", isTextual := true, size := (280, 90), bgColor := ⟨48, 48, 58⟩,
      border := true, text := "Button" }
  | .textBox =>
    { name := "TextBox", isTextual := true, size := (320, 80), bgColor := ⟨28, 28, 34⟩,
      border := true, text := "Type here…" }
  | .imageLabel =>
    { name := "ImageLabel", isImageLike := true, size := (280, 180), bgColor := ⟨26, 26, 32⟩ }
  | .imageButton =>
    { name := "ImageButton", isImageLike := true, size := (280, 180), bgColor := ⟨26, 26, 32⟩,
      border := true }
  | .viewportFrame =>
    { name := "ViewportFrame", size := (320, 220), bgColor := ⟨22, 22, 28⟩, border := true }

/-- The name of a kind. -/
def name (k : Kind) : Text := k.descriptor.name

/-- The kind of a name. -/
def ofName? (t : Text) : Option Kind := all.find? fun k => k.name = t

variable {α : Type} [Arith α]

/-- The kind that a value names; `none` where it names none. Lists and objects are refused. -/
def ofValue? (v : Value α) : Except Fault (Option Kind) :=
  v.asId.map fun id? => id?.bind ofName?

/-- The kind that a value names. -/
def ofValue (v : Value α) : Except Fault Kind := do
  match ← ofValue? v with
  | some k => return k
  | none => throw (.missingKey v.quoted)

/-- Only containers accept children. -/
def isContainer (k : Kind) : Bool := k.descriptor.isContainer

/-- The kind shows a text. -/
def isTextual (k : Kind) : Bool := k.descriptor.isTextual

/-- The kind shows an image. -/
def isImageLike (k : Kind) : Bool := k.descriptor.isImageLike

/-- The kind scrolls over a canvas of its own. -/
def isScrollable (k : Kind) : Bool := k.descriptor.isScrollable

end Kind

/-- The fonts that are offered for a text. -/
def fonts : List Text := ["SourceSans", "SourceSansBold", "Gotham", "GothamBold", "Arial", "Code"]

/-- The font of a new text. -/
def defaultFont : Text := "SourceSansBold"

end LayoutDesigner
