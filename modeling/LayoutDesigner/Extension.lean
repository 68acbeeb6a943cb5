import LayoutDesigner.Color
import LayoutDesigner.Number

/-!
# Extensions

An extension is attached to an element and has no geometry of its own: a kind, an id and a bag of
properties. The keys in the table of a kind are the only ones that are edited and exported; the
table also says of which type each property is.
-/

namespace LayoutDesigner

/-- The kinds of extension, in alphabetical order. -/
inductive ExtensionKind where
  | aspectRatioConstraint
  | corner
  | gradient
  | gridLayout
  | listLayout
  | padding
  | pageLayout
  | scale
  | sizeConstraint
  | stroke
  | tableLayout
  | textSizeConstraint
  deriving DecidableEq, Repr

namespace ExtensionKind

/-- Every kind of extension. -/
def all : List ExtensionKind :=
  [.aspectRatioConstraint, .corner, .gradient, .gridLayout, .listLayout, .padding, .pageLayout,
    .scale, .sizeConstraint, .stroke, .tableLayout, .textSizeConstraint]

/-- The name of a kind of extension. -/
def name : ExtensionKind → Text
  | .aspectRatioConstraint => "UIAspectRatioConstraint"
  | .corner => "UICorner"
  | .gradient => "UIGradient"
  | .gridLayout => "UIGridLayout"
  | .listLayout => "UIListLayout"
  | .padding => "UIPadding"
  | .pageLayout => "UIPageLayout"
  | .scale => "UIScale"
  | .sizeConstraint => "UISizeConstraint"
  | .stroke => "UIStroke"
  | .tableLayout => "UITableLayout"
  | .textSizeConstraint => "UITextSizeConstraint"

/-- The kind of extension of a name. -/
def ofName? (t : Text) : Option ExtensionKind := all.find? fun k => k.name = t

end ExtensionKind

/-- The type of a property, with what a new extension holds. -/
inductive PropertyType (α : Type) where
  | truth
  | integer (default : α)
  | real (default : α)
  | color
  | free

namespace PropertyType

/-- The type of a property that is known by its default alone. -/
def ofDefault (v : Value Number) : PropertyType Number :=
  match v with
  | .bool _ => .truth
  | .num (.int n) => .integer (.int n)
  | .num (.real x) => .real (.real x)
  | v => if v.isColorRecord then .color else .free

variable {α : Type} [Arith α]

/-- An edit of a property, made to fit its type; a number that cannot be read is the default. -/
def coerce (type : PropertyType α) (value : Value α) : Except Fault (Value α) :=
  match type with
  | .truth => .ok (.bool value.toBool)
  | .integer default => (value.toNumber (.num default)).map fun x => .int (Arith.floorHalf x)
  | .real default => (value.toNumber (.num default)).map .num
  | .color =>
    match value with
    | .obj members => .ok (.obj members)
    | v => .ok ((Rgb.ofHex? (if v.truthy then v.shown else [])).getD Rgb.white).toRecord
  | .free => .ok value

end PropertyType

namespace ExtensionKind

variable {α : Type} [Arith α]

/-- The properties of a kind of extension, in the order in which they are edited. -/
def properties (k : ExtensionKind) : List (Text × PropertyType α) :=
  let integer (n : Int) : PropertyType α := .integer (Arith.ofInt n)
  match k with
  | .aspectRatioConstraint => [("aspectRatio", .real Arith.one)]
  | .corner => [("cornerRadius", integer 8)]
  | .padding => [("left", integer 0), ("right", integer 0), ("top", integer 0), ("bottom", integer 0)]
  | .scale => [("scale", .real Arith.one)]
  | .sizeConstraint =>
    [("minW", integer 0), ("minH", integer 0), ("maxW", integer 0), ("maxH", integer 0)]
  | .stroke =>
    [("thickness", integer 2), ("color", .color), ("transparency", .real (Arith.ofDecimal 2 1))]
  | .textSizeConstraint => [("minTextSize", integer 8), ("maxTextSize", integer 48)]
  | .gradient => []
  | .gridLayout => []
  | .listLayout => []
  | .pageLayout => []
  | .tableLayout => []

/-- The type of a property of a kind of extension. -/
def property? (k : ExtensionKind) (key : Text) : Option (PropertyType α) :=
  (k.properties.find? fun (name, _) => name = key).map Prod.snd

/-- What a new extension holds for a property of this type; a new colour is white. -/
def defaultOf : PropertyType α → Value α
  | .truth => .bool false
  | .integer default => .num default
  | .real default => .num default
  | .color => Rgb.white.toRecord
  | .free => .null

/-- The property bag of a new extension. -/
def defaults (k : ExtensionKind) : List (Text × Value α) :=
  k.properties.map fun (name, type) => (name, defaultOf type)

end ExtensionKind

/-- An extension of an element. -/
structure Extension (α : Type) where
  id : Text
  kind : ExtensionKind
  props : List (Text × Value α)
  /-- Kind and properties that were put in as they came, without being read as what they should be.
  No edit and no load makes any. They are shown as they are; all else goes by the typed fields. -/
  unchecked : Option (Value α × Value α) := none

namespace Extension

variable {α : Type} [Arith α]

/-- A new extension of a kind. -/
def new (kind : ExtensionKind) (id : Text) : Extension α := { id, kind, props := kind.defaults }

/-- An extension of exactly the given parts. Where they are not of the types that they should have,
they are kept beside a kind that has no properties, or an empty bag. -/
def ofParts (id : Text) (kind props : Value α) : Extension α :=
  match kind, props with
  | .str name, .obj members =>
    match ExtensionKind.ofName? name with
    | some kind => { id, kind, props := members }
    | none => { id, kind := .gradient, props := members, unchecked := some (kind, props) }
  | kind, props =>
    { id, kind := (ExtensionKind.ofName? kind.idText).getD .gradient, props := []
      unchecked := some (kind, props) }

/-- The kind as it is shown. -/
def shownKind (e : Extension α) : Value α := e.unchecked.elim (.str e.kind.name) Prod.fst

/-- The properties as they are shown. -/
def shownProps (e : Extension α) : Value α := e.unchecked.elim (.obj e.props) Prod.snd

/-- A new extension of the kind that a value names. -/
def create (kind : Value α) (id : Text) : Except Fault (Extension α) := do
  match (← kind.asId).bind ExtensionKind.ofName? with
  | some k => return new k id
  | none => throw (.unknownExtensionKind kind.shown)

/-- A copy of the properties in the record of an extension, none where there is no object of them. -/
def readProps (members : List (Text × Value α)) (depth : Nat) : Except Fault (List (Text × Value α)) :=
  match Value.field "props" members with
  | .obj props => Value.copyMembers depth props
  | _ => .ok []

/-- Read the record of an extension: its kind is under `type`, or under `kind` where there is no
`type`. `depth` calls may be nested to copy the properties. -/
def ofRecord (members : List (Text × Value α)) (depth : Nat := usualDepth) : Except Fault (Extension α) := do
  let kind := ((Value.member? "type" members).orElse fun _ => Value.member? "kind" members).getD .null
  match (← kind.asId).bind ExtensionKind.ofName? with
  | none => throw (.unknownExtensionRecord kind.quoted)
  | some k =>
    let id := Value.field "id" members
    let props ← readProps members depth
    return { id := if id.truthy then id.shown else [], kind := k, props }

/-- The record of an extension. -/
def toRecord (e : Extension α) : Value α :=
  .obj [("id", .str e.id), ("type", e.shownKind), ("props", e.shownProps)]

/-- Fails where the properties are nested too deeply to be copied, as a record of the extension has
them. -/
def needCopy (depth : Nat) (e : Extension α) : Except Fault Unit :=
  (e.shownProps.copy depth).map fun _ => ()

end Extension

end LayoutDesigner
