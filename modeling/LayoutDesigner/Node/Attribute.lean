import LayoutDesigner.Node

/-!
# Setting attributes unchecked

A node can be given any value for an attribute, as it is: nothing is rounded, clamped or read from
text. What has the type of the attribute goes into its field. Another value is kept beside the
fields, and the field holds what the value comes to where a typed one is needed.
-/

namespace LayoutDesigner.Node

/-- Set an attribute that is a text. -/
def setText (a : Attribute) (set : Node Number → Text → Node Number) (n : Node Number)
    (v : Value Number) : Except Fault (Node Number) :=
  match v with
  | .str t => .ok (set (n.checked a) t)
  | v => .ok (n.keep a v)

/-- Set an attribute that is an integer. -/
def setInteger (a : Attribute) (set : Node Number → Int → Node Number) (n : Node Number)
    (v : Value Number) : Except Fault (Node Number) :=
  match v with
  | .num (.int i) => .ok (set (n.checked a) i)
  | v => .ok (n.keep a v)

/-- Set an attribute that is a truth value; another value counts as true or false. -/
def setTruth (a : Attribute) (set : Node Number → Bool → Node Number) (n : Node Number)
    (v : Value Number) : Except Fault (Node Number) :=
  match v with
  | .bool b => .ok (set (n.checked a) b)
  | v => .ok ((set n v.truthy).keep a v)

/-- Set an attribute that is a colour; the channels of another value are made integers where they
can be. -/
def setColor (a : Attribute) (set : Node Number → Rgb → Node Number) (n : Node Number)
    (v : Value Number) : Except Fault (Node Number) :=
  match v with
  | .arr [.num (.int r), .num (.int g), .num (.int b)] => .ok (set (n.checked a) ⟨r, g, b⟩)
  | v =>
    match Rgb.ofItems v with
    | .ok c => .ok ((set n c).keep a v)
    | .error _ => .ok (n.keep a v)

/-- Set an attribute that is a number; another value comes to what it is read as, zero where it is
none. -/
def setNumber (a : Attribute) (set : Node Number → Number → Node Number) (n : Node Number)
    (v : Value Number) : Except Fault (Node Number) := do
  match v with
  | .num x => return set (n.checked a) x
  | v => return (set n (← v.measure)).keep a v

/-- Set the name; the field holds what the value is shown as, empty where it counts as false. -/
def setName (n : Node Number) (v : Value Number) : Except Fault (Node Number) :=
  match v with
  | .str name => .ok { n.checked .name with name }
  | v => .ok (keep { n with name := if v.truthy then v.shown else [] } .name v)

/-- Set the kind, where the value names one. -/
def setKind (n : Node Number) (v : Value Number) : Except Fault (Node Number) := do
  return { n with kind := (← Kind.ofValue? v).getD n.kind }

/-- Set an attribute that is an id; what is no text has a text that stands for it. -/
def setIdentity (a : Attribute) (set : Node Number → Text → Node Number) (n : Node Number)
    (v : Value Number) : Except Fault (Node Number) :=
  match v with
  | .str t => .ok (set (n.checked a) t)
  | v => .ok ((set n v.idText).keep a v)

/-- The attributes that can be set, each with how. -/
def setters : List (Text × (Node Number → Value Number → Except Fault (Node Number))) :=
  [("id", setIdentity .id fun n id => { n with id }), ("kind", setKind), ("name", setName),
    ("parent_id", setIdentity .parent fun n parent => { n with parent }),
    ("x", setNumber .x fun n x => { n with x }), ("y", setNumber .y fun n y => { n with y }),
    ("w", setNumber .w fun n w => { n with w }), ("h", setNumber .h fun n h => { n with h }),
    ("anchor_x", setNumber .anchorX fun n anchorX => { n with anchorX }),
    ("anchor_y", setNumber .anchorY fun n anchorY => { n with anchorY }),
    ("z_index", setInteger .zIndex fun n z => { n with z }),
    ("bg_color", setColor .bgColor fun n bgColor => { n with bgColor }),
    ("bg_alpha", setNumber .bgAlpha fun n bgAlpha => { n with bgAlpha }),
    ("border", setTruth .border fun n border => { n with border }),
    ("text", setText .text fun n text => { n with text }),
    ("text_color", setColor .textColor fun n textColor => { n with textColor }),
    ("text_scaled", setTruth .textScaled fun n textScaled => { n with textScaled }),
    ("font", setText .font fun n font => { n with font }),
    ("image", setText .image fun n image => { n with image }),
    ("canvas_w", setInteger .canvasWidth fun n canvasW => { n with canvasW }),
    ("canvas_h", setInteger .canvasHeight fun n canvasH => { n with canvasH }),
    ("scrollbar_thickness",
      setInteger .scrollbarThickness fun n scrollbarThickness => { n with scrollbarThickness })]

/-- Set the attribute of the given name; a name that is none of them changes nothing. -/
def setAttribute (n : Node Number) (name : Text) (v : Value Number) : Except Fault (Node Number) :=
  match setters.find? fun entry => entry.1 = name with
  | some (_, set) => set n v
  | none => .ok n

/-- Set attributes one after the other. -/
def setAttributes (n : Node Number) (entries : List (Text × Value Number)) :
    Except Fault (Node Number) :=
  entries.foldlM (fun n (name, v) => n.setAttribute name v) n

end LayoutDesigner.Node
