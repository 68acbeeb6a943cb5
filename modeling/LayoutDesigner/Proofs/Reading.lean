import LayoutDesigner.Script
import LayoutDesigner.Proofs.Edit
import LayoutDesigner.Proofs.Numerals

/-!
# Reading a script

A script is read line by line. A variable is introduced once, and a line may only speak of variables
that a line before it introduced; where one does not, the script has no reading. What is kept is
what the script makes: its instances, and under which instance it puts each of them.
-/

namespace LayoutDesigner.Script

/-- The variables that stand in an expression. -/
def Expr.uses : Expr → List Text
  | .reference name => [name]
  | .playerGui => [playerVariable]
  | _ => []

@[simp] theorem Expr.uses_text (t : Text) : (Expr.text t).uses = [] := rfl

@[simp] theorem Expr.uses_truth (b : Bool) : (Expr.truth b).uses = [] := rfl

@[simp] theorem Expr.uses_numeral (t : Text) : (Expr.numeral t).uses = [] := rfl

@[simp] theorem Expr.uses_vector (x y : Text) : (Expr.vector x y).uses = [] := rfl

@[simp] theorem Expr.uses_color (r g b : Text) : (Expr.color r g b).uses = [] := rfl

@[simp] theorem Expr.uses_offset (n : Int) : (Expr.offset n).uses = [] := rfl

@[simp] theorem Expr.uses_offsets (x y : Int) : (Expr.offsets x y).uses = [] := rfl

@[simp] theorem Expr.uses_font (name : Text) : (Expr.font name).uses = [] := rfl

@[simp] theorem Expr.uses_ofInt (n : Int) : (Expr.ofInt n).uses = [] := rfl

@[simp] theorem Expr.uses_ofRgb (c : Rgb) : (Expr.ofRgb c).uses = [] := rfl

@[simp] theorem Expr.uses_reference (name : Text) : (Expr.reference name).uses = [name] := rfl

@[simp] theorem Expr.uses_coreGui : Expr.coreGui.uses = [] := rfl

@[simp] theorem Expr.uses_playerGui : Expr.playerGui.uses = [playerVariable] := rfl

/-- What the lines of a script have made. -/
@[ext] structure Reading where
  /-- The variables in the order in which they were introduced. -/
  introduced : List Text
  /-- The instances, each with its variable and its kind. -/
  instances : List (Text × Text)
  /-- The assignments of parents. -/
  parents : List (Text × Expr)

namespace Reading

instance : Append Reading where
  append r s := ⟨r.introduced ++ s.introduced, r.instances ++ s.instances, r.parents ++ s.parents⟩

/-- Nothing is made. -/
def empty : Reading := ⟨[], [], []⟩

/-- Read one line. -/
def step (r : Reading) : Statement → Option Reading
  | .create v kind =>
    if v ∈ r.introduced then none
    else some { r with introduced := r.introduced ++ [v], instances := r.instances ++ [(v, kind)] }
  | .localPlayer =>
    if playerVariable ∈ r.introduced then none
    else some { r with introduced := r.introduced ++ [playerVariable] }
  | .assign v property value =>
    if v ∈ r.introduced ∧ ∀ used ∈ value.uses, used ∈ r.introduced then
      some (if property = parentProperty then { r with parents := r.parents ++ [(v, value)] } else r)
    else none
  | .blank => some r

/-- Read the lines that follow. -/
def run (r : Reading) (statements : List Statement) : Option Reading := statements.foldlM step r

variable {r : Reading} {v kind property : Text} {value : Expr} {rest : List Statement}

@[simp] theorem introduced_append (r s : Reading) : (r ++ s).introduced = r.introduced ++ s.introduced := rfl

@[simp] theorem instances_append (r s : Reading) : (r ++ s).instances = r.instances ++ s.instances := rfl

@[simp] theorem parents_append (r s : Reading) : (r ++ s).parents = r.parents ++ s.parents := rfl

@[simp] theorem append_empty (r : Reading) : r ++ empty = r := by
  ext1 <;> simp [empty]

@[simp] theorem append_assoc (r s t : Reading) : r ++ s ++ t = r ++ (s ++ t) := by
  ext1 <;> simp

/-- Statements are read one after the other. -/
theorem run_append (first : List Statement) : r.run (first ++ rest) = (r.run first).bind (run · rest) := by
  simp only [run, List.foldlM_append]
  rfl

@[simp] theorem run_nil : r.run [] = some r := rfl

/-- An empty line is read over. -/
theorem run_blank : r.run (.blank :: rest) = r.run rest := rfl

/-- A new variable is introduced. -/
theorem run_create (fresh : v ∉ r.introduced) :
    r.run (.create v kind :: rest) = (r ++ ⟨[v], [(v, kind)], []⟩ : Reading).run rest := by
  have reads : r.step (.create v kind) = some (r ++ ⟨[v], [(v, kind)], []⟩) := by
    rw [step, if_neg fresh]
    congr 1
    ext1 <;> simp
  rw [run, List.foldlM_cons, reads]
  rfl

/-- An instance is put under another one. -/
theorem run_parent (known : v ∈ r.introduced) (usesKnown : ∀ used ∈ value.uses, used ∈ r.introduced) :
    r.run (.assign v parentProperty value :: rest) = (r ++ ⟨[], [], [(v, value)]⟩ : Reading).run rest := by
  have reads : r.step (.assign v parentProperty value) = some (r ++ ⟨[], [], [(v, value)]⟩) := by
    rw [step, if_pos ⟨known, usesKnown⟩, if_pos rfl]
    congr 1
    ext1 <;> simp
  rw [run, List.foldlM_cons, reads]
  rfl

end Reading

section

variable {α : Type} [Arith α] {v : Value α} {e : Expr} {assignments : List (Text × Expr)}

/-- A rounded number is written as an offset. -/
theorem eq_offset (ran : Expr.roundedOffset v = .ok e) : ∃ n, e = .offset n := by
  obtain ⟨n, -, returned⟩ := bind_eq_ok.mp ran
  exact ⟨n, (Except.ok.inj returned).symm⟩

/-- Two rounded numbers are written as offsets. -/
theorem eq_offsets {x y : Value α} (ran : Expr.roundedOffsets x y = .ok e) : ∃ m n, e = .offsets m n := by
  obtain ⟨m, -, ran⟩ := bind_eq_ok.mp ran
  obtain ⟨n, -, returned⟩ := bind_eq_ok.mp ran
  exact ⟨m, n, (Except.ok.inj returned).symm⟩

/-- A rounded number is written as an integer. -/
theorem eq_ofInt (ran : Expr.rounded v = .ok e) : ∃ n, e = .ofInt n := by
  obtain ⟨n, -, returned⟩ := bind_eq_ok.mp ran
  exact ⟨n, (Except.ok.inj returned).symm⟩

/-- Channels are written as a colour. -/
theorem eq_color (ran : Expr.ofChannels v = .ok e) : ∃ r g b, e = .color r g b := by
  obtain ⟨r, -, ran⟩ := bind_eq_ok.mp ran
  obtain ⟨g, -, ran⟩ := bind_eq_ok.mp ran
  obtain ⟨b, -, returned⟩ := bind_eq_ok.mp ran
  exact ⟨r.shown, g.shown, b.shown, (Except.ok.inj returned).symm⟩

end

/-- What extensions are assigned, one case for each list of properties. -/
inductive OfExtension (α : Type) [Arith α] : List (Text × Expr) → Prop
  | nothing : OfExtension α []
  | corner (radius : Int) : OfExtension α [("CornerRadius", .offset radius)]
  | stroke (thickness : Int) (color : Rgb) (transparency : α) :
    OfExtension α [("Thickness", .ofInt thickness), ("Color", .ofRgb color),
      ("Transparency", .numeral (Arith.twoPlaces transparency))]
  | ratio {x : Value α} {t : Text} (shown : x.scriptNumeral = .ok t) : OfExtension α [("AspectRatio", .numeral t)]
  | textSizes (least most : Int) : OfExtension α [("MinTextSize", .ofInt least), ("MaxTextSize", .ofInt most)]
  | sizes (minW minH maxW maxH : Int) :
    OfExtension α [("MinSize", .vector (Text.ofInt minW) (Text.ofInt minH)),
      ("MaxSize", .vector (Text.ofInt maxW) (Text.ofInt maxH))]
  | scale {x : Value α} {t : Text} (shown : x.scriptNumeral = .ok t) : OfExtension α [("Scale", .numeral t)]
  | padding (left right top bottom : Int) :
    OfExtension α [("PaddingLeft", .offset left), ("PaddingRight", .offset right), ("PaddingTop", .offset top),
      ("PaddingBottom", .offset bottom)]

section

variable {α : Type} [Arith α] {assignments : List (Text × Expr)}

/-- An offset of an extension is written as one. -/
theorem ofExtension_offset {e : Extension α} {key : Text} {default : Int} {value : Expr}
    (ran : e.offset key default = .ok value) : ∃ n, value = .offset n := by
  obtain ⟨x, -, ran⟩ := bind_eq_ok.mp ran
  exact eq_offset ran

/-- What is assigned to an extension is of the forms that extensions have. -/
theorem ofExtension_assignments {e : Extension α} (ran : e.assignments = .ok assignments) :
    OfExtension α assignments := by
  rw [Extension.assignments] at ran
  split at ran
  case h_1 =>
    obtain ⟨radius, isRadius, returned⟩ := bind_eq_ok.mp ran
    obtain ⟨n, rfl⟩ := ofExtension_offset isRadius
    cases returned
    exact .corner n
  case h_2 =>
    obtain ⟨color, -, ran⟩ := bind_eq_ok.mp ran
    obtain ⟨transparency, -, ran⟩ := bind_eq_ok.mp ran
    obtain ⟨thickness, -, returned⟩ := bind_eq_ok.mp ran
    cases returned
    exact .stroke thickness color _
  case h_3 =>
    obtain ⟨x, -, ran⟩ := bind_eq_ok.mp ran
    obtain ⟨shown, isShown, returned⟩ := bind_eq_ok.mp ran
    cases returned
    exact .ratio isShown
  case h_4 =>
    obtain ⟨least, -, ran⟩ := bind_eq_ok.mp ran
    obtain ⟨most, -, returned⟩ := bind_eq_ok.mp ran
    cases returned
    exact .textSizes least most
  case h_5 =>
    obtain ⟨minW, -, ran⟩ := bind_eq_ok.mp ran
    obtain ⟨minH, -, ran⟩ := bind_eq_ok.mp ran
    obtain ⟨maxW, -, ran⟩ := bind_eq_ok.mp ran
    obtain ⟨maxH, -, returned⟩ := bind_eq_ok.mp ran
    cases returned
    exact .sizes minW minH maxW maxH
  case h_6 =>
    obtain ⟨x, -, ran⟩ := bind_eq_ok.mp ran
    obtain ⟨shown, isShown, returned⟩ := bind_eq_ok.mp ran
    cases returned
    exact .scale isShown
  case h_7 =>
    obtain ⟨left, isLeft, ran⟩ := bind_eq_ok.mp ran
    obtain ⟨right, isRight, ran⟩ := bind_eq_ok.mp ran
    obtain ⟨top, isTop, ran⟩ := bind_eq_ok.mp ran
    obtain ⟨bottom, isBottom, returned⟩ := bind_eq_ok.mp ran
    obtain ⟨l, rfl⟩ := ofExtension_offset isLeft
    obtain ⟨r, rfl⟩ := ofExtension_offset isRight
    obtain ⟨t, rfl⟩ := ofExtension_offset isTop
    obtain ⟨b, rfl⟩ := ofExtension_offset isBottom
    cases returned
    exact .padding l r t b
  all_goals
    cases ran
    exact .nothing

variable {n : Node α}

/-- What every node is assigned. -/
theorem eq_common (ran : n.commonAssignments = .ok assignments) :
    ∃ width height left top anchorX anchorY z color transparency,
      (Value.num n.anchorX).scriptNumeral = .ok anchorX ∧ (Value.num n.anchorY).scriptNumeral = .ok anchorY ∧
      Expr.ofChannels (n.written .bgColor) = .ok color ∧
      assignments = ([("Name", .text n.displayName), ("Size", .offsets width height),
        ("Position", .offsets left top), ("AnchorPoint", .vector anchorX anchorY), ("ZIndex", .ofInt z),
        ("BackgroundColor3", color), ("BackgroundTransparency", .numeral (Arith.twoPlaces (transparency : α))),
        ("BorderSizePixel", .ofInt (if n.border then 1 else 0))] : List (Text × Expr)) := by
  obtain ⟨size, isSize, ran⟩ := bind_eq_ok.mp ran
  obtain ⟨-, -, ran⟩ := bind_eq_ok.mp ran
  obtain ⟨_, -, ran⟩ := bind_eq_ok.mp ran
  obtain ⟨_, -, ran⟩ := bind_eq_ok.mp ran
  obtain ⟨_, -, ran⟩ := bind_eq_ok.mp ran
  obtain ⟨_, -, ran⟩ := bind_eq_ok.mp ran
  obtain ⟨position, isPosition, ran⟩ := bind_eq_ok.mp ran
  obtain ⟨anchorX, isAnchorX, ran⟩ := bind_eq_ok.mp ran
  obtain ⟨anchorY, isAnchorY, ran⟩ := bind_eq_ok.mp ran
  obtain ⟨layer, isLayer, ran⟩ := bind_eq_ok.mp ran
  obtain ⟨color, isColor, ran⟩ := bind_eq_ok.mp ran
  obtain ⟨transparency, -, returned⟩ := bind_eq_ok.mp ran
  obtain ⟨width, height, rfl⟩ := eq_offsets isSize
  obtain ⟨left, top, rfl⟩ := eq_offsets isPosition
  obtain ⟨z, rfl⟩ := eq_ofInt isLayer
  exact ⟨width, height, left, top, anchorX, anchorY, z, color, transparency, isAnchorX, isAnchorY, isColor,
    (Except.ok.inj returned).symm⟩

/-- What a node that shows an image is assigned. -/
theorem eq_images (ran : n.imageAssignments = .ok assignments) :
    assignments = [] ∨ ∃ path, assignments = ([("Image", .text path)] : List (Text × Expr)) := by
  obtain ⟨path, -, returned⟩ := bind_eq_ok.mp ran
  cases returned
  split
  · exact .inl rfl
  · exact .inr ⟨path, rfl⟩

/-- What a node that scrolls is assigned. -/
theorem eq_scrolls (ran : n.scrollAssignments = .ok assignments) :
    ∃ width height thickness,
      assignments = ([("CanvasSize", .offsets width height), ("ScrollBarThickness", .ofInt thickness)] :
        List (Text × Expr)) := by
  obtain ⟨canvas, isCanvas, ran⟩ := bind_eq_ok.mp ran
  obtain ⟨bar, isBar, returned⟩ := bind_eq_ok.mp ran
  obtain ⟨width, height, rfl⟩ := eq_offsets isCanvas
  obtain ⟨thickness, rfl⟩ := eq_ofInt isBar
  exact ⟨width, height, thickness, (Except.ok.inj returned).symm⟩

/-- The parts of what is assigned to a node, one after the other. -/
theorem assignments_eq (n : Node α) :
    n.assignments = n.commonAssignments >>= fun common =>
      (if n.kind.isTextual then n.textAssignments else .ok []) >>= fun texts =>
      (if n.kind.isImageLike then n.imageAssignments else .ok []) >>= fun images =>
      (if n.kind.isScrollable then n.scrollAssignments else .ok []) >>= fun scrolls =>
      .ok (common ++ texts ++ images ++ scrolls) := by
  rw [Node.assignments]
  split <;> split <;> split <;> rfl

/-- A node is assigned what its parts are, where all of them can be written. -/
theorem assignments_iff : n.assignments = .ok assignments ↔ ∃ common texts images scrolls,
    n.commonAssignments = .ok common ∧
    (if n.kind.isTextual then n.textAssignments else .ok []) = .ok texts ∧
    (if n.kind.isImageLike then n.imageAssignments else .ok []) = .ok images ∧
    (if n.kind.isScrollable then n.scrollAssignments else .ok []) = .ok scrolls ∧
    assignments = common ++ texts ++ images ++ scrolls := by
  simp only [assignments_eq, bind_eq_ok, exists_and_left, Except.ok.injEq, eq_comm (a := assignments)]

end

/-- What is assigned are values, and none of them is a parent. -/
def AssignsValues (assignments : List (Text × Expr)) : Prop :=
  ∀ entry ∈ assignments, entry.1 ≠ parentProperty ∧ entry.2.uses = []

@[simp] theorem assignsValues_nil : AssignsValues [] := by
  simp [AssignsValues]

@[simp] theorem assignsValues_cons {property : Text} {value : Expr} {rest : List (Text × Expr)} :
    AssignsValues ((property, value) :: rest) ↔
      (property ≠ parentProperty ∧ value.uses = []) ∧ AssignsValues rest := by
  simp [AssignsValues]

@[simp] theorem assignsValues_append {first rest : List (Text × Expr)} :
    AssignsValues (first ++ rest) ↔ AssignsValues first ∧ AssignsValues rest :=
  List.forall_mem_append

/-- Values are assigned to a variable that is there. -/
theorem Reading.run_values {r : Reading} {v : Text} (known : v ∈ r.introduced)
    {assignments : List (Text × Expr)} (values : AssignsValues assignments) :
    r.run (assignments.map fun (property, value) => .assign v property value) = some r := by
  induction assignments with
  | nil => rfl
  | cons entry rest ih =>
      obtain ⟨⟨notParent, usesNothing⟩, others⟩ := assignsValues_cons.mp values
      have reads : r.step (.assign v entry.1 entry.2) = some r := by
        simp [Reading.step, known, notParent, usesNothing]
      rw [List.map_cons, Reading.run, List.foldlM_cons, reads]
      exact ih others

section

variable {α : Type} [Arith α] {assignments : List (Text × Expr)}

/-- The name of a property that is not the parent's. -/
theorem ofString_ne_parent {property : String} (other : property ≠ "Parent") :
    Text.ofString property ≠ parentProperty :=
  fun same => other (Text.ofString_injective same)

/-- An extension is assigned values only. -/
theorem assignsValues_extension {extension : Extension α}
    (ran : extension.assignments = .ok assignments) : AssignsValues assignments := by
  cases ofExtension_assignments ran <;> simp [ofString_ne_parent]

variable {n : Node α}

/-- What all kinds have in common is assigned as values. -/
theorem assignsValues_common (ran : n.commonAssignments = .ok assignments) : AssignsValues assignments := by
  obtain ⟨_, _, _, _, _, _, _, color, _, -, -, isColor, rfl⟩ := eq_common ran
  obtain ⟨r, g, b, rfl⟩ := eq_color isColor
  simp [ofString_ne_parent]

/-- A node is assigned values only, its parent apart. -/
theorem assignsValues_node (ran : n.assignments = .ok assignments) : AssignsValues assignments := by
  obtain ⟨common, texts, images, scrolls, isCommon, isTexts, isImages, isScrolls, rfl⟩ := assignments_iff.mp ran
  have ofTexts : AssignsValues texts := by
    split at isTexts
    · obtain ⟨color, isColor, returned⟩ := bind_eq_ok.mp isTexts
      obtain ⟨r, g, b, rfl⟩ := eq_color isColor
      cases returned
      simp [ofString_ne_parent]
    · cases isTexts
      exact assignsValues_nil
  have ofImages : AssignsValues images := by
    split at isImages
    · obtain rfl | ⟨path, rfl⟩ := eq_images isImages <;> simp [ofString_ne_parent]
    · cases isImages
      exact assignsValues_nil
  have ofScrolls : AssignsValues scrolls := by
    split at isScrolls
    · obtain ⟨_, _, _, rfl⟩ := eq_scrolls isScrolls
      simp [ofString_ne_parent]
    · cases isScrolls
      exact assignsValues_nil
  simp [assignsValues_common isCommon, ofTexts, ofImages, ofScrolls]

end

end LayoutDesigner.Script
