import LayoutDesigner.Proofs.Rebuild
import LayoutDesigner.Proofs.Record

/-!
# What texts cannot change

Two designs that differ only in their texts, so in what nodes are called, in the texts that they show,
in the paths of their images, in their fonts and in the name of the screen, have scripts of the same
statements: only variables, the contents of literals and fonts differ.
-/

namespace LayoutDesigner

/-- Computations in a row show the same where the first ones do and the later ones do after them. -/
theorem map_bind_congr {β γ δ ε ζ : Type} {x : Except Fault β} {y : Except Fault γ} {f : β → Except Fault δ}
    {g : γ → Except Fault ε} {p : β → ζ} {q : γ → ζ} {η : Type} {p' : δ → η} {q' : ε → η}
    (same : x.map p = y.map q) (later : ∀ b c, p b = q c → (f b).map p' = (g c).map q') :
    (x >>= f).map p' = (y >>= g).map q' := by
  cases x with
  | error fault =>
      cases y with
      | error fault' => exact congrArg Except.error (Except.error.inj same)
      | ok c => cases same
  | ok b =>
      cases y with
      | error fault' => cases same
      | ok c => exact later b c (Except.ok.inj same)

variable {α : Type}

/-- The node with other texts. Where it has no image, it gets none. -/
def Node.Reworded (n m : Node α) : Prop :=
  ∃ name text font image, m = { n with name, text, font, image } ∧ (image.strip.isEmpty ↔ n.image.strip.isEmpty)

/-- The store with other texts in its nodes. -/
def Store.Reworded (s t : Store α) : Prop := Pointwise Node.Reworded s t

/-- The project with another name for the screen. -/
def Project.Reworded (p q : Project α) : Prop := ∃ name, q = { p with guiName := .str name }

namespace Node.Reworded

variable {n m : Node α}

/-- A reworded node has its id. -/
theorem id (reworded : Reworded n m) : m.id = n.id := by
  obtain ⟨_, _, _, _, rfl, -⟩ := reworded
  rfl

/-- A reworded node has its parent. -/
theorem parent (reworded : Reworded n m) : m.parent = n.parent := by
  obtain ⟨_, _, _, _, rfl, -⟩ := reworded
  rfl

/-- A reworded node has its layer. -/
theorem z (reworded : Reworded n m) : m.z = n.z := by
  obtain ⟨_, _, _, _, rfl, -⟩ := reworded
  rfl

/-- A reworded node has its link. -/
theorem link (reworded : Reworded n m) : m.link = n.link := by
  obtain ⟨_, _, _, _, rfl, -⟩ := reworded
  rfl

/-- A reworded node has nothing else unchecked. -/
theorem unchecked (reworded : Reworded n m) : m.unchecked = n.unchecked := by
  obtain ⟨_, _, _, _, rfl, -⟩ := reworded
  rfl

/-- A reworded node has its extensions. -/
theorem extensions (reworded : Reworded n m) : m.extensions = n.extensions := by
  obtain ⟨_, _, _, _, rfl, -⟩ := reworded
  rfl

end Node.Reworded

namespace Store.Reworded

variable {s t : Store α}

/-- A reworded store has its links. -/
theorem links (reworded : Reworded s t) : t.links = s.links := reworded.map_eq fun _ _ step => step.link

/-- A reworded store is plain if it was before. -/
theorem isPlain (reworded : Reworded s t) (plain : s.IsPlain) : t.IsPlain :=
  plain.pointwise reworded fun _ _ step isPlain => step.unchecked ▸ isPlain

/-- A reworded store has its siblings in the same order. -/
theorem childIds [Arith α] (reworded : Reworded s t) (plain : s.IsPlain) (parent : Text) :
    t.childIds parent = s.childIds parent :=
  Pointwise.childIds reworded plain (reworded.isPlain plain) (fun _ _ step => step.parent) (fun _ _ step => step.z)
    fun _ _ step => step.id

end Store.Reworded

namespace Script

/-- The expression without its texts. -/
def Expr.shape : Expr → Expr
  | .text _ => .text []
  | .font _ => .font []
  | .reference _ => .reference []
  | e => e

/-- The statement without its variables and its texts. -/
def Statement.shape : Statement → Statement
  | .create _ kind => .create [] kind
  | .assign _ property value => .assign [] property value.shape
  | s => s

/-- The script without its variables and its texts. -/
def shape (script : Script) : Script := { script with statements := script.statements.map Statement.shape }

/-- Assignments without their texts. -/
def shapes (assignments : List (Text × Expr)) : List (Text × Expr) := assignments.map fun (property, value) => (property, value.shape)

variable [Arith α] {s t : Store α} {p q : Project α} {n m : Node α}

omit [Arith α] in
/-- The shapes of two lists are those of each. -/
theorem shapes_append (first rest : List (Text × Expr)) : shapes (first ++ rest) = shapes first ++ shapes rest :=
  List.map_append

omit [Arith α] in
/-- The shape of assignments does not go by the variable. -/
theorem shape_assigns (v : Text) (assignments : List (Text × Expr)) :
    (assigns v assignments).map Statement.shape = assigns [] (shapes assignments) := by
  simp [assigns, shapes, Statement.shape]

/-- Only the name that is assigned to every node is a text. -/
theorem shapes_common (reworded : n.Reworded m) :
    m.commonAssignments.map shapes = n.commonAssignments.map shapes := by
  obtain ⟨name, text, font, image, rfl, -⟩ := reworded
  have inner : ∀ {β γ δ : Type} (x : Except Fault β) (f : β → Except Fault γ) (p : γ → δ),
      (x >>= f).map p = x >>= fun b => (f b).map p := by
    intro β γ δ x f p
    cases x <;> rfl
  simp only [Node.commonAssignments, inner]
  rfl

/-- The texts of a reworded node have the same shapes. -/
theorem shapes_texts (reworded : n.Reworded m) (plain : n.unchecked = []) :
    m.textAssignments.map shapes = n.textAssignments.map shapes := by
  have plain' : m.unchecked = [] := reworded.unchecked.trans plain
  obtain ⟨name, text, font, image, rfl, -⟩ := reworded
  simp only [Node.textAssignments, Node.written, plain, Unchecked.value?]
  rfl

/-- The image of a reworded node has the same shapes. -/
theorem shapes_images (reworded : n.Reworded m) (plain : n.unchecked = []) :
    m.imageAssignments.map shapes = n.imageAssignments.map shapes := by
  have plain' : m.unchecked = [] := reworded.unchecked.trans plain
  obtain ⟨name, text, font, image, rfl, blank⟩ := reworded
  have path : ∀ k : Node α, k.unchecked = [] → k.imageAssignments.map shapes =
      .ok (if k.image.strip.isEmpty then [] else [("Image", .text [])]) := by
    intro k isPlain
    simp only [Node.imageAssignments, Node.written, isPlain, Unchecked.value?]
    change Except.ok (shapes (if k.image.strip.isEmpty then [] else [("Image", Expr.text k.image.strip)])) = _
    split <;> rfl
  rw [path _ plain', path n plain]
  simp only [blank]

/-- What is assigned to a node keeps its shape. -/
theorem shapes_assignments (reworded : n.Reworded m) (plain : n.unchecked = []) :
    m.assignments.map shapes = n.assignments.map shapes := by
  have kind : m.kind = n.kind := by
    obtain ⟨_, _, _, _, rfl, -⟩ := reworded
    rfl
  have scrolls : m.scrollAssignments = n.scrollAssignments := by
    obtain ⟨_, _, _, _, rfl, -⟩ := reworded
    rfl
  rw [assignments_eq, assignments_eq, kind, scrolls]
  refine map_bind_congr (shapes_common reworded) fun common common' sameCommon => ?_
  refine map_bind_congr (p := shapes) (q := shapes) ?_ fun texts texts' sameTexts => ?_
  · split
    · exact shapes_texts reworded plain
    · rfl
  refine map_bind_congr (p := shapes) (q := shapes) ?_ fun images images' sameImages => ?_
  · split
    · exact shapes_images reworded plain
    · rfl
  refine map_bind_congr (p := shapes) (q := shapes) rfl fun scrolls scrolls' sameScrolls => ?_
  refine congrArg Except.ok ?_
  rw [shapes_append, shapes_append, shapes_append, shapes_append, shapes_append, shapes_append, sameCommon, sameTexts,
    sameImages, sameScrolls]

/-- The statements that were handed on, without variables and texts. -/
def statementShapes (out : List Statement × Names) : List Statement := out.1.map Statement.shape

/-- The shapes of extensions do not depend on variables. -/
theorem shape_extensionStatements (names names' : Names) (owner owner' : Text) (extensions : List (Extension α)) :
    (extensionStatements names owner extensions).map statementShapes =
      (extensionStatements names' owner' extensions).map statementShapes := by
  induction extensions generalizing names names' with
  | nil => rfl
  | cons e rest ih =>
      rw [extensionStatements_cons, extensionStatements_cons]
      refine map_bind_congr (p := id) (q := id) rfl fun assignments assignments' same => ?_
      obtain rfl : assignments = assignments' := same
      refine map_bind_congr (ih _ _) fun others others' sameOthers => ?_
      refine congrArg Except.ok ?_
      simp only [statementShapes, List.map_append, List.map_cons, shape_assigns] at sameOthers ⊢
      rw [sameOthers]
      rfl

/-- Nor do those of a node. -/
theorem shape_nodeStatements (reworded : n.Reworded m) (plain : n.unchecked = []) (names names' : Names) :
    (nodeStatements names' m).map statementShapes = (nodeStatements names n).map statementShapes := by
  have called : ∀ {k : Node α} (names : Names), k.unchecked = [] → checkCalled names k = .ok () := fun names plain =>
    (checkCalled_ok names _).mpr fun _ => Node.calledText_plain plain
  have same : m.kind = n.kind ∧ m.extensions = n.extensions := by
    obtain ⟨_, _, _, _, rfl, -⟩ := reworded
    exact ⟨rfl, rfl⟩
  have plain' : m.unchecked = [] := reworded.unchecked.trans plain
  rw [nodeStatements_eq, nodeStatements_eq, same.1, same.2]
  refine map_bind_congr (p := id) (q := id) (by rw [called names plain, called names' plain']) fun _ _ _ => ?_
  refine map_bind_congr (shapes_assignments reworded plain) fun assignments assignments' sameAssignments => ?_
  refine map_bind_congr (shape_extensionStatements _ _ _ _ n.extensions) fun others others' sameOthers => ?_
  refine congrArg Except.ok ?_
  simp only [statementShapes, List.map_append, List.map_cons, shape_assigns] at sameOthers ⊢
  rw [sameAssignments, sameOthers]
  rfl

/-- The tree of a reworded store has the same shapes. -/
theorem shape_treeStatements (reworded : s.Reworded t) (plain : s.IsPlain) (names names' : Names) (ids : List Text) :
    (treeStatements t names' ids).map (List.map Statement.shape) =
      (treeStatements s names ids).map (List.map Statement.shape) := by
  induction ids generalizing names names' with
  | nil => rfl
  | cons id rest ih =>
      have related := reworded.find? (fun _ _ step => step.id) id
      rw [treeStatements, treeStatements]
      cases found : s.find? id with
      | none =>
          cases found' : t.find? id with
          | none => exact ih _ _
          | some m => simp [found, found'] at related
      | some n =>
          cases found' : t.find? id with
          | none => simp [found, found'] at related
          | some m =>
              have step : n.Reworded m := by simpa [found, found'] using related
              refine map_bind_congr (shape_nodeStatements step (plain n (Store.mem_of_find? found)) names names')
                fun first first' same => ?_
              refine map_bind_congr (ih _ _) fun others others' sameOthers => ?_
              refine congrArg Except.ok ?_
              simp only [statementShapes, List.map_append] at same ⊢
              rw [same, sameOthers]

/-- The header of a reworded project has the same shapes. -/
theorem shape_header (typed : p.IsTyped) (reworded : p.Reworded q) :
    (header q).map (List.map Statement.shape) = (header p).map (List.map Statement.shape) := by
  obtain ⟨name, rfl⟩ := reworded
  obtain ⟨given, isGiven⟩ := typed.guiName
  have header_eq : ∀ (r : Project α) (t : Text), r.guiName = .str t → (header r).map (List.map Statement.shape) =
      .ok ([.create [] "ScreenGui", .assign [] "Name" (.text []),
          .assign [] "ResetOnSpawn" (.truth r.resetOnSpawn.truthy)] ++
        (if r.usesCoreGui then [.assign [] parentProperty .coreGui]
          else [.localPlayer, .assign [] parentProperty .playerGui]) ++ [.blank]) := by
    intro r t isName
    rw [header, screenName, isName]
    cases r.usesCoreGui <;> rfl
  rw [header_eq p given isGiven, header_eq _ name rfl]
  rfl

/-- Designs that differ only in their texts have scripts of one shape, or none for the same reason. -/
theorem shape_ofStore (forest : s.IsForest) (plain : s.IsPlain) (typed : p.IsTyped) (store : s.Reworded t)
    (project : p.Reworded q) : (ofStore t q).map shape = (ofStore s p).map shape := by
  have nested : q.isNested = p.isNested := by
    obtain ⟨_, rfl⟩ := project
    rfl
  have checked : t.checkAllLayers = s.checkAllLayers := by
    rw [Store.checkAllLayers_plain plain, Store.checkAllLayers_plain (store.isPlain plain)]
  rw [ofStore_eq, ofStore_eq, checked, nested, writingOrder_congr forest store.links (store.childIds plain)]
  refine map_bind_congr (shape_header typed project) fun first first' sameFirst => ?_
  refine map_bind_congr (p := id) (q := id) rfl fun _ _ _ => ?_
  refine map_bind_congr (shape_treeStatements store plain _ _ _) fun rest rest' sameRest => ?_
  refine congrArg Except.ok ?_
  simp only [shape, List.map_append, sameFirst, sameRest]

end Script

end LayoutDesigner
