import LayoutDesigner.Proofs.Export
import LayoutDesigner.Proofs.Offsets

/-!
# Where a script puts nodes

Over the rationals every typed design has a script. Of the position and the size of a node only two
lines tell, the one with its offsets in its parent and the one with its sides; so the scripts of
designs that differ in positions and sizes are the same exactly where these lines are.
-/

namespace LayoutDesigner

open Script (Expr Statement)

namespace Node

variable {n m : Node ℚ}

/-- The sides of a node and the place of its upper left corner, rounded as a script gives them. -/
def offsets (n : Node ℚ) : List (Text × Expr) :=
  [("Size", .offsets ⌊n.w + 1 / 2⌋ ⌊n.h + 1 / 2⌋),
    ("Position", .offsets ⌊n.x - n.anchorX * n.w + 1 / 2⌋ ⌊n.y - n.anchorY * n.h + 1 / 2⌋)]

/-- What the script assigns to every node beside its name and its offsets. -/
def looks (n : Node ℚ) : List (Text × Expr) :=
  [("AnchorPoint", .vector (Arith.scriptNumeral n.anchorX) (Arith.scriptNumeral n.anchorY)),
    ("ZIndex", Expr.ofInt n.z),
    ("BackgroundColor3", .color (Value.int n.bgColor.r : Value ℚ).shown
      (Value.int n.bgColor.g : Value ℚ).shown (Value.int n.bgColor.b : Value ℚ).shown),
    ("BackgroundTransparency",
      .numeral (Arith.twoPlaces (Arith.clamp (1 - n.bgAlpha) Arith.zero Arith.one))),
    ("BorderSizePixel", Expr.ofInt (if n.border then 1 else 0))]

/-- What all kinds have in common is the name, the offsets and the looks. -/
theorem commonAssignments_plain (plain : n.unchecked = []) :
    n.commonAssignments = .ok (("Name", .text n.displayName) :: (n.offsets ++ n.looks)) := by
  have layer : Expr.rounded (Value.int n.z : Value ℚ) = .ok (Expr.ofInt n.z) :=
    congrArg (fun k => Except.ok (Expr.ofInt k)) (Exact.floor_int_add_half n.z)
  have numbers := Node.needNumbers_plain plain
  have transparency : n.transparency = .ok (Arith.clamp (1 - n.bgAlpha) Arith.zero Arith.one) :=
    bind_eq_ok.mpr ⟨(), numbers _, rfl⟩
  refine bind_eq_ok.mpr ⟨_, rfl, bind_eq_ok.mpr ⟨(), numbers _, ?_⟩⟩
  rw [written_plain plain .zIndex, written_plain plain .bgColor, transparency]
  -- The offsets and the anchor are computed; only the layer is read from a number.
  iterate 7 refine bind_eq_ok.mpr ⟨_, rfl, ?_⟩
  exact bind_eq_ok.mpr ⟨_, layer, rfl⟩

/-- Of position and size only the offsets of a typed node tell. -/
theorem assignments_plain (plain : n.unchecked = []) : ∃ rest, ∀ m, Reshaped n m → m.unchecked = [] →
    m.assignments = .ok (("Name", .text n.displayName) :: (m.offsets ++ rest)) := by
  obtain ⟨⟨texts, isTexts⟩, ⟨images, isImages⟩, scrolls, isScrolls⟩ := kindAssignments_ok plain n.isStyled_rational
  refine ⟨n.looks ++ texts ++ images ++ scrolls, fun m reshaped plain' => ?_⟩
  have same := reshaped.eq_of_plain plain plain'
  generalize m.x = x, m.y = y, m.w = w, m.h = h at same
  subst same
  refine Script.assignments_iff.mpr ⟨_, texts, images, scrolls, commonAssignments_plain plain', isTexts, isImages,
    isScrolls, ?_⟩
  simp only [List.cons_append, List.append_assoc]
  rfl

end Node

namespace Script

variable {n : Node ℚ}

/-- The name of a plain node can be checked. -/
theorem checkCalled_plain (names : Names) (plain : n.unchecked = []) : checkCalled names n = .ok () :=
  (checkCalled_ok names n).mpr fun _ => Node.calledText_plain plain

/-- Every typed node is written, and where it differs from another one only in position and size, the
lines differ only in the offsets. -/
theorem nodeStatements_plain (names : Names) (plain : n.unchecked = []) :
    ∃ v before after later, ∀ m, Node.Reshaped n m → m.unchecked = [] →
      nodeStatements names m = .ok (before ++ assigns v m.offsets ++ after, later) := by
  obtain ⟨rest, assigned⟩ := Node.assignments_plain plain
  obtain ⟨⟨extensions, later⟩, isExtensions⟩ := (extensionStatements_ok (names.ofNode n).2
    (names.ofNode n).1 n.extensions).mpr fun e _ => e.assignments_rational
  let v := (names.ofNode n).1
  refine ⟨v, .create v n.kind.name :: assigns v [("Name", .text n.displayName)],
    assigns v rest ++ extensions ++
      [.assign v parentProperty (.reference (parentVariable later n)), .blank], later,
    fun m reshaped plain' => ?_⟩
  have called := checkCalled_plain names plain'
  have assigned := assigned m reshaped plain'
  have same := reshaped.eq_of_plain plain plain'
  generalize m.x = x, m.y = y, m.w = w, m.h = h at same
  subst same
  refine nodeStatements_iff.mpr ⟨called, _, extensions, assigned, isExtensions, ?_⟩
  simp only [assigns, List.map_cons, List.map_append, List.map_nil, List.cons_append, List.nil_append,
    List.append_assoc]
  rfl

/-- Different assignments are different statements. -/
theorem assigns_injective (v : Text) : Function.Injective (assigns v) :=
  List.map_injective_iff.mpr fun _ _ same => by
    obtain ⟨-, sameProperty, sameValue⟩ := Statement.assign.inj same
    exact Prod.ext sameProperty sameValue

/-- The offsets of two nodes are akin. -/
theorem akin_offsets (v : Text) (n m : Node ℚ) :
    List.Forall₂ Statement.Akin (assigns v n.offsets) (assigns v m.offsets) :=
  .cons (.inr ⟨_, _, _, _, _, _, rfl, rfl⟩) (.cons (.inr ⟨_, _, _, _, _, _, rfl, rfl⟩) .nil)

variable {s t : Store ℚ}

open Store

/-- Moving and resizing nodes changes lines with offsets only, and only where offsets change. -/
theorem treeStatements_reshaped (plain : s.IsPlain) (reshaped : Reshaped s t) (names : Names)
    (ids : List Text) :
    ∃ first second, treeStatements s names ids = .ok first ∧ treeStatements t names ids = .ok second ∧
      List.Forall₂ Statement.Akin first second ∧
      (second = first ↔
        ∀ id ∈ ids, (t.find? id).map Node.offsets = (s.find? id).map Node.offsets) := by
  have same_self : ∀ lines : List Statement, List.Forall₂ Statement.Akin lines lines := fun lines =>
    List.forall₂_same.mpr fun _ _ => .inl rfl
  induction ids generalizing names with
  | nil => exact ⟨[], [], rfl, rfl, .nil, by simp⟩
  | cons id rest ih =>
      have related := reshaped.find? (fun _ _ step => step.id) id
      rw [List.forall_mem_cons]
      generalize found : s.find? id = here, found' : t.find? id = there at related ⊢
      cases related with
      | none => simpa [treeStatements_cons_none found, treeStatements_cons_none found'] using ih names
      | @some n m step =>
          have isPlain := plain n (mem_of_find? found)
          obtain ⟨v, before, after, later, written⟩ := nodeStatements_plain names isPlain
          obtain ⟨first, second, isFirst, isSecond, akin, same⟩ := ih later
          have isHere := written n (refl_of Node.Reshaped n) isPlain
          have isThere := written m step (step.plain isPlain)
          refine ⟨_, _, (treeStatements_cons_some found).mpr ⟨_, later, first, isHere, isFirst, rfl⟩,
            (treeStatements_cons_some found').mpr ⟨_, later, second, isThere, isSecond, rfl⟩, ?_, ?_⟩
          · exact List.rel_append (List.rel_append (List.rel_append (same_self before)
              (akin_offsets v n m)) (same_self after)) akin
          · rw [Option.map_some, Option.map_some, Option.some_inj, ← same]
            constructor
            · intro equal
              simp only [List.append_assoc] at equal
              obtain ⟨sameLines, others⟩ := List.append_inj (List.append_cancel_left equal) rfl
              exact ⟨assigns_injective v sameLines, List.append_cancel_left others⟩
            · rintro ⟨sameOffsets, rfl⟩
              rw [sameOffsets]

/-- The scripts of typed designs that differ at most in positions and sizes are both written. They are
the same text exactly where all offsets are the same. -/
theorem generate_reshaped {p : Project ℚ} (forest : IsForest s) (plain : s.IsPlain) (typed : p.IsTyped)
    (reshaped : Reshaped s t) :
    ∃ before after, generate s p = .ok before ∧ generate t p = .ok after ∧
      (after = before ↔ ∀ n ∈ s.nodes, (t.find? n.id).map Node.offsets = some n.offsets) := by
  obtain ⟨head, isHead⟩ : ∃ head, header p = .ok head := by
    obtain ⟨name, isName⟩ := typed.guiName
    exact (header_ok p).mpr ⟨_, by rw [screenName, isName]⟩
  obtain ⟨first, second, isFirst, isSecond, akin, same⟩ :=
    treeStatements_reshaped plain reshaped { counted := p.isNested } (writingOrder s)
  have lines : List.Forall₂ Statement.Akin (head ++ first) (head ++ second) :=
    List.rel_append (List.forall₂_same.mpr fun _ _ => .inl rfl) akin
  have written : ∀ {u : Store ℚ} {rest : List Statement}, u.IsPlain → writingOrder u = writingOrder s →
      treeStatements u { counted := p.isNested } (writingOrder s) = .ok rest →
      generate u p = .ok (Script.text ⟨p.isNested, head ++ rest⟩) := by
    intro u rest plainHere order isRest
    refine bind_eq_ok.mpr ⟨⟨p.isNested, head ++ rest⟩, ?_, rfl⟩
    rw [← order] at isRest
    exact ofStore_iff.mpr ⟨head, rest, isHead, checkAllLayers_plain plainHere, isRest, rfl⟩
  refine ⟨_, _, written plain rfl isFirst, written (reshaped.isPlain plain)
    (writingOrder_reshaped forest plain reshaped) isSecond, ?_⟩
  constructor
  · intro sameText n isNode
    have sameLines := (eq_of_text lines sameText.symm).symm
    have offsets := same.mp (List.append_cancel_left sameLines) n.id
      ((mem_writingOrder forest).mpr (id_mem_ids isNode))
    rwa [find?_of_mem forest.distinct isNode] at offsets
  · intro offsets
    rw [same.mpr fun id member => ?_]
    obtain ⟨n, isNode, rfl⟩ := mem_ids.mp ((mem_writingOrder forest).mp member)
    rw [offsets n isNode, find?_of_mem forest.distinct isNode]
    rfl

end Script

end LayoutDesigner
