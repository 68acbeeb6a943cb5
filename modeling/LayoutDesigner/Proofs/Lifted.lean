import LayoutDesigner.Proofs.Repair
import LayoutDesigner.Proofs.Spaces

/-!
# Lifting nodes from leaves

A repair puts a node whose parent is no container under the root, at the place on the canvas where its
anchor is. So its space starts where it did, and so do the spaces of all nodes below it: the next node of
the pass is placed by a chain that was rewritten already, but comes to the same place.
-/

namespace LayoutDesigner

/-- A node under the root, at a place of the canvas. -/
def Node.liftedTo {α : Type} (n : Node α) (p : Point α) : Node α := ((n.setX p.1).setY p.2).setParent root

/-- A lifted node has its id. -/
theorem Node.id_liftedTo {α : Type} (n : Node α) (p : Point α) : (n.liftedTo p).id = n.id := by
  have underParent : ∀ k : Node α, (k.setParent root).id = k.id := fun _ => rfl
  rw [liftedTo, underParent, (Reshaped.setY _ p.2).id, (Reshaped.setX _ p.1).id]

/-- A lifted node has nothing unchecked if it had nothing before. -/
theorem Node.plain_liftedTo {α : Type} {n : Node α} (plain : n.unchecked = []) (p : Point α) :
    (n.liftedTo p).unchecked = [] :=
  without_plain (n := (n.setX p.1).setY p.2) (without_plain (n := n.setX p.1) (without_plain plain .x) .y) .parent

/-- The corner of a lifted node is off its new place by the part of its sides that the anchor says. -/
theorem Node.corner_liftedTo (n : Node ℚ) (p : Point ℚ) :
    (n.liftedTo p).corner = (p.1 - n.anchorX * n.w, p.2 - n.anchorY * n.h) := by
  simp only [corner, liftedTo, setParent, setY, setX, checked]

namespace Store

variable {s t u : Store ℚ} {id other : Text} {n m : Node ℚ} {p start : Point ℚ}

/-- The ids stay where a node is lifted. -/
theorem ids_liftedTo : (s.modifyNode id (·.liftedTo p)).ids = s.ids :=
  ids_modifyNode fun n => n.id_liftedTo p

/-- A node is found at its new place, and any other one as it was. -/
theorem find?_liftedTo (id : Text) (p : Point ℚ) (found : s.find? other = some m) :
    (s.modifyNode id (·.liftedTo p)).find? other = some (if other = id then m.liftedTo p else m) := by
  have changed : (s.modifyNode id (·.liftedTo p)).find? other =
      (s.find? other).map fun m => if m.id = id then m.liftedTo p else m := find?_modifyNode fun m => m.id_liftedTo p
  rw [changed, found, Option.map_some, id_of_find? found]

/-- A store stays plain where a node is lifted. -/
theorem IsPlain.liftedTo (plain : s.IsPlain) : (s.modifyNode id (·.liftedTo p)).IsPlain :=
  plain.modifyNode id fun _ plain => Node.plain_liftedTo plain p

/-- All nodes are where they were on the canvas. -/
structure KeepsAnchors (s t : Store ℚ) : Prop where
  ids : t.ids = s.ids
  plain : t.IsPlain
  grounded (id : Text) : s.Grounded id → t.Grounded id
  anchor (id : Text) : t.absoluteAnchor id = s.absoluteAnchor id

namespace KeepsAnchors

/-- A store keeps its own anchors. -/
theorem refl (plain : s.IsPlain) : KeepsAnchors s s := ⟨rfl, plain, fun _ grounded => grounded, fun _ => rfl⟩

/-- Two changes that keep the anchors keep them together. -/
theorem trans (first : KeepsAnchors s t) (second : KeepsAnchors t u) : KeepsAnchors s u where
  ids := second.ids.trans first.ids
  plain := second.plain
  grounded id above := second.grounded id (first.grounded id above)
  anchor id := (second.anchor id).trans (first.anchor id)

end KeepsAnchors

section

variable (plain : s.IsPlain) (unreserved : root ∉ s.ids)

include plain unreserved

/-- A node whose parents lead to the root is in a space that starts somewhere. -/
theorem exists_start (grounded : ∀ id ∈ s.ids, s.Grounded id) (found : s.find? id = some n) :
    s.Grounded n.parent ∧ ∃ start, s.spaceOrigin n.parent = .ok start := by
  have above := (grounded id (mem_ids_of_find? found)).of_parent? unreserved (parent?_of_find? found)
  exact ⟨above, above.exists_spaceOrigin unreserved plain⟩

/-- So its anchor is somewhere on the canvas. -/
theorem exists_absoluteAnchor (grounded : ∀ id ∈ s.ids, s.Grounded id) (id : Text) : ∃ p, s.absoluteAnchor id = .ok p := by
  cases found : s.find? id with
  | none => exact ⟨origin, by rw [absoluteAnchor, found]⟩
  | some n =>
      obtain ⟨-, start, isStart⟩ := exists_start plain unreserved grounded found
      exact ⟨_, absoluteAnchor_num found (plain n (mem_of_find? found)) isStart⟩

variable (found : s.find? id = some n) (isAnchor : s.absoluteAnchor id = .ok p)

include found isAnchor

/-- Where a node is lifted, its space and all others start where they did. -/
theorem spaceOrigin_liftedTo (above : s.Grounded other) :
    (s.modifyNode id (·.liftedTo p)).Grounded other ∧
      (s.modifyNode id (·.liftedTo p)).spaceOrigin other = s.spaceOrigin other := by
  have unreserved' : root ∉ (s.modifyNode id (·.liftedTo p)).ids := by rwa [ids_liftedTo]
  induction above with
  | atRoot => exact ⟨.atRoot, rfl⟩
  | @step child parent link above ih =>
      obtain ⟨m, isChild⟩ := exists_find? (mem_ids_of_parent? link)
      obtain rfl := Option.some.inj ((parent?_of_find? isChild).symm.trans link)
      obtain ⟨start, isStart⟩ := above.exists_spaceOrigin unreserved plain
      have isChild' := find?_liftedTo id p isChild
      rw [spaceOrigin_of_parent unreserved plain above isChild isStart]
      by_cases here : child = id
      · -- The lifted node starts from the root, but its place there makes up for the chain that it has left.
        subst here
        obtain rfl := Option.some.inj (found.symm.trans isChild)
        rw [if_pos rfl] at isChild'
        refine ⟨.step (parent?_of_find? isChild') .atRoot, ?_⟩
        rw [absoluteAnchor_num found (plain n (mem_of_find? found)) isStart] at isAnchor
        obtain rfl := Except.ok.inj isAnchor
        rw [spaceOrigin_of_parent unreserved' plain.liftedTo .atRoot isChild' rfl, origin_eq, zero_add,
          Node.corner_liftedTo]
        exact congrArg Except.ok (Prod.ext (add_sub_assoc ..) (add_sub_assoc ..))
      · rw [if_neg here] at isChild'
        refine ⟨.step (parent?_of_find? isChild') ih.1, ?_⟩
        exact spaceOrigin_of_parent unreserved' plain.liftedTo ih.1 isChild' (ih.2.trans isStart)

/-- So the lifted node stays where it is on the canvas, and so do all others. -/
theorem keepsAnchors_liftedTo (grounded : ∀ id ∈ s.ids, s.Grounded id) :
    KeepsAnchors s (s.modifyNode id (·.liftedTo p)) := by
  have spaces : ∀ {other}, s.Grounded other → _ := spaceOrigin_liftedTo plain unreserved found isAnchor
  refine ⟨ids_liftedTo, plain.liftedTo, fun other above => (spaces above).1, fun other => ?_⟩
  cases isOther : s.find? other with
  | none =>
      have isOther' : (s.modifyNode id (·.liftedTo p)).find? other = none := by
        rwa [find?_eq_none, ids_liftedTo, ← find?_eq_none]
      rw [absoluteAnchor, absoluteAnchor, isOther, isOther']
  | some m =>
      have isPlain := plain m (mem_of_find? isOther)
      have isOther' := find?_liftedTo id p isOther
      by_cases here : other = id
      · subst here
        rw [if_pos rfl] at isOther'
        rw [absoluteAnchor_num isOther' (Node.plain_liftedTo isPlain p) rfl, isAnchor, origin_eq]
        exact congrArg Except.ok (Prod.ext (zero_add _) (zero_add _))
      · rw [if_neg here] at isOther'
        obtain ⟨above, start, isStart⟩ := exists_start plain unreserved grounded isOther
        rw [absoluteAnchor_num isOther isPlain isStart, absoluteAnchor_num isOther' isPlain ((spaces above).2.trans isStart)]

end

/-- Lifting any nodes in any order keeps every anchor, and does not fail. -/
theorem keepsAnchors_liftFromLeaves (plain : s.IsPlain) (unreserved : root ∉ s.ids)
    (grounded : ∀ id ∈ s.ids, s.Grounded id) (ids : List Text) :
    (liftFromLeaves ids).Ends s (fun _ t => KeepsAnchors s t) fun _ _ => False := by
  induction ids generalizing s with
  | nil => exact .refl plain
  | cons id rest ih =>
      unfold liftFromLeaves
      simp only [Edit.ends_bind, Edit.ends_get]
      split
      · exact ih plain unreserved grounded
      · next n found =>
          split
          · obtain ⟨p, isAnchor⟩ := exists_absoluteAnchor plain unreserved grounded id
            have kept := keepsAnchors_liftedTo plain unreserved found isAnchor grounded
            simp only [Edit.ends_bind, Edit.ends_modify, Edit.ends_pure]
            refine Edit.ends_lift_ok isAnchor ((ih kept.plain (kept.ids ▸ unreserved) ?_).mono ?_ fun _ _ fails => fails)
            · exact fun other isNode => kept.grounded other (grounded other (kept.ids ▸ isNode))
            · exact fun _ _ rest => kept.trans rest
          · exact ih plain unreserved grounded

/-- Where no link dangles and none is on a circle, all parents lead to the root. -/
theorem isRooted_of_acyclic (distinct : s.ids.Nodup) (unreserved : root ∉ s.ids) (linked : ∀ id, ¬s.Dangles id)
    (acyclic : ∀ id, ¬s.LeadsUp id id) : s.IsRooted := by
  refine ⟨distinct, unreserved, fun n isNode => grounded_of_acyclic ?_ (fun id _ => acyclic id) (id_mem_ids isNode)⟩
  intro child parent link
  by_contra missing
  rw [not_or] at missing
  exact linked child ⟨parent, link, missing⟩

/-- **Lifting nodes from leaves keeps every anchor.** Take a store over the rationals in which no link dangles and
none is on a circle, its nodes in any order and under parents of any kind. Then the first two passes of a
repair find nothing, and the third one does not fail: it puts exactly the nodes whose parent is no container
under the root, which makes a forest of containers, and what is left to do is to clamp and to number anew.
And every node, lifted or not, has its anchor on the canvas exactly where it had it before the pass. -/
theorem liftFromLeaves_keepsAnchors (plain : s.IsPlain) (distinct : s.ids.Nodup) (unreserved : root ∉ s.ids)
    (linked : ∀ id, ¬s.Dangles id) (acyclic : ∀ id, ¬s.LeadsUp id id) :
    ∃ lifted t, liftFromLeaves s.ids s = .ok lifted t ∧
      (∀ least, repair least s =
        (do clampSubtree root least; modify normalizeAll; return lifted : Edit (Store ℚ) (List Text)) t) ∧
      Picks s.SitsOnLeaf s.ids lifted ∧ IsCut lifted s t ∧ t.IsForest ∧
      ∀ id, ∃ p, s.absoluteAnchor id = .ok p ∧ t.absoluteAnchor id = .ok p := by
  have rooted := isRooted_of_acyclic distinct unreserved linked acyclic
  have grounded : ∀ id ∈ s.ids, s.Grounded id := fun id isNode => rooted.grounded_of_mem isNode
  have dangling := cutDangling_eq_self rooted
  have cycles := cutCycles_eq_self rooted
  obtain ⟨lifted, t, ran, kept⟩ := (keepsAnchors_liftFromLeaves plain unreserved grounded s.ids).ok
  obtain ⟨picks, isCut⟩ := (liftFromLeaves_picks distinct).returned ran
  have rehomed : Rehomed s (s.cutDangling.1 ++ s.cutDangling.2.cutCycles.1 ++ lifted) t :=
    rehomed_of_passes distinct unreserved (by rwa [dangling, cycles]) (by rwa [dangling, cycles])
  simp only [dangling, cycles, List.nil_append] at rehomed
  refine ⟨lifted, t, ran, fun least => ?_, picks, isCut, rehomed.forest, fun id => ?_⟩
  · refine Edit.eq_of_ends ?_
    unfold repair
    simp only [Edit.ends_bind, Edit.ends_get, dangling, cycles, Edit.ends_set, Edit.ends_of_ok ran]
    have rest := Edit.ends_self
      (do clampSubtree root least; modify normalizeAll; return lifted : Edit (Store ℚ) (List Text)) t
    rwa [Edit.ends_bind] at rest
  · obtain ⟨p, isAnchor⟩ := exists_absoluteAnchor plain unreserved grounded id
    exact ⟨p, isAnchor, (kept.anchor id).trans isAnchor⟩

/-- A button in a panel under a label, which is under another label in a frame. The upper of the two that have to be
lifted comes first. -/
def mounted : Store ℚ where
  canvasW := .int 980
  canvasH := .int 620
  nodes := [Node.square .textButton "button" "panel" (1 / 2) 20 30, Node.square .textLabel "badge" "title" (1 / 4) 60 45,
    Node.square .frame "panel" "badge" 1 80 70, Node.square .textLabel "title" "frame" (1 / 2) 100 120,
    Node.square .frame "frame" root (1 / 2) 400 300]

/-- All nodes of the mounted store come to the root. -/
theorem rooted_mounted : mounted.IsRooted := by
  have frame : mounted.Grounded "frame" := .step (by decide : mounted.parent? "frame" = some root) .atRoot
  have title : mounted.Grounded "title" := .step (by decide : mounted.parent? "title" = some "frame") frame
  have badge : mounted.Grounded "badge" := .step (by decide : mounted.parent? "badge" = some "title") title
  have panel : mounted.Grounded "panel" := .step (by decide : mounted.parent? "panel" = some "badge") badge
  have button : mounted.Grounded "button" := .step (by decide : mounted.parent? "button" = some "panel") panel
  refine ⟨by decide, by decide, fun n member => ?_⟩
  simp only [mounted, List.mem_cons, List.not_mem_nil, or_false] at member
  rcases member with rfl | rfl | rfl | rfl | rfl
  · exact button
  · exact badge
  · exact panel
  · exact title
  · exact frame

/-- The badge and the panel are lifted, and the button in the panel stays where it is. -/
theorem liftFromLeaves_keepsAnchors_mounted : ∃ lifted t, liftFromLeaves mounted.ids mounted = .ok lifted t ∧
    ("badge" : Text) ∈ lifted ∧ ("panel" : Text) ∈ lifted ∧ (mounted.absoluteAnchor "button").toOption = some (220, 220) ∧
    (t.absoluteAnchor "button").toOption = some (220, 220) := by
  have plain : mounted.IsPlain := by simp [mounted, Node.square, IsPlain]
  have linked : ∀ id, ¬mounted.Dangles id := by
    rintro id ⟨parent, link, notRoot, missing⟩
    exact (rooted_mounted.mem_of_leadsUp (.single link)).elim notRoot missing
  obtain ⟨lifted, t, ran, -, picks, -, -, anchors⟩ := liftFromLeaves_keepsAnchors plain rooted_mounted.distinct
    rooted_mounted.unreserved linked fun id => rooted_mounted.not_leadsUp_self
  obtain ⟨p, before, after⟩ := anchors "button"
  have place : (mounted.absoluteAnchor "button").toOption = some (220, 220) := by decide +kernel
  refine ⟨lifted, t, ran, (picks.exact _).mpr ⟨by decide, ?_⟩, (picks.exact _).mpr ⟨by decide, ?_⟩, place, ?_⟩
  · exact ⟨Node.square .textLabel "title" "frame" (1 / 2) 100 120, by simp [mounted], by decide, by decide⟩
  · exact ⟨Node.square .textLabel "badge" "title" (1 / 4) 60 45, by simp [mounted], by decide, by decide⟩
  · rw [after, ← before, place]

end Store

end LayoutDesigner
