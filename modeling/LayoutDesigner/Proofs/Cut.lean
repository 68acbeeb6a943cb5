import LayoutDesigner.Proofs.Reshape

/-!
# Cutting links

A repair puts nodes under the root and leaves every other link alone. `IsCut cut s t` says that `t`
is `s` with the links of the listed nodes cut. What leads up after a cut led up before, except to the
root, and a circle survives exactly where none of its nodes was cut. So a circle is opened by cutting
the first of its nodes, and that cut touches no other circle.
-/

namespace LayoutDesigner

variable {α : Type}

/-- The same node on the same layer, under the root where it is listed. -/
structure Node.IsCut (cut : List Text) (n m : Node α) : Prop where
  link : m.link = if n.id ∈ cut then { n.link with parent := root } else n.link
  z : m.z = n.z
  plain : n.unchecked = [] → m.unchecked = []

/-- A cut node has its id. -/
theorem Node.IsCut.id {cut : List Text} {n m : Node α} (isCut : n.IsCut cut m) : m.id = n.id := by
  have same := congrArg Link.id isCut.link
  split at same <;> exact same

/-- A cut node is of its kind. -/
theorem Node.IsCut.kind {cut : List Text} {n m : Node α} (isCut : n.IsCut cut m) :
    m.kind = n.kind := by
  have same := congrArg Link.kind isCut.link
  split at same <;> exact same

/-- A cut node is under the root, and any other one under its parent. -/
theorem Node.IsCut.parent {cut : List Text} {n m : Node α} (isCut : n.IsCut cut m) :
    m.parent = if n.id ∈ cut then root else n.parent := by
  have same := congrArg Link.parent isCut.link
  rwa [apply_ite Link.parent] at same

namespace Store

/-- The second store is the first with the links of the listed nodes cut. -/
def IsCut (cut : List Text) (s t : Store α) : Prop := Pointwise (Node.IsCut cut) s t

variable {s t u : Store α} {cut more : List Text} {id other child ancestor : Text} {n : Node α}

namespace IsCut

/-- Nothing is cut of a store that stays. -/
theorem refl (s : Store α) : IsCut [] s s :=
  Pointwise.refl (fun _ => ⟨by simp, rfl, fun plain => plain⟩) s

/-- Two cuts in a row cut what either of them does. -/
theorem trans (first : IsCut cut s t) (second : IsCut more t u) : IsCut (cut ++ more) s u where
  width := second.width.trans first.width
  height := second.height.trans first.height
  nodes := by
    have both : ∀ {k m n : List (Node α)}, List.Forall₂ (Node.IsCut cut) k m →
        List.Forall₂ (Node.IsCut more) m n → List.Forall₂ (Node.IsCut (cut ++ more)) k n := by
      intro k m n left right
      induction left generalizing n with
      | nil => cases right with | nil => exact .nil
      | @cons a b _ _ step _ ih =>
          cases right with
          | @cons _ c _ _ step' rest =>
              refine .cons ⟨?_, step'.z.trans step.z, fun plain => step'.plain (step.plain plain)⟩ (ih rest)
              rw [step'.link, step.id, step.link]
              by_cases inFirst : a.id ∈ cut <;> by_cases inSecond : a.id ∈ more <;>
                simp [inFirst, inSecond]
    exact both first.nodes second.nodes

/-- A change of places and sides alone cuts nothing. -/
theorem of_reshaped (reshaped : Reshaped s t) : IsCut [] s t :=
  reshaped.mono fun _ _ step => ⟨by simp [step.link], step.z, step.plain⟩

/-- The ids stay through a cut. -/
theorem ids (isCut : IsCut cut s t) : t.ids = s.ids := Pointwise.ids (fun _ _ step => step.id) isCut

/-- A cut leaves nodes plain. -/
theorem isPlain (isCut : IsCut cut s t) (plain : s.IsPlain) : t.IsPlain :=
  plain.pointwise isCut fun _ _ step => step.plain

/-- The links of a cut store are the old ones, those that were cut leading to the root. -/
theorem links (isCut : IsCut cut s t) :
    t.links = s.links.map fun l => if l.id ∈ cut then { l with parent := root } else l := by
  rw [Store.links, Store.links, List.map_map]
  exact isCut.map_eq fun _ _ step => step.link

/-- The parent of a cut node is the root, and any other parent stays. -/
theorem parent? (isCut : IsCut cut s t) : t.parent? id =
    if id ∈ cut then (s.parent? id).map fun _ => root else s.parent? id := by
  have parents : t.parent? id = (s.find? id).map fun n => if n.id ∈ cut then root else n.parent :=
    Pointwise.map_find? (fun _ _ step => step.id) (fun _ _ step => step.parent) isCut id
  rw [parents, Store.parent?]
  cases found : s.find? id with
  | none => simp
  | some n =>
      rw [Option.map_some, Option.map_some, id_of_find? found]
      split <;> rfl

/-- What is not cut has its parent. -/
theorem parent?_of_notMem (isCut : IsCut cut s t) (kept : id ∉ cut) : t.parent? id = s.parent? id := by
  rw [isCut.parent?, if_neg kept]

/-- What is cut and is a node is under the root. -/
theorem parent?_of_mem (isCut : IsCut cut s t) (listed : id ∈ cut) (isNode : id ∈ s.ids) :
    t.parent? id = some root := by
  obtain ⟨n, found⟩ := exists_find? isNode
  rw [isCut.parent?, if_pos listed, Store.parent?, found]
  rfl

/-- Above a node that is cut there is only the root. -/
theorem eq_root_of_leadsUp (isCut : IsCut cut s t) (unreserved : root ∉ s.ids) (listed : id ∈ cut)
    (leads : t.LeadsUp id ancestor) : ancestor = root := by
  have isNode : id ∈ s.ids := isCut.ids ▸ leads.mem_ids
  rcases (leadsUp_of_parent? (isCut.parent?_of_mem listed isNode)).mp leads with isRoot | leads
  · exact isRoot.symm
  · exact absurd (isCut.ids ▸ leads.mem_ids) unreserved

/-- A chain that is left after a cut was there before, unless it ends at the root. -/
theorem leadsUp_before (isCut : IsCut cut s t) (unreserved : root ∉ s.ids)
    (notRoot : ancestor ≠ root) (leads : t.LeadsUp child ancestor) : s.LeadsUp child ancestor := by
  induction leads using Relation.TransGen.head_induction_on with
  | @single child link =>
      refine .single ?_
      by_cases listed : child ∈ cut
      · exact absurd (isCut.eq_root_of_leadsUp unreserved listed (.single link)) notRoot
      · rwa [isCut.parent?_of_notMem listed] at link
  | @head child parent link rest ih =>
      refine .head ?_ ih
      by_cases listed : child ∈ cut
      · exact absurd (isCut.eq_root_of_leadsUp unreserved listed (.head link rest)) notRoot
      · rwa [isCut.parent?_of_notMem listed] at link

/-- A chain on which nothing is cut stays. -/
theorem leadsUp_after (isCut : IsCut cut s t) (leads : s.LeadsUp child ancestor)
    (kept : ∀ id, (id = child ∨ s.LeadsUp child id) → s.LeadsUp id ancestor → id ∉ cut) :
    t.LeadsUp child ancestor := by
  induction leads using Relation.TransGen.head_induction_on with
  | single link =>
      refine .single ?_
      rwa [isCut.parent?_of_notMem (kept _ (.inl rfl) (.single link))]
  | @head child parent link rest ih =>
      refine .head ?_ (ih fun id below leads => kept id (.inr ?_) leads)
      · rwa [isCut.parent?_of_notMem (kept _ (.inl rfl) (.head link rest))]
      · rcases below with rfl | leads
        · exact .single link
        · exact .head link leads

/-- What is grounded stays so through a cut. -/
theorem grounded (isCut : IsCut cut s t) (grounded : s.Grounded id) : t.Grounded id := by
  induction grounded with
  | atRoot => exact .atRoot
  | @step child parent link _ ih =>
      by_cases listed : child ∈ cut
      · exact .step (isCut.parent?_of_mem listed (mem_ids_of_parent? link)) .atRoot
      · exact .step (by rwa [isCut.parent?_of_notMem listed]) ih

end IsCut

/-- On a circle, what is above is also below. -/
theorem LeadsUp.back (circle : s.LeadsUp id id) (leads : s.LeadsUp id other) : s.LeadsUp other id := by
  induction leads with
  | single link => exact ((leadsUp_of_parent? link).mp circle).elim (fun same => same ▸ circle) fun up => up
  | tail _ link ih =>
      rcases (leadsUp_of_parent? link).mp ih with same | up
      · exact same ▸ circle
      · exact up

/-- The node is the first, in store order, of the nodes on its circle. -/
def HeadsCircle (s : Store α) (id : Text) : Prop :=
  s.LeadsUp id id ∧ ∀ other, s.LeadsUp id other → s.ids.idxOf id ≤ s.ids.idxOf other

/-- Every circle has a first node. -/
theorem exists_headsCircle (circle : s.LeadsUp id id) :
    ∃ head, s.LeadsUp id head ∧ s.LeadsUp head id ∧ s.HeadsCircle head := by
  obtain ⟨head, above, least⟩ := WellFounded.has_min
    (InvImage.wf (fun other => s.ids.idxOf other) Nat.lt_wfRel.wf) {other | s.LeadsUp id other}
    ⟨id, circle⟩
  have below := circle.back above
  refine ⟨head, above, below, below.trans above, fun other leads => ?_⟩
  exact not_lt.mp (least other (above.trans leads))

/-- A circle has only one first node. -/
theorem HeadsCircle.unique (first : s.HeadsCircle id) (second : s.HeadsCircle other)
    (leads : s.LeadsUp id other) : id = other := by
  have back := first.1.back leads
  exact (List.idxOf_inj first.1.mem_ids).mp (le_antisymm (first.2 other leads) (second.2 id back))

/-- A circle that is left after a cut holds no node that was cut. -/
theorem IsCut.notMem_of_circle (isCut : IsCut cut s t) (unreserved : root ∉ s.ids)
    (circle : t.LeadsUp id id) (leads : s.LeadsUp id other) :
    t.LeadsUp id other ∧ other ∉ cut := by
  have kept : ∀ {other}, t.LeadsUp id other → other ∉ cut := by
    intro other above listed
    have isRoot := isCut.eq_root_of_leadsUp unreserved listed (circle.back above)
    exact unreserved (isRoot ▸ isCut.ids ▸ circle.mem_ids)
  suffices above : t.LeadsUp id other from ⟨above, kept above⟩
  induction leads with
  | single link => exact .single (by rwa [isCut.parent?_of_notMem (kept circle)])
  | tail _ link ih => exact ih.tail (by rwa [isCut.parent?_of_notMem (kept ih)])

/-- Where the first node of every circle is cut, no circle is left. -/
theorem IsCut.acyclic (isCut : IsCut cut s t) (unreserved : root ∉ s.ids)
    (heads : ∀ id, s.HeadsCircle id → id ∈ cut) : ¬t.LeadsUp id id := by
  intro circle
  have notRoot : id ≠ root := fun isRoot => unreserved (isRoot ▸ isCut.ids ▸ circle.mem_ids)
  obtain ⟨head, above, -, isHead⟩ := exists_headsCircle (isCut.leadsUp_before unreserved notRoot circle)
  exact (isCut.notMem_of_circle unreserved circle above).2 (heads head isHead)

end Store

end LayoutDesigner
