import LayoutDesigner.Proofs.Cut

/-!
# What a repair does to the links

A repair goes through the nodes three times and puts some under the root: those whose parent is no
node, the first node of each circle, and those whose parent is then no container. Each pass changes
links that the pass itself looks at, so the passes are described by what the nodes before the present
one have become. What comes out is a forest of containers with dense layers.
-/

namespace LayoutDesigner.Store

variable {α : Type} {s t u : Store α} {id : Text} {n : Node α} {cut ids : List Text}

/-- The picked ids are the listed ones with a property, in the order of the list. -/
structure Picks (property : Text → Prop) (ids picked : List Text) : Prop where
  inOrder : picked.Sublist ids
  exact : ∀ id, id ∈ picked ↔ id ∈ ids ∧ property id

namespace Picks

variable {property other : Text → Prop} {picked : List Text}

/-- Of nothing nothing is picked. -/
theorem nil : Picks property [] [] := ⟨.slnil, by simp⟩

/-- What is picked for a property is picked for another one that agrees on the list. -/
theorem congr (picks : Picks property ids picked) (alike : ∀ id ∈ ids, property id ↔ other id) :
    Picks other ids picked :=
  ⟨picks.inOrder, fun id => (picks.exact id).trans (and_congr_right (alike id))⟩

/-- Picks of two lists are picks of both together. -/
theorem append {ids' picked' : List Text} (picks : Picks property ids picked)
    (picks' : Picks property ids' picked') : Picks property (ids ++ ids') (picked ++ picked') where
  inOrder := picks.inOrder.append picks'.inOrder
  exact id := by rw [List.mem_append, List.mem_append, picks.exact, picks'.exact, or_and_right]

/-- The only id is picked where it has the property. -/
theorem single (holds : property id) : Picks property [id] [id] :=
  ⟨.refl _, fun other => by simp only [List.mem_singleton]; exact ⟨fun same => ⟨same, same ▸ holds⟩, And.left⟩⟩

/-- Nothing is picked where the only id lacks the property. -/
theorem none (fails : ¬property id) : Picks property [id] [] :=
  ⟨List.nil_sublist _, fun other => by
    simp only [List.not_mem_nil, List.mem_singleton, false_iff, not_and]
    rintro rfl
    exact fails⟩

/-- Of distinct ids each is picked once. -/
theorem nodup (picks : Picks property ids picked) (distinct : ids.Nodup) : picked.Nodup :=
  distinct.sublist picks.inOrder

end Picks

/-- The node names a parent that is neither the root nor a node. -/
def Dangles (s : Store α) (id : Text) : Prop :=
  ∃ parent, s.parent? id = some parent ∧ parent ≠ root ∧ parent ∉ s.ids

/-- The parent of the node is a node that is no container. -/
def SitsOnLeaf (s : Store α) (id : Text) : Prop :=
  ∃ p ∈ s.nodes, s.parent? id = some p.id ∧ ¬p.kind.isContainer

/-- Only nodes dangle. -/
theorem Dangles.mem_ids (dangles : s.Dangles id) : id ∈ s.ids := dangles.elim fun _ holds => mem_ids_of_parent? holds.1

/-- Only nodes sit on leaves. -/
theorem SitsOnLeaf.mem_ids (sits : s.SitsOnLeaf id) : id ∈ s.ids := sits.elim fun _ holds => mem_ids_of_parent? holds.2.1

/-- The parent of the node is no container, and opening the circles does not take the node away from
it. -/
def Misplaced (s : Store α) (id : Text) : Prop := s.SitsOnLeaf id ∧ ¬s.HeadsCircle id

/-- A change that puts one node under the root cuts its link. -/
theorem isCut_modifyNode {f : Node α → Node α} (moved : ∀ n, (f n).link = { n.link with parent := root })
    (sameZ : ∀ n, (f n).z = n.z) (plain : ∀ n, n.unchecked = [] → (f n).unchecked = []) :
    IsCut [id] s (s.modifyNode id f) := by
  rw [modifyNode_eq_mapNodes]
  refine Pointwise.mapNodes (fun n => ?_) s
  by_cases here : n.id = id
  · rw [if_pos here]
    exact ⟨by simp [here, moved], sameZ n, plain n⟩
  · rw [if_neg here]
    exact ⟨by simp [here], rfl, fun plain => plain⟩

/-- Cutting a link cuts this one. -/
theorem isCut_cutLink : IsCut [id] s (s.cutLink id) :=
  isCut_modifyNode (fun _ => rfl) (fun _ => rfl) fun _ plain => by
    simp [Node.setParent, Node.checked, Unchecked.without, plain]

/-- Cutting where something is broken cuts what it names. -/
theorem isCut_cutWhere {broken : Store α → Node α → Bool} (ids : List Text) (s : Store α) :
    IsCut (cutWhere broken ids s).1 s (cutWhere broken ids s).2 := by
  induction ids generalizing s with
  | nil => exact .refl s
  | cons id rest ih =>
      rw [cutWhere]
      split
      · exact ih s
      · split
        · exact isCut_cutLink.trans (ih (s.cutLink id))
        · exact ih s

/-- A pass that cuts the nodes with a property, where its test is right for every node when the nodes
before that one have been dealt with. -/
theorem cutWhere_picks {broken : Store α → Node α → Bool} {property : Text → Prop}
    (right : ∀ {before after cut id t n}, s.ids = before ++ id :: after →
      Picks property before cut → IsCut cut s t → t.find? id = some n →
      ((n.parent ≠ root ∧ broken t n) ↔ property id)) :
    Picks property s.ids (cutWhere broken s.ids s).1 ∧
      IsCut (cutWhere broken s.ids s).1 s (cutWhere broken s.ids s).2 := by
  have pass : ∀ (after before cut : List Text) (t : Store α), s.ids = before ++ after →
      Picks property before cut → IsCut cut s t →
      Picks property after (cutWhere broken after t).1 ∧
        IsCut (cut ++ (cutWhere broken after t).1) s (cutWhere broken after t).2 := by
    intro after
    induction after with
    | nil =>
        intro before cut t _ _ isCut
        simpa [cutWhere] using And.intro Picks.nil isCut
    | cons id rest ih =>
        intro before cut t split soFar isCut
        have isNode : id ∈ t.ids := by simp [isCut.ids, split]
        obtain ⟨n, found⟩ := exists_find? isNode
        have test := right split soFar isCut found
        have splitRest : s.ids = (before ++ [id]) ++ rest := by simp [split]
        rw [cutWhere]
        simp only [found]
        by_cases holds : property id
        · obtain ⟨picks, isCut'⟩ := ih _ _ (t.cutLink id) splitRest (soFar.append (.single holds))
            (isCut.trans isCut_cutLink)
          rw [if_pos (test.mpr holds)]
          exact ⟨(Picks.single holds).append picks, by simpa using isCut'⟩
        · obtain ⟨picks, isCut'⟩ := ih _ _ t splitRest (by simpa using soFar.append (.none holds)) isCut
          rw [if_neg (mt test.mp holds)]
          exact ⟨(Picks.none holds).append picks, isCut'⟩
  obtain ⟨picks, isCut⟩ := pass s.ids [] [] s rfl Picks.nil (IsCut.refl s)
  exact ⟨picks, by simpa using isCut⟩

/-- A node that a pass comes to has not been cut in it. -/
theorem notMem_of_split {before after : List Text} {property : Text → Prop} (distinct : ids.Nodup)
    (split : ids = before ++ id :: after) (soFar : Picks property before cut) : id ∉ cut := by
  intro listed
  rw [split, List.nodup_append] at distinct
  exact distinct.2.2 id (soFar.inOrder.subset listed) id List.mem_cons_self rfl

/-- The first pass cuts exactly the nodes that dangle. -/
theorem cutDangling_picks (distinct : s.ids.Nodup) :
    Picks s.Dangles s.ids s.cutDangling.1 ∧ IsCut s.cutDangling.1 s s.cutDangling.2 := by
  refine cutWhere_picks fun {before after cut id t n} split soFar isCut found => ?_
  have link := parent?_of_find? found
  rw [isCut.parent?_of_notMem (notMem_of_split distinct split soFar)] at link
  have isKnown : t.contains n.parent ↔ n.parent ∈ s.ids := by rw [contains_iff, isCut.ids]
  simp [Dangles, link, ← isKnown]

/-- Where every link leads to a node or to the root, the second pass cuts the first node of each
circle. -/
theorem cutCycles_picks (distinct : s.ids.Nodup) (unreserved : root ∉ s.ids) :
    Picks s.HeadsCircle s.ids s.cutCycles.1 ∧ IsCut s.cutCycles.1 s s.cutCycles.2 := by
  refine cutWhere_picks fun {before after cut id t n} split soFar isCut found => ?_
  have fresh := notMem_of_split distinct split soFar
  have sameId := id_of_find? found
  have unreserved' : root ∉ t.ids := isCut.ids ▸ unreserved
  have test : t.onCycle n ↔ t.LeadsUp id id := by
    rw [← sameId] at found ⊢
    exact onCycle_iff unreserved' found
  have notRoot : t.LeadsUp id id → n.parent ≠ root := by
    intro circle atRoot
    rcases (leadsUp_of_parent? (parent?_of_find? found)).mp circle with same | leads
    · exact unreserved' (atRoot ▸ same ▸ circle.mem_ids)
    · exact unreserved' (atRoot ▸ leads.mem_ids)
  have idNotRoot : id ≠ root := by
    rintro rfl
    exact unreserved' (mem_ids_of_find? found)
  rw [test, and_iff_right_of_imp notRoot]
  constructor
  · intro circle
    refine ⟨isCut.leadsUp_before unreserved idNotRoot circle, fun other leads => ?_⟩
    -- An earlier node on the circle would have the first one, which is cut, before it.
    by_contra later
    obtain ⟨head, above, below, isHead⟩ :=
      exists_headsCircle (isCut.leadsUp_before unreserved idNotRoot circle)
    have headFirst := isHead.2 other (below.trans leads)
    have position : s.ids.idxOf id = before.length := by
      have notBefore : id ∉ before := by
        rw [split, List.nodup_append] at distinct
        exact fun isBefore => distinct.2.2 id isBefore id List.mem_cons_self rfl
      rw [split, List.idxOf_append_of_notMem notBefore, List.idxOf_cons_self, Nat.add_zero]
    have isBefore : head ∈ before := by
      by_contra notBefore
      rw [split, List.idxOf_append_of_notMem notBefore, ← split] at headFirst
      omega
    exact (isCut.notMem_of_circle unreserved circle above).2 ((soFar.exact head).mpr ⟨isBefore, isHead⟩)
  · intro isHead
    refine isCut.leadsUp_after isHead.1 fun other below above listed => ?_
    have otherHead := ((soFar.exact other).mp listed).2
    have leads : s.LeadsUp id other := by
      rcases below with rfl | leads
      · exact isHead.1
      · exact leads
    exact fresh (isHead.unique otherHead leads ▸ listed)

/-- A pass that finds nothing to cut. -/
theorem cutWhere_eq_self {broken : Store α → Node α → Bool}
    (right : ∀ n ∈ s.nodes, n.parent ≠ root → broken s n = false) : cutWhere broken ids s = ([], s) := by
  induction ids with
  | nil => rfl
  | cons id rest ih =>
      rw [cutWhere]
      split
      · exact ih
      · next n found =>
          split
          · next cut => simp [right n (mem_of_find? found) cut.1] at cut
          · exact ih

/-- In a rooted store nothing dangles. -/
theorem cutDangling_eq_self (rooted : s.IsRooted) : s.cutDangling = ([], s) := by
  refine cutWhere_eq_self fun n isNode notRoot => ?_
  rw [Bool.not_eq_false', contains_iff]
  exact (rooted.parent_known isNode).resolve_left notRoot

/-- In a rooted store there is no circle to cut. -/
theorem cutCycles_eq_self (rooted : s.IsRooted) : s.cutCycles = ([], s) := by
  refine cutWhere_eq_self fun n isNode _ => ?_
  rw [← Bool.not_eq_true, onCycle_iff rooted.unreserved (find?_of_mem rooted.distinct isNode)]
  exact rooted.not_leadsUp_self

/-- Links that were cut because they led nowhere were on no circle. -/
theorem headsCircle_iff (isCut : IsCut cut s t) (unreserved : root ∉ s.ids)
    (dangling : ∀ id ∈ cut, s.Dangles id) (isNode : id ∈ s.ids) :
    t.HeadsCircle id ↔ s.HeadsCircle id := by
  have notRoot : ∀ {other}, other ∈ s.ids → other ≠ root := by
    rintro other member rfl
    exact unreserved member
  have onCircle : ∀ {other}, s.LeadsUp id id → s.LeadsUp id other → t.LeadsUp id other := by
    intro other circle leads
    refine isCut.leadsUp_after leads fun middle below above listed => ?_
    obtain ⟨parent, link, -, missing⟩ := dangling middle listed
    have back : s.LeadsUp middle id := by
      rcases below with rfl | leads
      · exact circle
      · exact circle.back leads
    rcases (leadsUp_of_parent? link).mp back with same | leads
    · exact missing (same ▸ isNode)
    · exact missing leads.mem_ids
  constructor
  · intro isHead
    have circle := isCut.leadsUp_before unreserved (notRoot isNode) isHead.1
    refine ⟨circle, fun other leads => ?_⟩
    rw [← isCut.ids]
    exact isHead.2 other (onCircle circle leads)
  · intro isHead
    refine ⟨onCircle isHead.1 isHead.1, fun other leads => ?_⟩
    have isOther : other ∈ s.ids := isCut.ids ▸ ((onCircle isHead.1 isHead.1).back leads).mem_ids
    rw [isCut.ids]
    exact isHead.2 other (isCut.leadsUp_before unreserved (notRoot isOther) leads)

/-- Of the nodes on leaves, those are left that were not cut. -/
theorem sitsOnLeaf_iff (isCut : IsCut cut s t) (unreserved : root ∉ s.ids) :
    t.SitsOnLeaf id ↔ s.SitsOnLeaf id ∧ id ∉ cut := by
  constructor
  · rintro ⟨q, isNode, link, isLeaf⟩
    have kept : id ∉ cut := by
      intro listed
      have isRoot := isCut.eq_root_of_leadsUp unreserved listed (.single link)
      exact unreserved (isRoot ▸ isCut.ids ▸ id_mem_ids isNode)
    obtain ⟨p, inStore, step⟩ := isCut.exists_left isNode
    rw [isCut.parent?_of_notMem kept, step.id] at link
    exact ⟨⟨p, inStore, link, step.kind ▸ isLeaf⟩, kept⟩
  · rintro ⟨⟨p, isNode, link, isLeaf⟩, kept⟩
    obtain ⟨q, inOther, step⟩ := isCut.exists_right isNode
    refine ⟨q, inOther, ?_, step.kind.symm ▸ isLeaf⟩
    rw [isCut.parent?_of_notMem kept, link, step.id]

/-- Links cut so that none dangles and no circle is left come to the root. -/
theorem IsCut.grounded_of_mem (unreserved : root ∉ s.ids) (isCut : IsCut cut s t)
    (dangling : ∀ id, s.Dangles id → id ∈ cut) (heads : ∀ id, s.HeadsCircle id → id ∈ cut)
    (isNode : id ∈ t.ids) : t.Grounded id := by
  refine grounded_of_acyclic ?_ (fun id _ => isCut.acyclic unreserved heads) isNode
  intro child parent link
  by_cases listed : child ∈ cut
  · rw [isCut.parent?_of_mem listed (isCut.ids ▸ mem_ids_of_parent? link), Option.some_inj] at link
    exact .inl link.symm
  · rw [isCut.parent?_of_notMem listed] at link
    by_contra others
    rw [not_or, isCut.ids] at others
    exact listed (dangling child ⟨parent, link, others⟩)

/-- Links cut so that none dangles, no circle is left and no leaf has children make a forest. -/
theorem IsCut.isForest (distinct : s.ids.Nodup) (unreserved : root ∉ s.ids) (isCut : IsCut cut s t)
    (dangling : ∀ id, s.Dangles id → id ∈ cut) (heads : ∀ id, s.HeadsCircle id → id ∈ cut)
    (leaves : ∀ id, s.SitsOnLeaf id → id ∈ cut) : IsForest t := by
  have linked : ∀ n ∈ s.nodes, n.id ∉ cut →
      n.parent = root ∨ ∃ p ∈ s.nodes, p.id = n.parent ∧ p.kind.isContainer := by
    intro n isNode kept
    have link := Store.parent?_of_mem distinct isNode
    by_contra others
    rw [not_or] at others
    by_cases isKnown : n.parent ∈ s.ids
    · obtain ⟨p, pIsNode, isParent⟩ := mem_ids.mp isKnown
      refine kept (leaves n.id ⟨p, pIsNode, by rw [link, isParent], fun isContainer => ?_⟩)
      exact others.2 ⟨p, pIsNode, isParent, isContainer⟩
    · exact kept (dangling n.id ⟨n.parent, link, others.1, isKnown⟩)
  refine ⟨isCut.ids ▸ distinct, isCut.ids ▸ unreserved, fun m isNode => ?_, fun n isNode =>
    isCut.grounded_of_mem unreserved dangling heads (id_mem_ids isNode)⟩
  obtain ⟨n, inStore, step⟩ := isCut.exists_left isNode
  rw [step.parent]
  by_cases listed : n.id ∈ cut
  · exact .inl (if_pos listed)
  · rw [if_neg listed]
    refine (linked n inStore listed).imp_right ?_
    rintro ⟨p, pIsNode, isParent, isContainer⟩
    obtain ⟨q, inOther, step'⟩ := isCut.exists_right pIsNode
    exact ⟨q, inOther, step'.id.trans isParent, step'.kind.symm ▸ isContainer⟩

/-- What numbering the children of several parents leaves and makes. -/
structure Renumbered (s t : Store α) : Prop where
  links : t.links = s.links
  plain : t.IsPlain
  order : SameOrder s t

/-- What the three passes leave: the links that had to be cut are cut, and a forest is left. -/
structure Rehomed (s : Store α) (rehomed : List Text) (t : Store α) : Prop where
  cut : IsCut rehomed s t
  forest : IsForest t
  phases : ∃ dangling heads misplaced, rehomed = dangling ++ heads ++ misplaced ∧
    Picks s.Dangles s.ids dangling ∧ Picks s.HeadsCircle s.ids heads ∧
    Picks s.Misplaced s.ids misplaced

/-- The first two passes, each exact for the store that it finds, are exact for the store at the start. -/
theorem passes_picks (distinct : s.ids.Nodup) (unreserved : root ∉ s.ids) :
    Picks s.Dangles s.ids s.cutDangling.1 ∧ Picks s.HeadsCircle s.ids s.cutDangling.2.cutCycles.1 ∧
      IsCut (s.cutDangling.1 ++ s.cutDangling.2.cutCycles.1) s s.cutDangling.2.cutCycles.2 := by
  obtain ⟨dangling, firstCut⟩ := cutDangling_picks distinct
  obtain ⟨heads, secondCut⟩ := cutCycles_picks (s := s.cutDangling.2) (firstCut.ids ▸ distinct)
    (firstCut.ids ▸ unreserved)
  rw [firstCut.ids] at heads
  refine ⟨dangling, heads.congr fun id isNode => ?_, firstCut.trans secondCut⟩
  exact headsCircle_iff firstCut unreserved (fun id listed => ((dangling.exact id).mp listed).2) isNode

/-- Three passes, each exact for the store that it finds, are exact for the store at the start. -/
theorem rehomed_of_passes {lifted : List Text} (distinct : s.ids.Nodup) (unreserved : root ∉ s.ids)
    (picks : Picks s.cutDangling.2.cutCycles.2.SitsOnLeaf s.cutDangling.2.cutCycles.2.ids lifted)
    (isCut : IsCut lifted s.cutDangling.2.cutCycles.2 t) :
    Rehomed s (s.cutDangling.1 ++ s.cutDangling.2.cutCycles.1 ++ lifted) t := by
  obtain ⟨dangling, heads, twoCuts⟩ := passes_picks distinct unreserved
  have misplaced : Picks s.Misplaced s.ids lifted := by
    rw [twoCuts.ids] at picks
    refine picks.congr fun id isNode => ?_
    rw [sitsOnLeaf_iff twoCuts unreserved, Misplaced, List.mem_append, not_or]
    refine and_congr_right fun sits => ⟨fun others isHead => others.2 ?_, fun notHead => ⟨?_, ?_⟩⟩
    · exact (heads.exact id).mpr ⟨isNode, isHead⟩
    · intro listed
      obtain ⟨parent, link, -, missing⟩ := ((dangling.exact id).mp listed).2
      obtain ⟨p, pIsNode, isParent, -⟩ := sits
      rw [link, Option.some_inj] at isParent
      exact missing (isParent ▸ id_mem_ids pIsNode)
    · exact fun listed => notHead ((heads.exact id).mp listed).2
  have allCuts := twoCuts.trans isCut
  have isCutOf : ∀ id, id ∈ s.ids → s.Dangles id ∨ s.HeadsCircle id ∨ s.SitsOnLeaf id →
      id ∈ s.cutDangling.1 ++ s.cutDangling.2.cutCycles.1 ++ lifted := by
    intro id isNode broken
    rw [List.mem_append, List.mem_append, dangling.exact, heads.exact, misplaced.exact, Misplaced]
    tauto
  refine ⟨allCuts, ?_, _, _, _, rfl, dangling, heads, misplaced⟩
  exact allCuts.isForest distinct unreserved (fun id dangles => isCutOf id dangles.mem_ids (.inl dangles))
    (fun id isHead => isCutOf id isHead.1.mem_ids (.inr (.inl isHead)))
    fun id sits => isCutOf id sits.mem_ids (.inr (.inr sits))

/-- What a repair makes of a store, and the nodes that it answers with. -/
structure Repaired (s : Store α) (rehomed : List Text) (t : Store α) : Prop where
  forest : t.IsForest
  plain : t.IsPlain
  layered : ∀ parent, t.Layered parent
  phases : ∃ dangling heads misplaced, rehomed = dangling ++ heads ++ misplaced ∧
    Picks s.Dangles s.ids dangling ∧ Picks s.HeadsCircle s.ids heads ∧
    Picks s.Misplaced s.ids misplaced
  once : rehomed.Nodup
  links : t.links = s.links.map fun l => if l.id ∈ rehomed then { l with parent := root } else l
  order : ∀ n ∈ s.nodes, ∀ m ∈ s.nodes, n.parent = m.parent → n.id ∉ rehomed → m.id ∉ rehomed →
    ∀ n' ∈ t.nodes, ∀ m' ∈ t.nodes, n'.id = n.id → m'.id = m.id →
      (n.drawnBefore m ↔ n'.drawnBefore m')

/-- A repair keeps every node, and none gets another id. -/
theorem ids_repaired {rehomed : List Text} (repaired : Repaired s rehomed t) : t.ids = s.ids := by
  rw [ids_eq_links, ids_eq_links, repaired.links, List.map_map]
  refine List.map_congr_left fun l _ => ?_
  rw [Function.comp_apply]
  split <;> rfl

/-- The three kinds of node that a repair puts under the root exclude each other. -/
theorem nodup_phases {dangling heads misplaced : List Text} (distinct : s.ids.Nodup)
    (first : Picks s.Dangles s.ids dangling) (second : Picks s.HeadsCircle s.ids heads)
    (third : Picks s.Misplaced s.ids misplaced) : (dangling ++ heads ++ misplaced).Nodup := by
  have dangles : ∀ {id parent}, s.Dangles id → s.parent? id = some parent → parent ∉ s.ids := by
    rintro id parent ⟨other, link, -, missing⟩ link'
    rw [link, Option.some_inj] at link'
    exact link' ▸ missing
  rw [List.nodup_append, List.nodup_append]
  refine ⟨⟨first.nodup distinct, second.nodup distinct, ?_⟩, third.nodup distinct, ?_⟩
  · rintro id inFirst _ inSecond rfl
    obtain ⟨parent, link, leads⟩ := leadsUp_iff.mp ((second.exact id).mp inSecond).2.1
    refine dangles ((first.exact id).mp inFirst).2 link ?_
    rcases leads with rfl | leads
    · exact mem_ids_of_parent? link
    · exact leads.mem_ids
  · rintro id inOthers _ inThird rfl
    obtain ⟨⟨p, isNode, link, -⟩, notHead⟩ := ((third.exact id).mp inThird).2
    rcases List.mem_append.mp inOthers with inFirst | inSecond
    · exact dangles ((first.exact id).mp inFirst).2 link (id_mem_ids isNode)
    · exact notHead ((second.exact id).mp inSecond).2

/-- Two siblings that a repair leaves where they are stay in their order. -/
theorem drawnBefore_iff_of_renumbered {rehomed : List Text} (distinct : s.ids.Nodup)
    (isCut : IsCut rehomed s t) (renumbered : Renumbered t u) {n m n' m' : Node α}
    (left : n ∈ s.nodes) (right : m ∈ s.nodes) (siblings : n.parent = m.parent)
    (leftStays : n.id ∉ rehomed) (rightStays : m.id ∉ rehomed) (left' : n' ∈ u.nodes)
    (right' : m' ∈ u.nodes) (sameLeft : n'.id = n.id) (sameRight : m'.id = m.id) :
    n.drawnBefore m ↔ n'.drawnBefore m' := by
  have forward : ∀ {n m n' m' : Node α}, n ∈ s.nodes → m ∈ s.nodes → n.parent = m.parent →
      n.id ∉ rehomed → m.id ∉ rehomed → n' ∈ u.nodes → m' ∈ u.nodes → n'.id = n.id →
      m'.id = m.id → n.drawnBefore m → n'.drawnBefore m' := by
    intro n m n' m' left right siblings leftStays rightStays left' right' sameLeft sameRight first
    obtain ⟨k, inLeft, leftStep⟩ := isCut.exists_right left
    obtain ⟨l, inRight, rightStep⟩ := isCut.exists_right right
    refine renumbered.order k inLeft l inRight ?_ ?_ n' left' m' right'
      (sameLeft.trans leftStep.id.symm) (sameRight.trans rightStep.id.symm)
    · rw [leftStep.parent, rightStep.parent, if_neg leftStays, if_neg rightStays, siblings]
    · rw [Node.drawnBefore_iff] at first ⊢
      rwa [leftStep.z, rightStep.z, leftStep.id, rightStep.id]
  constructor
  · exact forward left right siblings leftStays rightStays left' right' sameLeft sameRight
  · intro first
    by_contra later
    have total := Node.drawnBefore_total m n
    rw [Bool.or_eq_true] at total
    have before := total.resolve_right later
    have back := forward right left siblings.symm rightStays leftStays right' left' sameRight
      sameLeft before
    have sameId : n.id = m.id := by
      rw [← sameLeft, ← sameRight]
      exact Node.drawnBefore_antisymm first back
    rw [eq_of_id_eq distinct left right sameId] at later before
    exact later before

/-- The parent of a node whose link is not cut yet is of the kind that it was of before the cut. -/
theorem parentRefuses_iff {n : Node α} {id : Text} {cut : List Text} (distinct : s.ids.Nodup) (isCut : IsCut cut s t)
    (found : t.find? id = some n) (uncut : id ∉ cut) : t.parentRefuses n ↔ s.SitsOnLeaf id := by
  have link := parent?_of_find? found
  rw [isCut.parent?_of_notMem uncut] at link
  have sameKinds : (t.find? n.parent).map Node.kind = (s.find? n.parent).map Node.kind :=
    Pointwise.map_find? (fun _ _ step => step.id) (fun _ _ step => step.kind) isCut n.parent
  have refuses : t.parentRefuses n = (s.find? n.parent).any fun p => !p.kind.isContainer := by
    have byKind : ∀ p? : Option (Node α),
        p?.any (fun p => !p.kind.isContainer) = (p?.map Node.kind).any fun kind => !kind.isContainer := by
      intro p?
      cases p? <;> rfl
    rw [parentRefuses, byKind, sameKinds, byKind]
  rw [refuses, SitsOnLeaf, link, Option.any_eq_true]
  constructor
  · rintro ⟨p, isParent, isLeaf⟩
    exact ⟨p, mem_of_find? isParent, by rw [id_of_find? isParent], by simpa using isLeaf⟩
  · rintro ⟨p, isNode, isParent, isLeaf⟩
    refine ⟨p, ?_, by simpa using isLeaf⟩
    rw [Option.some_inj.mp isParent]
    exact find?_of_mem distinct isNode

variable [Arith α]

/-- The third pass cuts the nodes whose parent is no container. -/
theorem liftFromLeaves_picks (distinct : s.ids.Nodup) :
    (liftFromLeaves s.ids).Ends s
      (fun lifted t => Picks s.SitsOnLeaf s.ids lifted ∧ IsCut lifted s t) fun _ _ => True := by
  have pass : ∀ (after before cut : List Text) (t : Store α), s.ids = before ++ after →
      Picks s.SitsOnLeaf before cut → IsCut cut s t →
      (liftFromLeaves after).Ends t
        (fun lifted u => Picks s.SitsOnLeaf after lifted ∧ IsCut (cut ++ lifted) s u)
        fun _ _ => True := by
    intro after
    induction after with
    | nil =>
        intro before cut t _ _ isCut
        exact ⟨Picks.nil, by simpa using isCut⟩
    | cons id rest ih =>
        intro before cut t split soFar isCut
        have isNode : id ∈ t.ids := by simp [isCut.ids, split]
        obtain ⟨n, found⟩ := exists_find? isNode
        have splitRest : s.ids = (before ++ [id]) ++ rest := by simp [split]
        have test := parentRefuses_iff distinct isCut found (notMem_of_split distinct split soFar)
        unfold liftFromLeaves
        simp only [Edit.ends_bind, Edit.ends_get, found]
        by_cases holds : s.SitsOnLeaf id
        · rw [if_pos (test.mpr holds)]
          simp only [Edit.ends_bind, Edit.ends_lift, Edit.ends_modify, Edit.ends_pure]
          refine ⟨fun anchor _ => ?_, fun _ _ => trivial⟩
          have moved : IsCut [id] t (t.modifyNode id fun n => ((n.setX anchor.1).setY anchor.2).setParent root) :=
            isCut_modifyNode (fun _ => rfl) (fun _ => rfl) fun _ plain => by
              simp [Node.setParent, Node.setX, Node.setY, Node.checked, Unchecked.without, plain]
          refine (ih _ _ _ splitRest (soFar.append (.single holds)) (isCut.trans moved)).mono ?_
            fun _ _ _ => trivial
          rintro lifted u ⟨picks, isCut'⟩
          exact ⟨(Picks.single holds).append picks, by simpa using isCut'⟩
        · rw [if_neg (mt test.mp holds)]
          refine (ih _ _ _ splitRest (by simpa using soFar.append (.none holds)) isCut).mono ?_
            fun _ _ _ => trivial
          rintro lifted u ⟨picks, isCut'⟩
          exact ⟨(Picks.none holds).append picks, isCut'⟩
  refine (pass s.ids [] [] s rfl Picks.nil (IsCut.refl s)).mono ?_ fun _ _ _ => trivial
  rintro lifted u ⟨picks, isCut⟩
  exact ⟨picks, by simpa using isCut⟩

/-- Renumbering under parents one after the other layers all of them and what was layered before. -/
theorem renumbered_foldl (plain : s.IsPlain) (distinct : s.ids.Nodup) (parents : List Text) :
    Renumbered s (parents.foldl normalizeZ s) ∧
      ∀ parent, s.Layered parent ∨ parent ∈ parents → (parents.foldl normalizeZ s).Layered parent := by
  induction parents generalizing s with
  | nil => exact ⟨⟨rfl, plain, SameOrder.refl distinct⟩, by simp⟩
  | cons first rest ih =>
      have distinct' : (s.normalizeZ first).ids.Nodup := by
        rw [ids_congr links_normalizeZ]
        exact distinct
      obtain ⟨renumbered, layered⟩ := ih plain.normalizeZ distinct'
      rw [List.foldl_cons]
      refine ⟨⟨renumbered.links.trans links_normalizeZ, renumbered.plain,
        (sameOrder_normalizeZ plain distinct).trans links_normalizeZ renumbered.order⟩, ?_⟩
      rintro parent (already | listed)
      · exact layered parent (.inl (already.normalizeZ distinct))
      · rcases List.mem_cons.mp listed with rfl | later
        · exact layered parent (.inl (layered_normalizeZ distinct))
        · exact layered parent (.inr later)

/-- All siblings are renumbered from the root on in store order. -/
theorem normalizeAll_eq_foldl : s.normalizeAll = (root :: s.ids).foldl normalizeZ s := rfl

/-- In a forest, numbering everything anew makes every parent's layers dense. -/
theorem layered_normalizeAll (forest : IsForest s) (plain : s.IsPlain) (parent : Text) :
    s.normalizeAll.Layered parent := by
  rw [normalizeAll_eq_foldl]
  refine (renumbered_foldl plain forest.distinct _).2 parent ?_
  by_cases known : parent = root ∨ parent ∈ s.ids
  · exact .inr (List.mem_cons.mpr known)
  · rw [not_or] at known
    exact .inl (.of_no_children (forest.children_eq_nil known.1 known.2))

/-- A repair ends as clamping everything does that the three passes leave, once it is numbered. What
else the passes leave may be known. -/
theorem ends_repair_of {leastSide : Value α} {known : Store α → Prop} {done : List Text → Store α → Prop}
    {failed : Fault → Store α → Prop} (distinct : s.ids.Nodup) (unreserved : root ∉ s.ids)
    (lifts : (liftFromLeaves s.cutDangling.2.cutCycles.2.ids).Ends s.cutDangling.2.cutCycles.2
      (fun _ t => known t) failed)
    (clamps : ∀ rehomed t, Rehomed s rehomed t → known t →
      (clampSubtree root leastSide).Ends t (fun _ u => done rehomed u.normalizeAll) failed) :
    (repair leastSide).Ends s done failed := by
  have distinct₂ : s.cutDangling.2.cutCycles.2.ids.Nodup := by
    have firstCut := (cutDangling_picks distinct).2
    rw [(cutCycles_picks (firstCut.ids ▸ distinct) (firstCut.ids ▸ unreserved)).2.ids, firstCut.ids]
    exact distinct
  unfold repair
  simp only [Edit.ends_bind, Edit.ends_get, Edit.ends_set]
  refine (lifts.and (liftFromLeaves_picks distinct₂)).mono ?_ fun _ _ fails => fails.1
  rintro lifted t ⟨isKnown, picks, isCut⟩
  exact clamps _ t (rehomed_of_passes distinct unreserved picks isCut) isKnown

/-- What numbering the children of one parent keeps, numbering everything keeps. -/
theorem normalizeAll_induct (holds : Store α → Prop) (keeps : ∀ {u} parent, holds u → holds (u.normalizeZ parent))
    (start : holds s) : holds s.normalizeAll := by
  rw [normalizeAll_eq_foldl]
  generalize root :: s.ids = parents
  induction parents generalizing s with
  | nil => exact start
  | cons parent rest ih => exact ih (keeps parent start)

section

variable {P : Node α → Prop}

omit [Arith α] in
/-- What another parent keeps holds of all nodes after a cut. -/
theorem All.cutWhere {broken : Store α → Node α → Bool} (all : s.All P)
    (keeps : ∀ n, P n → P (n.setParent root)) (ids : List Text) : (cutWhere broken ids s).2.All P := by
  induction ids generalizing s with
  | nil => exact all
  | cons id rest ih =>
      rw [Store.cutWhere]
      split
      · exact ih all
      · split
        · exact ih (all.modifyNode id keeps)
        · exact ih all

/-- What lasts holds of all nodes after a lift from leaves. -/
theorem All.liftFromLeaves (all : s.All P) (lasting : Node.Lasting P) (ids : List Text) :
    (liftFromLeaves ids).Ends s (fun _ t => t.All P) fun _ _ => True := by
  induction ids generalizing s with
  | nil => exact all
  | cons id rest ih =>
      unfold Store.liftFromLeaves
      simp only [Edit.ends_bind, Edit.ends_get]
      split
      · exact ih all
      · split
        · simp only [Edit.ends_bind, Edit.ends_modify, Edit.ends_pure]
          refine Edit.ends_lift_any fun anchor _ => ih (all.modifyNode id fun n holds => ?_)
          have moved := lasting.reshaped (lasting.reshaped holds (.setX n anchor.1)) (.setY _ anchor.2)
          exact lasting.setParent root moved
        · exact ih all

/-- A repair keeps what lasts of all nodes. -/
theorem All.repair {leastSide : Value α} (all : s.All P) (lasting : Node.Lasting P) :
    (repair leastSide).Ends s (fun _ t => t.All P) fun _ _ => True := by
  have cut : s.cutDangling.2.cutCycles.2.All P :=
    (all.cutWhere (fun _ => lasting.setParent root) s.ids).cutWhere (fun _ => lasting.setParent root) _
  unfold Store.repair
  simp only [Edit.ends_bind, Edit.ends_get, Edit.ends_set]
  refine (cut.liftFromLeaves lasting _).mono ?_ fun _ _ _ => trivial
  intro _ t all
  refine (keeps_clampSubtree t).mono ?_ fun _ _ _ => trivial
  intro _ u reshaped
  exact normalizeAll_induct (·.All P) (fun _ all => all.numberBy fun _ z => lasting.setZ z)
    (all.pointwise reshaped fun _ _ step holds => lasting.reshaped holds step)

end

/-- Where a repair returns, it has made a forest with dense layers by cutting exactly the links that
had to be cut. -/
theorem repair_ends (plain : s.IsPlain) (distinct : s.ids.Nodup) (unreserved : root ∉ s.ids)
    (leastSide : Value α) :
    (repair leastSide).Ends s (fun rehomed t => Repaired s rehomed t) fun _ _ => True := by
  have lifts : (liftFromLeaves s.cutDangling.2.cutCycles.2.ids).Ends s.cutDangling.2.cutCycles.2
      (fun _ _ => True) fun _ _ => True := Edit.ends_any fun _ _ => trivial
  refine ends_repair_of distinct unreserved lifts fun rehomed t passes _ => ?_
  refine (keeps_clampSubtree t).mono ?_ fun _ _ _ => trivial
  intro _ u reshaped
  have forest : IsForest u := passes.forest.congr reshaped.links
  have cut : IsCut rehomed s u := by
    simpa using passes.cut.trans (IsCut.of_reshaped reshaped)
  have plain' : u.IsPlain := cut.isPlain plain
  have renumbered : Renumbered u u.normalizeAll := by
    rw [normalizeAll_eq_foldl]
    exact (renumbered_foldl plain' forest.distinct _).1
  exact {
    forest := forest.congr renumbered.links
    plain := renumbered.plain
    layered := layered_normalizeAll forest plain'
    phases := passes.phases
    once := by
      obtain ⟨_, _, _, same, dangling, heads, misplaced⟩ := passes.phases
      exact same ▸ nodup_phases distinct dangling heads misplaced
    links := renumbered.links.trans cut.links
    order := fun n left m right siblings leftStays rightStays n' left' m' right' sameLeft sameRight =>
      drawnBefore_iff_of_renumbered distinct cut renumbered left right siblings leftStays
        rightStays left' right' sameLeft sameRight }

end LayoutDesigner.Store
