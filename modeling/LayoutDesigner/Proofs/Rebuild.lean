import LayoutDesigner.Proofs.Naming
import LayoutDesigner.Proofs.Reading
import LayoutDesigner.Proofs.WritingOrder

/-!
# The script rebuilds the tree

The script of a forest has a reading: it makes the screen and then, block by block, one instance for
each node and for each of its extensions, every one under the instance that it belongs to. What a
node or an extension is called never matters, since every variable is new where it is introduced.
-/

namespace LayoutDesigner.Script

open Store

variable {α : Type}

/-- The part of a script that stands for one node. -/
structure Block (α : Type) where
  node : Node α
  /-- The variable of the node. -/
  name : Text
  /-- The variable under which the node is put. -/
  parent : Text
  /-- The extensions of the node with their variables. -/
  extensions : List (Extension α × Text)

/-- What the extensions of an owner make. -/
def ofExtensions [Arith α] (owner : Text) (extensions : List (Extension α × Text)) : Reading where
  introduced := extensions.map Prod.snd
  instances := extensions.map fun (e, v) => (v, e.shownKind.shown)
  parents := extensions.map fun (_, v) => (v, .reference owner)

namespace Block

/-- The variables of a block. -/
def names (b : Block α) : List Text := b.name :: b.extensions.map Prod.snd

/-- What a block makes: the node's instance, then its extensions, which are put under the node
before the node is put under its parent. -/
def reading [Arith α] (b : Block α) : Reading :=
  ⟨[b.name], [(b.name, b.node.kind.name)], []⟩ ++ ofExtensions b.name b.extensions ++
    ⟨[], [], [(b.name, .reference b.parent)]⟩

/-- The node is put under the screen or under the variable of its parent's block. -/
def Placed (blocks : List (Block α)) (b : Block α) : Prop :=
  if b.node.parent = root then b.parent = screenVariable
  else ∃ above ∈ blocks, above.node.id = b.node.parent ∧ b.parent = above.name

@[simp] theorem introduced_reading [Arith α] (b : Block α) : b.reading.introduced = b.names := by
  simp [reading, names, ofExtensions]

end Block

/-- The readings of blocks in a row. -/
def readings [Arith α] (blocks : List (Block α)) : Reading where
  introduced := blocks.flatMap Block.names
  instances := blocks.flatMap fun b => b.reading.instances
  parents := blocks.flatMap fun b => b.reading.parents

@[simp] theorem readings_nil [Arith α] : readings ([] : List (Block α)) = .empty := rfl

@[simp] theorem ofExtensions_cons [Arith α] (owner : Text) (e : Extension α) (v : Text)
    (rest : List (Extension α × Text)) : ofExtensions owner ((e, v) :: rest) =
      ⟨[v], [(v, e.shownKind.shown)], []⟩ ++ (⟨[], [], [(v, .reference owner)]⟩ ++ ofExtensions owner rest) := by
  ext1 <;> simp [ofExtensions]

/-- The lines that assign to the properties of one instance. -/
def assigns (v : Text) (assignments : List (Text × Expr)) : List Statement :=
  assignments.map fun (property, value) => .assign v property value

/-- Lines that were written while `names` were handed out, `later` being handed out after them. All that they
introduce is new, and where the variables `known` were introduced, and none but taken ones, they are read as `made`. -/
structure ReadsAs (names : Names) (known : List Text) (statements : List Statement) (made : Reading)
    (later : Names) : Prop where
  extended : Names.Extends names made.introduced later
  reads : ∀ r : Reading, r.introduced ⊆ names.taken → known ⊆ r.introduced → r.run statements = some (r ++ made)

namespace ReadsAs

variable {names between later : Names} {known more : List Text} {statements others : List Statement}
  {made next : Reading} {v kind : Text}

/-- What reads as something still does where more variables are known. -/
theorem mono (readsAs : ReadsAs names known statements made later) (subset : known ⊆ more) :
    ReadsAs names more statements made later where
  extended := readsAs.extended
  reads r below moreKnown := readsAs.reads r below (List.Subset.trans subset moreKnown)

/-- The lines that follow may speak of what the lines before introduce. -/
theorem append (first : ReadsAs names known statements made between) (rest : ReadsAs between more others next later)
    (subset : more ⊆ known ++ made.introduced) : ReadsAs names known (statements ++ others) (made ++ next) later where
  extended := first.extended.trans rest.extended
  reads r below allKnown := by
    have below' : (r ++ made).introduced ⊆ between.taken := by
      rw [Reading.introduced_append, List.append_subset]
      exact ⟨List.Subset.trans below first.extended.subset, fun _ => first.extended.mem⟩
    have allKnown' : more ⊆ (r ++ made).introduced :=
      List.Subset.trans subset <| List.append_subset.mpr
        ⟨List.Subset.trans allKnown (List.subset_append_left ..), List.subset_append_right ..⟩
    rw [Reading.run_append, first.reads r below allKnown, Option.bind_some, rest.reads _ below' allKnown',
      Reading.append_assoc]

/-- No statement reads as nothing. -/
theorem nil : ReadsAs names known [] .empty names where
  extended := .refl names
  reads r _ _ := by rw [Reading.run_nil, Reading.append_empty]

/-- An empty line reads as nothing. -/
theorem blank : ReadsAs names [] [.blank] .empty names where
  extended := .refl names
  reads r _ _ := by rw [Reading.run_blank, Reading.run_nil, Reading.append_empty]

/-- A new variable reads as an instance of its kind. -/
theorem create (fresh : v ∉ names.taken) (extended : Names.Extends names [v] later) :
    ReadsAs names known [.create v kind] ⟨[v], [(v, kind)], []⟩ later where
  extended := extended
  reads r below _ := by rw [Reading.run_create fun again => fresh (below again), Reading.run_nil]

/-- Assignments of values to a known variable read as nothing new. -/
theorem assigns (v : Text) {assignments : List (Text × Expr)} (values : AssignsValues assignments) :
    ReadsAs names [v] (assigns v assignments) .empty names where
  extended := .refl names
  reads r _ isKnown := by
    rw [Script.assigns, Reading.run_values (isKnown List.mem_cons_self) values, Reading.append_empty]

/-- An assignment of a parent reads as the link to it. -/
theorem parent (v owner : Text) : ReadsAs names [v, owner] [.assign v parentProperty (.reference owner)]
    ⟨[], [], [(v, .reference owner)]⟩ names where
  extended := .refl names
  reads r _ areKnown := by
    obtain ⟨isKnown, ownerKnown⟩ := List.cons_subset.mp areKnown
    rw [Reading.run_parent isKnown (by simpa using ownerKnown), Reading.run_nil]

end ReadsAs

variable [Arith α] {s : Store α} {names later : Names} {owner : Text}

/-- The statements for extensions are those for the first one and those for the rest. -/
theorem extensionStatements_cons (names : Names) (owner : Text) (e : Extension α)
    (rest : List (Extension α)) :
    extensionStatements names owner (e :: rest) = e.assignments >>= fun assignments =>
      extensionStatements (names.ofExtension owner e).2 owner rest >>= fun others =>
      .ok (.create (names.ofExtension owner e).1 e.shownKind.shown ::
        assigns (names.ofExtension owner e).1 assignments ++
          .assign (names.ofExtension owner e).1 parentProperty (.reference owner) :: others.1,
        others.2) := rfl

/-- Extensions are written exactly where the first one and the rest are. -/
theorem extensionStatements_cons_iff {e : Extension α} {rest : List (Extension α)} {statements : List Statement} :
    extensionStatements names owner (e :: rest) = .ok (statements, later) ↔ ∃ assignments others,
      e.assignments = .ok assignments ∧
      extensionStatements (names.ofExtension owner e).2 owner rest = .ok (others, later) ∧
      statements = .create (names.ofExtension owner e).1 e.shownKind.shown ::
        assigns (names.ofExtension owner e).1 assignments ++
          .assign (names.ofExtension owner e).1 parentProperty (.reference owner) :: others := by
  rw [extensionStatements_cons, bind_eq_ok]
  constructor
  · rintro ⟨assignments, isAssignments, ran⟩
    obtain ⟨⟨others, last⟩, isOthers, returned⟩ := bind_eq_ok.mp ran
    obtain ⟨rfl, rfl⟩ := Prod.mk.inj (Except.ok.inj returned)
    exact ⟨assignments, others, isAssignments, isOthers, rfl⟩
  · rintro ⟨assignments, others, isAssignments, isOthers, rfl⟩
    exact ⟨assignments, isAssignments, bind_eq_ok.mpr ⟨_, isOthers, rfl⟩⟩

/-- Every extension gets a new variable and is put under its owner. -/
theorem extensionStatements_reads {extensions : List (Extension α)} {statements : List Statement}
    (ran : extensionStatements names owner extensions = .ok (statements, later)) :
    ∃ named : List (Extension α × Text), named.map Prod.fst = extensions ∧
      later.nodeVariables = names.nodeVariables ∧
      ReadsAs names [owner] statements (ofExtensions owner named) later := by
  induction extensions generalizing names statements later with
  | nil =>
      cases ran
      exact ⟨[], rfl, rfl, .nil⟩
  | cons e rest ih =>
      obtain ⟨assignments, others, isAssignments, isOthers, rfl⟩ := extensionStatements_cons_iff.mp ran
      obtain ⟨fresh, extended, sameNodes⟩ := names.ofExtension_new owner e
      obtain ⟨named, isRest, sameNodes', readsRest⟩ := ih isOthers
      set v := (names.ofExtension owner e).1
      refine ⟨(e, v) :: named, by rw [List.map_cons, isRest], sameNodes'.trans sameNodes, ?_⟩
      have created : ReadsAs names [owner] [.create v e.shownKind.shown] _ _ := .create fresh extended
      have assigned := created.append (.assigns v (assignsValues_extension isAssignments)) (by simp)
      have put := assigned.append (.parent v owner) (by simp)
      simpa using put.append readsRest (by simp)

/-- The variable under which a node is put. -/
def parentVariable (names : Names) (n : Node α) : Text :=
  if n.parent = root then screenVariable else (names.lookup n.parent).getD screenVariable

/-- Only a variable that follows what the node is called needs a text to be called by. -/
def checkCalled (names : Names) (n : Node α) : Except Fault Unit :=
  if names.counted then .ok () else n.calledText.map fun _ => ()

/-- The statements for a node create it, assign its values, write its extensions and put it under its
parent. -/
theorem nodeStatements_eq (names : Names) (n : Node α) :
    nodeStatements names n = checkCalled names n >>= fun _ => n.assignments >>= fun assignments =>
      extensionStatements (names.ofNode n).2 (names.ofNode n).1 n.extensions >>= fun extensions =>
      .ok (.create (names.ofNode n).1 n.kind.name :: assigns (names.ofNode n).1 assignments ++
        extensions.1 ++ [.assign (names.ofNode n).1 parentProperty
          (.reference (parentVariable extensions.2 n)), .blank], extensions.2) := by
  rw [nodeStatements, checkCalled]
  cases names.counted with
  | true => rfl
  | false => cases n.calledText <;> rfl

/-- A node is written exactly where its name can be told, and its values and extensions are written. -/
theorem nodeStatements_iff {n : Node α} {statements : List Statement} :
    nodeStatements names n = .ok (statements, later) ↔ checkCalled names n = .ok () ∧ ∃ assignments extensions,
      n.assignments = .ok assignments ∧
      extensionStatements (names.ofNode n).2 (names.ofNode n).1 n.extensions = .ok (extensions, later) ∧
      statements = .create (names.ofNode n).1 n.kind.name :: assigns (names.ofNode n).1 assignments ++ extensions ++
        [.assign (names.ofNode n).1 parentProperty (.reference (parentVariable later n)), .blank] := by
  rw [nodeStatements_eq, bind_eq_ok]
  constructor
  · rintro ⟨⟨⟩, isCalled, ran⟩
    obtain ⟨assignments, isAssignments, ran⟩ := bind_eq_ok.mp ran
    obtain ⟨⟨extensions, last⟩, isExtensions, returned⟩ := bind_eq_ok.mp ran
    obtain ⟨rfl, rfl⟩ := Prod.mk.inj (Except.ok.inj returned)
    exact ⟨isCalled, assignments, extensions, isAssignments, isExtensions, rfl⟩
  · rintro ⟨isCalled, assignments, extensions, isAssignments, isExtensions, rfl⟩
    exact ⟨(), isCalled, bind_eq_ok.mpr ⟨assignments, isAssignments, bind_eq_ok.mpr ⟨_, isExtensions, rfl⟩⟩⟩

/-- The variables that are on record are those of the blocks. -/
def Records (names : Names) (blocks : List (Block α)) : Prop :=
  names.nodeVariables = (blocks.map fun b => (b.node.id, b.name)).reverse

variable {blocks : List (Block α)} {id : Text}

omit [Arith α] in
/-- A variable is looked up in the last block of its node. -/
theorem Records.lookup (records : Records names blocks) (id : Text) :
    names.lookup id = (blocks.reverse.find? fun b => b.node.id = id).map Block.name := by
  rw [Names.lookup, records, ← List.map_reverse, List.find?_map, Option.map_map]
  rfl

omit [Arith α] in
/-- A node without a block has no variable. -/
theorem Records.unnamed (records : Records names blocks)
    (other : id ∉ blocks.map fun b => b.node.id) : names.lookup id = none := by
  rw [records.lookup, Option.map_eq_none_iff, List.find?_eq_none]
  intro b member same
  refine other (List.mem_map.mpr ⟨b, List.mem_reverse.mp member, by simpa using same⟩)

omit [Arith α] in
/-- A node with a block has the variable of one of its blocks. -/
theorem Records.named (records : Records names blocks) (met : id ∈ blocks.map fun b => b.node.id) :
    ∃ above ∈ blocks, above.node.id = id ∧ names.lookup id = some above.name := by
  obtain ⟨b, member, same⟩ := List.mem_map.mp met
  have isFound : (blocks.reverse.find? fun b => b.node.id = id).isSome := by
    rw [List.find?_isSome]
    exact ⟨b, List.mem_reverse.mpr member, by simpa using same⟩
  obtain ⟨above, found⟩ := Option.isSome_iff_exists.mp isFound
  refine ⟨above, List.mem_reverse.mp (List.mem_of_find?_eq_some found), ?_, ?_⟩
  · simpa using List.find?_some found
  · rw [records.lookup, found, Option.map_some]

omit [Arith α] in
/-- A placed block stays so with more blocks before it. -/
theorem Block.Placed.mono {b : Block α} {more : List (Block α)} (placed : b.Placed blocks)
    (subset : blocks ⊆ more) : b.Placed more := by
  rw [Block.Placed] at placed ⊢
  split
  next atRoot => rwa [if_pos atRoot] at placed
  next below =>
    rw [if_neg below] at placed
    obtain ⟨above, member, rest⟩ := placed
    exact ⟨above, subset member, rest⟩

/-- An id without a node is written as nothing. -/
theorem treeStatements_cons_none {ids : List Text} (missing : s.find? id = none) :
    treeStatements s names (id :: ids) = treeStatements s names ids := by
  simp only [treeStatements, missing]

/-- The statements for a tree are those for its first node and those for the rest. -/
theorem treeStatements_cons_some {ids : List Text} {n : Node α} {statements : List Statement}
    (found : s.find? id = some n) :
    treeStatements s names (id :: ids) = .ok statements ↔ ∃ first between others,
      nodeStatements names n = .ok (first, between) ∧ treeStatements s between ids = .ok others ∧
      statements = first ++ others := by
  simp only [treeStatements, found, bind_eq_ok, Prod.exists, exists_and_left, pure, Except.pure, Except.ok.injEq,
    eq_comm (a := statements)]

/-- All that a script says of a node and of its extensions can be written. A script without blocks
names a variable after the node, so it has to be called by a text. -/
structure IsWritable (nested : Bool) (n : Node α) : Prop where
  called : nested = false → ∃ name, n.calledText = .ok name
  assignments : ∃ assignments, n.assignments = .ok assignments
  extensions : ∀ e ∈ n.extensions, ∃ assignments, e.assignments = .ok assignments

/-- Extensions are written exactly where each of them is. -/
theorem extensionStatements_ok (names : Names) (owner : Text) (extensions : List (Extension α)) :
    (∃ out, extensionStatements names owner extensions = .ok out) ↔
      ∀ e ∈ extensions, ∃ assignments, e.assignments = .ok assignments := by
  induction extensions generalizing names with
  | nil => simp [extensionStatements]
  | cons e rest ih =>
      rw [List.forall_mem_cons, ← ih (names.ofExtension owner e).2]
      constructor
      · rintro ⟨⟨statements, later⟩, ran⟩
        obtain ⟨assignments, others, isAssignments, isOthers, -⟩ := extensionStatements_cons_iff.mp ran
        exact ⟨⟨assignments, isAssignments⟩, _, isOthers⟩
      · rintro ⟨⟨assignments, isAssignments⟩, ⟨others, later⟩, isOthers⟩
        exact ⟨_, extensionStatements_cons_iff.mpr ⟨assignments, others, isAssignments, isOthers, rfl⟩⟩

/-- A name can be told where variables are counted, and else where it is a text. -/
theorem checkCalled_ok (names : Names) (n : Node α) :
    checkCalled names n = .ok () ↔ (names.counted = false → ∃ name, n.calledText = .ok name) := by
  rw [checkCalled]
  cases names.counted with
  | true => simp
  | false => cases n.calledText <;> simp [Except.map]

/-- A node is written exactly where it is writable. -/
theorem nodeStatements_ok (names : Names) (n : Node α) :
    (∃ out, nodeStatements names n = .ok out) ↔ IsWritable names.counted n := by
  constructor
  · rintro ⟨⟨statements, later⟩, ran⟩
    obtain ⟨isCalled, assignments, extensions, isAssignments, isExtensions, -⟩ := nodeStatements_iff.mp ran
    exact ⟨(checkCalled_ok names n).mp isCalled, ⟨assignments, isAssignments⟩,
      (extensionStatements_ok _ _ n.extensions).mp ⟨_, isExtensions⟩⟩
  · intro writable
    obtain ⟨assignments, isAssignments⟩ := writable.assignments
    obtain ⟨⟨extensions, later⟩, isExtensions⟩ := (extensionStatements_ok (names.ofNode n).2
      (names.ofNode n).1 n.extensions).mpr writable.extensions
    exact ⟨_, nodeStatements_iff.mpr ⟨(checkCalled_ok names n).mpr writable.called, assignments, extensions,
      isAssignments, isExtensions, rfl⟩⟩

/-- Writing extensions goes on counting or not as before. -/
theorem counted_extensionStatements {extensions : List (Extension α)} {statements : List Statement}
    (ran : extensionStatements names owner extensions = .ok (statements, later)) :
    later.counted = names.counted := by
  obtain ⟨_, -, -, readsAs⟩ := extensionStatements_reads ran
  exact readsAs.extended.counted

omit [Arith α] in
/-- Naming a node goes on counting or not as before. -/
theorem counted_ofNode (names : Names) (n : Node α) : (names.ofNode n).2.counted = names.counted := by
  rw [Names.ofNode]
  split
  · rfl
  · simp only [Names.claim]
    split <;> rfl

/-- Writing a node goes on counting or not as before. -/
theorem counted_nodeStatements {n : Node α} {statements : List Statement}
    (ran : nodeStatements names n = .ok (statements, later)) : later.counted = names.counted := by
  obtain ⟨-, _, _, -, isExtensions, -⟩ := nodeStatements_iff.mp ran
  exact (counted_extensionStatements isExtensions).trans (counted_ofNode names n)

/-- A tree is written exactly where all its nodes are writable. -/
theorem treeStatements_ok (s : Store α) (names : Names) (ids : List Text) :
    (∃ statements, treeStatements s names ids = .ok statements) ↔
      ∀ id ∈ ids, ∀ n, s.find? id = some n → IsWritable names.counted n := by
  induction ids generalizing names with
  | nil => simp [treeStatements]
  | cons id rest ih =>
      rw [List.forall_mem_cons]
      cases found : s.find? id with
      | none => simp [treeStatements_cons_none found, ih]
      | some n =>
          simp only [Option.some_inj, forall_eq']
          constructor
          · rintro ⟨statements, ran⟩
            obtain ⟨first, later, others, isFirst, isOthers, -⟩ := (treeStatements_cons_some found).mp ran
            refine ⟨(nodeStatements_ok names n).mp ⟨_, isFirst⟩, ?_⟩
            rw [← counted_nodeStatements isFirst]
            exact (ih later).mp ⟨others, isOthers⟩
          · rintro ⟨writable, restWritable⟩
            obtain ⟨⟨first, later⟩, isFirst⟩ := (nodeStatements_ok names n).mpr writable
            rw [← counted_nodeStatements isFirst] at restWritable
            obtain ⟨others, isOthers⟩ := (ih later).mpr restWritable
            exact ⟨_, (treeStatements_cons_some found).mpr ⟨first, later, others, isFirst, isOthers, rfl⟩⟩

/-- A script is its header and then the tree, unless layers cannot be compared. -/
theorem ofStore_eq (s : Store α) (p : Project α) :
    ofStore s p = header p >>= fun first => s.checkAllLayers >>= fun _ =>
      treeStatements s { counted := p.isNested } (writingOrder s) >>= fun rest =>
      .ok ⟨p.isNested, first ++ rest⟩ := rfl

/-- A store has a script exactly where there is a header, the layers can be compared and the tree is
written. -/
theorem ofStore_iff {p : Project α} {script : Script} :
    ofStore s p = .ok script ↔ ∃ first rest, header p = .ok first ∧ s.checkAllLayers = .ok () ∧
      treeStatements s { counted := p.isNested } (writingOrder s) = .ok rest ∧
      script = ⟨p.isNested, first ++ rest⟩ := by
  simp only [ofStore_eq, bind_eq_ok, Unique.exists_iff, exists_and_left, Except.ok.injEq, eq_comm (a := script)]

/-- There is a header exactly where the screen has a name. -/
theorem header_ok (p : Project α) :
    (∃ first, header p = .ok first) ↔ ∃ name, screenName p = .ok name := by
  constructor
  · rintro ⟨first, ran⟩
    obtain ⟨name, isName, -⟩ := bind_eq_ok.mp ran
    exact ⟨name, isName⟩
  · rintro ⟨name, isName⟩
    exact ⟨_, bind_eq_ok.mpr ⟨name, isName, rfl⟩⟩

/-- In a forest exactly the nodes are written. -/
theorem mem_writingOrder (forest : IsForest s) : id ∈ writingOrder s ↔ id ∈ s.ids := by
  rw [writingOrder_eq forest, (levelOrder_perm forest).mem_iff]

/-- A script of a forest is written exactly where all that it says can be written. -/
theorem ofStore_ok_iff (forest : IsForest s) (p : Project α) :
    (∃ script, ofStore s p = .ok script) ↔ (∃ name, screenName p = .ok name) ∧
      s.checkAllLayers = .ok () ∧ ∀ n ∈ s.nodes, IsWritable p.isNested n := by
  have everyNode : (∀ id ∈ writingOrder s, ∀ n, s.find? id = some n → IsWritable p.isNested n) ↔
      ∀ n ∈ s.nodes, IsWritable p.isNested n := by
    constructor
    · intro writable n member
      exact writable n.id ((mem_writingOrder forest).mpr (id_mem_ids member)) n
        (find?_of_mem forest.distinct member)
    · intro writable id _ n found
      exact writable n (mem_of_find? found)
  rw [← everyNode, ← header_ok, ← treeStatements_ok s { counted := p.isNested }]
  constructor
  · rintro ⟨script, ran⟩
    obtain ⟨first, rest, isFirst, isChecked, isRest, -⟩ := ofStore_iff.mp ran
    exact ⟨⟨first, isFirst⟩, isChecked, rest, isRest⟩
  · rintro ⟨⟨first, isFirst⟩, isChecked, rest, isRest⟩
    exact ⟨_, ofStore_iff.mpr ⟨first, rest, isFirst, isChecked, isRest, rfl⟩⟩

end LayoutDesigner.Script
