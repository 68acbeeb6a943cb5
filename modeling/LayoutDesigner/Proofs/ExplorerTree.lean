import LayoutDesigner.Shell.Explorer
import LayoutDesigner.Proofs.DrawOrder
import LayoutDesigner.Proofs.Tidy

/-!
# The tree of the explorer

The rows of the hierarchy view tell how deep they lie, and from this alone the explorer makes a tree
again. Rows that list trees item by item, parents first and each child one level below its parent, give
back these trees, be they put together from the last row up or grown from the first row on with the open
items on a stack. The rows of a store list the tree of its links.
-/

namespace LayoutDesigner

namespace Shell

open Store (TreeRow)

variable {α : Type} {level : Nat} {rows below rest : List (TreeRow α)} {row : TreeRow α}
  {branches children others soFar : List (Branch α)} {b : Branch α}

/-- The rows list the branches: each item, one level below the item that it hangs on, and then what
hangs on it. -/
inductive Lists : (level : Nat) → List (TreeRow α) → List (Branch α) → Prop
  | nil {level : Nat} : Lists level [] []
  | cons {level : Nat} {row : TreeRow α} {below rest : List (TreeRow α)} {children others : List (Branch α)}
      (depth : row.depth = level) (inner : Lists (level + 1) below children) (outer : Lists level rest others) :
      Lists level (row :: (below ++ rest)) (.node row children :: others)

/-- All branches of a list are rows of its level. -/
theorem Lists.depth (lists : Lists level rows branches) : ∀ b ∈ branches, b.row.depth = level := by
  induction lists with
  | nil => simp
  | cons depth _ _ _ ih => exact List.forall_mem_cons.mpr ⟨depth, ih⟩

namespace Branch

/-- A row takes what lies deeper, up to the next row that does not. -/
theorem place_append (deeper : ∀ b ∈ children, row.depth < b.row.depth)
    (next : ∀ b ∈ others.head?, b.row.depth ≤ row.depth) : place row (children ++ others) = .node row children :: others := by
  have taken : ∀ b ∈ children, decide (row.depth < b.row.depth) = true := fun b listed => decide_eq_true (deeper b listed)
  have stops : others.takeWhile (fun b => decide (row.depth < b.row.depth)) = [] ∧
      others.dropWhile (fun b => decide (row.depth < b.row.depth)) = others := by
    cases others with
    | nil => exact ⟨rfl, rfl⟩
    | cons b rest =>
        have high : ¬row.depth < b.row.depth := (next b rfl).not_gt
        simp [high]
  simp only [place, List.takeWhile_append_of_pos taken, List.dropWhile_append_of_pos taken, stops.1, stops.2, List.append_nil]

/-- Put together from the last one up, rows give the trees that they list. -/
theorem foldr_place (lists : Lists level rows branches) (next : ∀ b ∈ soFar.head?, b.row.depth ≤ level) :
    rows.foldr place soFar = branches ++ soFar := by
  induction lists generalizing soFar with
  | nil => rfl
  | @cons level row below rest children others depth inner outer ihInner ihOuter =>
      have above : ∀ b ∈ (others ++ soFar).head?, b.row.depth ≤ level := by
        cases others with
        | nil => exact next
        | cons b later => exact fun _ first => (Option.some.inj first) ▸ (outer.depth b List.mem_cons_self).le
      have deeper : ∀ b ∈ children, row.depth < b.row.depth := fun b listed => by
        rw [inner.depth b listed, depth]
        exact Nat.lt_succ_self level
      rw [List.foldr_cons, List.foldr_append, ihOuter next, ihInner fun b first => (above b first).trans (Nat.le_succ level),
        place_append deeper (depth.symm ▸ above)]
      rfl

/-- The branches that rows make up are those that the rows list. -/
theorem ofRows_eq (lists : Lists level rows branches) : ofRows rows = branches := by
  rw [ofRows, foldr_place lists (by simp), List.append_nil]

mutual

/-- Each item of a branch with the one that it hangs on, in the order of the rows. -/
def links (parent : Text) : Branch α → List (Text × Text)
  | node row children => (row.id, parent) :: linksBelow row.id children

/-- Each item of branches with the one that it hangs on, in the order of the rows. -/
def linksBelow (parent : Text) : List (Branch α) → List (Text × Text)
  | [] => []
  | b :: rest => b.links parent ++ linksBelow parent rest

end

/-- The links below a parent are those from its branches, each followed by the links below it. -/
theorem linksBelow_eq (parent : Text) (branches : List (Branch α)) :
    linksBelow parent branches = branches.flatMap fun b => (b.row.id, parent) :: linksBelow b.row.id b.children := by
  induction branches with
  | nil => rfl
  | cons b rest ih =>
      cases b
      rw [linksBelow, links, ih]
      rfl

end Branch

/-- A tree that grows row by row: the ids of the open items, that of the screen first, and every item with
the one that it was added to, in the order in which they were added. -/
structure Growth where
  stack : List Text := [root]
  added : List (Text × Text) := []

namespace Growth

/-- Close what is as deep as the row or deeper, add an item to the last one that is open, and open it. -/
def push (g : Growth) (row : TreeRow α) : Growth :=
  let stack := g.stack.take (row.depth + 1)
  ⟨stack ++ [row.id], g.added ++ [(row.id, stack.getLastD root)]⟩

/-- The tree that grows from rows. -/
def ofRows (rows : List (TreeRow α)) : Growth := rows.foldl push {}

/-- Under the open items down to a level, rows grow to the trees that they list, and these items stay open. -/
theorem foldl_push {parent : Text} {path : List Text} {g : Growth} (lists : Lists level rows branches)
    (levels : path.length = level) (isOpen : path ++ [parent] <+: g.stack) :
    path ++ [parent] <+: (rows.foldl push g).stack ∧
      (rows.foldl push g).added = g.added ++ Branch.linksBelow parent branches := by
  induction lists generalizing parent path g with
  | nil => exact ⟨isOpen, by simp [Branch.linksBelow]⟩
  | @cons level row below rest children others depth inner outer ihInner ihOuter =>
      -- The row closes whatever is open below the path, and what hangs on it grows below a longer path.
      obtain ⟨closed, split⟩ := isOpen
      have left : g.stack.take (row.depth + 1) = path ++ [parent] := by
        rw [← split, depth, ← levels]
        exact List.take_left' (by simp)
      have pushed : g.push row = ⟨path ++ [parent] ++ [row.id], g.added ++ [(row.id, parent)]⟩ := by
        simp only [push, left, List.getLastD_concat]
      obtain ⟨isOpen', added⟩ := @ihInner row.id (path ++ [parent]) (g.push row) (by simp [levels])
        (by rw [pushed])
      obtain ⟨stays, added'⟩ := @ihOuter parent path (below.foldl push (g.push row)) levels
        ((List.prefix_append _ _).trans isOpen')
      rw [List.foldl_cons, List.foldl_append]
      refine ⟨stays, ?_⟩
      rw [added', added, pushed, Branch.linksBelow, Branch.links]
      simp

/-- What the tree adds for rows that list branches are the links of these branches. -/
theorem added_ofRows (lists : Lists 0 rows branches) : (ofRows rows).added = Branch.linksBelow root branches := by
  have isOpen : [] ++ [root] <+: ({} : Growth).stack := List.prefix_refl _
  exact (foldl_push lists rfl isOpen).2

end Growth

section

variable [Arith α] {s : Store α} {parent : Text} {ids : List Text}

/-- Below an item stand those of its children, as these are drawn, and below each of them stand its own. -/
inductive ShowsBelow (s : Store α) : (parent : Text) → List (Branch α) → Prop
  | intro {parent : Text} {branches : List (Branch α)} (items : branches.map (·.row.id) = s.childIds parent)
      (below : ∀ b ∈ branches, ShowsBelow s b.row.id b.children) : ShowsBelow s parent branches

/-- Rows with the ids and depths of some subtrees, one after another, list these. -/
theorem exists_lists_of_each (depths : ∀ id ∈ ids, s.depthOf id = level)
    (each : ∀ id ∈ ids, ∀ {below : List (TreeRow α)},
      below.map (fun row => (row.id, row.depth)) = (s.drawnBelow none id).map (fun id => (id, s.depthOf id)) →
      ∃ children, Lists (level + 1) below children ∧ ShowsBelow s id children)
    (same : rows.map (fun row => (row.id, row.depth)) =
      (ids.flatMap fun id => id :: s.drawnBelow none id).map fun id => (id, s.depthOf id)) :
    ∃ branches, Lists level rows branches ∧ branches.map (·.row.id) = ids ∧
      ∀ b ∈ branches, ShowsBelow s b.row.id b.children := by
  induction ids generalizing rows with
  | nil =>
      obtain rfl := List.map_eq_nil_iff.mp same
      exact ⟨[], .nil, rfl, by simp⟩
  | cons id ids ih =>
      simp only [List.flatMap_cons, List.cons_append, List.map_cons, List.map_append] at same
      obtain ⟨row, others, rfl, isItem, same⟩ := List.map_eq_cons_iff.mp same
      obtain ⟨below, rest, rfl, sameBelow, sameRest⟩ := List.map_eq_append_iff.mp same
      obtain ⟨rfl, depth⟩ := Prod.mk.inj isItem
      obtain ⟨children, inner, shows⟩ := each row.id List.mem_cons_self sameBelow
      obtain ⟨branches, outer, items, all⟩ := ih (fun id listed => depths id (List.mem_cons_of_mem _ listed))
        (fun id listed => each id (List.mem_cons_of_mem _ listed)) sameRest
      refine ⟨.node row children :: branches, .cons (depth.trans (depths row.id List.mem_cons_self)) inner outer, ?_, ?_⟩
      · rw [List.map_cons, items]
        rfl
      · exact List.forall_mem_cons.mpr ⟨shows, all⟩

section

variable (distinct : s.ids.Nodup) (unreserved : root ∉ s.ids)

include distinct unreserved

/-- Rows with the ids and depths of what is drawn below a parent list its tree. -/
theorem exists_lists (grounded : s.Grounded parent)
    (same : rows.map (fun row => (row.id, row.depth)) = (s.drawnBelow none parent).map fun id => (id, s.depthOf id)) :
    ∃ branches, Lists (s.level parent) rows branches ∧ ShowsBelow s parent branches := by
  -- The induction goes down from the parent: a chain of parents is bounded, so what lies below is known first.
  induction grounded using Store.Grounded.descend unreserved generalizing rows with
  | step parent grounded ih =>
      rw [Store.drawnBelow_none distinct unreserved grounded] at same
      have linked : ∀ {child}, child ∈ s.childIds parent → s.parent? child = some parent :=
        (Store.mem_childIds_iff distinct).mp
      obtain ⟨branches, lists, items, below⟩ := exists_lists_of_each
        (fun child isChild => Store.depthOf_of_parent? unreserved grounded (linked isChild))
        (fun child isChild _ same => Store.level_of_parent? unreserved grounded (linked isChild) ▸ ih child (linked isChild) same)
        same
      exact ⟨branches, lists, .intro items below⟩

/-- The tree below a parent has an item for what is drawn below it, hanging on the one of the node's parent. -/
theorem ShowsBelow.links_eq (shows : ShowsBelow s parent branches) (grounded : s.Grounded parent) :
    Branch.linksBelow parent branches = (s.drawnBelow none parent).map fun id => (id, (s.parent? id).getD root) := by
  induction shows with
  | @intro parent branches items below ih =>
      rw [Branch.linksBelow_eq, Store.drawnBelow_none distinct unreserved grounded, ← items, List.flatMap_map, List.map_flatMap]
      refine List.flatMap_congr fun b listed => ?_
      have isChild : b.row.id ∈ s.childIds parent := items ▸ List.mem_map_of_mem listed
      have link := (Store.mem_childIds_iff distinct).mp isChild
      rw [ih b listed (.step link grounded), List.map_cons, link, Option.getD_some]

end

/-- The tree shows the hierarchy of a store. -/
structure ShowsTree (s : Store α) (tree : List (Branch α)) : Prop where
  /-- Below each item stand those of the children of its node, and at the top those of the root's. -/
  below : ShowsBelow s root tree
  /-- Just what comes to the root has an item. -/
  exact : ∀ id, id ∈ (Branch.linksBelow root tree).map Prod.fst ↔ s.LeadsUp id root
  /-- No node has two. -/
  distinct : ((Branch.linksBelow root tree).map Prod.fst).Nodup
  /-- Each item hangs on the one of its node's parent. -/
  parents : ∀ id parent, (id, parent) ∈ Branch.linksBelow root tree → s.parent? id = some parent
  /-- Children stand from the lowest layer up, and by id on one layer. -/
  sorted : ∀ parent, (s.childIds parent).Pairwise s.DrawnBefore
  /-- The tree is the one that grows from the rows. -/
  grown : (Growth.ofRows s.treeRows).added = Branch.linksBelow root tree

/-- Rows with the ids and depths of the rows of a store give its tree. -/
theorem showsTree_ofRows (plain : s.IsPlain) (distinct : s.ids.Nodup) (unreserved : root ∉ s.ids)
    (same : rows.map (fun row => (row.id, row.depth)) = s.treeRows.map fun row => (row.id, row.depth)) :
    ShowsTree s (Branch.ofRows rows) := by
  have drawn := Store.isTreeOrder_paintOrder distinct unreserved plain
  have listed := Store.map_treeRows distinct unreserved
  have lists : ∀ {rows : List (TreeRow α)}, rows.map (fun row => (row.id, row.depth)) =
      s.treeRows.map (fun row => (row.id, row.depth)) → ∃ branches, Lists 0 rows branches ∧ ShowsBelow s root branches :=
    fun same => Store.level_root s ▸ exists_lists distinct unreserved .atRoot (same.trans listed)
  obtain ⟨branches, given, shows⟩ := lists same
  obtain ⟨branches', own, shows'⟩ := lists rfl
  rw [Branch.ofRows_eq given]
  have links := shows.links_eq distinct unreserved .atRoot
  have ids : (Branch.linksBelow root branches).map Prod.fst = s.paintOrder := by
    rw [links, List.map_map]
    exact List.map_id _
  refine ⟨shows, fun id => ids ▸ drawn.exact id, ids ▸ drawn.distinct, fun id parent item => ?_,
    Store.childIds_sorted plain distinct, ?_⟩
  · rw [links] at item
    obtain ⟨id, isDrawn, rfl, rfl⟩ := List.mem_map.mp item
    obtain ⟨parent, link, -⟩ := Store.leadsUp_iff.mp ((drawn.exact id).mp isDrawn)
    rw [link, Option.getD_some]
  · rw [Growth.added_ofRows own, links, shows'.links_eq distinct unreserved .atRoot]

end

/-- Integers are equal in value just where they are the same. -/
class TellsInts (α : Type) [Arith α] : Prop where
  same_ofInt (m n : Int) : Arith.same (Arith.ofInt m : α) (Arith.ofInt n) = decide (m = n)

instance : TellsInts Number where
  same_ofInt m n := by
    change (some (compare m n) == some .eq) = decide (m = n)
    rw [Bool.eq_iff_iff]
    simp

instance : TellsInts ℚ where
  same_ofInt m n := by
    change decide ((m : ℚ) = n) = decide (m = n)
    simp

section

variable [Arith α] [TellsInts α]

/-- Rows that show the same have the same id and the same depth. -/
theorem key_of_same {row other : TreeRow α} (same : row.same other) : (row.id, row.depth) = (other.id, other.depth) := by
  simp only [TreeRow.same, TreeRow.columns, Value.sameItems, Value.same, Value.int, TellsInts.same_ofInt,
    Bool.and_eq_true, beq_iff_eq, decide_eq_true_eq, Int.natCast_inj] at same
  exact Prod.ext same.1 same.2.2.2.2.1

/-- Equal contents have rows of the same ids and depths. -/
theorem Explorer.Content.keys_of_same {old new : Content α} (same : old.same new) :
    old.rows.map (fun row => (row.id, row.depth)) = new.rows.map fun row => (row.id, row.depth) := by
  simp only [Content.same, Bool.and_eq_true, beq_iff_eq, List.all_eq_true] at same
  obtain ⟨⟨⟨-, lengths⟩, pairs⟩, -⟩ := same
  rw [← List.forall₂_eq_eq_eq, List.forall₂_map_left_iff, List.forall₂_map_right_iff, List.forall₂_iff_zip]
  exact ⟨lengths, fun listed => key_of_same (pairs _ listed)⟩

/-- **The explorer shows the real hierarchy.** Take any session whose store has distinct ids of which none is the
root's, where links may lead nowhere or in a circle and values have their types, and any explorer, whatever it has
shown. Refreshing returns, and then the tree below the row of the screen has exactly one item for each node
whose parents lead to the root. It hangs on the item of the node's parent, that of a top-level node on the row of the
screen, and the items below one item stand by layer and id of their nodes. The tree is the one that grows where
the rows are added one after the other, each to the last open item above its depth. -/
theorem Explorer.refresh_showsTree (e : Explorer α) (s : Session α) (plain : s.store.IsPlain)
    (distinct : s.store.ids.Nodup) (unreserved : root ∉ s.store.ids) :
    ∃ e', e.refresh s = .ok e' ∧ ShowsTree s.store e'.tree := by
  have returns : e.refresh s =
      .ok (if e.content.any (fun old => old.same ⟨s.project.guiName, s.store.treeRows, s.selectedId⟩) then e
        else build ⟨s.project.guiName, s.store.treeRows, s.selectedId⟩) := by
    rw [refresh, Store.checkAllLayers_plain plain]
    rfl
  refine ⟨_, returns, ?_⟩
  split
  · next unchanged =>
      cases shown : e.content with
      | none => simp [shown] at unchanged
      | some old =>
          rw [shown, Option.any_some] at unchanged
          have rows : e.rows = old.rows := by simp [Explorer.rows, shown]
          rw [tree, rows]
          exact showsTree_ofRows plain distinct unreserved (Content.keys_of_same unchanged)
  · exact showsTree_ofRows plain distinct unreserved rfl

end

/-- A new explorer shows two frames on the canvas and the label in one of them, and nothing of what strays. -/
theorem Explorer.refresh_showsTree_straying :
    ∃ e', Explorer.refresh {} { Session.usual with stage := { Session.usual.stage with store := .straying } } = .ok e' ∧
      e'.tree.map (·.row.id) = [("back" : Text), "front"] ∧ (("held" : Text), ("front" : Text)) ∈ Branch.linksBelow root e'.tree := by
  obtain ⟨e', ran, shows⟩ := Explorer.refresh_showsTree {}
    { Session.usual with stage := { Session.usual.stage with store := .straying } } Store.plain_straying
    Store.distinct_straying (by decide)
  refine ⟨e', ran, ?_, ?_⟩
  · obtain ⟨items, -⟩ := shows.below
    exact items.trans Store.childIds_straying.1
  · have held : Store.straying.parent? "held" = some "front" := by decide
    have front : Store.straying.parent? "front" = some root := by decide
    obtain ⟨⟨id, parent⟩, item, rfl⟩ := List.mem_map.mp ((shows.exact "held").mpr (.head held (.single front)))
    have link := shows.parents "held" parent item
    exact Option.some.inj (held.symm.trans link) ▸ item

end Shell

end LayoutDesigner
