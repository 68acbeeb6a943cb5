import LayoutDesigner.Shell.Scene
import LayoutDesigner.Proofs.DrawOrder

/-!
# Refreshing the scene

A refresh drops the items of what is not drawn any more and lets the item of each drawn node show the
session, whatever it has shown before. So nothing of the old items is left but the order in which they
were added, and that order is all in which they differ from those of a new scene.
-/

namespace LayoutDesigner.Shell.Scene

variable {α : Type} {scene other : Scene α} {id place : Text} {d : Display α} {entry : Text × Display α}
  {entries : List (Text × Display α)} {order : List Text} {z : Nat}

/-- The ids of the items. -/
def ids (scene : Scene α) : List Text := scene.items.map Item.id

/-- An item is found exactly where its id is in the scene. -/
theorem isSome_find? : (scene.find? id).isSome ↔ id ∈ scene.ids := by
  simp [find?, ids]

/-- Scenes with the same item for every id have the same items. -/
theorem perm_of_find? (distinct : scene.ids.Nodup) (distinct' : other.ids.Nodup)
    (same : ∀ id, scene.find? id = other.find? id) : scene.items.Perm other.items := by
  have found : ∀ {scene : Scene α}, scene.ids.Nodup → ∀ i, i ∈ scene.items ↔ scene.find? i.id = some i := by
    intro scene distinct i
    refine ⟨fun isItem => ?_, fun found => List.mem_of_find?_eq_some found⟩
    obtain ⟨j, isFound⟩ := Option.isSome_iff_exists.mp (isSome_find?.mpr (List.mem_map_of_mem isItem))
    have sameId : j.id = i.id := by simpa using List.find?_some isFound
    rw [isFound, List.inj_on_of_nodup_map distinct (List.mem_of_find?_eq_some isFound) isItem sameId]
  refine (List.perm_ext_iff_of_nodup distinct.of_map distinct'.of_map).mpr fun i => ?_
  rw [found distinct, found distinct', same]

/-- An item is found among those that are kept where its id is listed. -/
theorem find?_keep (scene : Scene α) (order : List Text) (id : Text) :
    (scene.keep order).find? id = if id ∈ order then scene.find? id else none := by
  simp only [keep, find?, List.find?_filter]
  split
  · next listed =>
      congr 1
      funext i
      by_cases here : i.id = id <;> simp [here, listed]
  · next unlisted =>
      refine List.find?_eq_none.mpr fun i _ found => ?_
      obtain ⟨listed, here⟩ := of_decide_eq_true found
      exact unlisted (of_decide_eq_true here ▸ List.elem_iff.mp listed)

/-- Distinct items stay so when some of them are kept. -/
theorem distinct_keep (distinct : scene.ids.Nodup) (order : List Text) : (scene.keep order).ids.Nodup :=
  distinct.sublist (List.filter_sublist.map _)

/-- Let the item of an id show something, a new one where there is none. -/
def showEntry (scene : Scene α) (entry : Text × Display α) : Scene α :=
  (scene.ensure entry.1).display entry.1 entry.2

/-- Let the items of some ids show something. -/
def showAll (entries : List (Text × Display α)) (scene : Scene α) : Scene α := entries.foldl showEntry scene

/-- Showing an item changes no id. -/
theorem ids_display : (scene.display id d).ids = scene.ids := by
  simp only [display, ids, List.map_map]
  refine List.map_congr_left fun i _ => ?_
  simp only [Function.comp_apply]
  split <;> rfl

/-- An item that is missing is added at the end. -/
theorem ids_ensure : (scene.ensure id).ids = if id ∈ scene.ids then scene.ids else scene.ids ++ [id] := by
  rw [ensure]
  simp only [isSome_find?]
  split
  · rfl
  · simp [ids]

/-- The items are the old ones and the one that is ensured. -/
theorem mem_ids_ensure : place ∈ (scene.ensure id).ids ↔ place ∈ scene.ids ∨ place = id := by
  rw [ids_ensure]
  split
  · next known => exact ⟨.inl, fun either => either.elim (fun listed => listed) fun same => same ▸ known⟩
  · simp

/-- The item of the node is shown anew, and any other one stays. -/
theorem find?_display : (scene.display id d).find? place =
    (scene.find? place).map fun i => if i.id = id then { i with display := some d } else i := by
  have sameId : ∀ i : Item α, (if i.id = id then { i with display := some d } else i).id = i.id := fun i => by split <;> rfl
  simp only [display, find?, List.find?_map, Function.comp_def, sameId]

/-- The item of an id shows the last that it was let show, whatever it is. -/
theorem find?_showEntry : (scene.showEntry entry).find? place =
    if place = entry.1 then some ⟨entry.1, some entry.2⟩ else scene.find? place := by
  have idOf : ∀ {scene : Scene α} {id i}, scene.find? id = some i → i.id = id := fun found => by
    simpa using List.find?_some found
  have others : place ≠ entry.1 → (scene.ensure entry.1).find? place = scene.find? place := fun differs => by
    rw [ensure]
    split
    · rfl
    · simp [find?, List.find?_append, differs.symm]
  have own : ∃ i, (scene.ensure entry.1).find? entry.1 = some i :=
    Option.isSome_iff_exists.mp (isSome_find?.mpr (mem_ids_ensure.mpr (.inr rfl)))
  rw [showEntry, find?_display]
  split
  · next here =>
      obtain ⟨i, found⟩ := own
      rw [here, found, Option.map_some, if_pos (idOf found), idOf found]
  · next differs =>
      rw [others differs]
      cases found : scene.find? place with
      | none => rfl
      | some i => rw [Option.map_some, if_neg (idOf found ▸ differs)]

/-- The items are the old ones and those that are shown. -/
theorem mem_ids_showAll : id ∈ (scene.showAll entries).ids ↔ id ∈ scene.ids ∨ id ∈ entries.map Prod.fst := by
  induction entries generalizing scene with
  | nil => simp [showAll]
  | cons entry rest ih =>
      have step : id ∈ (scene.showEntry entry).ids ↔ id ∈ scene.ids ∨ id = entry.1 := by
        rw [showEntry, ids_display, mem_ids_ensure]
      rw [showAll, List.foldl_cons, ← showAll, ih, step, List.map_cons, List.mem_cons, or_assoc]

/-- Distinct items stay so when entries are shown. -/
theorem distinct_showAll (distinct : scene.ids.Nodup) : (scene.showAll entries).ids.Nodup := by
  induction entries generalizing scene with
  | nil => exact distinct
  | cons entry rest ih =>
      refine ih ?_
      rw [showEntry, ids_display, ids_ensure]
      split
      · exact distinct
      · next new => exact List.nodup_append'.mpr ⟨distinct, List.nodup_singleton _, by simpa using new⟩

/-- An item that is not shown anew stays as it is. -/
theorem find?_showAll_of_notMem (unlisted : id ∉ entries.map Prod.fst) : (scene.showAll entries).find? id = scene.find? id := by
  induction entries generalizing scene with
  | nil => rfl
  | cons entry rest ih =>
      rw [List.map_cons, List.mem_cons, not_or] at unlisted
      rw [showAll, List.foldl_cons, ← showAll, ih unlisted.2, find?_showEntry, if_neg unlisted.1]

/-- What an item was let show does not depend on what there was before. -/
theorem find?_showAll_of_mem (listed : id ∈ entries.map Prod.fst) :
    (scene.showAll entries).find? id = (other.showAll entries).find? id := by
  induction entries generalizing scene other with
  | nil => simp at listed
  | cons entry rest ih =>
      rw [showAll, showAll, List.foldl_cons, List.foldl_cons, ← showAll, ← showAll]
      by_cases later : id ∈ rest.map Prod.fst
      · exact ih later
      · have here : id = entry.1 := (List.mem_cons.mp listed).resolve_right later
        rw [find?_showAll_of_notMem later, find?_showAll_of_notMem later, find?_showEntry, find?_showEntry, if_pos here,
          if_pos here]

/-- Showing the same after all else was dropped leaves the same items, whatever there was before. -/
theorem showAll_keep_perm (distinct : scene.ids.Nodup) (distinct' : other.ids.Nodup) :
    ((scene.keep (entries.map Prod.fst)).showAll entries).items.Perm
      ((other.keep (entries.map Prod.fst)).showAll entries).items := by
  refine perm_of_find? (distinct_showAll (distinct_keep distinct _)) (distinct_showAll (distinct_keep distinct' _))
    fun id => ?_
  by_cases listed : id ∈ entries.map Prod.fst
  · exact find?_showAll_of_mem listed
  · rw [find?_showAll_of_notMem listed, find?_showAll_of_notMem listed, find?_keep, find?_keep, if_neg listed, if_neg listed]

section

variable [Arith α] {s : Session α}

/-- What the items of the listed nodes show, the first of them at place `z`. -/
def entriesOf (s : Session α) : (z : Nat) → List Text → Except Fault (List (Text × Display α))
  | _, [] => .ok []
  | z, id :: rest =>
    match s.store.find? id with
    | none => entriesOf s (z + 1) rest
    | some n => do
      let d ← displayOf s z n
      return (id, d) :: (← entriesOf s (z + 1) rest)

/-- There is one entry for each listed node, in order. -/
theorem map_entriesOf (known : ∀ id ∈ order, id ∈ s.store.ids) (read : entriesOf s z order = .ok entries) :
    entries.map Prod.fst = order := by
  induction order generalizing z entries with
  | nil =>
      obtain rfl := Except.ok.inj read
      rfl
  | cons id rest ih =>
      obtain ⟨n, found⟩ := Store.exists_find? (known id List.mem_cons_self)
      simp only [entriesOf, found] at read
      obtain ⟨d, -, read⟩ := bind_eq_ok.mp read
      obtain ⟨later, read', done⟩ := bind_eq_ok.mp read
      obtain rfl := Except.ok.inj done
      rw [List.map_cons, ih (fun id listed => known id (List.mem_cons_of_mem _ listed)) read']

/-- Making items agree with the session is letting them show what is read from it. -/
theorem ends_showNodes (known : ∀ id ∈ order, id ∈ s.store.ids) :
    (showNodes s z order).Ends scene (fun _ t => ∃ entries, entriesOf s z order = .ok entries ∧ t = scene.showAll entries)
      fun fault _ => entriesOf s z order = .error fault := by
  induction order generalizing z scene with
  | nil => exact ⟨[], rfl, rfl⟩
  | cons id rest ih =>
      obtain ⟨n, found⟩ := Store.exists_find? (known id List.mem_cons_self)
      unfold showNodes
      simp only [Edit.ends_bind, Edit.ends_modify, found, entriesOf, Edit.ends_lift]
      refine ⟨fun d shown => ?_, fun fault failed => by rw [failed]; rfl⟩
      rw [shown]
      refine (ih fun id listed => known id (List.mem_cons_of_mem _ listed)).mono ?_ fun fault t failed => ?_
      · rintro _ t ⟨entries, read, rfl⟩
        exact ⟨(id, d) :: entries, by rw [read]; rfl, rfl⟩
      · rw [failed]
        rfl

/-- The scene has the items of a new one that is refreshed once: one for each node that is drawn. -/
structure Mirrors (scene : Scene α) (s : Session α) : Prop where
  ids : scene.ids.Perm s.store.paintOrder
  distinct : scene.ids.Nodup
  rebuilt : ∃ fresh, refresh s {} = .ok () fresh ∧ scene.items.Perm fresh.items

/-- A refresh keeps the items of the drawing order and shows what each of them is to show. -/
theorem ends_refresh (plain : s.store.IsPlain) (known : ∀ id ∈ s.store.paintOrder, id ∈ s.store.ids) :
    (refresh s).Ends scene
      (fun _ t => ∃ entries, entriesOf s 0 s.store.paintOrder = .ok entries ∧
        t = (scene.keep s.store.paintOrder).showAll entries)
      fun fault _ => entriesOf s 0 s.store.paintOrder = .error fault := by
  unfold refresh
  simp only [Edit.ends_bind]
  refine Edit.ends_lift_ok (Store.checkAllLayers_plain plain) ?_
  exact (Edit.ends_modify _).mpr (ends_showNodes known)

/-- A refresh that returns leaves the scene a mirror, whatever the items have shown before. -/
theorem mirrors_refresh (plain : s.store.IsPlain) (distinct : s.store.ids.Nodup) (unreserved : root ∉ s.store.ids)
    (single : scene.ids.Nodup) : (refresh s).Ends scene (fun _ t => t.Mirrors s) fun _ _ => True := by
  have order := Store.isTreeOrder_paintOrder distinct unreserved plain
  have known : ∀ id ∈ s.store.paintOrder, id ∈ s.store.ids := fun id drawn => ((order.exact id).mp drawn).mem_ids
  refine (ends_refresh plain known).mono ?_ fun _ _ _ => trivial
  rintro _ t ⟨entries, read, rfl⟩
  have listed := map_entriesOf known read
  have single' : ((scene.keep s.store.paintOrder).showAll entries).ids.Nodup := distinct_showAll (distinct_keep single _)
  refine ⟨(List.perm_ext_iff_of_nodup single' order.distinct).mpr fun id => ?_, single', ?_⟩
  · rw [mem_ids_showAll, listed]
    refine or_iff_right_of_imp fun kept => ?_
    obtain ⟨i, isItem, rfl⟩ := List.mem_map.mp kept
    exact List.elem_iff.mp (List.mem_filter.mp isItem).2
  · have fresh : (refresh s).Ends {} (fun _ t => ∃ entries, entriesOf s 0 s.store.paintOrder = .ok entries ∧
        t = (keep {} s.store.paintOrder).showAll entries) fun _ _ => False :=
      (ends_refresh plain known).mono (fun _ _ done => done) fun fault _ failed => by cases read.symm.trans failed
    obtain ⟨_, t, ran, entries', read', rfl⟩ := fresh.ok
    obtain rfl := Except.ok.inj (read.symm.trans read')
    exact ⟨_, ran, listed ▸ showAll_keep_perm single List.nodup_nil⟩

end

end LayoutDesigner.Shell.Scene
