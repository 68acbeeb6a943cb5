import LayoutDesigner.Proofs.Numerals
import LayoutDesigner.Proofs.Standing

/-!
# Extensions by their ids

Extensions are named by ids in the commands that remove them and that set their properties. New ids are
taken from the supply, which gives none twice, so the extensions of a node that is made, copied and edited
have ids of their own. A record may list extensions of one id, and these stay as they are: a command that
names the id then means the first of them, or all. Where no record does so, each extension is
addressed by its id alone.
-/

namespace LayoutDesigner

variable {α : Type} {supply : Nat → Text} {taken : Nat} {ids : List Text}

/-- The ids are distinct, and the supply gives none of them any more. -/
structure AreSpent (supply : Nat → Text) (taken : Nat) (ids : List Text) : Prop where
  distinct : ids.Nodup
  spent : ∀ id ∈ ids, ∀ place, taken ≤ place → supply place ≠ id

namespace AreSpent

/-- Ids that were given before one more was taken were given before that as well. -/
theorem later (spent : AreSpent supply taken ids) : AreSpent supply (taken + 1) ids :=
  ⟨spent.distinct, fun id member place above => spent.spent id member place (by omega)⟩

/-- What holds of the ids of a node holds of some of them. -/
theorem sublist {others : List Text} (spent : AreSpent supply taken ids) (fewer : others.Sublist ids) :
    AreSpent supply taken others :=
  ⟨spent.distinct.sublist fewer, fun id member => spent.spent id (fewer.subset member)⟩

/-- The next id of the supply is none of those that are spent. -/
theorem snoc (fresh : Function.Injective supply) (spent : AreSpent supply taken ids) :
    AreSpent supply (taken + 1) (ids ++ [supply taken]) where
  distinct := by
    rw [← List.concat_eq_append, List.nodup_concat]
    exact ⟨fun member => spent.spent _ member taken (Nat.le_refl _) rfl, spent.distinct⟩
  spent := by
    intro id member place above
    rcases List.mem_append.mp member with before | last
    · exact spent.later.spent id before place above
    · obtain rfl := List.mem_singleton.mp last
      exact fun same => absurd (fresh same) (by omega)

/-- The ids that are taken next are spent once they are taken. -/
theorem taking (fresh : Function.Injective supply) (taken count : Nat) :
    AreSpent supply (taken + count) ((List.range count).map fun i => supply (taken + i)) := by
  induction count with
  | zero => exact ⟨List.nodup_nil, fun _ member => (List.not_mem_nil member).elim⟩
  | succ count ih =>
      rw [List.range_succ, List.map_append, List.map_singleton]
      exact ih.snoc fresh

end AreSpent

/-- The ids of the node's extensions. -/
def Node.extensionIds (n : Node α) : List Text := n.extensions.map Extension.id

variable [Arith α]

namespace Node

variable {n m : Node α}

omit [Arith α] in
/-- Extensions that are given as many new ids have these ids. -/
theorem extensionIds_relabelExtensions (sameLength : ids.length = n.extensions.length) :
    (n.relabelExtensions ids).extensionIds = ids := by
  have relabelled : (n.relabelExtensions ids).extensionIds = (n.extensions.zip ids).map Prod.snd := by
    simp [extensionIds, relabelExtensions, List.map_map, Function.comp_def]
  rw [relabelled, List.map_snd_zip (Nat.le_of_eq sameLength)]

omit [Arith α] in
/-- Writing a property of an extension changes no id. -/
theorem extensionIds_writeProp (extensions : List (Extension α)) (place : Nat) (key : Text) (value : Value α) :
    (Session.writeProp extensions place key value).map Extension.id = extensions.map Extension.id := by
  refine List.ext_getElem (by simp [Session.writeProp]) fun i _ _ => ?_
  simp only [Session.writeProp, List.getElem_map, List.getElem_modify]
  split <;> rfl

/-- The extensions that the record gives, at whatever depth it is read, have ids of their own, none of which
the supply gives later. -/
def GivesAddressed (supply : Nat → Text) (taken : Nat) (d : List (Text × Value α)) : Prop :=
  ∀ depth extensions, readExtensions (Value.field "uiObjects" d) depth = .ok extensions →
    AreSpent supply taken (extensions.map Extension.id)

/-- However a node came about, its extensions have ids of their own. -/
theorem Arises.spent (fresh : Function.Injective supply)
    (arises : n.Arises supply (GivesAddressed supply) taken) : AreSpent supply taken n.extensionIds := by
  induction arises with
  | created source =>
      rw [extensionIds, source.extensions]
      exact ⟨List.nodup_nil, fun _ member => (List.not_mem_nil member).elim⟩
  | read gives source => exact gives _ _ source.extensions
  | later _ spent => exact spent.later
  | reshaped _ step spent =>
      rw [extensionIds, step.common Node.extensions fun _ _ => rfl]
      exact spent
  | setField _ written spent =>
      rw [extensionIds, extensions_setField written]
      exact spent
  | relabelled _ _ =>
      rw [extensionIds_relabelExtensions (by simp)]
      exact .taking fresh _ _
  | extended kind _ spent =>
      rw [extensionIds, List.map_append]
      exact spent.snoc fresh
  | filtered stays _ spent => exact spent.sublist (List.filter_sublist.map _)
  | writeProp place key value _ spent =>
      rw [extensionIds, extensionIds_writeProp]
      exact spent
  | setParent _ _ spent | setZ _ _ spent | setText _ _ spent | renamed _ _ spent => exact spent

end Node

namespace Session

variable {s : Session α} {n : Node α} {before after : List (Extension α)} {e : Extension α}

omit [Arith α] in
/-- No extension before or after the one has its id. -/
theorem id_ne_of_listed (own : n.extensionIds.Nodup) (listed : n.extensions = before ++ e :: after) :
    (∀ other ∈ before, other.id ≠ e.id) ∧ ∀ other ∈ after, other.id ≠ e.id := by
  rw [Node.extensionIds, listed, List.map_append, List.map_cons, List.nodup_append, List.nodup_cons] at own
  obtain ⟨-, ⟨notAfter, -⟩, apart⟩ := own
  exact ⟨fun other member => apart _ (List.mem_map_of_mem member) _ List.mem_cons_self,
    fun other member same => notAfter (same ▸ List.mem_map_of_mem member)⟩

omit [Arith α] in
/-- Leaving out an id leaves out one extension. -/
theorem filter_of_listed (own : n.extensionIds.Nodup) (listed : n.extensions = before ++ e :: after) :
    n.extensions.filter (fun other => other.id ≠ e.id) = before ++ after := by
  obtain ⟨notBefore, notAfter⟩ := id_ne_of_listed own listed
  rw [listed, List.filter_append, List.filter_cons_of_neg (by simp), List.filter_eq_self.mpr (by simpa using notBefore),
    List.filter_eq_self.mpr (by simpa using notAfter)]

omit [Arith α] in
/-- The first extension of an id is the one that has it. -/
theorem findIdx_of_listed (own : n.extensionIds.Nodup) (listed : n.extensions = before ++ e :: after) :
    (n.extensions.findIdx fun other => other.id = e.id) = before.length := by
  obtain ⟨notBefore, -⟩ := id_ne_of_listed own listed
  have passed : (before.findIdx fun other => other.id = e.id) = before.length :=
    List.findIdx_eq_length_of_false (by simpa using notBefore)
  rw [listed, List.findIdx_append, passed, if_neg (Nat.lt_irrefl _), List.findIdx_cons]
  simp

/-- Removing an extension of known place leaves those before and after it. -/
theorem removeExtension_eq (distinct : s.store.ids.Nodup) (isNode : n ∈ s.store.nodes) (own : n.extensionIds.Nodup)
    (listed : n.extensions = before ++ e :: after) :
    ∃ t, run (.removeExtension (.str n.id) (.str e.id)) s = .ok (.bool true) t ∧
      t.store = s.store.modifyNode n.id ({ · with extensions := before ++ after }) := by
  have found : s.store.lookup (some n.id) = some n := Store.find?_of_mem distinct isNode
  have kept : n.extensions.filter (fun other => other.id ≠ (Value.str e.id : Value α).idText) = before ++ after :=
    filter_of_listed own listed
  have shorter : ((before ++ after).length != n.extensions.length) = true := by
    simp [listed]
  have ran : (run (.removeExtension (.str n.id) (.str e.id))).Ends s
      (fun answer t => answer = .bool true ∧ t.store = s.store.modifyNode n.id ({ · with extensions := before ++ after }))
      fun _ _ => False := by
    simp only [run, removeExtension, notifying, Edit.ends_bind, Edit.ends_get]
    have isId : (Value.str n.id : Value α).asId = .ok (some n.id) := rfl
    refine Edit.ends_lift_ok isId ?_
    simp only [found, kept, shorter]
    exact ⟨rfl, rfl⟩
  obtain ⟨answer, t, ran, rfl, store⟩ := ran.ok
  exact ⟨t, ran, store⟩

/-- At most the properties of one extension are others than they were. -/
def SparesOthers (s : Session α) (n : Node α) (before : List (Extension α)) (e : Extension α)
    (after : List (Extension α)) (t : Session α) : Prop :=
  ∃ e', e'.id = e.id ∧ e'.kind = e.kind ∧
    t.store = s.store.modifyNode n.id ({ · with extensions := before ++ e' :: after })

omit [Arith α] in
/-- A session spares the others of an extension of its own node. -/
theorem sparesOthers_self (distinct : s.store.ids.Nodup) (isNode : n ∈ s.store.nodes)
    (listed : n.extensions = before ++ e :: after) : SparesOthers s n before e after s := by
  refine ⟨e, rfl, rfl, ?_⟩
  have same : s.store.modifyNode n.id ({ · with extensions := n.extensions }) = s.store.modifyNode n.id fun n => n :=
    Store.modifyNode_congr distinct isNode rfl
  rw [← listed, same, Store.modifyNode_id]

/-- Whatever is set, and also where that fails, only the extension of the id is written. -/
theorem leaves_setExtensionProp (distinct : s.store.ids.Nodup) (isNode : n ∈ s.store.nodes)
    (own : n.extensionIds.Nodup) (listed : n.extensions = before ++ e :: after) (key value : Value α) :
    (Session.setExtensionProp (.str n.id) (.str e.id) key value).Leaves s (SparesOthers s n before e after) := by
  have found : s.store.lookup (some (Value.str n.id : Value α).idText) = some n := Store.find?_of_mem distinct isNode
  have place : (n.extensions.findIdx fun other => other.id = (Value.str e.id : Value α).idText) = before.length :=
    findIdx_of_listed own listed
  have present : n.extensions[before.length]? = some e := by simp [listed]
  have written : ∀ key value, writeProp n.extensions before.length key value =
      before ++ { e with props := Value.setMember key value e.props } :: after := fun key value => by
    simp [writeProp, listed, List.modify_eq_take_cons_drop]
  have unchanged : SparesOthers s n before e after s := sparesOthers_self distinct isNode listed
  refine leaves_notifying (Edit.leaves_get (Edit.leaves_lift unchanged fun id? isId => ?_)) fun _ spared => spared
  obtain rfl := Except.ok.inj isId
  simp only [found, place, present]
  refine Edit.leaves_lift unchanged fun key? _ => ?_
  split
  · next key isPresent _ =>
      split
      · exact Edit.leaves_pure unchanged false
      · refine Edit.leaves_lift unchanged fun coerced _ => ?_
        split
        · exact Edit.leaves_throw unchanged _
        · refine Edit.Leaves.bind (Session.ends_onStore.mpr (Edit.leaves_modify ?_)) fun _ _ spared =>
            Edit.leaves_pure spared true
          refine ⟨{ e with props := Value.setMember key coerced e.props }, rfl, rfl, ?_⟩
          exact Store.modifyNode_congr distinct isNode (by simp [written])
  · exact Edit.leaves_pure unchanged false

/-- **Extensions are addressed by their ids.** Take a supply that gives no id twice, and commands that are
run in a new session, some of which may fail, where the extensions of every record that is loaded have
ids of their own which the supply does not give later. Then the extensions of every node have distinct
ids. Removing one by its id removes it and keeps the others in their order, and setting a property of one,
whether it succeeds or not, changes no other. -/
theorem addressed_of_runAll (canvas : Value α × Value α) (leastSide duplicateOffset zoomRange : Value α) (zoom : α)
    (defaults : Project α) {supply : Nat → Text} (fresh : Function.Injective supply) (depth : Nat)
    (commands : List (Command α)) (admits : Admits (Node.GivesAddressed supply) commands
      (new canvas leastSide duplicateOffset zoom zoomRange defaults supply depth)) :
    let s := runAll commands (new canvas leastSide duplicateOffset zoom zoomRange defaults supply depth)
    ∀ n ∈ s.store.nodes, n.extensionIds.Nodup ∧ ∀ before e after, n.extensions = before ++ e :: after →
      (∃ t, run (.removeExtension (.str n.id) (.str e.id)) s = .ok (.bool true) t ∧
        t.store = s.store.modifyNode n.id ({ · with extensions := before ++ after })) ∧
      ∀ key value, ∃ e', e'.id = e.id ∧ e'.kind = e.kind ∧
        (Edit.state (run (.setExtensionProp (.str n.id) (.str e.id) key value) s)).store =
          s.store.modifyNode n.id ({ · with extensions := before ++ e' :: after }) := by
  intro s n isNode
  have stands : s.Stands supply (Node.GivesAddressed supply) := stands_new.runAll admits
  have own := ((stands.store.nodes n isNode).arises.spent fresh).distinct
  refine ⟨own, fun before e after listed => ⟨?_, fun key value => ?_⟩⟩
  · exact removeExtension_eq stands.store.distinct isNode own listed
  · have leaves := leaves_setExtensionProp stands.store.distinct isNode own listed key value
    exact (leaves.bind fun _ _ spared => Edit.leaves_pure spared _).state

/-- A document with one frame, which has a corner under each of the ids. -/
def cornered (ids : List Text) : Value Number :=
  .obj [("nodes", .arr [.obj [("id", .str "a"), ("type", .str "Frame"),
    ("uiObjects", .arr (ids.map fun id => .obj [("id", .str id), ("type", .str "UICorner")]))]])]

/-- A corner that was loaded is removed and leaves the scale that was added. -/
theorem addressed_of_runAll_cornered :
    let s := runAll [.loadSnapshot (cornered ["e"]), .select (.str "a"), .addExtension (.str "UIScale")] opened
    ∃ n ∈ s.store.nodes, n.extensionIds = [("e" : Text), ("n0" : Text)] ∧ n.extensionIds.Nodup ∧
      ∃ t scale, run (.removeExtension (.str n.id) (.str "e")) s = .ok (.bool true) t ∧ scale.id = ("n0" : Text) ∧
        t.store = s.store.modifyNode n.id ({ · with extensions := [scale] }) := by
  intro s
  have seen : s.store.nodes.map Node.extensionIds = [[("e" : Text), ("n0" : Text)]] := by decide +kernel
  obtain ⟨n, single, extensionIds⟩ := List.map_eq_singleton_iff.mp seen
  have isNode : n ∈ s.store.nodes := by simp [single]
  obtain ⟨corner, others, listed, isCorner, rest⟩ := List.map_eq_cons_iff.mp extensionIds
  obtain ⟨scale, rfl, isScale⟩ := List.map_eq_singleton_iff.mp rest
  have fresh : Function.Injective opened.idSupply := fun _ _ same =>
    Text.ofNat_injective (List.append_cancel_left same)
  have admits : Admits (Node.GivesAddressed opened.idSupply)
      [.loadSnapshot (cornered ["e"]), .select (.str "a"), .addExtension (.str "UIScale")] opened := by
    refine ⟨fun d isRecord depth extensions read => ?_, trivial, trivial, trivial⟩
    obtain rfl := Value.obj.inj (List.mem_singleton.mp isRecord)
    obtain rfl := Except.ok.inj read
    refine ⟨List.nodup_singleton _, fun id member place _ same => ?_⟩
    obtain rfl := List.mem_singleton.mp member
    exact absurd (List.head_eq_of_cons_eq same) (by decide)
  obtain ⟨own, addressed⟩ := addressed_of_runAll _ _ _ _ _ _ fresh _ _ admits n isNode
  obtain ⟨⟨t, ran, store⟩, -⟩ := addressed [] corner [scale] listed
  exact ⟨n, isNode, extensionIds, own, t, scale, isCorner ▸ ran, isScale, store⟩

/-- The session after a document was loaded that gives a frame two extensions of one id. -/
def doubled : Session Number := Edit.state (loadSnapshot (cornered ["e", "e"]) opened)

/-- Two extensions of one id are removed with one another. -/
theorem not_addressed_of_loaded : loadSnapshot (cornered ["e", "e"]) opened = .ok true doubled ∧
    doubled.store.nodes.map Node.extensionIds = [[("e" : Text), ("e" : Text)]] ∧
    ∃ t, removeExtension (.str "a") (.str "e") doubled = .ok true t ∧ t.store.nodes.map Node.extensionIds = [[]] := by
  have loaded : (Edit.answer (loadSnapshot (cornered ["e", "e"]) opened)).toOption = some true := by decide +kernel
  have removed : (Edit.answer (removeExtension (.str "a") (.str "e") doubled)).toOption = some true := by decide +kernel
  exact ⟨Edit.eq_ok_of_answer loaded, by decide +kernel, _, Edit.eq_ok_of_answer removed, by decide +kernel⟩

end Session

end LayoutDesigner
