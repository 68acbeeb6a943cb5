import LayoutDesigner.Proofs.EditedProperty
import LayoutDesigner.Proofs.Loading

/-!
# What is wrong with a document stays where it is

A document is refused for its shape: it has to be an object with an array of nodes, and its other members
have to be of their types where they are given. In a document of this shape nothing that is wrong with
one member reaches another. Every record gives a node or a message about its place, what is of no use in a
project or as a zoom is replaced by a default, and a selection that is not there is none.
-/

namespace LayoutDesigner

open Arith (clamp isFinite isWhole lt ofInt one toReal)

variable {α : Type} {depth : Nat}

/-- The members of a project are of their types where they are given. -/
structure Project.IsShaped (d : List (Text × Value α)) : Prop where
  guiName : ∀ v, Value.member? "guiName" d = some v → ∃ t, v = .str t
  resetOnSpawn : ∀ v, Value.member? "resetOnSpawn" d = some v → ∃ b, v = .bool b
  runtimeParent : ∀ v, Value.member? "parent" d = some v → ∃ t, v = .str t
  outputMode : ∀ v, Value.member? "outputMode" d = some v → ∃ t, v = .str t

/-- The document is an object with an array of nodes, and what else it has is of its type. -/
structure Snapshot.IsShaped [Arith α] (data : Value α) : Prop where
  nodes : ∃ records, data.get? "nodes" = some (.arr records)
  version : ∀ v, data.get? "version" = some v → ∃ n, v = .num n ∧ isWhole n ∧ lt n (ofInt 1) = false
  project : ∀ v, data.get? "project" = some v → ∃ d, v = .obj d ∧ Project.IsShaped d
  selectedId : ∀ v, data.get? "selectedId" = some v → v = .null ∨ ∃ id, v = .str id
  zoom : ∀ v, data.get? "zoom" = some v → v = .null ∨ ∃ n, v = .num n
  showSafeArea : ∀ v, data.get? "showSafeArea" = some v → ∃ b, v = .bool b

variable [Arith α]

namespace Schema

variable {v : Value α} {key : Text} {path : List Step} {shapes : List Shape}

omit [Arith α] in
/-- A rule for a member finds nothing exactly where it finds nothing in the member that there is. -/
theorem onMember_eq_nil {rule : List Step → Value α → List Problem} :
    onMember key rule path v = [] ↔ ∀ w, v.get? key = some w → rule (path ++ [.member key]) w = [] := by
  rw [onMember]
  cases v.get? key with
  | none => simp
  | some w => simp

/-- What it is to be of a shape. -/
def Shape.Holds (v : Value α) : Shape → Prop
  | .object => ∃ members, v = .obj members
  | .array => ∃ items, v = .arr items
  | .string => ∃ t, v = .str t
  | .integer => ∃ n, v = .num n ∧ isWhole n
  | .number => ∃ n, v = .num n
  | .boolean => ∃ b, v = .bool b
  | .null => v = .null

/-- A value has a shape exactly where what this means holds of it. -/
theorem hasShape_iff {shape : Shape} : hasShape v shape ↔ shape.Holds v := by
  cases shape <;> cases v <;> simp [hasShape, Shape.Holds]

/-- A value is of one of the shapes exactly where no problem is found. -/
theorem ofShapes_eq_nil : ofShapes shapes path v = [] ↔ ∃ shape ∈ shapes, shape.Holds v := by
  simp only [← hasShape_iff]
  rw [ofShapes]
  split
  · next fits => simpa using fits
  · next fits => simpa using fits

/-- A version is a whole number that is one at least. -/
theorem isVersion_iff : (∃ n, v = .num n ∧ isWhole n) ∧ atLeast 1 path v = [] ↔
    ∃ n, v = .num n ∧ isWhole n ∧ lt n (ofInt 1) = false := by
  cases v <;> simp [atLeast]

/-- A project has no problems exactly where it is an object whose members are shaped. -/
theorem projectProblems_eq_nil : projectProblems path v = [] ↔ ∃ d, v = .obj d ∧ Project.IsShaped d := by
  simp only [projectProblems, List.append_eq_nil_iff, onMember_eq_nil, ofShapes_eq_nil, List.mem_singleton, exists_eq_left,
    Shape.Holds]
  constructor
  · rintro ⟨⟨⟨⟨⟨d, rfl⟩, guiName⟩, resetOnSpawn⟩, runtimeParent⟩, outputMode⟩
    exact ⟨d, rfl, guiName, resetOnSpawn, runtimeParent, outputMode⟩
  · rintro ⟨d, rfl, guiName, resetOnSpawn, runtimeParent, outputMode⟩
    exact ⟨⟨⟨⟨⟨d, rfl⟩, guiName⟩, resetOnSpawn⟩, runtimeParent⟩, outputMode⟩

/-- The schema of snapshots finds nothing exactly in documents of their shape. -/
theorem snapshotProblems_eq_nil_iff : snapshotProblems v = [] ↔ Snapshot.IsShaped v := by
  simp only [snapshotProblems_eq_nil, snapshotFindings, List.append_eq_nil_iff, onMember_eq_nil, isVersion_iff,
    projectProblems_eq_nil, ofShapes_eq_nil, List.mem_cons, List.not_mem_nil, or_false, exists_eq_or_imp, exists_eq_left,
    Shape.Holds]
  constructor
  · rintro ⟨⟨⟨⟨⟨⟨⟨⟨members, rfl⟩, given⟩, version⟩, project⟩, nodes⟩, selectedId⟩, zoom⟩, showSafeArea⟩
    obtain ⟨records, found⟩ := exists_of_needs given
    obtain ⟨items, rfl⟩ := nodes records found
    exact ⟨⟨items, found⟩, version, project, fun w found => (selectedId w found).symm,
      fun w found => (zoom w found).symm, showSafeArea⟩
  · rintro ⟨⟨records, found⟩, version, project, selectedId, zoom, showSafeArea⟩
    cases v with
    | obj members =>
        refine ⟨⟨⟨⟨⟨⟨⟨⟨members, rfl⟩, ?_⟩, version⟩, project⟩, fun w found' => ?_⟩, fun w found' => (selectedId w found').symm⟩,
          fun w found' => (zoom w found').symm⟩, showSafeArea⟩
        · rw [Value.get?] at found
          simp [needs, found]
        · exact ⟨records, Option.some.inj (found'.symm.trans found)⟩
    | _ => cases found

end Schema

namespace Snapshot

variable {data record : Value α} {records rest : List (Value α)} {seen dropped : List Text} {i j : Nat}
  {n m : Node α} {nodes : List (Node α)} {kept : List (Nat × Node α)} {lost : List (Nat × Text)} {reason : Text}

/-- The record obeys the schema of records and gives the node. -/
def Gives (depth : Nat) (record : Value α) (n : Node α) : Prop :=
  Schema.recordProblems record = [] ∧ Node.ofRecord record depth = .ok n

/-- The record at a place gives the node. -/
def GivesAt (depth : Nat) (records : List (Value α)) (i : Nat) (n : Node α) : Prop :=
  ∃ record, records[i]? = some record ∧ Gives depth record n

/-- The record at a place gives the node, and none before gives a node of its id. -/
def IsFirst (depth : Nat) (records : List (Value α)) (i : Nat) (n : Node α) : Prop :=
  GivesAt depth records i n ∧ ∀ j < i, ∀ m, GivesAt depth records j m → m.id ≠ n.id

/-- Why the record at a place is left out: it breaks the schema of records, and the first rule that it breaks is
said, or a record before it gives a node of its id. -/
inductive LeavesOut (depth : Nat) (records : List (Value α)) (i : Nat) : Text → Prop where
  | broken {record : Value α} {p : Schema.Problem} {others : List Schema.Problem} (isRecord : records[i]? = some record)
      (problems : Schema.recordProblems record = p :: others) : LeavesOut depth records i p.message
  | repeated {n m : Node α} {j : Nat} (gives : GivesAt depth records i n) (before : j < i)
      (earlier : GivesAt depth records j m) (same : m.id = n.id) :
      LeavesOut depth records i (("duplicate id " : Text) ++ n.id.quoted)

/-- The message about the record at a place that was left out. -/
def message (lost : Nat × Text) : Text := ("nodes[" : Text) ++ Text.ofNat lost.1 ++ ("]: " : Text) ++ lost.2

/-- The places of records are divided in order into those that give nodes, which are the first ones of each
id, and those that are left out, each once and for a reason. -/
structure Accounts (depth : Nat) (records : List (Value α)) (kept : List (Nat × Node α))
    (lost : List (Nat × Text)) : Prop where
  keptInOrder : (kept.map Prod.fst).Pairwise (· < ·)
  lostInOrder : (lost.map Prod.fst).Pairwise (· < ·)
  kept_iff : ∀ i n, (i, n) ∈ kept ↔ IsFirst depth records i n
  lost_iff : ∀ i, i ∈ lost.map Prod.fst ↔ i < records.length ∧ i ∉ kept.map Prod.fst
  reasons : ∀ i reason, (i, reason) ∈ lost → LeavesOut depth records i reason

/-- A record gives no more than one node. -/
theorem Gives.unique (gives : Gives depth record n) (gives' : Gives depth record m) : n = m :=
  Except.ok.inj (gives.2.symm.trans gives'.2)

/-- Only the place of a record gives a node. -/
theorem GivesAt.lt (gives : GivesAt depth records i n) : i < records.length := by
  obtain ⟨record, found, -⟩ := gives
  exact (List.getElem?_eq_some_iff.mp found).1

/-- More records at the end change nothing about those before. -/
theorem givesAt_append (inside : i < records.length) :
    GivesAt depth (records ++ rest) i n ↔ GivesAt depth records i n := by
  rw [GivesAt, List.getElem?_append_left inside, GivesAt]

/-- What a place gives is still given with more records at the end. -/
theorem GivesAt.append (gives : GivesAt depth records i n) : GivesAt depth (records ++ rest) i n :=
  (givesAt_append gives.lt).mpr gives

/-- The last place gives what the last record gives. -/
theorem givesAt_length : GivesAt depth (records ++ [record]) records.length n ↔ Gives depth record n := by
  simp [GivesAt]

/-- What comes first is still first with more records at the end, and the other way round. -/
theorem isFirst_append (inside : i < records.length) :
    IsFirst depth (records ++ rest) i n ↔ IsFirst depth records i n := by
  refine and_congr (givesAt_append inside) (forall₂_congr fun j before => forall_congr' fun m => ?_)
  rw [givesAt_append (before.trans inside)]

/-- With one more record, the places that give nodes stay, and at most its own is new. -/
theorem isFirst_concat : IsFirst depth (records ++ [record]) i n ↔
    IsFirst depth records i n ∨ i = records.length ∧ IsFirst depth (records ++ [record]) i n := by
  refine ⟨fun first => ?_, fun either => ?_⟩
  · have inside := first.1.lt
    rw [List.length_append, List.length_singleton, Nat.lt_succ_iff_lt_or_eq] at inside
    exact inside.imp (fun inside => (isFirst_append inside).mp first) fun here => ⟨here, first⟩
  · exact either.elim (fun first => (isFirst_append first.1.lt).mpr first) And.right

/-- Places that are in order stay so with one more at the end. -/
theorem pairwise_concat {β : Type} {entries : List (Nat × β)} {x : β} (inOrder : (entries.map Prod.fst).Pairwise (· < ·))
    (before : ∀ place ∈ entries.map Prod.fst, place < i) : ((entries ++ [(i, x)]).map Prod.fst).Pairwise (· < ·) := by
  rw [List.map_append, List.pairwise_append]
  refine ⟨inOrder, List.pairwise_singleton .., fun place listed last isLast => ?_⟩
  exact List.mem_singleton.mp isLast ▸ before place listed

/-- A record that is left out gives no node that is kept. -/
theorem LeavesOut.not_isFirst (leavesOut : LeavesOut depth records i reason) : ¬IsFirst depth records i n := by
  rintro ⟨⟨record, found, gives⟩, first⟩
  cases leavesOut with
  | broken isRecord problems =>
      obtain rfl := Option.some.inj (isRecord.symm.trans found)
      rw [gives.1] at problems
      cases problems
  | repeated gives' before earlier same =>
      obtain ⟨record', found', gives'⟩ := gives'
      obtain rfl := Option.some.inj (found'.symm.trans found)
      exact first _ before _ earlier (gives'.unique gives ▸ same)

/-- What is left out is still left out with more records at the end. -/
theorem LeavesOut.append (leavesOut : LeavesOut depth records i reason) :
    LeavesOut depth (records ++ rest) i reason := by
  cases leavesOut with
  | broken isRecord problems =>
      have inside := (List.getElem?_eq_some_iff.mp isRecord).1
      exact .broken ((List.getElem?_append_left inside).trans isRecord) problems
  | repeated gives before earlier same => exact .repeated gives.append before earlier.append same

namespace Accounts

/-- Of no records nothing has to be accounted for. -/
theorem nil : Accounts depth ([] : List (Value α)) [] [] where
  keptInOrder := .nil
  lostInOrder := .nil
  kept_iff _ _ := iff_of_false List.not_mem_nil fun first => absurd first.1.lt (Nat.not_lt_zero _)
  lost_iff _ := iff_of_false List.not_mem_nil fun both => absurd both.1 (Nat.not_lt_zero _)
  reasons _ _ listed := absurd listed List.not_mem_nil

/-- Only places of records are kept. -/
theorem kept_lt (accounts : Accounts depth records kept lost) (listed : i ∈ kept.map Prod.fst) :
    i < records.length := by
  obtain ⟨entry, isEntry, rfl⟩ := List.mem_map.mp listed
  exact ((accounts.kept_iff entry.1 entry.2).mp isEntry).1.lt

/-- Only places of records are lost. -/
theorem lost_lt (accounts : Accounts depth records kept lost) (listed : i ∈ lost.map Prod.fst) : i < records.length :=
  ((accounts.lost_iff i).mp listed).1

/-- Whatever record gives a node, one of that id is kept. -/
theorem exists_kept (accounts : Accounts depth records kept lost) (gives : GivesAt depth records i m) :
    ∃ entry ∈ kept, entry.2.id = m.id := by
  induction i using Nat.strong_induction_on generalizing m with
  | h i ih =>
      by_cases first : IsFirst depth records i m
      · exact ⟨(i, m), (accounts.kept_iff i m).mpr first, rfl⟩
      · -- A record that is not the first of its id has another one before it.
        simp only [IsFirst, gives, true_and, not_forall, not_not] at first
        obtain ⟨j, before, k, gives', same⟩ := first
        obtain ⟨entry, listed, isId⟩ := ih j before gives'
        exact ⟨entry, listed, isId.trans same⟩

/-- The next record gives a node of a new id. -/
theorem keep (accounts : Accounts depth records kept lost) (gives : Gives depth record n)
    (fresh : ∀ entry ∈ kept, entry.2.id ≠ n.id) :
    Accounts depth (records ++ [record]) (kept ++ [(records.length, n)]) lost where
  keptInOrder := pairwise_concat accounts.keptInOrder fun _ => accounts.kept_lt
  lostInOrder := accounts.lostInOrder
  kept_iff i m := by
    have here : IsFirst depth (records ++ [record]) records.length n := by
      refine ⟨givesAt_length.mpr gives, fun j before k earlier same => ?_⟩
      obtain ⟨entry, listed, isId⟩ := accounts.exists_kept ((givesAt_append before).mp earlier)
      exact fresh entry listed (isId.trans same)
    rw [List.mem_append, accounts.kept_iff, List.mem_singleton, Prod.mk.injEq, isFirst_concat]
    refine or_congr_right ⟨?_, ?_⟩
    · rintro ⟨rfl, rfl⟩
      exact ⟨rfl, here⟩
    · rintro ⟨rfl, first⟩
      exact ⟨rfl, (givesAt_length.mp first.1).unique gives⟩
  lost_iff i := by
    rw [accounts.lost_iff, List.length_append, List.length_singleton, List.map_append, List.mem_append, List.map_singleton,
      List.mem_singleton]
    constructor
    · rintro ⟨inside, other⟩
      exact ⟨inside.trans (Nat.lt_succ_self _), not_or.mpr ⟨other, inside.ne⟩⟩
    · rintro ⟨inside, others⟩
      rw [not_or] at others
      exact ⟨Nat.lt_of_le_of_ne (Nat.le_of_lt_succ inside) others.2, others.1⟩
  reasons i reason listed := (accounts.reasons i reason listed).append

/-- The next record is left out. -/
theorem leaveOut (accounts : Accounts depth records kept lost)
    (leavesOut : LeavesOut depth (records ++ [record]) records.length reason) :
    Accounts depth (records ++ [record]) kept (lost ++ [(records.length, reason)]) where
  keptInOrder := accounts.keptInOrder
  lostInOrder := pairwise_concat accounts.lostInOrder fun _ => accounts.lost_lt
  kept_iff i m := by
    rw [accounts.kept_iff, isFirst_concat, or_iff_left]
    rintro ⟨rfl, first⟩
    exact leavesOut.not_isFirst first
  lost_iff i := by
    have apart : records.length ∉ kept.map Prod.fst := fun listed => (accounts.kept_lt listed).false
    rw [List.map_append, List.mem_append, accounts.lost_iff, List.length_append, List.length_singleton, List.map_singleton,
      List.mem_singleton]
    constructor
    · rintro (⟨inside, other⟩ | rfl)
      · exact ⟨inside.trans (Nat.lt_succ_self _), other⟩
      · exact ⟨Nat.lt_succ_self _, apart⟩
    · rintro ⟨inside, other⟩
      exact (Nat.lt_succ_iff_lt_or_eq.mp inside).imp_left fun inside => ⟨inside, other⟩
  reasons i reason' listed := by
    rcases List.mem_append.mp listed with before | last
    · exact (accounts.reasons i reason' before).append
    · obtain ⟨rfl, rfl⟩ := Prod.mk.inj (List.mem_singleton.mp last)
      exact leavesOut

end Accounts

/-- Reading records accounts for them one by one. What is read already is accounted for, and `seen` are the ids of
the nodes that were kept of it. -/
theorem accounts_readRecords [Arith.Refuses α] [Arith.Lawful α] (accounts : Accounts depth records kept lost)
    (seen_iff : ∀ id, id ∈ seen ↔ ∃ entry ∈ kept, entry.2.id = id)
    (read : readRecords depth seen records.length rest = .ok (nodes, dropped)) :
    ∃ kept' lost', Accounts depth (records ++ rest) (kept ++ kept') (lost ++ lost') ∧ nodes = kept'.map Prod.snd ∧
      dropped = lost'.map message := by
  rw [readRecords_iff] at read
  -- The place of the next record is the number of those that are accounted for.
  generalize isPlace : records.length = place at read
  induction read generalizing records kept lost with
  | nil => exact ⟨[], [], by simpa using accounts, rfl, rfl⟩
  | @keep _ _ _ record n _ _ isKept _ ih =>
      subst isPlace
      obtain ⟨obeys, isRecord, fresh⟩ := readRecord_ok isKept
      have step := accounts.keep ⟨obeys, isRecord⟩ fun entry listed same =>
        fresh ((seen_iff n.id).mpr ⟨entry, listed, same⟩)
      obtain ⟨kept', lost', all, rfl, rfl⟩ := ih step (fun id => by simp [seen_iff, or_comm, eq_comm]) (by simp)
      exact ⟨(records.length, n) :: kept', lost', by simpa using all, rfl, rfl⟩
  | @drop _ _ _ record reason _ _ isLost _ ih =>
      subst isPlace
      have here : (records ++ [record])[records.length]? = some record := by simp
      have leavesOut : LeavesOut depth (records ++ [record]) records.length reason := by
        rcases readRecord_error isLost with ⟨p, others, problems, rfl⟩ | ⟨n, obeys, isRecord, before, rfl⟩
        · exact .broken here problems
        · obtain ⟨⟨j, m⟩, listed, same⟩ := (seen_iff n.id).mp before
          have earlier := ((accounts.kept_iff j m).mp listed).1
          exact .repeated ⟨record, here, obeys, isRecord⟩ earlier.lt earlier.append same
      obtain ⟨kept', lost', all, rfl, rfl⟩ := ih (accounts.leaveOut leavesOut) seen_iff (by simp)
      exact ⟨kept', (records.length, reason) :: lost', by simpa using all, rfl, rfl⟩

end Snapshot

/-- A repair puts a node at most under the root and somewhere else, in another size and on another layer. -/
structure Node.IsRepaired (rehomed : List Text) (n m : Node α) : Prop where
  link : m.link = if n.id ∈ rehomed then { n.link with parent := root } else n.link
  others : Node.DiffersIn (.parent :: .zIndex :: Attribute.measures) n m

/-- Another parent is a difference in the parent. -/
theorem Node.DiffersIn.of_parent (n : Node α) (parent : Text) : DiffersIn [.parent] n { n with parent } := by
  refine ⟨rfl, rfl, fun a other => ?_⟩
  cases a <;> first | rfl | exact absurd (by decide) other

/-- What a repair can make of one of some nodes goes by nothing that a repair changes. -/
theorem Node.lasting_differs (nodes : List (Node α)) : Node.Lasting fun m : Node α => m.unchecked = [] ∧
    ∃ n ∈ nodes, n.id = m.id ∧ Node.DiffersIn (.parent :: .zIndex :: Attribute.measures) n m where
  reshaped := by
    rintro n m ⟨plain, k, isNode, same, differs⟩ reshaped
    refine ⟨reshaped.plain plain, k, isNode, same.trans (congrArg Link.id reshaped.link).symm, ?_⟩
    exact differs.trans ((DiffersIn.of_reshaped reshaped plain).widen (by simp))
  setParent := by
    rintro n parent ⟨plain, k, isNode, same, differs⟩
    have put : n.setParent parent = { n with parent } := by rw [setParent, checked_plain plain]
    rw [put]
    exact ⟨plain, k, isNode, same, differs.trans ((DiffersIn.of_parent n parent).widen (by simp))⟩
  setZ := by
    rintro n z ⟨plain, k, isNode, same, differs⟩
    have put : n.setZ z = { n with z } := by rw [setZ, checked_plain plain]
    rw [put]
    exact ⟨plain, k, isNode, same, differs.trans ((DiffersIn.of_layer n z).widen (by simp))⟩

/-- A repair keeps all nodes in their places. -/
theorem Store.isRepaired_repair {s t : Store α} {least : Value α} {rehomed : List Text} (plain : s.IsPlain)
    (distinct : s.ids.Nodup) (unreserved : root ∉ s.ids) (ran : repair least s = .ok rehomed t) :
    List.Forall₂ (Node.IsRepaired rehomed) s.nodes t.nodes := by
  have repaired := (repair_ends plain distinct unreserved least).returned ran
  -- That each node comes of one of the old nodes lasts through the repair; the links tell of which one.
  have all := (All.repair (fun n isNode => ⟨plain n isNode, n, isNode, rfl, .refl _ _⟩)
    (Node.lasting_differs s.nodes)).returned ran
  have sameLength : s.nodes.length = t.nodes.length := by
    simpa [Store.links] using (congrArg List.length repaired.links).symm
  refine List.forall₂_iff_get.mpr ⟨sameLength, fun i inside inside' => ?_⟩
  have link : (t.nodes.get ⟨i, inside'⟩).link =
      if (s.nodes.get ⟨i, inside⟩).id ∈ rehomed then { (s.nodes.get ⟨i, inside⟩).link with parent := root }
      else (s.nodes.get ⟨i, inside⟩).link := by
    have links := congrArg (·[i]?) repaired.links
    simp only [Store.links, List.getElem?_map, List.getElem?_eq_getElem inside, List.getElem?_eq_getElem inside',
      Option.map_some, Option.some_inj] at links
    exact links
  obtain ⟨-, n, isNode, same, differs⟩ := all _ (List.get_mem t.nodes ⟨i, inside'⟩)
  have here : n = s.nodes.get ⟨i, inside⟩ := by
    refine eq_of_id_eq distinct isNode (List.get_mem ..) (same.trans ?_)
    have sameId := congrArg Link.id link
    split at sameId <;> exact sameId
  exact ⟨link, here ▸ differs⟩

/-- A member that is given is taken where it is of use, and else a default stands. -/
inductive Value.TakenOr (useful : Value α → Prop) (given : Option (Value α)) (default : Value α) : Value α → Prop where
  | taken {v : Value α} (isGiven : given = some v) (isUseful : useful v) : TakenOr useful given default v
  | default (useless : ∀ v, given = some v → ¬useful v) : TakenOr useful given default default

/-- Each field of a project is taken from a document where it is of use there, and else from another project. -/
structure Project.FallsBack (d : List (Text × Value α)) (base p : Project α) : Prop where
  guiName : Value.TakenOr (fun v => ∃ t ≠ [], v = .str t) (Value.member? "guiName" d) (.str base.guiName.shown) p.guiName
  resetOnSpawn : Value.TakenOr (fun v => ∃ b, v = .bool b) (Value.member? "resetOnSpawn" d)
    (.bool base.resetOnSpawn.toBool) p.resetOnSpawn
  runtimeParent : Value.TakenOr (fun v => v = .str playerGui ∨ v = .str coreGui) (Value.member? "parent" d)
    base.runtimeParent p.runtimeParent
  outputMode : Value.TakenOr (fun v => v = .str variablesMode ∨ v = .str nestedMode) (Value.member? "outputMode" d)
    base.outputMode p.outputMode

namespace Project

variable {d : List (Text × Value α)}

omit [Arith α] in
/-- A runtime parent is one of the two that there are. -/
theorem isRuntimeParent_iff {v : Value α} : isRuntimeParent v ↔ v = .str playerGui ∨ v = .str coreGui := by
  cases v <;> simp [isRuntimeParent]

omit [Arith α] in
/-- A mode of output is one of the two that there are. -/
theorem isOutputMode_iff {v : Value α} : isOutputMode v ↔ v = .str variablesMode ∨ v = .str nestedMode := by
  cases v <;> simp [isOutputMode]

omit [Arith α] in
/-- A choice that is tested, the default being given where nothing is. -/
theorem takenOr_choice {useful : Value α → Prop} {test : Value α → Bool} (test_iff : ∀ v, test v ↔ useful v)
    (given : Option (Value α)) (default : Value α) :
    Value.TakenOr useful given default (if test (given.getD default) then given.getD default else default) := by
  cases given with
  | none =>
      rw [Option.getD_none, ite_self]
      exact .default fun _ isGiven => by cases isGiven
  | some v =>
      rw [Option.getD_some]
      split
      · next fits => exact .taken rfl ((test_iff v).mp fits)
      · next fails => exact .default fun w isGiven useful => fails ((test_iff v).mpr (Option.some.inj isGiven ▸ useful))

/-- What is read of a project falls back where it is of no use. -/
theorem fallsBack_ofValue (shaped : IsShaped d) (base : Project α) : FallsBack d base (ofValue (.obj d) base) where
  guiName := by
    rw [ofValue, Value.field]
    cases found : Value.member? "guiName" d with
    | none => exact .default fun _ isGiven => by cases isGiven
    | some v =>
        obtain ⟨t, rfl⟩ := shaped.guiName v found
        cases t with
        | nil =>
            refine .default ?_
            rintro _ isGiven ⟨t, filled, rfl⟩
            exact filled (Value.str.inj (Option.some.inj isGiven)).symm
        | cons c rest => exact .taken rfl ⟨c :: rest, List.cons_ne_nil c rest, rfl⟩
  resetOnSpawn := by
    rw [ofValue]
    cases found : Value.member? "resetOnSpawn" d with
    | none => exact .default fun _ isGiven => by cases isGiven
    | some v =>
        obtain ⟨b, rfl⟩ := shaped.resetOnSpawn v found
        exact .taken rfl ⟨b, rfl⟩
  runtimeParent := takenOr_choice (fun _ => isRuntimeParent_iff) _ _
  outputMode := takenOr_choice (fun _ => isOutputMode_iff) _ _

end Project

namespace Snapshot

variable {data : Value α} {canvas : Value α × Value α} {fallback : Project α} {least : Value α} {loaded : Loaded α}

/-- What is read of a document accounts for each of its records, takes what is of use and replaces the rest. -/
structure Confines (depth : Nat) (data : Value α) (fallback : Project α) (loaded : Loaded α) : Prop where
  records : ∃ records kept lost, data.get? "nodes" = some (.arr records) ∧ Accounts depth records kept lost ∧
    List.Forall₂ (Node.IsRepaired loaded.rehomed) (kept.map Prod.snd) loaded.store.nodes ∧
    loaded.dropped = lost.map message
  project : ∀ d, data.get? "project" = some (.obj d) → Project.FallsBack d fallback loaded.project
  noProject : data.get? "project" = none → loaded.project = fallback
  selectedId : ∀ id, loaded.selectedId = some id ↔ data.get? "selectedId" = some (.str id) ∧ id ∈ loaded.store.ids
  zoom : ∀ n x, data.get? "zoom" = some (.num n) → toReal n = .ok x → isFinite x →
    loaded.zoom = clamp x zoomRange.1 zoomRange.2
  noZoom : (∀ n x, data.get? "zoom" = some (.num n) → toReal n = .ok x → isFinite x = false) → loaded.zoom = one
  showSafeArea : loaded.showSafeArea ↔ data.get? "showSafeArea" = some (.bool true)

/-- A selection is found again exactly where the document names it and there is such a node. -/
theorem selected_iff {s : Store α} {given : Option (Value α)} {selected : Option Text}
    (shape : ∀ v, given = some v → v = .null ∨ ∃ id, v = .str id) (isSelected : (given.getD .null).asId = .ok selected)
    (id : Text) : (s.lookup selected).map Node.id = some id ↔ given = some (.str id) ∧ id ∈ s.ids := by
  have none : given.getD .null = .null → ((s.lookup selected).map Node.id = some id ↔ given = some (.str id) ∧ id ∈ s.ids) := by
    intro isNull
    rw [isNull] at isSelected
    obtain rfl := Except.ok.inj isSelected
    refine iff_of_false (by simp [Store.lookup]) ?_
    rintro ⟨rfl, -⟩
    cases isNull
  cases given with
  | none => exact none rfl
  | some v =>
      rcases shape v rfl with rfl | ⟨t, rfl⟩
      · exact none rfl
      · obtain rfl : some t = selected := Except.ok.inj isSelected
        rw [Store.lookup, Option.bind_some, Option.some_inj, Value.str.injEq]
        cases found : s.find? t with
        | none =>
            refine iff_of_false (by simp) ?_
            rintro ⟨rfl, known⟩
            exact Store.find?_eq_none.mp found known
        | some n =>
            rw [Option.map_some, Option.some_inj, Store.id_of_find? found]
            exact ⟨fun same => ⟨same, same ▸ Store.mem_ids_of_find? found⟩, And.left⟩

/-- A finite zoom is clamped to the range of zooms. -/
theorem readZoom_finite {n x : α} (isReal : toReal n = .ok x) (finite : isFinite x) :
    readZoom (.num n) = .ok (clamp x zoomRange.1 zoomRange.2) := by
  have isNumber : (Value.num n).toNumber (.num one) = .ok x := by
    simp only [Value.toNumber, Value.asReal, isReal, finite, if_true]
  exact congrArg (· >>= fun x => Except.ok (clamp x zoomRange.1 zoomRange.2)) isNumber

section

variable [Arith.Refuses α] [Arith.Lawful α]

/-- What is no finite zoom is replaced by one, where this is in the range of zooms. -/
theorem readZoom_default {given : Option (Value α)} {zoom : α} (inRange : clamp one zoomRange.1 zoomRange.2 = (one : α))
    (shape : ∀ v, given = some v → v = .null ∨ ∃ n, v = .num n)
    (useless : ∀ n x, given = some (.num n) → toReal n = .ok x → isFinite x = false)
    (read : readZoom (given.getD .null) = .ok zoom) : zoom = one := by
  cases given with
  | none => exact (Except.ok.inj read).symm
  | some v =>
      rcases shape v rfl with rfl | ⟨n, rfl⟩
      · exact (Except.ok.inj read).symm
      · obtain ⟨x, isNumber, isZoom⟩ := bind_eq_ok.mp read
        obtain rfl := Except.ok.inj isZoom
        rw [Option.getD_some] at isNumber
        simp only [Value.toNumber, Value.asReal] at isNumber
        cases isReal : toReal n with
        | ok r =>
            rw [isReal] at isNumber
            simp only [useless n r rfl isReal, Bool.false_eq_true, if_false] at isNumber
            have isOne : toReal (one : α) = .ok one := isReal_one
            rw [Except.ok.inj (isNumber.symm.trans isOne), inRange]
        | error fault =>
            obtain rfl := Arith.Refuses.toReal_error isReal
            rw [isReal] at isNumber
            cases isNumber

/-- What is read confines what is wrong with the document. -/
theorem confines_of_read (inRange : clamp one zoomRange.1 zoomRange.2 = (one : α))
    (read : Snapshot.read data canvas fallback least depth = .ok loaded) : Confines depth data fallback loaded := by
  have accepted := accepted_of_read read
  have shaped := Schema.snapshotProblems_eq_nil_iff.mp accepted
  have unreserved := unreserved_of_read read
  obtain ⟨records, found⟩ := shaped.nodes
  obtain ⟨nodes, selected, isRead, repaired, isSelected, selects, project, isZoom, shown⟩ := steps_of_read read
  constructor
  case records =>
    have same : recordsOf data = records := by rw [recordsOf, found]
    obtain ⟨kept, lost, accounts, rfl, isDropped⟩ := accounts_readRecords .nil (by simp) (same ▸ isRead)
    refine ⟨records, kept, lost, found, accounts, ?_, isDropped⟩
    exact Store.isRepaired_repair (plain_readRecords isRead) (readRecords_ok isRead).1 (unreserved _ isRead) repaired
  case project =>
    intro d isProject
    obtain ⟨_, same, shapedProject⟩ := shaped.project _ isProject
    obtain rfl := Value.obj.inj same
    rw [project, isProject]
    exact Project.fallsBack_ofValue shapedProject fallback
  case noProject =>
    intro missing
    rw [project, missing]
    rfl
  case selectedId =>
    rw [selects]
    exact selected_iff shaped.selectedId isSelected
  case zoom =>
    intro n x isGiven isReal finite
    rw [isGiven] at isZoom
    exact Except.ok.inj (isZoom.symm.trans (readZoom_finite isReal finite))
  case noZoom => exact fun useless => readZoom_default inRange shaped.zoom useless isZoom
  case showSafeArea =>
    rw [shown]
    cases isGiven : data.get? "showSafeArea" with
    | none => exact iff_of_false (by simp [Value.truthy]) (by simp)
    | some v =>
        obtain ⟨b, rfl⟩ := shaped.showSafeArea v isGiven
        simp [Value.truthy]

end

/-- **Only the shape of a document can refuse it.** A document is refused exactly where it is no object with an
array of nodes or another member that it gives is not of its type. Otherwise it is read where it is legible,
and reading an illegible one stops or has no end. Of what is read, each record accounts for itself: the first
one of each id that gives a node is kept, in order, and its node is at most put elsewhere; about each other
record there is one message with its place, in order. A field of the project, a zoom and a selection that are
of no use are replaced by their defaults. -/
theorem read_confines (data : Value Number) (canvas : Value Number × Value Number) (fallback : Project Number)
    (least : Value Number) (depth : Nat) (canvasW : canvas.1.IsMeasure) (canvasH : canvas.2.IsMeasure)
    (leastMeasure : least.IsMeasure) :
    ((∃ problems, Snapshot.read data canvas fallback least depth = .error (.unusableSnapshot problems)) ↔
        ¬IsShaped data) ∧
      (IsShaped data → IsLegible depth data →
        ∃ loaded, Snapshot.read data canvas fallback least depth = .ok loaded) ∧
      (IsShaped data → ¬IsLegible depth data →
        ∃ fault, Snapshot.read data canvas fallback least depth = .error fault ∧
          (fault.StopsReading ∨ fault = .endless)) ∧
      ∀ loaded, Snapshot.read data canvas fallback least depth = .ok loaded →
        Confines depth data fallback loaded := by
  have reads : IsShaped data → IsLegible depth data →
      ∃ loaded, Snapshot.read data canvas fallback least depth = .ok loaded := fun shaped =>
    (read_of_legible canvasW canvasH leastMeasure (Schema.snapshotProblems_eq_nil_iff.mpr shaped)).1
  have stops : IsShaped data → ¬IsLegible depth data →
      ∃ fault, Snapshot.read data canvas fallback least depth = .error fault ∧
        (fault.StopsReading ∨ fault = .endless) := fun shaped =>
    (read_of_legible canvasW canvasH leastMeasure (Schema.snapshotProblems_eq_nil_iff.mpr shaped)).2
  refine ⟨⟨?_, fun misshapen => ?_⟩, reads, stops, fun loaded => confines_of_read (by decide +kernel)⟩
  · rintro ⟨problems, refused⟩ shaped
    by_cases legible : IsLegible depth data
    · obtain ⟨loaded, read⟩ := reads shaped legible
      rw [refused] at read
      cases read
    · obtain ⟨fault, failed, cause⟩ := stops shaped legible
      obtain rfl := Except.error.inj (refused.symm.trans failed)
      rcases cause with (cause | cause | cause) | cause <;> cases cause
  · exact ⟨_, read_refuses (mt Schema.snapshotProblems_eq_nil_iff.mp misshapen)⟩

/-- A document with a frame, two records that break the schema, a label with the id of the frame and a label
in the frame. Its project has no name and no parent that there is, and its zoom and selection are out of reach. -/
def patchy : Value Number :=
  .obj [("nodes", .arr [.obj [("id", .str "box"), ("type", .str "Frame")], .int 5, .obj [("type", .str "Frame")],
      .obj [("id", .str "box"), ("type", .str "TextLabel")],
      .obj [("id", .str "note"), ("type", .str "TextLabel"), ("parentId", .str "box")]]),
    ("project", .obj [("guiName", .str ""), ("outputMode", .str "nested"), ("parent", .str "Workspace")]),
    ("selectedId", .str "gone"), ("zoom", .int 9)]

/-- The frame and the label in it are loaded, and the three other records are left out. -/
theorem read_confines_patchy :
    ∃ loaded, Snapshot.read patchy (.int 980, .int 620) {} (.int leastSide) = .ok loaded ∧
      loaded.store.ids = ["box", "note"] ∧ loaded.dropped.length = 3 ∧ Confines usualDepth patchy {} loaded := by
  have fits : ∀ n : Int, n.natAbs ≤ 2 ^ 53 → (Value.int n : Value Number).IsMeasure := fun _ small =>
    Value.isMeasure_num.mpr (Arith.Lawful.fits_ofInt small)
  obtain ⟨-, reads, -, confines⟩ := read_confines patchy (.int 980, .int 620) {} (.int leastSide) usualDepth
    (fits 980 (by decide)) (fits 620 (by decide)) (fits leastSide (by decide))
  obtain ⟨loaded, read⟩ := reads (Schema.snapshotProblems_eq_nil_iff.mp (by decide +kernel)) (by decide +kernel)
  have seen : (Snapshot.read patchy (.int 980, .int 620) {} (.int leastSide)).toOption.map
      (fun loaded => (loaded.store.ids, loaded.dropped.length)) = some ((["box", "note"] : List Text), 3) := by decide +kernel
  rw [read] at seen
  obtain ⟨ids, dropped⟩ := Prod.mk.inj (Option.some.inj seen)
  exact ⟨loaded, read, ids, dropped, confines loaded read⟩

/-- Documents that are objects with an array of nodes are refused for a zoom, a project or a selection that would
be replaced if they were read. -/
theorem read_refuses_useless :
    let data (key : Text) (v : Value Number) : Value Number := .obj [("nodes", .arr []), (key, v)]
    (∀ member ∈ ([("zoom", .str "big"), ("project", .int 5), ("project", .obj [("outputMode", .int 1)]),
        ("selectedId", .int 5)] : List (Text × Value Number)),
      (data member.1 member.2).get? "nodes" = some (.arr []) ∧ ∃ problems,
        Snapshot.read (data member.1 member.2) (.int 980, .int 620) {} (.int leastSide) =
          .error (.unusableSnapshot problems)) ∧
      (readZoom (.str "big" : Value Number)).toOption = some one ∧ Project.ofValue (.int 5) {} = ({} : Project Number) := by
  intro data
  refine ⟨?_, by decide +kernel, rfl⟩
  have refused : ∀ key v, Schema.snapshotProblems (data key v) ≠ [] → (data key v).get? "nodes" = some (.arr []) ∧
      ∃ problems, Snapshot.read (data key v) (.int 980, .int 620) {} (.int leastSide) =
        .error (.unusableSnapshot problems) := fun key v problems => ⟨rfl, _, read_refuses problems⟩
  simp only [List.forall_mem_cons, List.not_mem_nil, false_imp_iff, implies_true, and_true]
  refine ⟨refused _ _ ?_, refused _ _ ?_, refused _ _ ?_, refused _ _ ?_⟩
  all_goals decide +kernel

end Snapshot

end LayoutDesigner
