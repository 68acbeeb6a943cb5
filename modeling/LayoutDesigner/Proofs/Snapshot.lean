import LayoutDesigner.Snapshot
import LayoutDesigner.Proofs.Population

/-!
# What is read from a snapshot

A record gives a typed node of its own id, and of records with one id only the first gives a node.
So what is repaired has distinct ids, and none of them is that of the root where no record has it:
reading gives an orderly store.
-/

namespace LayoutDesigner

open Arith

variable {α : Type} [Arith α]

namespace Node

variable {d : List (Text × Value α)} {n : Node α} {depth : Nat}

/-- What is known of a node that was read from the members of a record. -/
structure IsRead (depth : Nat) (d : List (Text × Value α)) (n : Node α) : Prop where
  id : Value.field "id" d = .str n.id
  named : n.id ≠ []
  x : ∃ default, readReal d "x" default = .ok n.x
  y : ∃ default, readReal d "y" default = .ok n.y
  w : ∃ default, readReal d "w" default = .ok n.w
  h : ∃ default, readReal d "h" default = .ok n.h
  anchorX : readFraction d "anchorX" half = .ok n.anchorX
  anchorY : readFraction d "anchorY" half = .ok n.anchorY
  name : n.name = readText d "name" n.kind.name
  font : n.font = readText d "font" defaultFont
  bgAlpha : readFraction d "bgAlpha" one = .ok n.bgAlpha
  bgColor : Rgb.ofValue (Value.field "bgColor" d) n.kind.descriptor.bgColor = .ok n.bgColor
  textColor : Rgb.ofValue (Value.field "textColor" d) Rgb.white = .ok n.textColor
  canvasW : readInteger (membersOf (Value.field "canvasSize" d)) "w" n.kind.descriptor.canvasSize.1 = .ok n.canvasW
  canvasH : readInteger (membersOf (Value.field "canvasSize" d)) "h" n.kind.descriptor.canvasSize.2 = .ok n.canvasH
  scrollbarThickness : readInteger d "scrollBarThickness" n.kind.descriptor.scrollbarThickness = .ok n.scrollbarThickness
  extensions : readExtensions (Value.field "uiObjects" d) depth = .ok n.extensions
  plain : n.unchecked = []

/-- What reading a record makes of it beside a new node of its kind, which stands in where the record says
nothing of a place or a side. -/
structure IsReadBeside (depth : Nat) (base : Node α) (d : List (Text × Value α)) (n : Node α) : Prop
    extends IsRead depth d n where
  created : create n.kind n.id root recordSurface 1 = .ok base
  parent : n.parent ≠ []
  layer : 1 ≤ n.z
  xOr : readReal d "x" base.x = .ok n.x
  yOr : readReal d "y" base.y = .ok n.y
  wOr : readReal d "w" base.w = .ok n.w
  hOr : readReal d "h" base.h = .ok n.h

/-- A node that is read is read beside a new one of its kind. -/
theorem isReadBeside_of_ofRecord {record : Value α} (read : ofRecord record depth = .ok n) :
    ∃ base d, record = .obj d ∧ IsReadBeside depth base d n := by
  unfold ofRecord at read
  split at read
  case h_2 => cases read
  next d =>
  obtain ⟨kind?, -, read⟩ := bind_eq_ok.mp read
  cases kind? with
  | none => cases read
  | some kind =>
      dsimp only at read
      split at read
      case h_2 => cases read
      next id isId =>
      split at read
      · cases read
      · next named =>
          rw [List.isEmpty_iff] at named
          obtain ⟨base, isBase, read⟩ := bind_eq_ok.mp read
          obtain ⟨extensions, isExtensions, read⟩ := bind_eq_ok.mp read
          obtain ⟨x, isX, read⟩ := bind_eq_ok.mp read
          obtain ⟨y, isY, read⟩ := bind_eq_ok.mp read
          obtain ⟨w, isW, read⟩ := bind_eq_ok.mp read
          obtain ⟨h, isH, read⟩ := bind_eq_ok.mp read
          obtain ⟨anchorX, isAnchorX, read⟩ := bind_eq_ok.mp read
          obtain ⟨anchorY, isAnchorY, read⟩ := bind_eq_ok.mp read
          obtain ⟨z, -, read⟩ := bind_eq_ok.mp read
          obtain ⟨bgColor, isBgColor, read⟩ := bind_eq_ok.mp read
          obtain ⟨bgAlpha, isBgAlpha, read⟩ := bind_eq_ok.mp read
          obtain ⟨textColor, isTextColor, read⟩ := bind_eq_ok.mp read
          obtain ⟨canvasW, isCanvasW, read⟩ := bind_eq_ok.mp read
          obtain ⟨canvasH, isCanvasH, read⟩ := bind_eq_ok.mp read
          obtain ⟨scrollbarThickness, isThickness, read⟩ := bind_eq_ok.mp read
          obtain rfl := Except.ok.inj read
          have created := Store.create_ok isBase
          obtain ⟨width, height⟩ := Prod.ext_iff.mp created.canvas
          have isParent : ∀ p : Text, p.orElse root ≠ [] := by
            intro p
            cases p with
            | nil => decide
            | cons c rest => exact List.cons_ne_nil c rest
          refine ⟨base, d, rfl, ⟨isId, named, ⟨_, isX⟩, ⟨_, isY⟩, ⟨_, isW⟩, ⟨_, isH⟩, isAnchorX, isAnchorY, rfl, rfl,
            isBgAlpha, created.bgColor ▸ isBgColor, created.textColor ▸ isTextColor, width ▸ isCanvasW,
            height ▸ isCanvasH, created.scrollbarThickness ▸ isThickness, isExtensions, rfl⟩, isBase, ?_,
            le_max_left 1 z, isX, isY, isW, isH⟩
          dsimp only
          split
          · exact isParent _
          · decide

/-- A node that is read comes of an object. -/
theorem isRead_of_ofRecord {record : Value α} (read : ofRecord record depth = .ok n) :
    ∃ d, record = .obj d ∧ IsRead depth d n := by
  obtain ⟨base, d, isObject, isRead⟩ := isReadBeside_of_ofRecord read
  exact ⟨d, isObject, isRead.toIsRead⟩

/-- A record has the id of its node. -/
theorem IsRead.get?_id (read : IsRead depth d n) : (Value.obj d).get? "id" = some (.str n.id) := by
  have isId := read.id
  simp only [Value.field] at isId
  cases found : Value.member? "id" d with
  | none => simp [found] at isId
  | some v => simpa [found, Value.get?] using isId

/-- What a record says of anchor, position and size is a real. -/
theorem IsRead.measured [Lawful α] (read : IsRead depth d n) : n.IsMeasured := by
  have fraction : ∀ {key : Text} {v : α}, readFraction d key half = .ok v → IsReal v := by
    intro key v isFraction
    obtain ⟨r, isReal, isFraction⟩ := bind_eq_ok.mp isFraction
    obtain rfl := Except.ok.inj isFraction
    exact isReal_clamp (Value.isReal_toNumber isReal) isReal_zero isReal_one
  obtain ⟨_, isX⟩ := read.x
  obtain ⟨_, isY⟩ := read.y
  obtain ⟨_, isW⟩ := read.w
  obtain ⟨_, isH⟩ := read.h
  exact ⟨read.plain, fraction read.anchorX, fraction read.anchorY, (Value.isReal_toNumber isX).fits,
    (Value.isReal_toNumber isY).fits, (Value.isReal_toNumber isW).fits, (Value.isReal_toNumber isH).fits⟩

end Node

namespace Snapshot

variable {data record : Value α} {records : List (Value α)} {seen dropped : List Text} {index depth : Nat}
  {n : Node α} {nodes : List (Node α)}

/-- A record that is kept obeys the schema, and its node has an id that was not seen. -/
theorem readRecord_ok (read : readRecord depth seen record = .ok (.ok n)) :
    Schema.recordProblems record = [] ∧ Node.ofRecord record depth = .ok n ∧ n.id ∉ seen := by
  rw [readRecord] at read
  split at read
  · cases read
  · next obeys =>
      split at read
      · next found =>
          split at read
          · cases read
          · next fresh =>
              obtain rfl := Except.ok.inj (Except.ok.inj read)
              exact ⟨obeys, found, by simpa using fresh⟩
      · split at read <;> cases read

/-- Records give their nodes one after the other: each is kept, or dropped with a message of its place. -/
inductive Sorts (depth : Nat) : (seen : List Text) → (index : Nat) → (records : List (Value α)) →
    (nodes : List (Node α)) → (dropped : List Text) → Prop
  | nil {seen : List Text} {index : Nat} : Sorts depth seen index [] [] []
  | keep {seen dropped : List Text} {index : Nat} {record : Value α} {n : Node α} {records : List (Value α)}
    {nodes : List (Node α)} (kept : readRecord depth seen record = .ok (.ok n))
    (others : Sorts depth (n.id :: seen) (index + 1) records nodes dropped) :
    Sorts depth seen index (record :: records) (n :: nodes) dropped
  | drop {seen dropped : List Text} {index : Nat} {record : Value α} {reason : Text} {records : List (Value α)}
    {nodes : List (Node α)} (lost : readRecord depth seen record = .ok (.error reason))
    (others : Sorts depth seen (index + 1) records nodes dropped) :
    Sorts depth seen index (record :: records) nodes
      ((("nodes[" : Text) ++ Text.ofNat index ++ ("]: " : Text) ++ reason) :: dropped)

/-- Reading records sorts them into nodes and messages. -/
theorem readRecords_iff : readRecords depth seen index records = .ok (nodes, dropped) ↔
    Sorts depth seen index records nodes dropped := by
  constructor
  · intro read
    induction records generalizing seen index nodes dropped with
    | nil =>
        obtain ⟨rfl, rfl⟩ := Prod.mk.inj (Except.ok.inj read)
        exact .nil
    | cons record rest ih =>
        obtain ⟨outcome, isOutcome, read⟩ := bind_eq_ok.mp read
        cases outcome with
        | ok n =>
            obtain ⟨⟨others, _⟩, isRest, read⟩ := bind_eq_ok.mp read
            obtain ⟨rfl, rfl⟩ := Prod.mk.inj (Except.ok.inj read)
            exact .keep isOutcome (ih isRest)
        | error reason =>
            obtain ⟨⟨others, _⟩, isRest, read⟩ := bind_eq_ok.mp read
            obtain ⟨rfl, rfl⟩ := Prod.mk.inj (Except.ok.inj read)
            exact .drop isOutcome (ih isRest)
  · intro sorts
    induction sorts with
    | nil => rfl
    | keep kept _ ih => exact bind_eq_ok.mpr ⟨_, kept, bind_eq_ok.mpr ⟨_, ih, rfl⟩⟩
    | drop lost _ ih => exact bind_eq_ok.mpr ⟨_, lost, bind_eq_ok.mpr ⟨_, ih, rfl⟩⟩

/-- The nodes that records give: each is read from a record that obeys the schema, and no two have one
id. -/
theorem readRecords_ok (read : readRecords depth seen index records = .ok (nodes, dropped)) :
    (nodes.map Node.id).Nodup ∧ ∀ n ∈ nodes, n.id ∉ seen ∧
      ∃ record ∈ records, Schema.recordProblems record = [] ∧ Node.ofRecord record depth = .ok n := by
  rw [readRecords_iff] at read
  induction read with
  | nil => exact ⟨List.nodup_nil, by simp⟩
  | drop _ _ ih =>
      obtain ⟨distinct, known⟩ := ih
      refine ⟨distinct, fun n member => ?_⟩
      obtain ⟨fresh, source, inRest, isSource⟩ := known n member
      exact ⟨fresh, source, List.mem_cons_of_mem _ inRest, isSource⟩
  | keep kept _ ih =>
      obtain ⟨distinct, known⟩ := ih
      obtain ⟨obeys, isFirst, freshFirst⟩ := readRecord_ok kept
      constructor
      · refine List.nodup_cons.mpr ⟨fun again => ?_, distinct⟩
        obtain ⟨n, member, same⟩ := List.mem_map.mp again
        exact (known n member).1 (same ▸ List.mem_cons_self)
      · intro n member
        rcases List.mem_cons.mp member with rfl | inRest
        · exact ⟨freshFirst, _, List.mem_cons_self, obeys, isFirst⟩
        · obtain ⟨fresh, source, isOld, isSource⟩ := known n inRest
          exact ⟨fun again => fresh (List.mem_cons_of_mem _ again), source,
            List.mem_cons_of_mem _ isOld, isSource⟩

/-- Each node that was read comes of a record that obeys the schema. -/
theorem isRead_of_readRecords (read : readRecords depth seen index records = .ok (nodes, dropped)) :
    ∀ n ∈ nodes, ∃ d, .obj d ∈ records ∧ Schema.recordProblems (.obj d) = [] ∧ Node.IsRead depth d n := by
  intro n member
  obtain ⟨-, record, listed, obeys, isRecord⟩ := (readRecords_ok read).2 n member
  obtain ⟨d, rfl, isRead⟩ := Node.isRead_of_ofRecord isRecord
  exact ⟨d, listed, obeys, isRead⟩

/-- The records of a document. -/
def recordsOf (data : Value α) : List (Value α) :=
  match data.get? "nodes" with
  | some (.arr items) => items
  | _ => []

/-- No record of the document has the id of the root. -/
def SparesRoot (data : Value α) : Prop :=
  ∀ records, data.get? "nodes" = some (.arr records) →
    ∀ record ∈ records, record.get? "id" ≠ some (.str root)

/-- No node that the records of the document give has the id of the root. -/
def Unreserved (depth : Nat) (data : Value α) : Prop :=
  ∀ kept, readRecords depth [] 0 (recordsOf data) = .ok kept → root ∉ kept.1.map Node.id

/-- A document in which no record has the root's id gives no node of this id. -/
theorem SparesRoot.unreserved (spares : SparesRoot data) : Unreserved depth data := by
  intro kept read reserved
  obtain ⟨n, member, same⟩ := List.mem_map.mp reserved
  obtain ⟨d, listed, -, isRead⟩ := isRead_of_readRecords read n member
  rw [recordsOf] at listed
  split at listed
  · next items found => exact spares items found _ listed (same ▸ isRead.get?_id)
  · cases listed

end Snapshot

namespace Store

variable {s t : Store α} {n : Node α} {nodes : List (Node α)}

omit [Arith α] in
/-- A node with a new id is put at the end. -/
theorem putNode_fresh (fresh : n.id ∉ nodes.map Node.id) : putNode n nodes = nodes ++ [n] := by
  induction nodes with
  | nil => rfl
  | cons m rest ih =>
      rw [List.map_cons, List.mem_cons, not_or] at fresh
      rw [putNode, if_neg (Ne.symm fresh.1), ih fresh.2, List.cons_append]

omit [Arith α] in
/-- A store is replaced by nodes of distinct ids as they are. -/
theorem replaceAll_eq (distinct : (nodes.map Node.id).Nodup) :
    s.replaceAll nodes = { s with nodes } := by
  have grown : ∀ rest before : List (Node α), ((before ++ rest).map Node.id).Nodup →
      rest.foldl (fun soFar n => putNode n soFar) before = before ++ rest := by
    intro rest
    induction rest with
    | nil => simp
    | cons n rest ih =>
        intro before distinct
        have fresh : n.id ∉ before.map Node.id := by
          simp only [List.map_append, List.nodup_append, List.map_cons] at distinct
          exact fun inBefore => distinct.2.2 _ inBefore _ List.mem_cons_self rfl
        have regrouped : before ++ n :: rest = (before ++ [n]) ++ rest := by simp
        rw [regrouped] at distinct ⊢
        rw [List.foldl_cons, putNode_fresh fresh, ih _ distinct]
  simp only [replaceAll, grown nodes [] distinct, List.nil_append]

omit [Arith α] in
/-- Being orderly is a property of the nodes. -/
theorem IsOrderly.congr (orderly : s.IsOrderly) (same : t.nodes = s.nodes) : t.IsOrderly where
  forest := orderly.forest.congr (by simp only [links, same])
  plain := by
    intro n member
    exact orderly.plain n (same ▸ member)
  layered parent := (orderly.layered parent).congr (by simp only [children, same])

end Store

namespace Snapshot

variable {data : Value α} {canvas : Value α × Value α} {fallback : Project α} {least : Value α}
  {loaded : Loaded α} {seen dropped : List Text} {index depth : Nat} {records : List (Value α)}
  {nodes : List (Node α)}

/-- An accepted document is read step by step: its records, their repair, the selection, the zoom. -/
theorem read_of_accepted (accepted : Schema.snapshotProblems data = []) :
    Snapshot.read data canvas fallback least depth =
      readRecords depth [] 0 (recordsOf data) >>= fun kept =>
      Edit.answer (Store.repair least { canvasW := canvas.1, canvasH := canvas.2, nodes := kept.1 }) >>= fun rehomed =>
      ((data.get? "selectedId").getD .null).asId >>= fun selected =>
      readZoom ((data.get? "zoom").getD .null) >>= fun zoom =>
      let store := Edit.state (Store.repair least { canvasW := canvas.1, canvasH := canvas.2, nodes := kept.1 })
      .ok {
        store, project := Project.ofValue ((data.get? "project").getD .null) fallback
        selectedId := (store.lookup selected).map Node.id, zoom
        showSafeArea := ((data.get? "showSafeArea").getD (.bool false)).truthy, dropped := kept.2, rehomed } := by
  rw [Snapshot.read, accepted]
  change (readRecords depth [] 0 (recordsOf data) >>= _) = _
  cases isRead : readRecords depth [] 0 (recordsOf data) with
  | error fault => rfl
  | ok kept =>
      have replaced := Store.replaceAll_eq (s := ⟨canvas.1, canvas.2, []⟩) (readRecords_ok isRead).1
      change (Edit.answer (Store.repair least (Store.replaceAll _ kept.1)) >>= _) = _
      rw [replaced]
      rfl

/-- A document that was read has no problems. -/
theorem accepted_of_read (read : Snapshot.read data canvas fallback least depth = .ok loaded) :
    Schema.snapshotProblems data = [] := by
  rw [Snapshot.read] at read
  dsimp only at read
  split at read
  · cases read
  · next accepted => simpa using accepted

/-- What the steps of reading a document give. -/
theorem steps_of_read (read : Snapshot.read data canvas fallback least depth = .ok loaded) :
    ∃ nodes selected, readRecords depth [] 0 (recordsOf data) = .ok (nodes, loaded.dropped) ∧
      Store.repair least { canvasW := canvas.1, canvasH := canvas.2, nodes } = .ok loaded.rehomed loaded.store ∧
      ((data.get? "selectedId").getD .null).asId = .ok selected ∧
      loaded.selectedId = (loaded.store.lookup selected).map Node.id ∧
      loaded.project = Project.ofValue ((data.get? "project").getD .null) fallback ∧
      readZoom ((data.get? "zoom").getD .null) = .ok loaded.zoom ∧
      loaded.showSafeArea = ((data.get? "showSafeArea").getD (.bool false)).truthy := by
  rw [read_of_accepted (accepted_of_read read)] at read
  obtain ⟨⟨nodes, dropped⟩, isRead, read⟩ := bind_eq_ok.mp read
  obtain ⟨rehomed, answered, read⟩ := bind_eq_ok.mp read
  obtain ⟨selected, isSelected, read⟩ := bind_eq_ok.mp read
  obtain ⟨zoom, isZoom, read⟩ := bind_eq_ok.mp read
  obtain rfl := Except.ok.inj read
  have repaired := Edit.eq_ok_of_answer (congrArg Except.toOption answered)
  exact ⟨nodes, selected, isRead, repaired, isSelected, rfl, rfl, isZoom, rfl⟩

/-- What is repaired are the nodes of the records, and the selected node is one of what is left. -/
theorem read_ok (read : Snapshot.read data canvas fallback least depth = .ok loaded) :
    ∃ nodes, readRecords depth [] 0 (recordsOf data) = .ok (nodes, loaded.dropped) ∧
      Store.repair least { canvasW := canvas.1, canvasH := canvas.2, nodes } =
        .ok loaded.rehomed loaded.store ∧
      (∀ id, loaded.selectedId = some id → id ∈ loaded.store.ids) ∧
      loaded.project = Project.ofValue ((data.get? "project").getD .null) fallback ∧
      readZoom ((data.get? "zoom").getD .null) = .ok loaded.zoom := by
  obtain ⟨nodes, selected, isRead, repaired, -, selects, project, isZoom, -⟩ := steps_of_read read
  refine ⟨nodes, isRead, repaired, fun id isSelected => ?_, project, isZoom⟩
  obtain ⟨n, found, rfl⟩ := Option.map_eq_some_iff.mp (selects.symm.trans isSelected)
  obtain ⟨id, -, found⟩ := Option.bind_eq_some_iff.mp found
  rw [Store.id_of_find? found]
  exact Store.mem_ids_of_find? found

/-- What the records give is typed. -/
theorem plain_readRecords (read : readRecords depth seen index records = .ok (nodes, dropped)) :
    Store.IsPlain { canvasW := canvas.1, canvasH := canvas.2, nodes } := by
  intro n member
  obtain ⟨d, -, -, source⟩ := isRead_of_readRecords read n member
  exact source.plain

/-- What is read from a document that gives no node of the root's id is orderly. -/
theorem orderly_read (unreserved : Unreserved depth data)
    (read : Snapshot.read data canvas fallback least depth = .ok loaded) : loaded.store.IsOrderly := by
  obtain ⟨nodes, isRead, ran, -, -⟩ := read_ok read
  have repaired := (Store.repair_ends (plain_readRecords isRead) (readRecords_ok isRead).1
    (unreserved _ isRead) least).returned ran
  exact ⟨repaired.forest, repaired.plain, repaired.layered⟩

/-- What the records give has measures that fit. -/
theorem measured_readRecords [Lawful α] {width height : Value α} (isWidth : width.IsMeasure)
    (isHeight : height.IsMeasure) (read : readRecords depth seen index records = .ok (nodes, dropped)) :
    Store.IsMeasured { canvasW := width, canvasH := height, nodes } := by
  refine ⟨fun n member => ?_, isWidth, isHeight⟩
  obtain ⟨d, -, -, source⟩ := isRead_of_readRecords read n member
  exact source.measured

/-- Where the surface and the least side fit, all measures that were read do. -/
theorem measured_read [Lawful α] (unreserved : Unreserved depth data) (canvasW : canvas.1.IsMeasure)
    (canvasH : canvas.2.IsMeasure) (leastMeasure : least.IsMeasure)
    (read : Snapshot.read data canvas fallback least depth = .ok loaded) : loaded.store.IsMeasured := by
  obtain ⟨nodes, isRead, ran, -, -⟩ := read_ok read
  exact (Store.ends_repair (measured_readRecords canvasW canvasH isRead) (readRecords_ok isRead).1
    (unreserved _ isRead) leastMeasure).returned ran

/-- The zoom that is read is a real. -/
theorem isReal_zoom [Lawful α] (read : Snapshot.read data canvas fallback least depth = .ok loaded) :
    IsReal loaded.zoom := by
  obtain ⟨_, -, -, -, -, isZoom⟩ := read_ok read
  have clamped : ∀ {v : Value α}, (do
      let x ← v.toNumber (.num Arith.one)
      Except.ok (Arith.clamp x zoomRange.1 zoomRange.2)) = .ok loaded.zoom → IsReal loaded.zoom := by
    intro v isZoom
    obtain ⟨x, isX, isZoom⟩ := bind_eq_ok.mp isZoom
    exact Except.ok.inj isZoom ▸ isReal_clamp (Value.isReal_toNumber isX) (Lawful.isReal_ofDecimal 5 1)
      (Lawful.isReal_ofDecimal 2 0)
  unfold readZoom at isZoom
  split at isZoom
  · exact Except.ok.inj isZoom ▸ isReal_one
  · exact clamped isZoom

end Snapshot

end LayoutDesigner
