import LayoutDesigner.Project
import LayoutDesigner.Repair
import LayoutDesigner.Schema

/-!
# Snapshots

A snapshot is the document of a whole design: its project, its nodes in store order and what is
seen of it. Only a document that is no object with a list of nodes is refused; a bad record is
dropped with a message, and everything else is repaired.
-/

namespace LayoutDesigner.Snapshot

/-- The version of snapshots that are written. -/
def version : Int := 1

variable {α : Type} [Arith α]

/-- The least and the greatest zoom that is read from a snapshot. -/
def zoomRange : α × α := (Arith.ofDecimal 5 1, Arith.ofDecimal 2 0)

/-- The snapshot of a design. The selected id is written only where there is such a node. -/
def ofStore (s : Store α) (p : Project α) (selected : Option Text) (zoom showSafeArea : Value α) :
    Value α :=
  .obj [("version", .int version), ("project", p.toValue),
    ("nodes", .arr (s.nodes.map fun n => .obj (Node.sortKeys n.toMembers))),
    ("selectedId", match s.lookup selected with
      | some n => .str n.id
      | none => .null),
    ("zoom", zoom), ("showSafeArea", showSafeArea)]

/-- What is read from a snapshot. -/
structure Loaded (α : Type) where
  store : Store α
  project : Project α
  selectedId : Option Text
  zoom : α
  showSafeArea : Bool
  /-- Why records were dropped, one message each. -/
  dropped : List Text
  /-- The nodes whose parent was changed. -/
  rehomed : List Text

/-- Whether a fault of a record drops the record; every other fault stops the load. -/
def dropsRecord : Fault → Bool
  | .recordNotObject => true
  | .unknownRecordType _ => true
  | .recordWithoutId => true
  | _ => false

/-- The node of a record, or why the record is dropped; `seen` are the ids of the nodes before. -/
def readRecord (depth : Nat) (seen : List Text) (record : Value α) : Except Fault (Except Text (Node α)) :=
  match Schema.recordProblems record with
  | p :: _ => .ok (.error p.message)
  | [] =>
    match Node.ofRecord record depth with
    | .ok n =>
      if seen.elem n.id then .ok (.error (("duplicate id " : Text) ++ n.id.quoted)) else .ok (.ok n)
    | .error fault => if dropsRecord fault then .ok (.error fault.message) else .error fault

/-- The nodes of a list of records and a message for each dropped one; `index` is the place of the
first record. -/
def readRecords (depth : Nat) (seen : List Text) (index : Nat) :
    List (Value α) → Except Fault (List (Node α) × List Text)
  | [] => .ok ([], [])
  | record :: rest => do
    match ← readRecord depth seen record with
    | .ok n =>
      let (nodes, dropped) ← readRecords depth (n.id :: seen) (index + 1) rest
      return (n :: nodes, dropped)
    | .error reason =>
      let (nodes, dropped) ← readRecords depth seen (index + 1) rest
      return (nodes, (("nodes[" : Text) ++ Text.ofNat index ++ ("]: " : Text) ++ reason) :: dropped)

/-- The zoom of a snapshot, one where it is missing. -/
def readZoom : Value α → Except Fault α
  | .null => .ok Arith.one
  | v => do
    return Arith.clamp (← v.toNumber (.num Arith.one)) zoomRange.1 zoomRange.2

/-- Read a snapshot onto a surface of the given size; `depth` is how many calls may be nested. -/
def read (data : Value α) (canvas : Value α × Value α) (fallback : Project α) (leastSide : Value α)
    (depth : Nat := usualDepth) : Except Fault (Loaded α) := do
  let problems := Schema.snapshotProblems data
  if !problems.isEmpty then throw (.unusableSnapshot problems)
  let records := match data.get? "nodes" with
    | some (.arr items) => items
    | _ => []
  let (nodes, dropped) ← readRecords depth [] 0 records
  let repaired := Store.repair leastSide (({ canvasW := canvas.1, canvasH := canvas.2 } : Store α).replaceAll nodes)
  let rehomed ← Edit.answer repaired
  let store := Edit.state repaired
  let selected ← ((data.get? "selectedId").getD .null).asId
  let zoom ← readZoom ((data.get? "zoom").getD .null)
  return {
    store, project := Project.ofValue ((data.get? "project").getD .null) fallback
    selectedId := (store.lookup selected).map Node.id, zoom
    showSafeArea := ((data.get? "showSafeArea").getD (.bool false)).truthy, dropped, rehomed }

end LayoutDesigner.Snapshot
