import LayoutDesigner.Json.Reader

/-!
# Building tables

A settings file opens tables by headers and fills them by keys, both of which may be paths. A mark
on a path says that it must not be opened again, or that it must not be changed at all.
-/

namespace LayoutDesigner.Toml

/-- A path of keys. -/
abbrev Path := List Text

/-- What a mark forbids: opening a table again, or changing anything. -/
inductive Ban where
  | reopening
  | change
  deriving DecidableEq

/-- A mark on a path; a deep mark holds for everything below too. -/
structure Mark where
  path : Path
  ban : Ban
  deep : Bool

/-- Whether a mark forbids something for a path. -/
def Mark.forbids (m : Mark) (ban : Ban) (path : Path) : Bool :=
  m.ban = ban && (m.path = path || (m.deep && m.path.isPrefixOf path))

/-- The tables built so far. -/
structure Tables where
  members : List (Text × Document) := []
  marks : List Mark := []
  /-- Paths that are closed to headers when the next header comes. -/
  pending : List Path := []

namespace Tables

/-- Whether something is forbidden for a path. -/
def forbids (t : Tables) (ban : Ban) (path : Path) : Bool := t.marks.any fun m => m.forbids ban path

/-- Put a mark on a path. -/
def mark (t : Tables) (path : Path) (ban : Ban) (deep : Bool) : Tables :=
  { t with marks := ⟨path, ban, deep⟩ :: t.marks }

/-- Remove the marks on a path and everything below it. -/
def unmark (t : Tables) (path : Path) : Tables :=
  { t with marks := t.marks.filter fun m => !path.isPrefixOf m.path }

/-- Close the pending paths to headers. -/
def settle (t : Tables) : Tables :=
  { t with pending := [], marks := t.pending.map (⟨·, .reopening, false⟩) ++ t.marks }

end Tables

/-- Change the table behind a path; missing tables are made on the way. A list of tables stands for
its last one, where `intoLists` holds. Anything else on the way, and a refused change, give
`none`. -/
def inTable (intoLists : Bool) (change : List (Text × Document) → Option (List (Text × Document))) :
    Path → List (Text × Document) → Option (List (Text × Document))
  | [], members => change members
  | key :: path, members =>
    match Value.member? key members with
    | none => (inTable intoLists change path []).map fun inner => Value.setMember key (.obj inner) members
    | some (.obj inner) =>
      (inTable intoLists change path inner).map fun inner => Value.setMember key (.obj inner) members
    | some (.arr items) =>
      match intoLists, items.getLast? with
      | true, some (.obj inner) =>
        (inTable intoLists change path inner).map fun inner =>
          Value.setMember key (.arr (items.dropLast ++ [.obj inner])) members
      | _, _ => none
    | some _ => none

/-- Add a member whose key is new. -/
def addMember (key : Text) (value : Document) (members : List (Text × Document)) :
    Option (List (Text × Document)) :=
  if (Value.member? key members).isSome then none else some (members ++ [(key, value)])

/-- Add an empty table to a list of tables, which may be new. -/
def addTable (key : Text) (members : List (Text × Document)) : Option (List (Text × Document)) :=
  match Value.member? key members with
  | none => some (members ++ [(key, .arr [.obj []])])
  | some (.arr items) => some (Value.setMember key (.arr (items ++ [.obj []])) members)
  | some _ => none

end LayoutDesigner.Toml
