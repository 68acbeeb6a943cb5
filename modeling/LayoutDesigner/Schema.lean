import LayoutDesigner.Kind

/-!
# The schema of saved designs

A snapshot has to be an object with a list of nodes; its other members may be missing, but have to
be of their type. The records of nodes are checked one by one: a record has an id and a kind.
-/

namespace LayoutDesigner.Schema

variable {α : Type} [Arith α]

/-- Whether a value is of a shape. A whole real is an integer; a truth value is no number. -/
def hasShape : Value α → Shape → Bool
  | .obj _, .object => true
  | .arr _, .array => true
  | .str _, .string => true
  | .num n, .integer => Arith.isWhole n
  | .num _, .number => true
  | .bool _, .boolean => true
  | .null, .null => true
  | _, _ => false

/-- The value has to be of one of the shapes. -/
def ofShapes (shapes : List Shape) (path : List Step) (v : Value α) : List Problem :=
  if shapes.any (hasShape v) then [] else [⟨path, .notOfShape v.quoted shapes⟩]

/-- A number must not be below a bound. -/
def atLeast (bound : Int) (path : List Step) : Value α → List Problem
  | .num n =>
    if Arith.lt n (Arith.ofInt bound) then
      [⟨path, .below (Arith.numeral n) (Text.ofInt bound)⟩]
    else []
  | _ => []

/-- The value has to be one of the texts. -/
def among (choices : List Text) (path : List Step) (v : Value α) : List Problem :=
  match v with
  | .str t => if choices.elem t then [] else [⟨path, .notListed v.quoted choices⟩]
  | v => [⟨path, .notListed v.quoted choices⟩]

/-- A text must not be empty. -/
def nonEmpty (path : List Step) (v : Value α) : List Problem :=
  match v with
  | .str [] => [⟨path, .empty v.quoted⟩]
  | _ => []

/-- An object needs a member. -/
def needs (key : Text) (path : List Step) : Value α → List Problem
  | .obj members => if (Value.member? key members).isSome then [] else [⟨path, .lacks key⟩]
  | _ => []

/-- A member of an object has to obey a rule where it is there. -/
def onMember (key : Text) (rule : List Step → Value α → List Problem) (path : List Step)
    (v : Value α) : List Problem :=
  match v.get? key with
  | some w => rule (path ++ [.member key]) w
  | none => []

/-- The problems of the metadata of a project. -/
def projectProblems (path : List Step) (v : Value α) : List Problem :=
  ofShapes [.object] path v ++ onMember "guiName" (ofShapes [.string]) path v ++
    onMember "resetOnSpawn" (ofShapes [.boolean]) path v ++
    onMember "parent" (ofShapes [.string]) path v ++
    onMember "outputMode" (ofShapes [.string]) path v

/-- The problems of a snapshot in the order of the rules. -/
def snapshotFindings (v : Value α) : List Problem :=
  ofShapes [.object] [] v ++ needs "nodes" [] v ++
    onMember "version" (fun path w => ofShapes [.integer] path w ++ atLeast 1 path w) [] v ++
    onMember "project" projectProblems [] v ++ onMember "nodes" (ofShapes [.array]) [] v ++
    onMember "selectedId" (ofShapes [.string, .null]) [] v ++
    onMember "zoom" (ofShapes [.number, .null]) [] v ++
    onMember "showSafeArea" (ofShapes [.boolean]) [] v

/-- The order of the steps of paths: members by key, items by index, members first. -/
def stepBefore : Step → Step → Bool
  | .member a, .member b => Text.before a b
  | .item i, .item j => i < j
  | .member _, .item _ => true
  | .item _, .member _ => false

/-- Whether a path comes no later than another: its first differing step decides, and a path comes
before its extensions. -/
def pathUpTo : List Step → List Step → Bool
  | [], _ => true
  | _ :: _, [] => false
  | a :: p, b :: q => stepBefore a b || (a == b && pathUpTo p q)

/-- The problems of a snapshot, sorted by the place that they are about. -/
def snapshotProblems (v : Value α) : List Problem :=
  (snapshotFindings v).mergeSort fun a b => pathUpTo a.path b.path

/-- The problems of the record of a node. -/
def recordProblems (v : Value α) : List Problem :=
  ofShapes [.object] [] v ++ needs "id" [] v ++ needs "type" [] v ++
    onMember "id" (fun path w => ofShapes [.string] path w ++ nonEmpty path w) [] v ++
    onMember "type" (among (Kind.all.map Kind.name)) [] v ++
    onMember "parentId" (ofShapes [.string, .null]) [] v ++
    onMember "uiObjects" (ofShapes [.array, .null]) [] v

/-- The outcome of a check as a document: whether there is no problem, and the messages. -/
def report (problems : List Problem) : Value α :=
  .arr [.bool problems.isEmpty, .arr (problems.map fun p => .str p.message)]

end LayoutDesigner.Schema
