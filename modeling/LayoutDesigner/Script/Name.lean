import LayoutDesigner.Node

/-!
# Names of the script's variables

Every node and every extension gets a local variable. A wanted name is made of ASCII letters,
digits and underscores; where it is taken, the least numeral from 2 on that frees it is added.
-/

namespace LayoutDesigner.Script

/-- The variable of the screen that holds the whole design. -/
def screenVariable : Text := "screenGui"

/-- The variable of the player whose screen it is. -/
def playerVariable : Text := "player"

/-- The names that no node or extension may take. -/
def reservedNames : List Text := ["game", "workspace", "script", playerVariable, screenVariable]

/-- A text as an identifier: what is no ASCII letter, digit or underscore becomes an underscore, a
leading digit gets one before it, and the empty text becomes `node`. -/
def identifier (t : Text) : Text :=
  match t.map fun c => if c.isAsciiWord then c else ('_' : CodePoint) with
  | [] => "node"
  | c :: rest => if c.isAsciiDigit then '_' :: c :: rest else c :: rest

/-- The text with its first code point small. -/
def uncapitalize : Text → Text
  | [] => []
  | c :: rest => c.lowerAscii :: rest

/-- The name of the `i`-th claim of a base. -/
def numbered (base : Text) (i : Nat) : Text := base ++ Text.ofNat i

/-- The first free one of the names `base i`, `base (i + 1)`, …, looking at `bound` of them. -/
def firstFree (taken : List Text) (base : Text) : (bound : Nat) → (i : Nat) → Text
  | 0, i => numbered base i
  | bound + 1, i =>
    if taken.elem (numbered base i) then firstFree taken base bound (i + 1) else numbered base i

/-- The base where it is free, else the base with the least numeral from 2 on that frees it. Of as
many names as are taken and one more, one is free. -/
def freeName (taken : List Text) (base : Text) : Text :=
  if taken.elem base then firstFree taken base taken.length 2 else base

/-- The names handed out for one script. -/
structure Names where
  /-- Names are counted by kind; else they follow what the nodes are called. -/
  counted : Bool
  taken : List Text := reservedNames
  /-- The variable of each node that has one. -/
  nodeVariables : List (Text × Text) := []
  count : Nat := 0

namespace Names

/-- Hand out a free name for a base. -/
def claim (names : Names) (base : Text) : Text × Names :=
  let name := freeName names.taken base
  (name, { names with taken := name :: names.taken })

/-- The variable of the node with the given id, if it has one. -/
def lookup (names : Names) (id : Text) : Option Text :=
  (names.nodeVariables.find? fun entry => entry.1 = id).map Prod.snd

variable {α : Type}

/-- The name wanted for a node that is called so. -/
def calledBase (n : Node α) : Text :=
  uncapitalize (identifier (n.displayName.filter fun c => !c.isBlank))

/-- The name wanted for the `count`-th node. -/
def countedBase (n : Node α) (count : Nat) : Text :=
  n.kind.name.lowerAscii ++ ("_" : Text) ++ Text.ofNat count

/-- The variable of a node, handed out where it has none yet. -/
def ofNode (names : Names) (n : Node α) : Text × Names :=
  match names.lookup n.id with
  | some v => (v, names)
  | none =>
    let names := if names.counted then { names with count := names.count + 1 } else names
    let base := if names.counted then countedBase n names.count else calledBase n
    let (v, names) := names.claim base
    (v, { names with nodeVariables := (n.id, v) :: names.nodeVariables })

/-- The part of an extension's name that follows its kind. -/
def kindPart [Arith α] (e : Extension α) : Text :=
  let kind := e.shownKind
  (identifier (if kind.truthy then kind.shown else [])).lowerAscii

/-- A new variable for an extension of the node that `owner` stands for. -/
def ofExtension [Arith α] (names : Names) (owner : Text) (e : Extension α) : Text × Names :=
  names.claim ((if names.counted then ("ui" : Text) else owner) ++ ("_" : Text) ++ kindPart e)

end Names

end LayoutDesigner.Script
