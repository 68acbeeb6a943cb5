import LayoutDesigner.Text.Quoted

/-!
# What a document can do wrong

A schema problem is a place in a document and the rule that the value there breaks. Its message
shows the value as it is.
-/

namespace LayoutDesigner

/-- One step from a document to a part of it. -/
inductive Step where
  | member (key : Text)
  | item (index : Nat)
  deriving DecidableEq

namespace Schema

/-- The kinds of value that a rule can ask for. -/
inductive Shape where
  | object | array | string | integer | number | boolean | null
  deriving DecidableEq, Repr

/-- The name of a kind of value in a message. -/
def Shape.name : Shape → Text
  | .object => "object"
  | .array => "array"
  | .string => "string"
  | .integer => "integer"
  | .number => "number"
  | .boolean => "boolean"
  | .null => "null"

/-- The rules a value can break; `shown` is the value as a message shows it. -/
inductive Breach where
  | notOfShape (shown : Text) (shapes : List Shape)
  | lacks (key : Text)
  | below (shown : Text) (least : Text)
  | notListed (shown : Text) (choices : List Text)
  | empty (shown : Text)

/-- A place in a document and the rule that its value breaks. -/
structure Problem where
  path : List Step
  breach : Breach

/-- The words of a breach. -/
def Breach.message : Breach → Text
  | .notOfShape shown shapes =>
    shown ++ " is not of type " ++ Text.join ", " (shapes.map fun s => s.name.quoted)
  | .lacks key => key.quoted ++ " is a required property"
  | .below shown least => shown ++ " is less than the minimum of " ++ least
  | .notListed shown choices =>
    shown ++ " is not one of [" ++ Text.join ", " (choices.map Text.quoted) ++ "]"
  | .empty shown => shown ++ " should be non-empty"

/-- A step as a message shows it. -/
def stepText : Step → Text
  | .member key => key
  | .item index => Text.ofNat index

/-- The place, `root` for the whole document, and the words of the breach. -/
def Problem.message (p : Problem) : Text :=
  let place : Text :=
    if p.path.isEmpty then "root" else Text.join " -> " (p.path.map stepText)
  place ++ ": " ++ p.breach.message

end Schema

end LayoutDesigner
