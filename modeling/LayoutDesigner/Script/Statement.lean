import LayoutDesigner.Value
import LayoutDesigner.Color
import LayoutDesigner.Script.Literal
import LayoutDesigner.Script.Name

/-!
# Statements of the script

A script introduces a variable for every instance that it creates, assigns to their properties, and
puts each instance under its parent. The text of a statement is one line.
-/

namespace LayoutDesigner.Script

/-- What is assigned to a property. -/
inductive Expr where
  /-- A text between quotes. -/
  | text (t : Text)
  | truth (b : Bool)
  | numeral (t : Text)
  | color (r g b : Text)
  /-- An offset along one axis. -/
  | offset (n : Int)
  /-- An offset along both axes. -/
  | offsets (x y : Int)
  | vector (x y : Text)
  | font (name : Text)
  | reference (name : Text)
  /-- Where only core scripts may reach. -/
  | coreGui
  /-- The screen of a player. -/
  | playerGui
  deriving DecidableEq

namespace Expr

/-- The word of a truth value. -/
def truthWord (b : Bool) : Text := if b then "true" else "false"

/-- The text of an expression. -/
def render : Expr → Text
  | .text t => literal t
  | .truth b => truthWord b
  | .numeral t => t
  | .color r g b =>
    ("Color3.fromRGB(" : Text) ++ Text.join ", " [r, g, b] ++ (")" : Text)
  | .offset n => ("UDim.new(0, " : Text) ++ Text.ofInt n ++ (")" : Text)
  | .offsets x y =>
    ("UDim2.new(0, " : Text) ++ Text.ofInt x ++ (", 0, " : Text) ++ Text.ofInt y ++ (")" : Text)
  | .vector x y => ("Vector2.new(" : Text) ++ x ++ (", " : Text) ++ y ++ (")" : Text)
  | .font name => ("Enum.Font." : Text) ++ name
  | .reference name => name
  | .coreGui => "game:GetService(\"CoreGui\")"
  | .playerGui => playerVariable ++ (":WaitForChild(\"PlayerGui\")" : Text)

/-- The numeral of an integer. -/
def ofInt (n : Int) : Expr := .numeral (Text.ofInt n)

/-- A colour. -/
def ofRgb (c : Rgb) : Expr := .color (Text.ofInt c.r) (Text.ofInt c.g) (Text.ofInt c.b)

variable {α : Type} [Arith α]

/-- A colour of unchecked channels, shown as they are. -/
def ofChannels (v : Value α) : Except Fault Expr := do
  return .color (← v.itemAt 0).shown (← v.itemAt 1).shown (← v.itemAt 2).shown

/-- The nearest integer offset along one axis. -/
def roundedOffset (v : Value α) : Except Fault Expr := do return .offset (← v.roundHalfUp)

/-- The nearest integer offsets along both axes. -/
def roundedOffsets (x y : Value α) : Except Fault Expr := do
  let x ← x.roundHalfUp
  let y ← y.roundHalfUp
  return .offsets x y

/-- The nearest integer. -/
def rounded (v : Value α) : Except Fault Expr := do return ofInt (← v.roundHalfUp)

end Expr

/-- A line of the script. -/
inductive Statement where
  /-- A new instance in a new variable. -/
  | create (name kind : Text)
  /-- The local player in its variable. -/
  | localPlayer
  | assign (name property : Text) (value : Expr)
  | blank

/-- The text of a statement. -/
def Statement.render : Statement → Text
  | .create v kind =>
    ("local " : Text) ++ v ++ (" = Instance.new(\"" : Text) ++ kind ++ ("\")" : Text)
  | .localPlayer => ("local " : Text) ++ playerVariable ++ (" = game.Players.LocalPlayer" : Text)
  | .assign v property value => v ++ ("." : Text) ++ property ++ (" = " : Text) ++ value.render
  | .blank => []

/-- The property that puts an instance under another one. -/
def parentProperty : Text := "Parent"

end LayoutDesigner.Script
