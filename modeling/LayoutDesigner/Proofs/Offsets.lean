import LayoutDesigner.Script
import LayoutDesigner.Proofs.Numerals
import Mathlib.Data.List.DropRight
import Mathlib.Data.List.Forall2

/-!
# Offsets in the text of a script

Two scripts that differ at most in the offsets that they assign have the same text only where the
offsets are the same too: the numerals can be read back from the lines, and no line of offsets is
lost where the blanks at the end of the text are cut off.
-/

namespace LayoutDesigner

namespace Text

variable {a b : Text}

/-- Blanks are cut off the last part, and off the one before where that is nothing but blanks. -/
theorem stripRight_append :
    (a ++ b).stripRight = if b.all CodePoint.isBlank then a.stripRight else a ++ b.stripRight := by
  rw [stripRight, List.reverse_append, List.dropWhile_append]
  have isBlank : (b.reverse.dropWhile CodePoint.isBlank).isEmpty = b.all CodePoint.isBlank := by
    rw [Bool.eq_iff_iff, List.isEmpty_iff, List.dropWhile_eq_nil_iff]
    simp
  rw [isBlank]
  split
  · rfl
  · rw [List.reverse_append, List.reverse_reverse]
    rfl

/-- A numeral before what belongs to no numeral is read back with what follows. -/
theorem ofInt_append_inj {m n : Int} {c : CodePoint} {rest rest' : Text} (other : ¬c.isAsciiDigit)
    (notSign : c ≠ ('-' : Char)) (same : ofInt m ++ c :: rest = ofInt n ++ c :: rest') :
    m = n ∧ rest = rest' := by
  let isPart (c : CodePoint) : Bool := c.isAsciiDigit || c = ('-' : Char)
  have taken : ∀ (k : Int) (t : Text), (ofInt k ++ c :: t).takeWhile isPart = ofInt k := by
    intro k t
    have parts : ∀ d ∈ ofInt k, isPart d := fun d member => by
      simpa [isPart] using mem_ofInt member
    rw [List.takeWhile_append_of_pos parts, List.takeWhile_cons_of_neg (by simp [isPart, other, notSign]),
      List.append_nil]
  have numerals := congrArg (List.takeWhile isPart) same
  rw [taken, taken] at numerals
  rw [numerals] at same
  exact ⟨ofInt_injective numerals, (List.cons.inj (List.append_cancel_left same)).2⟩

end Text

namespace Script

variable {x y x' y' : Int} {a b rest rest' : Text} {first second : List Text}

/-- Offsets are read back with what follows them. -/
theorem offsets_append_inj
    (same : (Expr.offsets x y).render ++ rest = (Expr.offsets x' y').render ++ rest') :
    x = x' ∧ y = y' ∧ rest = rest' := by
  have split : ∀ (x y : Int) (rest : Text), (Expr.offsets x y).render ++ rest =
      ("UDim2.new(0, " : Text) ++ (Text.ofInt x ++ ((',' : Char) : CodePoint) ::
        ((" 0, " : Text) ++ (Text.ofInt y ++ ((')' : Char) : CodePoint) :: rest))) := by
    intro x y rest
    simp only [Expr.render, List.append_assoc]
    rfl
  rw [split, split] at same
  obtain ⟨sameX, same⟩ := Text.ofInt_append_inj (by decide) (by decide) (List.append_cancel_left same)
  obtain ⟨sameY, same⟩ := Text.ofInt_append_inj (by decide) (by decide) (List.append_cancel_left same)
  exact ⟨sameX, sameY, same⟩

/-- Offsets end with what is no blank. -/
theorem render_offsets_concat (x y : Int) :
    ∃ start : Text, (Expr.offsets x y).render = start ++ [((')' : Char) : CodePoint)] :=
  ⟨_, rfl⟩

/-- The lines are the same but for offsets at their ends. -/
def Akin (a b : Text) : Prop :=
  a = b ∨ ∃ start x y x' y', a = start ++ (Expr.offsets x y).render ∧
    b = start ++ (Expr.offsets x' y').render

/-- A text that ends in offsets is not blank. -/
theorem not_blank_offsets (start : Text) (x y : Int) :
    (start ++ (Expr.offsets x y).render).all CodePoint.isBlank = false := by
  obtain ⟨before, ends⟩ := render_offsets_concat x y
  have notBlank : CodePoint.isBlank ((')' : Char) : CodePoint) = false := by decide
  simp [ends, notBlank]

/-- A text that ends in offsets has no blanks to strip at its end. -/
theorem stripRight_offsets (start : Text) (x y : Int) :
    (start ++ (Expr.offsets x y).render).stripRight = start ++ (Expr.offsets x y).render := by
  obtain ⟨before, ends⟩ := render_offsets_concat x y
  rw [ends, ← List.append_assoc]
  exact List.rdropWhile_concat_neg _ _ _ (by decide)

namespace Akin

/-- Of two statements that are akin both are blank or none is. -/
theorem blank (akin : Akin a b) : a.all CodePoint.isBlank = b.all CodePoint.isBlank := by
  obtain rfl | ⟨start, x, y, x', y', rfl, rfl⟩ := akin
  · rfl
  · rw [not_blank_offsets, not_blank_offsets]

/-- Lines of blanks have no offsets. -/
theorem eq_of_blank (akin : Akin a b) (blank : a.all CodePoint.isBlank) : a = b := by
  obtain same | ⟨start, x, y, x', y', rfl, rfl⟩ := akin
  · exact same
  · rw [not_blank_offsets] at blank
    cases blank

/-- Statements that are akin and start equal texts are equal. -/
theorem append_inj (akin : Akin a b) (same : a ++ rest = b ++ rest') : a = b ∧ rest = rest' := by
  obtain rfl | ⟨start, x, y, x', y', rfl, rfl⟩ := akin
  · exact ⟨rfl, List.append_cancel_left same⟩
  · rw [List.append_assoc, List.append_assoc] at same
    obtain ⟨rfl, rfl, sameRest⟩ := offsets_append_inj (List.append_cancel_left same)
    exact ⟨rfl, sameRest⟩

/-- Statements that are akin and equal without blanks at their ends are equal. -/
theorem eq_of_stripRight (akin : Akin a b) (same : a.stripRight = b.stripRight) : a = b := by
  obtain rfl | ⟨start, x, y, x', y', rfl, rfl⟩ := akin
  · rfl
  · rwa [stripRight_offsets, stripRight_offsets] at same

end Akin

/-- Lines of nothing but blanks are the same where they are akin. -/
theorem blank_join (akin : List.Forall₂ Akin first second) :
    (Text.join "\n" first).all CodePoint.isBlank = (Text.join "\n" second).all CodePoint.isBlank ∧
      ((Text.join "\n" first).all CodePoint.isBlank → first = second) := by
  induction akin with
  | nil => exact ⟨rfl, fun _ => rfl⟩
  | @cons a b first second head tail ih =>
      cases tail with
      | nil =>
          refine ⟨head.blank, fun blank => ?_⟩
          rw [head.eq_of_blank blank]
      | cons next others =>
          obtain ⟨same, equal⟩ := ih
          simp only [Text.join, List.all_append, Bool.and_eq_true] at same equal ⊢
          refine ⟨by rw [head.blank, same], fun blank => ?_⟩
          rw [head.eq_of_blank blank.1.1, equal blank.2]

/-- Texts of akin lines are the same only where the lines are. -/
theorem eq_of_join (akin : List.Forall₂ Akin first second)
    (same : (Text.join "\n" first).stripRight = (Text.join "\n" second).stripRight) : first = second := by
  induction akin with
  | nil => rfl
  | @cons a b first second head tail ih =>
      cases tail with
      | nil => rw [head.eq_of_stripRight same]
      | @cons c d first second next others =>
          obtain ⟨sameBlank, equal⟩ := blank_join (.cons next others)
          have split : ∀ (line : Text) (l : Text) (lines : List Text),
              Text.join "\n" (line :: l :: lines) = line ++ (("\n" : Text) ++ Text.join "\n" (l :: lines)) :=
            fun _ _ _ => List.append_assoc ..
          rw [split, split, Text.stripRight_append (a := a), Text.stripRight_append (a := b)] at same
          have newline : ("\n" : Text).all CodePoint.isBlank = true := by decide
          have cut : ∀ t : Text, (("\n" : Text) ++ t).all CodePoint.isBlank = t.all CodePoint.isBlank := by
            intro t
            rw [List.all_append, newline, Bool.true_and]
          rw [cut, cut, ← sameBlank] at same
          by_cases blank : (Text.join "\n" (c :: first)).all CodePoint.isBlank
          · -- Nothing is left of the lines after the first.
            rw [if_pos blank, if_pos blank] at same
            rw [head.eq_of_stripRight same, equal blank]
          · rw [if_neg blank, if_neg blank] at same
            obtain ⟨sameLine, sameRest⟩ := head.append_inj same
            rw [Text.stripRight_append, Text.stripRight_append, ← sameBlank, if_neg blank,
              if_neg blank] at sameRest
            rw [sameLine, ih (List.append_cancel_left sameRest)]

/-- The statements are the same but for the offsets that they assign. -/
def Statement.Akin (a b : Statement) : Prop :=
  a = b ∨ ∃ v property x y x' y', a = .assign v property (.offsets x y) ∧
    b = .assign v property (.offsets x' y')

namespace Statement.Akin

variable {a b : Statement} {nested : Bool} {first second : List Statement}

/-- The line of an assignment of offsets ends in these. -/
theorem line_offsets (nested : Bool) (v property : Text) (x y : Int) :
    line nested (.assign v property (.offsets x y)) =
      ((if nested then ("  " : Text) else []) ++ v ++ ("." : Text) ++ property ++ (" = " : Text)) ++
        (Expr.offsets x y).render := by
  cases nested <;> simp [line, render]

/-- The lines of statements that are akin are akin. -/
theorem line (akin : Akin a b) : Script.Akin (a.line nested) (b.line nested) := by
  obtain rfl | ⟨v, property, x, y, x', y', rfl, rfl⟩ := akin
  · exact .inl rfl
  · rw [line_offsets, line_offsets]
    exact .inr ⟨_, x, y, x', y', rfl, rfl⟩

/-- Statements that are akin and have the same line are equal. -/
theorem eq_of_line (akin : Akin a b) (same : a.line nested = b.line nested) : a = b := by
  obtain rfl | ⟨v, property, x, y, x', y', rfl, rfl⟩ := akin
  · rfl
  · rw [line_offsets, line_offsets] at same
    have values := congrArg (· ++ []) (List.append_cancel_left same)
    obtain ⟨rfl, rfl, -⟩ := offsets_append_inj values
    rfl

/-- Lists of statements that are akin and have the same lines are equal. -/
theorem eq_of_lines (akin : List.Forall₂ Akin first second)
    (same : first.map (Statement.line nested) = second.map (Statement.line nested)) : first = second := by
  induction akin with
  | nil => rfl
  | cons head tail ih =>
      obtain ⟨sameLine, sameRest⟩ := List.cons.inj same
      rw [head.eq_of_line sameLine, ih sameRest]

end Statement.Akin

/-- Scripts that differ at most in offsets have the same text only where the offsets are the same. -/
theorem eq_of_text {nested : Bool} {first second : List Statement}
    (akin : List.Forall₂ Statement.Akin first second)
    (same : Script.text ⟨nested, first⟩ = Script.text ⟨nested, second⟩) : first = second := by
  have body : List.Forall₂ Akin (first.map (Statement.line nested)) (second.map (Statement.line nested)) :=
    List.forall₂_map_left_iff.mpr (List.forall₂_map_right_iff.mpr (akin.imp fun _ _ => Statement.Akin.line))
  have same_self : ∀ lines : List Text, List.Forall₂ Akin lines lines := fun lines =>
    List.forall₂_same.mpr fun _ _ => .inl rfl
  rw [text, text, lines, lines] at same
  cases nested with
  | false => exact Statement.Akin.eq_of_lines akin (eq_of_join body same)
  | true =>
      have block := eq_of_join (List.rel_append (List.rel_append (same_self _) body) (same_self _)) same
      exact Statement.Akin.eq_of_lines akin (List.append_cancel_left (List.append_cancel_right block))

end Script

end LayoutDesigner
