import LayoutDesigner.Proofs.Offsets
import LayoutDesigner.Proofs.Piece
import Mathlib.Data.List.DropRight

/-!
# Lines of a script

The statements of a script that names its variables by words and its numbers by numerals are read back
from its text: split at the ends of lines, the text gives the emitted lines, and each falls into the
pieces of its statement. Both hold up to the fonts, which are written as they are: the first as long as
no font has an end of a line in it, the second as long as every font is a word.
-/

namespace LayoutDesigner

/-- A carriage return or a line feed. -/
def CodePoint.isBreak (c : CodePoint) : Bool := c == ('\r' : CodePoint) || c == ('\n' : CodePoint)

namespace Text

variable {t rest : Text} {lines : List Text}

/-- No line ends in the text. -/
def IsOneLine (t : Text) : Prop := ∀ c ∈ t, c.isBreak = false

instance : Decidable t.IsOneLine :=
  decidable_of_iff (t.all fun c => !c.isBreak) (by simp [IsOneLine])

@[simp] theorem isOneLine_append : (t ++ rest).IsOneLine ↔ t.IsOneLine ∧ rest.IsOneLine :=
  List.forall_mem_append

/-- A numeral is one line. -/
theorem IsNumeral.isOneLine (numeral : t.IsNumeral) : t.IsOneLine := by
  intro c member
  by_contra isBreak
  have either : c = ('\r' : CodePoint) ∨ c = ('\n' : CodePoint) := by
    simpa [CodePoint.isBreak, or_iff_not_imp_left] using isBreak
  rcases either with rfl | rfl <;> exact absurd (numeral _ member) (by decide)

/-- Letters, digits and underscores are one line. -/
theorem isOneLine_of_words (words : ∀ c ∈ t, c.isAsciiWord) : t.IsOneLine :=
  IsNumeral.isOneLine fun c member => by simp [CodePoint.isNumeralPoint, words c member]

/-- The lines of a text, split at each carriage return and at each line feed. -/
def splitLines (t : Text) : List Text := t.splitOnP CodePoint.isBreak

/-- Each line of a text is one line. -/
theorem isOneLine_of_mem_splitLines (t : Text) : ∀ line ∈ t.splitLines, line.IsOneLine := by
  induction t with
  | nil => simp [splitLines, IsOneLine]
  | cons c t ih =>
      rw [splitLines] at ih ⊢
      rw [List.splitOnP_cons_eq_if_modifyHead]
      cases isBreak : c.isBreak with
      | true => exact List.forall_mem_cons.mpr ⟨by simp [IsOneLine], ih⟩
      | false =>
          cases split : t.splitOnP CodePoint.isBreak with
          | nil => simp
          | cons first others =>
              rw [split] at ih
              obtain ⟨ofFirst, ofOthers⟩ := List.forall_mem_cons.mp ih
              exact List.forall_mem_cons.mpr ⟨List.forall_mem_cons.mpr ⟨isBreak, ofFirst⟩, ofOthers⟩

/-- A text is its only line exactly where it has no end of a line. -/
theorem splitLines_eq_singleton : t.splitLines = [t] ↔ t.IsOneLine := by
  constructor
  · exact fun same => isOneLine_of_mem_splitLines t t (by simp [same])
  · exact List.splitOnP_eq_singleton

/-- The first of joined lines is followed by an end of the line and the others. -/
theorem join_cons_cons (line next : Text) (others : List Text) :
    join "\n" (line :: next :: others) = line ++ (("\n" : Text) ++ join "\n" (next :: others)) :=
  List.append_assoc ..

/-- Joined lines are split one by one. -/
theorem splitLines_join (notEmpty : lines ≠ []) : (join "\n" lines).splitLines = lines.flatMap splitLines := by
  induction lines with
  | nil => exact absurd rfl notEmpty
  | cons line rest ih =>
      cases rest with
      | nil => simp [join]
      | cons next others =>
          have split : (join "\n" (line :: next :: others)).splitLines =
              line.splitLines ++ (join "\n" (next :: others)).splitLines := by
            rw [join_cons_cons]
            exact List.splitOnP_append_cons line _ (by decide)
          rw [split, ih (by simp), ← List.flatMap_cons]

/-- Joined lines are read back exactly where no line ends inside one of them. -/
theorem splitLines_join_eq (notEmpty : lines ≠ []) :
    (join "\n" lines).splitLines = lines ↔ ∀ line ∈ lines, line.IsOneLine := by
  constructor
  · intro same line member
    exact isOneLine_of_mem_splitLines _ line (same ▸ member)
  · intro oneLine
    rw [splitLines_join notEmpty]
    calc lines.flatMap splitLines
        _ = lines.flatMap fun line => [line] :=
          List.flatMap_congr fun line member => splitLines_eq_singleton.mpr (oneLine line member)
        _ = lines := List.flatMap_singleton' lines

/-- The last line stands at the end of the text. -/
theorem join_concat (lines : List Text) (last : Text) : ∃ start, join "\n" (lines ++ [last]) = start ++ last := by
  induction lines with
  | nil => exact ⟨[], rfl⟩
  | cons line rest ih =>
      obtain ⟨start, ends⟩ := ih
      refine ⟨line ++ ("\n" : Text) ++ start, ?_⟩
      have joined : join "\n" (line :: (rest ++ [last])) = line ++ ("\n" : Text) ++ join "\n" (rest ++ [last]) := by
        cases rest <;> rfl
      rw [List.cons_append, joined, ends, List.append_assoc _ start]

/-- An empty line at the end is the end of the line before. -/
theorem join_concat_nil (notEmpty : lines ≠ []) : join "\n" (lines ++ [[]]) = join "\n" lines ++ ("\n" : Text) := by
  induction lines with
  | nil => exact absurd rfl notEmpty
  | cons line rest ih =>
      cases rest with
      | nil => exact List.append_nil _
      | cons next others =>
          rw [List.cons_append, List.cons_append, join_cons_cons, join_cons_cons, ← List.cons_append, ih (by simp),
            List.append_assoc, List.append_assoc]

/-- The text does not end with a blank. -/
def EndsFirmly (t : Text) : Prop := ∃ start c, t = start ++ [c] ∧ c.isBlank = false

/-- A text ends firmly where its second part does. -/
theorem EndsFirmly.append (firm : rest.EndsFirmly) (t : Text) : (t ++ rest).EndsFirmly := by
  obtain ⟨start, c, rfl, notBlank⟩ := firm
  exact ⟨t ++ start, c, (List.append_assoc ..).symm, notBlank⟩

/-- A text that ends firmly has no blanks to strip at its end. -/
theorem EndsFirmly.stripRight (firm : t.EndsFirmly) : t.stripRight = t := by
  obtain ⟨start, c, rfl, notBlank⟩ := firm
  exact List.rdropWhile_concat_neg _ _ _ (by simp [notBlank])

/-- A text that ends firmly is not empty. -/
theorem EndsFirmly.ne_nil (firm : t.EndsFirmly) : t ≠ [] := by
  obtain ⟨start, c, rfl, -⟩ := firm
  simp

end Text

namespace Script

open Piece (read)

/-- Numbers are numerals, what is referred to is a word, and a font has a name. -/
def Expr.IsClean : Expr → Prop
  | .numeral t => t.IsNumeral
  | .color r g b => r.IsNumeral ∧ g.IsNumeral ∧ b.IsNumeral
  | .vector x y => x.IsNumeral ∧ y.IsNumeral
  | .font name => name ≠ []
  | .reference name => IsWord name
  | _ => True

/-- The font that is assigned, if it is one. -/
def Expr.font? : Expr → Option Text
  | .font name => some name
  | _ => none

/-- The pieces of an expression: a text is one literal, and a font and a variable are words. -/
def Expr.pieces : Expr → List Piece
  | .text t => [.literal (escape t)]
  | .font name => read "Enum.Font." ++ [.word name]
  | .reference name => [.word name]
  | e => read e.render

namespace Statement

/-- Variables, kinds and properties are words, and what is assigned is clean. -/
def IsClean : Statement → Prop
  | .create v kind => IsWord v ∧ IsWord kind
  | .assign v property value => IsWord v ∧ IsWord property ∧ value.IsClean
  | .localPlayer => True
  | .blank => True

/-- The font that is assigned, if it is one. -/
def font? : Statement → Option Text
  | .assign _ _ value => value.font?
  | _ => none

/-- The pieces of a statement. -/
def pieces : Statement → List Piece
  | .create v kind => read "local " ++ .word v :: read " = Instance.new(" ++ [.literal kind, .point ')']
  | .assign v property value => .word v :: .point '.' :: .word property :: read " = " ++ value.pieces
  | .localPlayer => read Statement.localPlayer.render
  | .blank => []

/-- The pieces of a statement's line. -/
def linePieces (nested : Bool) : Statement → List Piece
  | .blank => []
  | s => if nested then .point ' ' :: .point ' ' :: s.pieces else s.pieces

end Statement

/-- The pieces of a script, line by line. -/
def pieces (script : Script) : List (List Piece) :=
  let body := script.statements.map (Statement.linePieces script.nested)
  if script.nested then [[.word "do"]] ++ body ++ [[.word "end"]] else body

/-- The fonts that statements assign, in order. -/
def fonts (statements : List Statement) : List Text := statements.filterMap Statement.font?

/-- What holds of all fonts of a script holds of the font of each statement. -/
theorem forall_fonts {statements : List Statement} {P : Text → Prop} :
    (∀ name ∈ fonts statements, P name) ↔ ∀ st ∈ statements, ∀ name ∈ st.font?, P name := by
  simp only [fonts, List.mem_filterMap]
  exact ⟨fun all st member name isFont => all name ⟨st, member, isFont⟩,
    fun all name ⟨st, member, isFont⟩ => all st member name isFont⟩

section

variable {e : Expr} {st : Statement}

/-- An expression is read as it is meant exactly where its font is a word. -/
theorem read_render (clean : e.IsClean) : read e.render = e.pieces ↔ ∀ name ∈ e.font?, IsWord name := by
  have trivially : (∀ name ∈ (none : Option Text), IsWord name) := by simp
  cases e with
  | text t =>
      have alone : read (literal t ++ []) = [.literal (escape t)] := Piece.read_literal t
      rw [List.append_nil] at alone
      exact iff_of_true alone trivially
  | font name =>
      have split : read (("Enum.Font." : Text) ++ name) = read "Enum.Font." ++ read name := rfl
      rw [Expr.render, split, Expr.pieces, List.append_cancel_left_eq, Piece.read_eq_word]
      simp [Expr.font?]
  | reference name => exact iff_of_true (Piece.read_eq_word.mpr clean) trivially
  | _ => exact iff_of_true rfl trivially

/-- A statement is read as it is meant exactly where its font is a word. -/
theorem Statement.read_render (clean : st.IsClean) : read st.render = st.pieces ↔ ∀ name ∈ st.font?, IsWord name := by
  cases st with
  | create v kind =>
      obtain ⟨isWord, isKind⟩ := clean
      have start : ∀ rest : Text, read (("local " : Text) ++ rest) = read "local " ++ read rest := fun _ => rfl
      have middle : ∀ rest : Text, read ((' ' : CodePoint) :: (("= Instance.new(" : Text) ++ rest)) =
          read " = Instance.new(" ++ read rest := fun _ => rfl
      have split : (Statement.create v kind).render =
          ("local " : Text) ++ (v ++ (' ' : CodePoint) :: (("= Instance.new(" : Text) ++ (literal kind ++ (")" : Text)))) := by
        rw [literal, Piece.escape_word isKind.2]
        simp only [Statement.render, List.append_assoc]
        rfl
      refine iff_of_true ?_ (by simp [Statement.font?])
      rw [split, start, Piece.read_word_cons isWord (by decide), middle, Piece.read_literal, Piece.escape_word isKind.2,
        Statement.pieces]
      simp only [List.append_assoc, List.cons_append]
      rfl
  | assign v property value =>
      obtain ⟨isWord, isProperty, cleanValue⟩ := clean
      have split : (Statement.assign v property value).render =
          v ++ ('.' : CodePoint) :: (property ++ (' ' : CodePoint) :: (("= " : Text) ++ value.render)) := by
        simp only [Statement.render, List.append_assoc]
        rfl
      have equals : read ((' ' : CodePoint) :: (("= " : Text) ++ value.render)) = read " = " ++ read value.render := rfl
      have isFont : (Statement.assign v property value).font? = value.font? := rfl
      rw [split, Piece.read_word_cons isWord (by decide), Piece.read_point (by decide) (by decide),
        Piece.read_word_cons isProperty (by decide), equals, Statement.pieces, isFont, ← Script.read_render cleanValue]
      simp
  | localPlayer => exact iff_of_true rfl (by simp [Statement.font?])
  | blank => exact iff_of_true rfl (by simp [Statement.font?])

/-- So is its line. -/
theorem read_line (clean : st.IsClean) (nested : Bool) :
    read (st.line nested) = st.linePieces nested ↔ ∀ name ∈ st.font?, IsWord name := by
  rw [← Statement.read_render clean]
  have moved : ∀ rest : Text, read (("  " : Text) ++ rest) = .point ' ' :: .point ' ' :: read rest := fun _ => rfl
  cases st with
  | blank => exact .rfl
  | _ => cases nested <;> simp [Statement.line, Statement.linePieces, moved]

end

/-- A script is read as it is meant exactly where all its fonts are words. -/
theorem read_lines {script : Script} (clean : ∀ st ∈ script.statements, st.IsClean) :
    script.lines.map read = script.pieces ↔ ∀ name ∈ fonts script.statements, IsWord name := by
  have body : (script.statements.map (Statement.line script.nested)).map read =
      script.statements.map (Statement.linePieces script.nested) ↔ ∀ name ∈ fonts script.statements, IsWord name := by
    rw [List.map_map, List.map_inj_left, forall_fonts]
    exact forall₂_congr fun st member => read_line (clean st member) script.nested
  rw [lines, pieces, ← body]
  cases script.nested with
  | false => exact .rfl
  | true =>
      have start : read "do" = [.word "do"] := by decide
      have stop : read "end" = [.word "end"] := by decide
      simp [start, stop]

/-- The pieces of a clean expression can be put one after the other. -/
theorem Expr.closed_pieces {e : Expr} (clean : e.IsClean) : Piece.Closed e.pieces := by
  have apart : ∀ {t : Text}, t.IsNumeral → ('"' : CodePoint) ∉ t := fun numeral member =>
    absurd (numeral _ member) (by decide)
  cases e with
  | text | reference => simp [pieces, Piece.isUnclosed]
  | truth b => cases b <;> decide
  | numeral t => exact Piece.closed_read (apart clean)
  | color r g b =>
      refine Piece.closed_read ?_
      have red := apart clean.1
      have green := apart clean.2.1
      have blue := apart clean.2.2
      have fixed : ('"' : CodePoint) ∉ ("Color3.fromRGB(" : Text) ∧ ('"' : CodePoint) ∉ (", " : Text) ∧
        ('"' : CodePoint) ∉ (")" : Text) := by decide
      simp [Expr.render, Text.join, red, green, blue, fixed]
  | offset n =>
      refine Piece.closed_read ?_
      have fixed : ('"' : CodePoint) ∉ ("UDim.new(0, " : Text) ∧ ('"' : CodePoint) ∉ (")" : Text) := by decide
      simp [Expr.render, apart (Text.isNumeral_ofInt n), fixed]
  | offsets x y =>
      refine Piece.closed_read ?_
      have fixed : ('"' : CodePoint) ∉ ("UDim2.new(0, " : Text) ∧ ('"' : CodePoint) ∉ (", 0, " : Text) ∧
        ('"' : CodePoint) ∉ (")" : Text) := by decide
      simp [Expr.render, apart (Text.isNumeral_ofInt x), apart (Text.isNumeral_ofInt y), fixed]
  | vector x y =>
      refine Piece.closed_read ?_
      have fixed : ('"' : CodePoint) ∉ ("Vector2.new(" : Text) ∧ ('"' : CodePoint) ∉ (", " : Text) ∧
        ('"' : CodePoint) ∉ (")" : Text) := by decide
      simp [Expr.render, apart clean.1, apart clean.2, fixed]
  | font name =>
      have start : Piece.Closed (read "Enum.Font.") := by decide
      simp [pieces, Piece.isUnclosed, start]
  | coreGui => decide
  | playerGui => decide

/-- The pieces of a clean statement can be put one after the other. -/
theorem Statement.closed_pieces {st : Statement} (clean : st.IsClean) : Piece.Closed st.pieces := by
  cases st with
  | create v kind =>
      have fixed : Piece.Closed (read "local ") ∧ Piece.Closed (read " = Instance.new(") := by decide
      simp [pieces, Piece.isUnclosed, fixed]
  | assign v property value =>
      have equals : Piece.Closed (read " = ") := by decide
      simp [pieces, Piece.isUnclosed, equals, value.closed_pieces clean.2.2]
  | localPlayer => decide
  | blank => decide

/-- Every literal of a script is meant to be complete. -/
theorem closed_pieces {script : Script} (clean : ∀ st ∈ script.statements, st.IsClean) :
    ∀ line ∈ script.pieces, Piece.Closed line := by
  have body : ∀ line ∈ script.statements.map (Statement.linePieces script.nested), Piece.Closed line := by
    refine List.forall_mem_map.mpr fun st member => ?_
    have closed := Statement.closed_pieces (clean st member)
    rw [Statement.linePieces.eq_def]
    split
    · decide
    · split
      · exact Piece.closed_cons.mpr ⟨rfl, Piece.closed_cons.mpr ⟨rfl, closed⟩⟩
      · exact closed
  rw [pieces]
  split
  · simp only [List.forall_mem_append, List.forall_mem_singleton]
    exact ⟨⟨by decide, body⟩, by decide⟩
  · exact body

/-- A literal is one line, whatever its text. -/
theorem isOneLine_literal (t : Text) : (literal t).IsOneLine := by
  have point : ∀ c : CodePoint, (escapePoint c).IsOneLine := by
    intro c
    rw [escapePoint]
    split_ifs with backslash quote carriage newline
    · decide
    · decide
    · decide
    · decide
    · simp [Text.IsOneLine, CodePoint.isBreak, carriage, newline]
  have escaped : (escape t).IsOneLine := by
    intro c member
    obtain ⟨original, -, inPoint⟩ := List.mem_flatMap.mp member
    exact point original c inPoint
  have quote : ("\"" : Text).IsOneLine := by decide
  simp [literal, escaped, quote]

/-- An expression is on one line exactly where its font is. -/
theorem isOneLine_render {e : Expr} (clean : e.IsClean) :
    e.render.IsOneLine ↔ ∀ name ∈ e.font?, name.IsOneLine := by
  have trivially : ∀ name ∈ (none : Option Text), name.IsOneLine := by simp
  have integer : ∀ n, (Text.ofInt n).IsOneLine := fun n => (Text.isNumeral_ofInt n).isOneLine
  cases e with
  | text t => exact iff_of_true (isOneLine_literal t) trivially
  | truth b => cases b <;> exact iff_of_true (by decide) trivially
  | numeral t => exact iff_of_true clean.isOneLine trivially
  | color r g b =>
      have fixed : ("Color3.fromRGB(" : Text).IsOneLine ∧ (", " : Text).IsOneLine ∧ (")" : Text).IsOneLine := by decide
      refine iff_of_true ?_ trivially
      simp [Expr.render, Text.join, clean.1.isOneLine, clean.2.1.isOneLine, clean.2.2.isOneLine, fixed]
  | offset n =>
      have fixed : ("UDim.new(0, " : Text).IsOneLine ∧ (")" : Text).IsOneLine := by decide
      refine iff_of_true ?_ trivially
      simp [Expr.render, integer, fixed]
  | offsets x y =>
      have fixed : ("UDim2.new(0, " : Text).IsOneLine ∧ (", 0, " : Text).IsOneLine ∧ (")" : Text).IsOneLine := by decide
      refine iff_of_true ?_ trivially
      simp [Expr.render, integer, fixed]
  | vector x y =>
      have fixed : ("Vector2.new(" : Text).IsOneLine ∧ (", " : Text).IsOneLine ∧ (")" : Text).IsOneLine := by decide
      refine iff_of_true ?_ trivially
      simp [Expr.render, clean.1.isOneLine, clean.2.isOneLine, fixed]
  | font name =>
      have start : ("Enum.Font." : Text).IsOneLine := by decide
      simp [Expr.render, Expr.font?, start]
  | reference name => exact iff_of_true (Text.isOneLine_of_words clean.2) trivially
  | coreGui => exact iff_of_true (by decide) trivially
  | playerGui => exact iff_of_true (by decide) trivially

/-- The line of a clean statement is one line exactly where its font is. -/
theorem isOneLine_line {st : Statement} (clean : st.IsClean) (nested : Bool) :
    (st.line nested).IsOneLine ↔ ∀ name ∈ st.font?, name.IsOneLine := by
  have rendered : st.render.IsOneLine ↔ ∀ name ∈ st.font?, name.IsOneLine := by
    cases st with
    | create v kind =>
        have fixed : ("local " : Text).IsOneLine ∧ (" = Instance.new(\"" : Text).IsOneLine ∧ ("\")" : Text).IsOneLine := by
          decide
        have v := Text.isOneLine_of_words clean.1.2
        have kind := Text.isOneLine_of_words clean.2.2
        simp [Statement.render, Statement.font?, v, kind, fixed]
    | assign v property value =>
        have fixed : ("." : Text).IsOneLine ∧ (" = " : Text).IsOneLine := by decide
        have v := Text.isOneLine_of_words clean.1.2
        have property := Text.isOneLine_of_words clean.2.1.2
        simp [Statement.render, Statement.font?, v, property, fixed, isOneLine_render clean.2.2]
    | localPlayer => exact iff_of_true (by decide) (by simp [Statement.font?])
    | blank => exact iff_of_true (by decide) (by simp [Statement.font?])
  rw [← rendered]
  have margin : ("  " : Text).IsOneLine := by decide
  cases st with
  | blank => exact .rfl
  | _ => cases nested <;> simp [Statement.line, margin]

/-- The last statement puts an instance under its parent, and a blank line follows it. -/
def IsComplete (statements : List Statement) : Prop :=
  ∃ first last, statements = first ++ [last, .blank] ∧ last.render.EndsFirmly

/-- Complete statements followed by none or by complete ones are complete. -/
theorem IsComplete.append {first rest : List Statement} (complete : IsComplete first)
    (ends : rest = [] ∨ IsComplete rest) : IsComplete (first ++ rest) := by
  rcases ends with rfl | ⟨front, last, rfl, firm⟩
  · rwa [List.append_nil]
  · exact ⟨first ++ front, last, (List.append_assoc ..).symm, firm⟩

/-- The lines of a script without the blank ones at its end. -/
def emitted (script : Script) : List Text := script.lines.rdropWhile List.isEmpty

variable {script : Script}

/-- A script ends with a line that is not blank, and with a blank one where it is no block. -/
theorem lines_eq (complete : IsComplete script.statements) :
    ∃ front last, Text.EndsFirmly last ∧ script.lines = front ++ [last] ++ if script.nested then [] else [[]] := by
  obtain ⟨first, last, isEnd, firm⟩ := complete
  rw [lines]
  cases script.nested with
  | true =>
      refine ⟨[("do" : Text)] ++ script.statements.map (Statement.line true), "end", ?_, ?_⟩
      · exact ⟨"en", 'd', by decide, by decide⟩
      · rw [if_pos rfl, if_pos rfl, List.append_nil]
  | false =>
      refine ⟨first.map (Statement.line false), last.line false, ?_, ?_⟩
      · cases last with
        | blank => exact absurd rfl firm.ne_nil
        | _ => exact firm
      · simp [isEnd, Statement.line]

/-- The last emitted line of a complete script ends firmly, and an empty one follows it unless the
script is nested. -/
theorem emitted_eq (complete : IsComplete script.statements) :
    ∃ front last, Text.EndsFirmly last ∧ script.emitted = front ++ [last] ∧
      script.lines = script.emitted ++ if script.nested then [] else [[]] := by
  obtain ⟨front, last, firm, isLines⟩ := lines_eq complete
  have kept : (front ++ [last]).rdropWhile List.isEmpty = front ++ [last] :=
    List.rdropWhile_concat_neg _ _ _ (by simpa using firm.ne_nil)
  have isEmitted : script.emitted = front ++ [last] := by
    rw [emitted, isLines]
    cases script.nested with
    | true => rw [if_pos rfl, List.append_nil, kept]
    | false => rw [if_neg (by simp), List.rdropWhile_concat_pos _ _ _ rfl, kept]
  exact ⟨front, last, firm, isEmitted, by rw [isLines, isEmitted]⟩

/-- The text of a script are its emitted lines. -/
theorem text_eq (complete : IsComplete script.statements) : script.text = Text.join "\n" script.emitted := by
  obtain ⟨front, last, firm, isEmitted, isLines⟩ := emitted_eq complete
  obtain ⟨start, ends⟩ := Text.join_concat front last
  have stripped : (Text.join "\n" script.emitted).stripRight = Text.join "\n" script.emitted := by
    rw [isEmitted, ends]
    exact (firm.append start).stripRight
  rw [text, isLines]
  cases script.nested with
  | true => rw [if_pos rfl, List.append_nil, stripped]
  | false =>
      have newline : ("\n" : Text).all CodePoint.isBlank := by decide
      rw [if_neg (by simp), Text.join_concat_nil (by simp [isEmitted]), Text.stripRight_append, if_pos newline, stripped]

/-- The text splits into the emitted lines exactly where no line ends inside a font. -/
theorem splitLines_text (complete : IsComplete script.statements) (clean : ∀ st ∈ script.statements, st.IsClean) :
    script.text.splitLines = script.emitted ↔ ∀ name ∈ fonts script.statements, name.IsOneLine := by
  obtain ⟨front, last, -, isEmitted, isLines⟩ := emitted_eq complete
  have empty : Text.IsOneLine [] := by decide
  have allLines : (∀ line ∈ script.emitted, line.IsOneLine) ↔ ∀ line ∈ script.lines, line.IsOneLine := by
    rw [isLines]
    cases script.nested <;> simp [or_imp, forall_and, empty]
  have body : (∀ line ∈ script.lines, line.IsOneLine) ↔
      ∀ st ∈ script.statements, (st.line script.nested).IsOneLine := by
    have frame : ("do" : Text).IsOneLine ∧ ("end" : Text).IsOneLine := by decide
    rw [lines]
    cases script.nested <;> simp [or_imp, forall_and, frame]
  rw [text_eq complete, Text.splitLines_join_eq (by simp [isEmitted]), allLines, body, forall_fonts]
  exact forall₂_congr fun st member => isOneLine_line (clean st member) script.nested

/-- How many lines are emitted is known from how many statements there are. -/
theorem length_emitted (complete : IsComplete script.statements) :
    script.emitted.length = if script.nested then script.statements.length + 2 else script.statements.length - 1 := by
  obtain ⟨front, last, -, -, isLines⟩ := emitted_eq complete
  have counted := congrArg List.length isLines
  rw [lines] at counted
  cases nested : script.nested <;> simp [nested] at counted ⊢ <;> omega

end Script

end LayoutDesigner
