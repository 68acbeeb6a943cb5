import LayoutDesigner.Script.Highlight
import LayoutDesigner.Proofs.Piece

/-!
# How a line is painted

The passes paint their stretches over one another, so the last two decide: what a comment covers is a
comment, and what else a string covers is a string. The strings of a line are exactly its literals. The
pass for comments looks at no literal: it takes the first two minus signs that stand side by side,
wherever they stand, and everything behind them. So a line shows its literals as strings and holds no
comment exactly where no two minus signs stand side by side in it.
-/

namespace LayoutDesigner

namespace Text

variable {t : Text}

/-- The units of two texts together are those of each. -/
theorem units_append (t rest : Text) : units (t ++ rest) = units t + units rest := by
  simp only [units, List.length_append, List.countP_append]
  omega

/-- The units of a text are those of its first character and of the rest. -/
theorem units_cons (c : CodePoint) (rest : Text) : units (c :: rest) = units [c] + units rest :=
  units_append [c] rest

/-- What comes after a start is the rest of the text. -/
theorem after?_eq_some {start t rest : Text} : after? start t = some rest ↔ t = start ++ rest := by
  fun_induction after? start t with
  | case1 t => simp
  | case2 => simp
  | case3 a start t ih => simp [ih]
  | case4 a start b t other => simp [Ne.symm other]

/-- A text begins with another one where it is that followed by something. -/
theorem startsWith_iff {start t : Text} : t.startsWith start ↔ start <+: t := by
  rw [startsWith, Option.isSome_iff_exists]
  simp only [after?_eq_some]
  exact exists_congr fun rest => eq_comm

/-- Two minus signs stand side by side in the text. -/
def HasDashes (t : Text) : Prop := ("--" : Text) <:+: t

instance : Decidable t.HasDashes := inferInstanceAs (Decidable (("--" : Text) <:+: t))

/-- Two minus signs that stand side by side begin at the unit or before it. -/
def DashedBy (t : Text) (unit : Nat) : Prop :=
  ∃ before after, t = before ++ ("--" : Text) ++ after ∧ before.units ≤ unit

/-- What has two such minus signs is dashed from some unit of it on. -/
theorem hasDashes_iff_dashedBy : t.HasDashes ↔ ∃ unit < t.units, t.DashedBy unit := by
  constructor
  · rintro ⟨before, after, rfl⟩
    refine ⟨units before, ?_, before, after, rfl, Nat.le_refl _⟩
    have dashes : 0 < units ("--" : Text) := by decide
    rw [units_append, units_append]
    omega
  · rintro ⟨unit, -, before, after, rfl, -⟩
    exact ⟨before, after, rfl⟩

end Text

namespace Script

variable {line t rest content : Text} {unit start skip : Nat} {before : Option CodePoint} {token : Token}

/-- The unit lies in the stretch. -/
def Span.Covers (span : Span) (unit : Nat) : Prop := span.start ≤ unit ∧ unit < span.start + span.length

instance {span : Span} : Decidable (span.Covers unit) := inferInstanceAs (Decidable (_ ∧ _))

/-- What a unit looks like after one more stretch was painted. -/
def Span.paint (unit : Nat) (look : Option Token) (span : Span) : Option Token :=
  if span.Covers unit then some span.token else look

/-- What a unit of a line looks like when all stretches are painted in their order. -/
def look (line : Text) (unit : Nat) : Option Token := (highlightLine line).foldl (Span.paint unit) none

/-- A pass marks its own stretches. -/
theorem Token.token_spansFrom : ∀ span ∈ Token.spansFrom token skip before start t, span.token = token := by
  induction t generalizing skip before start with
  | nil => cases skip <;> exact List.forall_mem_nil _
  | cons c rest ih =>
      cases skip with
      | succ skip => exact ih
      | zero =>
          rw [Token.spansFrom]
          split
          · exact ih
          · exact List.forall_mem_cons.mpr ⟨rfl, ih⟩

/-- The unit lies in a stretch of the pass. -/
def Token.Marks (token : Token) (line : Text) (unit : Nat) : Prop := ∃ span ∈ token.spans line, span.Covers unit

instance : Decidable (Token.Marks token line unit) :=
  inferInstanceAs (Decidable (∃ span ∈ token.spans line, span.Covers unit))

/-- A pass paints what it marks and leaves the rest as it was. -/
theorem Token.foldl_paint (look : Option Token) :
    (token.spans line).foldl (Span.paint unit) look = if token.Marks line unit then some token else look := by
  have all : ∀ (spans : List Span) (look : Option Token), (∀ span ∈ spans, span.token = token) →
      spans.foldl (Span.paint unit) look = if ∃ span ∈ spans, span.Covers unit then some token else look := by
    intro spans
    induction spans with
    | nil => simp
    | cons span spans ih =>
        intro look own
        obtain ⟨isOwn, own⟩ := List.forall_mem_cons.mp own
        rw [List.foldl_cons, ih _ own, Span.paint, isOwn]
        by_cases here : span.Covers unit
        · simp [here]
        · simp [here]
  exact all _ look Token.token_spansFrom

/-- Comments win over strings, and strings over what else is marked. -/
theorem look_eq (line : Text) (unit : Nat) : ∃ other, other ≠ some Token.comment ∧ other ≠ some Token.string ∧
    look line unit = if Token.comment.Marks line unit then some .comment
      else if Token.string.Marks line unit then some .string else other := by
  let first := Token.keyword.spans line ++ Token.builtin.spans line ++ Token.number.spans line
  refine ⟨first.foldl (Span.paint unit) none, ?_, ?_, ?_⟩
  · simp only [first, List.foldl_append, Token.foldl_paint]
    split_ifs <;> simp
  · simp only [first, List.foldl_append, Token.foldl_paint]
    split_ifs <;> simp
  · simp only [first, look, highlightLine, Token.all, List.flatMap_cons, List.flatMap_nil, List.foldl_append, List.foldl_nil,
      Token.foldl_paint]

/-- A unit looks like a comment exactly where the rule of comments marks it. -/
theorem look_eq_comment : look line unit = some .comment ↔ Token.comment.Marks line unit := by
  obtain ⟨other, noComment, -, isLook⟩ := look_eq line unit
  rw [isLook]
  by_cases comment : Token.comment.Marks line unit
  · simp [comment]
  · by_cases string : Token.string.Marks line unit <;> simp [comment, string, noComment]

/-- A unit looks like a string exactly where the rule of strings marks it and that of comments does not. -/
theorem look_eq_string :
    look line unit = some .string ↔ Token.string.Marks line unit ∧ ¬Token.comment.Marks line unit := by
  obtain ⟨other, -, noString, isLook⟩ := look_eq line unit
  rw [isLook]
  by_cases comment : Token.comment.Marks line unit
  · simp [comment]
  · by_cases string : Token.string.Marks line unit <;> simp [comment, string, noString]

/-- A comment starts where two minus signs do and goes on to the end. -/
theorem commentAt?_eq : Token.commentAt? t = if ("--" : Text) <+: t then some t.length else none := by
  rw [Token.commentAt?]
  simp only [Text.startsWith_iff]

/-- What is passed already is no part of a further stretch. -/
theorem spansFrom_passed (enough : t.length ≤ skip) : Token.spansFrom token skip before start t = [] := by
  induction t generalizing skip before start with
  | nil => cases skip <;> rfl
  | cons c rest ih =>
      cases skip with
      | zero => simp at enough
      | succ skip => exact ih (by simpa using enough)

/-- A unit is covered by a comment from the first two minus signs on. -/
theorem covers_comment : (∃ span ∈ Token.comment.spansFrom 0 before start t, span.Covers unit) ↔
    (∃ front after, t = front ++ ("--" : Text) ++ after ∧ start + front.units ≤ unit) ∧ unit < start + t.units := by
  induction t generalizing before start with
  | nil => simp [Token.spansFrom]
  | cons c rest ih =>
      rw [Token.spansFrom, Token.at?, commentAt?_eq]
      by_cases begins : ("--" : Text) <+: c :: rest
      · have passed : Token.comment.spansFrom ((c :: rest).length - 1) (some c) (start + Text.units [c]) rest = [] :=
          spansFrom_passed (by simp)
        simp only [if_pos begins, passed, List.take_length, List.mem_singleton, exists_eq_left, Span.Covers]
        refine and_congr_left fun _ => ?_
        constructor
        · intro low
          obtain ⟨after, same⟩ := begins
          exact ⟨[], after, same.symm, low⟩
        · rintro ⟨front, after, -, low⟩
          omega
      · simp only [if_neg begins, ih]
        rw [Text.units_cons c rest, ← Nat.add_assoc]
        refine and_congr_left fun _ => ?_
        constructor
        · rintro ⟨front, after, rfl, low⟩
          refine ⟨c :: front, after, rfl, ?_⟩
          rw [Text.units_cons]
          omega
        · rintro ⟨front, after, same, low⟩
          cases front with
          | nil => exact absurd ⟨after, same.symm⟩ begins
          | cons d front =>
              obtain ⟨rfl, rfl⟩ := List.cons.inj same
              refine ⟨front, after, rfl, ?_⟩
              rw [Text.units_cons] at low
              omega

/-- The rule of comments marks exactly what comes after two minus signs or is one of them. -/
theorem marks_comment : Token.comment.Marks line unit ↔ line.DashedBy unit ∧ unit < line.units := by
  rw [Token.Marks, Token.spans, covers_comment, Text.DashedBy]
  simp

namespace Piece

/-- The text that a piece was read from. -/
def text : Piece → Text
  | .literal content => ('"' : CodePoint) :: (content ++ [('"' : CodePoint)])
  | .unclosed content => ('"' : CodePoint) :: content
  | .word t => t
  | .point c => [c]

/-- The unit lies in a literal among pieces that begin at `start`, its quotes counted in. -/
def InLiteral (unit : Nat) : (start : Nat) → List Piece → Prop
  | _, [] => False
  | start, .literal content :: rest =>
    (start ≤ unit ∧ unit < start + (text (.literal content)).units) ∨
      InLiteral unit (start + (text (.literal content)).units) rest
  | start, piece :: rest => InLiteral unit (start + piece.text.units) rest

/-- A letter before the pieces moves them by its units. -/
theorem inLiteral_withLetter (c : CodePoint) (pieces : List Piece) :
    InLiteral unit start (withLetter c pieces) ↔ InLiteral unit (start + Text.units [c]) pieces := by
  rw [withLetter.eq_def]
  split
  · simp only [InLiteral, text]
    rw [Text.units_cons, Nat.add_assoc]
  · simp only [InLiteral, text]

/-- What stands between two quotes: no quote and no backslash, but for those that a backslash is followed
by. -/
inductive IsContent : Text → Prop
  | nil : IsContent []
  | plain {c : CodePoint} {t : Text} (noQuote : c ≠ ('"' : CodePoint)) (noBackslash : c ≠ ('\\' : CodePoint))
      (rest : IsContent t) : IsContent (c :: t)
  | escaped {c : CodePoint} {t : Text} (rest : IsContent t) : IsContent (('\\' : CodePoint) :: c :: t)

/-- The content of a literal is read up to its quotation mark. -/
theorem readFrom_content (isContent : IsContent content) (read : Text) :
    readFrom (.inside read) (content ++ ('"' : CodePoint) :: rest) =
      .literal (read ++ content) :: readFrom .between rest := by
  have other : ('\\' : CodePoint) ≠ ('"' : CodePoint) := by decide
  induction isContent generalizing read with
  | nil => simp [readFrom]
  | plain noQuote noBackslash _ ih => simp [readFrom, noQuote, noBackslash, ih]
  | escaped _ ih => simp [readFrom, other, ih]

/-- A literal in front of a text is read as one. -/
theorem read_text_literal (isContent : IsContent content) :
    read (text (.literal content) ++ rest) = .literal content :: read rest := by
  have opened : read (text (.literal content) ++ rest) =
      readFrom (.inside []) (content ++ ('"' : CodePoint) :: rest) := by simp [text, read, readFrom]
  rw [opened, readFrom_content isContent, List.nil_append, read]

/-- What was read already of the piece that reading stands in. -/
def Place.text : Place → Text
  | .between => []
  | .inside content => ('"' : CodePoint) :: content
  | .escaped content => ('"' : CodePoint) :: content

/-- The pieces are the line, one after the other. -/
theorem flatMap_text_readFrom (place : Place) (t : Text) : (readFrom place t).flatMap text = place.text ++ t := by
  have letter : ∀ (c : CodePoint) (pieces : List Piece),
      (withLetter c pieces).flatMap text = c :: pieces.flatMap text := by
    intro c pieces
    rw [withLetter.eq_def]
    split <;> rfl
  fun_induction readFrom place t with
  | case1 | case2 | case3 => simp [text, Place.text]
  | case5 c rest _ _ ih => rw [letter, ih, Place.text, List.nil_append, List.nil_append]
  | case4 _ ih | case6 _ _ _ _ ih | case7 _ _ ih | case8 _ _ _ ih | case9 _ _ _ _ _ ih | case10 _ _ _ ih =>
      simp [text, ih, Place.text]

/-- The pieces of a line make up the line. -/
theorem flatMap_text_read (line : Text) : (read line).flatMap text = line := flatMap_text_readFrom .between line

/-- So the units of literals are units of the line. -/
theorem InLiteral.lt {pieces : List Piece} (within : InLiteral unit start pieces) :
    unit < start + Text.units (pieces.flatMap text) := by
  induction pieces generalizing start with
  | nil => exact within.elim
  | cons piece rest ih =>
      rw [List.flatMap_cons, Text.units_append, ← Nat.add_assoc]
      cases piece with
      | literal content =>
          rcases within with ⟨-, here⟩ | later
          · omega
          · exact ih later
      | unclosed | word | point => exact ih within

end Piece

open Piece (IsContent InLiteral)

/-- A string ends at the first quote that no backslash takes with it. -/
theorem closing?_content (isContent : IsContent content) :
    Token.closing? (content ++ ('"' : CodePoint) :: rest) = some (content.length + 1) := by
  have other : ('\\' : CodePoint) ≠ ('"' : CodePoint) := by decide
  induction isContent with
  | nil =>
      rw [List.nil_append, Token.closing?.eq_def]
      exact if_pos rfl
  | plain noQuote noBackslash _ ih =>
      rw [List.cons_append, Token.closing?.eq_def]
      simp [noQuote, noBackslash, ih]
  | escaped _ ih => simp [Token.closing?, other, ih]

/-- There is no other way for it to end. -/
theorem exists_content {n : Nat} (closed : Token.closing? t = some n) :
    ∃ content after, IsContent content ∧ t = content ++ ('"' : CodePoint) :: after := by
  fun_induction Token.closing? t generalizing n with
  | case1 => cases closed
  | case2 rest => exact ⟨[], rest, .nil, rfl⟩
  | case3 => cases closed
  | case4 c rest _ ih =>
      obtain ⟨m, found, -⟩ := Option.map_eq_some_iff.mp closed
      obtain ⟨content, after, isContent, rfl⟩ := ih found
      exact ⟨_, after, isContent.escaped, rfl⟩
  | case5 c rest noQuote noBackslash ih =>
      obtain ⟨m, found, -⟩ := Option.map_eq_some_iff.mp closed
      obtain ⟨content, after, isContent, rfl⟩ := ih found
      exact ⟨_, after, isContent.plain noQuote noBackslash, rfl⟩

/-- Behind a quote that nothing closes there is neither a literal nor a string. -/
theorem open_of_closing? (unclosed : Token.closing? t = none) :
    (∀ read, Piece.readFrom (.inside read) t = [.unclosed (read ++ t)]) ∧
      ∀ before start, Token.string.spansFrom 0 before start t = [] := by
  have other : ('\\' : CodePoint) ≠ ('"' : CodePoint) := by decide
  fun_induction Token.closing? t with
  | case1 => exact ⟨fun read => by simp [Piece.readFrom], fun _ _ => rfl⟩
  | case2 => cases unclosed
  | case3 =>
      exact ⟨fun read => by simp [Piece.readFrom, other],
        fun before start => by simp [Token.spansFrom, Token.at?, Token.stringAt?, other]⟩
  | case4 c rest _ ih =>
      rw [Option.map_eq_none_iff] at unclosed
      obtain ⟨isOpen, noSpan⟩ := ih unclosed
      refine ⟨fun read => by simp [Piece.readFrom, other, isOpen], fun before start => ?_⟩
      by_cases quote : c = ('"' : CodePoint)
      · simp [Token.spansFrom, Token.at?, Token.stringAt?, other, quote, unclosed, noSpan]
      · simp [Token.spansFrom, Token.at?, Token.stringAt?, other, quote, noSpan]
  | case5 c rest noQuote noBackslash ih =>
      rw [Option.map_eq_none_iff] at unclosed
      obtain ⟨isOpen, noSpan⟩ := ih unclosed
      exact ⟨fun read => by simp [Piece.readFrom, noQuote, noBackslash, isOpen],
        fun before start => by simp [Token.spansFrom, Token.at?, Token.stringAt?, noQuote, noSpan]⟩

/-- What is passed of a line moves the strings behind it by its units, and nothing else of it matters. -/
theorem spansFrom_append (before : Option CodePoint) (start : Nat) (passed t : Text) :
    Token.string.spansFrom passed.length before start (passed ++ t) =
      Token.string.spansFrom 0 none (start + passed.units) t := by
  induction passed generalizing before start with
  | nil => cases t <;> rfl
  | cons c passed ih =>
      rw [List.cons_append, List.length_cons, Token.spansFrom, ih, Text.units_cons c passed, Nat.add_assoc]

/-- A literal is a string, and the pass goes on behind it. -/
theorem spansFrom_literal (isContent : IsContent content) :
    Token.string.spansFrom 0 before start (Piece.text (.literal content) ++ rest) =
      ⟨.string, start, (Piece.text (.literal content)).units⟩ ::
        Token.string.spansFrom 0 none (start + (Piece.text (.literal content)).units) rest := by
  have opened : Piece.text (.literal content) ++ rest =
      ('"' : CodePoint) :: (content ++ ('"' : CodePoint) :: rest) := by simp [Piece.text]
  have found : Token.stringAt? (('"' : CodePoint) :: (content ++ ('"' : CodePoint) :: rest)) =
      some (content.length + 1 + 1) := by simp [Token.stringAt?, closing?_content isContent]
  have isText : (('"' : CodePoint) :: (content ++ ('"' : CodePoint) :: rest)).take (content.length + 1 + 1) =
      Piece.text (.literal content) := by simp [Piece.text, List.take_append]
  have passed : Token.string.spansFrom (content.length + 1) (some '"') (start + Text.units [('"' : CodePoint)])
      (content ++ ('"' : CodePoint) :: rest) =
      Token.string.spansFrom 0 none (start + (Piece.text (.literal content)).units) rest := by
    have moved := spansFrom_append (some '"') (start + Text.units [('"' : CodePoint)])
      (content ++ [('"' : CodePoint)]) rest
    rw [List.length_append, List.length_singleton, List.append_assoc, List.singleton_append] at moved
    rw [moved, Nat.add_assoc, ← Text.units_cons, Piece.text]
  rw [opened, Token.spansFrom, Token.at?, found]
  simp only [isText, Nat.add_sub_cancel, passed]

/-- The strings of a line are its literals. -/
theorem covers_string : (∃ span ∈ Token.string.spansFrom 0 before start t, span.Covers unit) ↔
    InLiteral unit start (Piece.read t) := by
  -- A literal is passed as a whole, so what follows it is only known to be shorter.
  induction size : t.length using Nat.strong_induction_on generalizing t before start with
  | _ size ih =>
      subst size
      cases t with
      | nil => simp [Token.spansFrom, Piece.read, Piece.readFrom, InLiteral]
      | cons c rest =>
          by_cases quote : c = ('"' : CodePoint)
          · subst quote
            cases closed : Token.closing? rest with
            | none =>
                obtain ⟨isOpen, noSpan⟩ := open_of_closing? closed
                simp [Token.spansFrom, Token.at?, Token.stringAt?, closed, noSpan, Piece.read, Piece.readFrom, isOpen,
                  InLiteral]
            | some n =>
                obtain ⟨content, after, isContent, rfl⟩ := exists_content closed
                have whole : ('"' : CodePoint) :: (content ++ ('"' : CodePoint) :: after) =
                    Piece.text (.literal content) ++ after := by simp [Piece.text]
                rw [whole, spansFrom_literal isContent, Piece.read_text_literal isContent, InLiteral]
                simp only [List.mem_cons, exists_eq_or_imp]
                exact or_congr_right (ih _ (by simp; omega) rfl)
          · have others : Token.string.spansFrom 0 before start (c :: rest) =
                Token.string.spansFrom 0 (some c) (start + Text.units [c]) rest := by
              simp [Token.spansFrom, Token.at?, Token.stringAt?, quote]
            rw [others, ih rest.length (by simp) rfl]
            by_cases isWord : c.isAsciiWord
            · have step : Piece.read (c :: rest) = Piece.withLetter c (Piece.read rest) := by
                simp [Piece.read, Piece.readFrom, quote, isWord]
              rw [step, Piece.inLiteral_withLetter]
            · rw [Piece.read_point quote isWord, InLiteral, Piece.text]
              intro content same
              cases same

/-- The rule of strings marks exactly what is in a literal. -/
theorem marks_string : Token.string.Marks line unit ↔ InLiteral unit 0 (Piece.read line) := covers_string

/-- Comments are what two minus signs begin, wherever they stand. -/
theorem look_eq_comment_iff : look line unit = some .comment ↔ line.DashedBy unit ∧ unit < line.units := by
  rw [look_eq_comment, marks_comment]

/-- Strings are the literals, but for what two minus signs begin. -/
theorem look_eq_string_iff :
    look line unit = some .string ↔ InLiteral unit 0 (Piece.read line) ∧ ¬line.DashedBy unit := by
  rw [look_eq_string, marks_string, marks_comment]
  refine and_congr_right fun literal => ?_
  have inside : unit < line.units := by
    have within := literal.lt
    rwa [Piece.flatMap_text_read, Nat.zero_add] at within
  simp [inside]

/-- A line shows its literals: all of their units are strings, and no other unit is a comment. -/
def ShowsLiterals (line : Text) : Prop := ∀ unit,
  (InLiteral unit 0 (Piece.read line) → look line unit = some .string) ∧
    (¬InLiteral unit 0 (Piece.read line) → look line unit ≠ some .comment)

/-- A line shows its literals exactly where no two minus signs stand side by side in it. -/
theorem showsLiterals_iff : ShowsLiterals line ↔ ¬line.HasDashes := by
  rw [Text.hasDashes_iff_dashedBy]
  constructor
  · rintro shows ⟨unit, inside, dashed⟩
    have comment : look line unit = some .comment := look_eq_comment_iff.mpr ⟨dashed, inside⟩
    obtain ⟨string, noComment⟩ := shows unit
    by_cases literal : InLiteral unit 0 (Piece.read line)
    · simp [string literal] at comment
    · exact noComment literal comment
  · intro noDashes unit
    have noComment : ¬Token.comment.Marks line unit := by
      rw [marks_comment]
      rintro ⟨dashed, inside⟩
      exact noDashes ⟨unit, inside, dashed⟩
    constructor
    · exact fun literal => look_eq_string.mpr ⟨marks_string.mpr literal, noComment⟩
    · exact fun _ isComment => noComment (look_eq_comment.mp isComment)

instance : Decidable (ShowsLiterals line) := decidable_of_iff _ showsLiterals_iff.symm

end Script

end LayoutDesigner
