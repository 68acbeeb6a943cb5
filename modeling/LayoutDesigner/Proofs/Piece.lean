import LayoutDesigner.Proofs.LegalNames
import LayoutDesigner.Proofs.NumeralText

/-!
# Pieces of a line

A line of a script falls into literals between quotes, words, and single code points. A text that is
escaped is one literal, whatever it holds, and a variable is one word. Only a font is written as it
is, so a line falls into the pieces that it is meant to have exactly where its font is a word.
-/

namespace LayoutDesigner.Script

/-- A text of ASCII letters, digits and underscores, one at least. -/
def IsWord (t : Text) : Prop := t ≠ [] ∧ ∀ c ∈ t, c.isAsciiWord

instance {t : Text} : Decidable (IsWord t) :=
  decidable_of_iff (t ≠ [] ∧ t.all CodePoint.isAsciiWord) (and_congr_right' List.all_eq_true)

/-- A piece of a line. -/
inductive Piece where
  /-- What stands between two quotes. -/
  | literal (content : Text)
  /-- What stands behind a quote to the end of the line. -/
  | unclosed (content : Text)
  /-- As many ASCII letters, digits and underscores as stand together. -/
  | word (t : Text)
  /-- Any other code point. -/
  | point (c : CodePoint)
  deriving DecidableEq

namespace Piece

/-- A letter of a word before what follows it. -/
def withLetter (c : CodePoint) : List Piece → List Piece
  | .word t :: rest => .word (c :: t) :: rest
  | pieces => .word [c] :: pieces

/-- Where in a line reading stands. -/
inductive Place where
  | between
  /-- Inside a literal, the content being read so far. -/
  | inside (content : Text)
  /-- Behind a backslash inside a literal. -/
  | escaped (content : Text)

/-- The pieces of the rest of a line. A backslash in a literal takes the next code point with it. -/
def readFrom : Place → Text → List Piece
  | .between, [] => []
  | .inside content, [] => [.unclosed content]
  | .escaped content, [] => [.unclosed content]
  | .between, c :: rest =>
    if c = ('"' : CodePoint) then readFrom (.inside []) rest
    else if c.isAsciiWord then withLetter c (readFrom .between rest)
    else .point c :: readFrom .between rest
  | .inside content, c :: rest =>
    if c = ('"' : CodePoint) then .literal content :: readFrom .between rest
    else if c = ('\\' : CodePoint) then readFrom (.escaped (content ++ [c])) rest
    else readFrom (.inside (content ++ [c])) rest
  | .escaped content, c :: rest => readFrom (.inside (content ++ [c])) rest

/-- The pieces of a line. -/
def read (line : Text) : List Piece := readFrom .between line

variable {c : CodePoint} {t rest content : Text} {place : Place} {pieces : List Piece}

/-- What is neither a quotation mark nor part of a word is a piece of its own. -/
theorem read_point (noQuote : c ≠ ('"' : CodePoint)) (noWord : ¬c.isAsciiWord) :
    read (c :: rest) = .point c :: read rest := by
  simp [read, readFrom, noQuote, noWord]

/-- The pieces do not begin with a word. -/
def Apart : List Piece → Prop
  | .word _ :: _ => False
  | _ => True

/-- A letter before pieces that start with no word is a word. -/
theorem withLetter_apart (apart : Apart pieces) : withLetter c pieces = .word [c] :: pieces := by
  rw [withLetter.eq_def]
  split
  · exact apart.elim
  · rfl

/-- What is read inside a literal begins with it. -/
theorem apart_readFrom (within : ∀ {place' : Place}, place = place' → place' ≠ .between) :
    Apart (readFrom place t) := by
  fun_induction readFrom place t with
  | case1 | case4 | case5 | case6 => exact absurd rfl (within rfl)
  | case2 | case3 | case7 => trivial
  | case8 _ _ _ ih | case9 _ _ _ _ _ ih | case10 _ _ _ ih => exact ih fun same => by simp [← same]

/-- Pieces start with no word where their text starts with no letter. -/
theorem apart_read (noWord : ∀ c ∈ rest.head?, ¬c.isAsciiWord) : Apart (read rest) := by
  cases rest with
  | nil => trivial
  | cons c rest =>
      rw [read, readFrom]
      split
      · exact apart_readFrom fun same => by simp [← same]
      · rw [if_neg (noWord c rfl)]
        trivial

/-- A word is read where no letter follows it. -/
theorem read_word (isWord : IsWord t) (noWord : ∀ c ∈ rest.head?, ¬c.isAsciiWord) :
    read (t ++ rest) = .word t :: read rest := by
  obtain ⟨notEmpty, words⟩ := isWord
  have noQuote : ∀ {c : CodePoint}, c.isAsciiWord → c ≠ ('"' : CodePoint) := by
    rintro c isWord rfl
    exact absurd isWord (by decide)
  induction t with
  | nil => exact absurd rfl notEmpty
  | cons c t ih =>
      obtain ⟨isWord, words⟩ := List.forall_mem_cons.mp words
      have step : read (c :: (t ++ rest)) = withLetter c (read (t ++ rest)) := by
        simp [read, readFrom, noQuote isWord, isWord]
      rw [List.cons_append, step]
      cases t with
      | nil => exact withLetter_apart (apart_read noWord)
      | cons d t => rw [ih (by simp) words, withLetter]

/-- A word that ends before another character is a piece. -/
theorem read_word_cons (isWord : IsWord t) (noWord : ¬c.isAsciiWord) :
    read (t ++ c :: rest) = .word t :: read (c :: rest) :=
  read_word isWord fun _ same => Option.some.inj same ▸ noWord

/-- Words are read as such only. -/
theorem word_of_mem_readFrom (member : .word t ∈ readFrom place rest) : IsWord t := by
  have step : ∀ {c : CodePoint} {pieces : List Piece}, c.isAsciiWord →
      (∀ t, .word t ∈ pieces → IsWord t) → ∀ t, .word t ∈ withLetter c pieces → IsWord t := by
    intro c pieces isWord words t member
    rw [withLetter.eq_def] at member
    split at member
    · next first others =>
        rcases List.mem_cons.mp member with same | inRest
        · obtain rfl := Piece.word.inj same
          exact ⟨by simp, List.forall_mem_cons.mpr ⟨isWord, (words first List.mem_cons_self).2⟩⟩
        · exact words t (List.mem_cons_of_mem _ inRest)
    · rcases List.mem_cons.mp member with same | inRest
      · obtain rfl := Piece.word.inj same
        exact ⟨by simp, by simpa using isWord⟩
      · exact words t inRest
  fun_induction readFrom place rest generalizing t with
  | case1 => cases member
  | case2 | case3 => simp at member
  | case5 _ _ _ isWord ih => exact step isWord (fun t => ih) t member
  | case6 _ _ _ _ ih | case7 _ _ ih => exact ih (by simpa using member)
  | case4 _ ih | case8 _ _ _ ih | case9 _ _ _ _ _ ih | case10 _ _ _ ih => exact ih member

/-- A text is one word exactly where it is a word. -/
theorem read_eq_word : read t = [.word t] ↔ IsWord t := by
  constructor
  · intro same
    have member : .word t ∈ read t := by simp [same]
    exact word_of_mem_readFrom member
  · intro isWord
    have alone : read (t ++ []) = [.word t] := read_word isWord (by simp)
    rwa [List.append_nil] at alone

/-- An escaped point is read on inside a literal. -/
theorem readFrom_escapePoint (c : CodePoint) :
    readFrom (.inside content) (escapePoint c ++ rest) = readFrom (.inside (content ++ escapePoint c)) rest := by
  have backslashed : ∀ d : CodePoint, readFrom (.inside content) (('\\' : CodePoint) :: d :: rest) =
      readFrom (.inside (content ++ [('\\' : CodePoint), d])) rest := by
    intro d
    have other : ('\\' : CodePoint) ≠ ('"' : CodePoint) := by decide
    simp [readFrom, other]
  rw [escapePoint]
  split_ifs with backslash quote
  · exact backslashed _
  · exact backslashed _
  · exact backslashed _
  · exact backslashed _
  · simp [readFrom, backslash, quote]

/-- An escaped text is read as the content of a literal. -/
theorem readFrom_escape (t : Text) :
    readFrom (.inside content) (escape t ++ ('"' : CodePoint) :: rest) =
      Piece.literal (content ++ escape t) :: readFrom .between rest := by
  induction t generalizing content with
  | nil => simp [escape, readFrom]
  | cons c t ih =>
      rw [escape_cons, List.append_assoc, readFrom_escapePoint, ih, List.append_assoc]

/-- A text is one literal, whatever it holds. -/
theorem read_literal (t : Text) : read (Script.literal t ++ rest) = .literal (escape t) :: read rest := by
  have opened : read (Script.literal t ++ rest) = readFrom (.inside []) (escape t ++ ('"' : CodePoint) :: rest) := by
    rw [Script.literal, List.append_assoc, List.append_assoc]
    rfl
  rw [opened, readFrom_escape, List.nil_append, ← read]

/-- A word is escaped as it is. -/
theorem escape_word (words : ∀ c ∈ t, c.isAsciiWord) : escape t = t := by
  have same : ∀ c : CodePoint, c.isAsciiWord → escapePoint c = [c] := by
    intro c isWord
    rw [escapePoint]
    split_ifs with backslash quote carriage newline
    · exact absurd (backslash ▸ isWord) (by decide)
    · exact absurd (quote ▸ isWord) (by decide)
    · exact absurd (carriage ▸ isWord) (by decide)
    · exact absurd (newline ▸ isWord) (by decide)
    · rfl
  induction t with
  | nil => rfl
  | cons c t ih =>
      obtain ⟨isWord, words⟩ := List.forall_mem_cons.mp words
      rw [escape_cons, same c isWord, ih words, List.singleton_append]

/-- The piece is a literal that no quote closes. -/
def isUnclosed : Piece → Bool
  | .unclosed _ => true
  | _ => false

/-- Every literal among the pieces is complete. -/
def Closed (pieces : List Piece) : Prop := ∀ piece ∈ pieces, piece.isUnclosed = false

instance : Decidable (Closed pieces) := inferInstanceAs (Decidable (∀ piece ∈ pieces, piece.isUnclosed = false))

@[simp] theorem closed_nil : Closed [] := List.forall_mem_nil _

@[simp] theorem closed_cons {piece : Piece} :
    Closed (piece :: pieces) ↔ piece.isUnclosed = false ∧ Closed pieces := List.forall_mem_cons

@[simp] theorem closed_append {others : List Piece} :
    Closed (pieces ++ others) ↔ Closed pieces ∧ Closed others := List.forall_mem_append

/-- Closed pieces stay so with one more letter in front. -/
theorem Closed.withLetter (closed : Closed pieces) : Closed (withLetter c pieces) := by
  rw [Piece.withLetter.eq_def]
  split
  · exact closed_cons.mpr ⟨rfl, (closed_cons.mp closed).2⟩
  · exact closed_cons.mpr ⟨rfl, closed⟩

/-- What has no quote has no literal. -/
theorem closed_read (noQuote : ('"' : CodePoint) ∉ t) : Closed (read t) := by
  rw [read]
  induction t with
  | nil => exact closed_nil
  | cons c t ih =>
      obtain ⟨other, noQuote⟩ := List.ne_and_not_mem_of_not_mem_cons noQuote
      rw [readFrom, if_neg other.symm]
      split
      · exact (ih noQuote).withLetter
      · exact closed_cons.mpr ⟨rfl, ih noQuote⟩

end Piece

end LayoutDesigner.Script
