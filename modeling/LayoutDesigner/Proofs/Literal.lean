import LayoutDesigner.Script.Literal
import Mathlib.Data.List.Basic
import Mathlib.Tactic.SplitIfs

/-!
# Reading a literal back

A program that reads a script takes a literal apart code point by code point. The script makes one by
replacing the special code points of a text, one kind after the other. The backslashes go first, so no
replacement touches what an earlier one has put in, and the four together are one substitution. The
reader undoes that substitution and nothing else.
-/

namespace LayoutDesigner.Script

variable {c d : CodePoint} {t rest u : Text}

/-- A text inside a literal, made in four passes: the backslashes, the quotes, the carriage returns
and the line feeds. -/
def escapeInPasses (t : Text) : Text :=
  let backslashed := Text.replace [('\\' : CodePoint)] "\\\\" t
  let quoted := Text.replace [('"' : CodePoint)] "\\\"" backslashed
  let returned := Text.replace [('\r' : CodePoint)] "\\r" quoted
  Text.replace [('\n' : CodePoint)] "\\n" returned

/-- No pass touches what an earlier one has put in, so each code point goes its own way. -/
theorem escapeInPasses_eq (t : Text) : escapeInPasses t = escape t := by
  simp only [escapeInPasses, Text.replace_singleton, escape, List.flatMap_assoc]
  -- On one code point the four passes compute: what the first puts in, the others leave alone.
  refine List.flatMap_congr fun c _ => ?_
  rw [escapePoint]
  split_ifs with backslash isQuote carriage newline
  · rfl
  · subst isQuote
    rfl
  · subst carriage
    rfl
  · subst newline
    rfl
  · simp [isQuote, carriage, newline]

/-- What a backslash makes of the code point behind it. -/
def unescapePoint? (c : CodePoint) : Option CodePoint :=
  if c = 'n' then some '\n'
  else if c = 'r' then some '\r'
  else if c = '\\' then some '\\'
  else if c = '"' then some '"'
  else none

/-- A code point before what a literal stands for. -/
def withPoint (c : CodePoint) (read : Text × Text) : Text × Text := (c :: read.1, read.2)

/-- The text that a literal stands for and what follows the literal, read from behind the opening
quote. A quote ends the literal unless a backslash takes it. There is none where a line or the text
ends first, or where a backslash takes a code point that it makes nothing of. -/
def readLiteral? : Text → Option (Text × Text)
  | [] => none
  | c :: rest =>
    if c = '"' then some ([], rest)
    else if c = '\r' ∨ c = '\n' then none
    else if c = '\\' then
      match rest with
      | [] => none
      | d :: rest => (unescapePoint? d).bind fun taken => (readLiteral? rest).map (withPoint taken)
    else (readLiteral? rest).map (withPoint c)

/-- A quotation mark ends a literal. -/
theorem readLiteral?_quote (rest : Text) : readLiteral? (('"' : CodePoint) :: rest) = some ([], rest) := by
  rw [readLiteral?.eq_def]
  exact if_pos rfl

/-- What a backslash takes stands before what the rest stands for. -/
theorem readLiteral?_backslash (taken : unescapePoint? d = some c) (rest : Text) :
    readLiteral? (('\\' : CodePoint) :: d :: rest) = (readLiteral? rest).map (withPoint c) := by
  rw [readLiteral?.eq_def]
  simp only [taken, Option.bind_some]
  rw [if_neg (by decide), if_neg (by decide), if_pos trivial]

/-- An escaped code point reads as itself, whatever follows. -/
theorem readLiteral?_escapePoint (c : CodePoint) (rest : Text) :
    readLiteral? (escapePoint c ++ rest) = (readLiteral? rest).map (withPoint c) := by
  rw [escapePoint]
  split_ifs with backslash isQuote carriage newline
  · exact readLiteral?_backslash (by rw [backslash]; rfl) rest
  · exact readLiteral?_backslash (by rw [isQuote]; rfl) rest
  · exact readLiteral?_backslash (by rw [carriage]; rfl) rest
  · exact readLiteral?_backslash (by rw [newline]; rfl) rest
  · rw [List.singleton_append, readLiteral?.eq_def]
    simp only
    rw [if_neg isQuote, if_neg (not_or.mpr ⟨carriage, newline⟩), if_neg backslash]

/-- A backslash makes of a code point only what is escaped by that code point. -/
theorem escapePoint_of_unescapePoint? (taken : unescapePoint? d = some c) :
    escapePoint c = [('\\' : CodePoint), d] := by
  rw [unescapePoint?] at taken
  split_ifs at taken with isN isR backslash isQuote
  all_goals obtain rfl := Option.some.inj taken
  · subst isN
    rfl
  · subst isR
    rfl
  · subst backslash
    rfl
  · subst isQuote
    rfl

/-- Nothing reads as a text but the text escaped. -/
theorem eq_escape_of_readLiteral? (isRead : readLiteral? u = some (t, rest)) :
    u = escape t ++ ('"' : CodePoint) :: rest := by
  fun_induction readLiteral? u generalizing t rest with
  | case1 | case3 | case4 => cases isRead
  | case2 => cases isRead; rfl
  | case5 d left _ _ ih =>
      obtain ⟨taken, isTaken, isRead⟩ := Option.bind_eq_some_iff.mp isRead
      obtain ⟨_, isLeft, same⟩ := Option.map_eq_some_iff.mp isRead
      cases same
      rw [escape_cons, escapePoint_of_unescapePoint? isTaken, ih isLeft]
      rfl
  | case6 c left noQuote noEnd noBackslash ih =>
      obtain ⟨_, isLeft, same⟩ := Option.map_eq_some_iff.mp isRead
      cases same
      obtain ⟨noReturn, noFeed⟩ := not_or.mp noEnd
      have plain : escapePoint c = [c] := by
        rw [escapePoint, if_neg noBackslash, if_neg noQuote, if_neg noReturn, if_neg noFeed]
      rw [escape_cons, plain, ih isLeft]
      rfl

/-- **An escaped text reads back as itself.** The four passes of escaping are one substitution, and a
reader that starts behind the opening quote takes exactly the text escaped and the closing quote,
yields the text and leaves what follows, whatever that is. Nothing else reads as the text. -/
theorem reads_escape (t rest : Text) :
    escapeInPasses t = escape t ∧
      ∀ u, readLiteral? u = some (t, rest) ↔ u = escape t ++ ('"' : CodePoint) :: rest := by
  refine ⟨escapeInPasses_eq t, fun u => ⟨eq_escape_of_readLiteral?, ?_⟩⟩
  rintro rfl
  induction t with
  | nil => exact readLiteral?_quote rest
  | cons c t ih =>
      rw [escape_cons, List.append_assoc, readLiteral?_escapePoint, ih]
      rfl

end LayoutDesigner.Script
