import LayoutDesigner.Text.Printable

/-!
# Quoted text in messages

A message shows a text between quotes, with escapes for the quote, the backslash and everything
without a glyph. Single quotes are used, unless the text holds one and no double quote.
-/

namespace LayoutDesigner.Text

/-- A code point as the escape of its number. -/
def codeEscape (c : CodePoint) : Text :=
  if c.val < 0x100 then "\\x" ++ hex c.val 2
  else if c.val < 0x10000 then "\\u" ++ hex c.val 4
  else "\\U" ++ hex c.val 8

/-- One code point between quotes `quote`. -/
def quotePoint (quote c : CodePoint) : Text :=
  if c = quote ∨ c = '\\' then ['\\', c]
  else if c = '\n' then "\\n"
  else if c = '\r' then "\\r"
  else if c = '\t' then "\\t"
  else if c.isPrintable then [c]
  else codeEscape c

/-- The quote that a text is shown in. -/
def quoteFor (t : Text) : CodePoint :=
  if t.elem ('\'' : CodePoint) && !t.elem ('"' : CodePoint) then '"' else '\''

/-- The text between quotes, as messages show it. -/
def quoted (t : Text) : Text :=
  let quote := quoteFor t
  [quote] ++ t.flatMap (quotePoint quote) ++ [quote]

end LayoutDesigner.Text
