import LayoutDesigner.Text

/-!
# File paths

A path is absolute or relative and has a list of names. Empty names and names of a single dot do
not count. A path that begins with exactly two slashes keeps both.
-/

namespace LayoutDesigner

/-- A path: what it begins with, and its names. -/
structure FilePath where
  start : Text
  names : List Text
  deriving DecidableEq

namespace FilePath

/-- The slashes that a path begins with, as far as they count. -/
def startOf (t : Text) : Text :=
  let count := (t.takeWhile fun c => c = ('/' : CodePoint)).length
  if count = 0 then [] else if count = 2 then "//" else "/"

/-- Read a path. -/
def ofText (t : Text) : FilePath :=
  ⟨startOf t, (Text.splitOn '/' t).filter fun name => !name.isEmpty && name ≠ ("." : Text)⟩

/-- The text of a path; the empty path is a dot. -/
def toText (p : FilePath) : Text := (p.start ++ Text.join "/" p.names).orElse "."

/-- A path inside a directory; an absolute path is not moved. -/
def join (p q : FilePath) : FilePath :=
  if q.start.isEmpty then ⟨p.start, p.names ++ q.names⟩ else q

/-- The directory that holds a path. -/
def parent (p : FilePath) : FilePath := { p with names := p.names.dropLast }

/-- The last name of a path. -/
def name (p : FilePath) : Text := p.names.getLastD []

end FilePath

end LayoutDesigner
