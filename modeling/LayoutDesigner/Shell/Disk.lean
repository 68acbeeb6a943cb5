import LayoutDesigner.FilePath
import LayoutDesigner.Text.Quoted

/-!
# The disk

Files and directories by their paths. A directory is made together with those above it; a file can
be written where its directory is there. What stands in the way is told by a fault.
-/

namespace LayoutDesigner.Shell

/-- What stands in the way of a file or a directory. The path is as a message shows it. -/
inductive DiskFault where
  | alreadyThere (path : Text)
  | notFound (path : Text)
  | notDirectory (path : Text)
  | isDirectory (path : Text)
  deriving DecidableEq

namespace DiskFault

/-- The words of a fault. -/
def message : DiskFault → Text
  | .alreadyThere path => "[Errno 17] File exists: " ++ path.quoted
  | .notFound path => "[Errno 2] No such file or directory: " ++ path.quoted
  | .notDirectory path => "[Errno 20] Not a directory: " ++ path.quoted
  | .isDirectory path => "[Errno 21] Is a directory: " ++ path.quoted

end DiskFault

/-- The directories that were made and the files with their bytes. -/
structure Disk where
  directories : List FilePath := []
  files : List (FilePath × List UInt8) := []

namespace Disk

/-- The bytes of a file. -/
def file? (d : Disk) (p : FilePath) : Option (List UInt8) :=
  (d.files.find? fun (path, _) => path = p).map Prod.snd

/-- Whether a path is that of a directory; a path without names always is. -/
def isDirectory (d : Disk) (p : FilePath) : Bool := p.names.isEmpty || d.directories.elem p

/-- Write a file. -/
def put (d : Disk) (p : FilePath) (bytes : List UInt8) : Disk :=
  { d with files := (p, bytes) :: d.files.filter fun (path, _) => path ≠ p }

/-- What stands in the way to something that lies in the directory `p`, told of the path `shown`. -/
def obstacle? (d : Disk) (shown : Text) (p : FilePath) : Option DiskFault :=
  let above := (List.range (p.names.length + 1)).map fun k => { p with names := p.names.take k }
  above.findSome? fun q =>
    if d.isDirectory q then none
    else if (d.file? q).isSome then some (.notDirectory shown)
    else some (.notFound shown)

/-- Make one directory, or tell what stands in the way. -/
def makeDirectory (d : Disk) (p : FilePath) : Except DiskFault Disk :=
  match d.obstacle? p.toText p.parent with
  | some fault => .error fault
  | none =>
    if d.isDirectory p then .ok d
    else if (d.file? p).isSome then .error (.alreadyThere p.toText)
    else .ok { d with directories := p :: d.directories }

/-- Make a directory and those above it that are missing, `height` of them at most. -/
def makeUpTo (d : Disk) : (height : Nat) → FilePath → Except DiskFault Disk
  | 0, p => d.makeDirectory p
  | height + 1, p =>
    match d.makeDirectory p with
    | .error (.notFound _) => (d.makeUpTo height p.parent).bind fun d => d.makeDirectory p
    | made => made

/-- Make a directory and those above it that are missing. -/
def makeDirectories (d : Disk) (p : FilePath) : Except DiskFault Disk := d.makeUpTo p.names.length p

/-- What stands in the way of writing a file, told of the path as it was given. -/
def writeFault? (d : Disk) (shown : Text) (p : FilePath) : Option DiskFault :=
  match d.obstacle? shown p.parent with
  | some fault => some fault
  | none => if d.isDirectory p then some (.isDirectory shown) else none

end Disk

end LayoutDesigner.Shell
