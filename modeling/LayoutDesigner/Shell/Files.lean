import LayoutDesigner.Shell
import LayoutDesigner.Snapshot.SaveFile

/-!
# Files and the clipboard

Copying and downloading the script, saving and loading the design. A file that cannot be written is
told in a message; text that cannot be encoded is a fault.
-/

namespace LayoutDesigner.Shell

/-- Tell something in the status bar that is no notice of the session. -/
def tellStatus (message : Text) : Edit Shell Unit := do
  happen (.statusMessage message)
  modify fun shell => { shell with window := shell.window.map fun w => { w with message } }

/-- Tell that a file cannot be written. -/
def tellFailure (path : Text) (fault : DiskFault) : Edit Shell Unit :=
  happen (.failure "Save failed"
    (("Could not write " : Text) ++ path ++ (":\n" : Text) ++ fault.message))

/-- Write a file. -/
def putFile (p : FilePath) (bytes : List UInt8) : Edit Shell Unit := modify fun shell =>
  { shell with disk := shell.disk.put p bytes }

/-- Copy the script, if there is one. -/
def copyScript : Edit Shell Unit := do
  let text := (← get).session.script.strip
  if text.isEmpty then return
  happen (.clipboard text)
  tellStatus "Copied."

/-- The file that is offered for the script. -/
def offeredPath (shell : Shell) : Except Fault Text := do
  let directory := (← shell.workspace).toText
  let name ← Script.fileName shell.session.project
  return if directory.endsWith "/" then directory ++ name else directory ++ ("/" : Text) ++ name

/-- Write the script to a file. -/
def writeScript (text path : Text) : Edit Shell Unit := do
  let p := FilePath.ofText path
  match (← get).disk.writeFault? path p with
  | some fault => tellFailure path fault
  | none => do
    putFile p []
    putFile p (← Script.bytes text)
    tellStatus (("Saved " : Text) ++ p.name ++ ("." : Text))

/-- Download the script, if there is one, to the file that the user chooses. -/
def downloadScript : Edit Shell Unit := do
  let text := (← get).session.script.strip
  if text.isEmpty then return
  let offered ← offeredPath (← get)
  happen (.saveDialog ScriptPanel.saveTitle offered ScriptPanel.fileKinds)
  match (← get).replies.path with
  | none => return
  | some path => writeScript text path

/-- Make ready to write a file: its directory is there, and nothing is in its place. -/
def prepare (p : FilePath) : Edit Shell (Option DiskFault) := do
  match (← get).disk.makeDirectories p.parent with
  | .error fault => return some fault
  | .ok disk => do
    modify ({ · with disk })
    return disk.writeFault? p.toText p

/-- Save the design. -/
def save : Edit Shell Unit := do
  let p ← savePath (← get)
  match ← prepare p with
  | some fault => tellFailure p.toText fault
  | none => do
    let (answer, file) ← onSessionWith ((← get).disk.file? p) Session.save
    putFile p (file.getD [])
    answer

/-- Load the design. -/
def load : Edit Shell Unit := do
  let p ← savePath (← get)
  let _ ← onSession (Session.load ((← get).disk.file? p))

end LayoutDesigner.Shell
