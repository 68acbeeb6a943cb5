import LayoutDesigner.Shell
import LayoutDesigner.Trace

/-!
# Starting and quitting

The program loads its settings, makes sure that there is a settings file, shows the window with a
new project, and writes the settings when it quits.
-/

namespace LayoutDesigner

/-- What a run of the program leaves. -/
structure Startup where
  trace : Trace
  shell : Shell
  /-- The settings file. -/
  file : Text

namespace Startup

/-- The category of the lines that the program traces. -/
def category : Text := "MAIN"

/-- The level from which on records are traced. -/
def recordLevel : Value Number := .int 20

/-- The size of the window. -/
def windowSize : Int × Int := (1500, 950)

/-- Run an edit of the trace that cannot fail otherwise than by its text. -/
def tracing (edit : Edit Trace Unit) (trace : Trace) : Except Fault Trace := do
  let result := edit trace
  let _ ← Edit.answer result
  return Edit.state result

/-- The shell with its window and a new project. -/
def showWindow (settings : Settings) (dataDirectory : FilePath) (idSupply : Nat → Text) :
    Except Fault Shell := do
  let session := settings.newSession idSupply
  let shell : Shell := { session, settings, dataDirectory }
  let result := (do
    Shell.addParts Shell.windowParts
    Shell.order .newProject : Edit Shell Unit) shell
  let _ ← Edit.answer result
  return Edit.state result

/-- Run the program on a settings file that may be missing. What the user changes of the settings
while it runs is `edit`. -/
def run (trace : Trace) (file : Option Text) (dataDirectory : FilePath) (idSupply : Nat → Text)
    (edit : Settings → Settings) : Except Fault Startup := do
  let trace ← tracing (do
    Trace.trace "Application starting" category
    Trace.install recordLevel
    Trace.trace "Loading settings" category) trace
  let settings ← Settings.load file
  let _ ← settings.completeFile file
  let trace ← tracing (Trace.trace "Creating MainWindow" category) trace
  let shell ← showWindow settings dataDirectory idSupply
  let trace ← tracing (do
    Trace.trace "Entering event loop" category
    Trace.trace "Saving settings on quit" category
    Trace.close) trace
  return { trace, shell, file := ← (edit settings).toFile }

end Startup

end LayoutDesigner
