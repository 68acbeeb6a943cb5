import LayoutDesigner.Edit
import LayoutDesigner.Text.Digit
import LayoutDesigner.Text.Utf8
import LayoutDesigner.Trace.Pattern

/-!
# Tracing

While tracing is on, lines with a time, a category and a message go to the error stream and, where
that is wanted, to a log file. The file is made with the first line. Records that other parts log are
routed into the same stream once a handler is installed, and lost without one.
-/

namespace LayoutDesigner

/-- What stands in the place of a time, so that runs can be compared. -/
def timeMark : Text := "[TIME]"

/-- The log file. -/
structure LogFile where
  /-- Whether a file is still wanted. -/
  wanted : Bool := true
  /-- What is told where the file cannot be made. -/
  obstacle : Option Text := none
  isOpen : Bool := false
  /-- The text of the file, once it was made. -/
  text : Option Text := none

/-- Tracing: what is traced, and what was written. -/
structure Trace where
  /-- Whether tracing is on. -/
  enabled : Bool
  /-- Whether the moves of the pointer are traced. -/
  tracesPointer : Bool := false
  /-- The time that lines begin with. -/
  time : Text := timeMark
  file : LogFile := {}
  /-- What was written to the error stream. -/
  output : Text := []
  handled : Bool := false
  /-- The least level of records that are looked at. -/
  level : Value Number := .int 30

namespace Trace

/-- What follows a text of a shape, in which every zero stands for any digit. -/
def afterShape? (shape : Text) (t : Text) : Option Text :=
  match shape, t with
  | [], t => some t
  | _ :: _, [] => none
  | s :: shape, c :: t =>
    if (if s = '0' then c.digitValue?.isSome else c = s) then afterShape? shape t else none

/-- The text with the mark in the place of the time that a line begins with. -/
def withoutTimes (t : Text) : Text :=
  Text.join "\n" ((Text.splitOn '\n' t).map fun line =>
    match afterShape? "[00:00:00.000]" line with
    | some rest => timeMark ++ rest
    | none => line)

/-- The text of the log file as it is read, once it was made. -/
def fileText (t : Trace) : Option Text :=
  t.file.text.map fun text => withoutTimes text.unifyNewlines

/-- Whether a setting of the environment switches tracing on. -/
def isOn (setting : Option Text) : Bool :=
  match setting with
  | none => false
  | some t => !t.isEmpty && t ≠ ("0" : Text)

/-- The category of the moves of the pointer. -/
def pointerCategory : Text := "POINTER"

/-- The category of errors. -/
def errorCategory : Text := "ERROR"

/-- The level of warnings. -/
def warningLevel : Int := 30

/-- Write a line to the error stream. -/
def print (line : Text) : Edit Trace Unit := modify fun t => { t with output := t.output ++ line ++ ("\n" : Text) }

/-- Open the log file, if it is wanted and not open. An opened file is empty. Where it cannot be
opened that is told, and no file is wanted any more. -/
def openFile : Edit Trace Unit := do
  let f := (← get).file
  if f.wanted && !f.isOpen then
    match f.obstacle with
    | none => modify ({ · with file := { f with isOpen := true, text := some [] } })
    | some obstacle => do
      print (("debug_trace: cannot open log file: " : Text) ++ obstacle)
      modify ({ · with file := { f with wanted := false } })

/-- Write a line to the log file, if it is open. -/
def append (line : Text) : Edit Trace Unit := do
  let f := (← get).file
  if f.isOpen then
    if (line.encode?).isNone then throw .unencodable
    modify ({ · with file := { f with text := some (f.text.getD [] ++ line ++ ("\n" : Text)) } })

/-- A category in front of a message. -/
def tagged (category message : Text) : Text := ("[" : Text) ++ category ++ ("] " : Text) ++ message

/-- Trace a message. -/
def trace (message : Text) (category : Text := "INFO") : Edit Trace Unit := do
  let t ← get
  if t.enabled ∧ (category ≠ pointerCategory ∨ t.tracesPointer) then
    let line := t.time ++ (" " : Text) ++ tagged category message
    print line
    openFile
    append line

/-- Trace that something went wrong while nothing is known about it. -/
def traceUnknownError (message : Text := "Exception") : Edit Trace Unit :=
  trace (message ++ (": NoneType: None\n" : Text)) errorCategory

/-- Trace the beginning and the end of an action. -/
def around {β : Type} (name category : Text) (action : Except Fault β) : Edit Trace β := do
  trace ((">>> " : Text) ++ name) category
  match action with
  | .ok answer => do
    trace (("<<< " : Text) ++ name) category
    return answer
  | .error fault => do
    trace (("!!! " : Text) ++ name ++ (" raised ValueError: " : Text) ++ fault.message) errorCategory
    throw fault

/-- The level of a name. -/
def levelOf? (name : Text) : Option Int :=
  let named : List (Text × Int) :=
    [("CRITICAL", 50), ("FATAL", 50), ("ERROR", 40), ("WARN", 30), ("WARNING", 30), ("INFO", 20),
      ("DEBUG", 10), ("NOTSET", 0)]
  (named.find? fun entry => entry.1 = name).map Prod.snd

/-- The level that a value stands for: an integer or the name of one. -/
def readLevel (v : Value Number) : Except Fault (Value Number) :=
  match v with
  | .str name =>
    match levelOf? name with
    | some level => .ok (.int level)
    | none => .error (.raised (("Unknown level: " : Text) ++ name.quoted))
  | v => (integerOf v).map fun _ => v

/-- Install the handler of records, once. Records below `level` are dropped while tracing is on,
and below warnings while it is off. -/
def install (level : Value Number := .int 10) : Edit Trace Unit := do
  let t ← get
  if !t.handled then
    set { t with handled := true }
    let level ← readLevel (if t.enabled then level else .int warningLevel)
    modify ({ · with level })

/-- The least level of records that are looked at. -/
def leastLevel (t : Trace) : Int := (integerOf t.level).toOption.getD warningLevel

/-- The name of a level. -/
def levelName (level : Value Number) : Text :=
  if level.same (.int 50) then "CRITICAL"
  else if level.same (.int 40) then "ERROR"
  else if level.same (.int 30) then "WARNING"
  else if level.same (.int 20) then "INFO"
  else if level.same (.int 10) then "DEBUG"
  else ("Level " : Text) ++ level.shown

/-- The message of a record: its pattern, filled where there are arguments. -/
def recordMessage (pattern : Text) (args : List (Value Number)) : Except Fault Text :=
  if args.isEmpty then .ok pattern else fill pattern args

/-- The name of a logger; the one without a name is the root of all. -/
def loggerName (logger : Value Number) : Except Fault Text :=
  match logger with
  | .str name => .ok (name.orElse "root")
  | v => if v.truthy then .error .wrongType else .ok "root"

/-- Log a record. Only positive levels count, and nothing is written where no handler is
installed. -/
def log (logger level pattern : Value Number) (args : List (Value Number)) : Edit Trace Unit := do
  let name ← loggerName logger
  let n ← integerOf level
  let t ← get
  if !t.handled ∨ n < t.leastLevel ∨ n ≤ 0 then return
  let line := name ++ (": " : Text) ++ (← recordMessage pattern.shown args)
  if t.enabled then trace line (levelName level) else print (tagged (levelName level) line)

/-- Close the log file. -/
def close : Edit Trace Unit := modify fun t => { t with file := { t.file with isOpen := false } }

end Trace

end LayoutDesigner
