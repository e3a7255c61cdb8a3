import MessageBlocks.Calendar.Date
import MessageBlocks.Events.Filter
import MessageBlocks.Files.FileTree

/-!
# Logs

A log is opened with a filter and may write to a file of the day in a directory.
Only the first log that is opened takes events; another one that could be opened
still makes its directory and its file.
-/

namespace MessageBlocks

/-- How a log is opened: the text of its filter, the form of its lines on the console,
and the directory of its files. -/
structure LogOptions where
  level : String
  json : Bool
  directory : Option String
  deriving DecidableEq, Repr

/-- The options of a log unless something else is asked for. -/
def LogOptions.standard : LogOptions :=
  ⟨"info", false, none⟩

/-- Why a log cannot be opened. -/
inductive LogError where
  | invalidFilter (level : String)
  | blockedDirectory (path : String)
  deriving DecidableEq, Repr

def LogError.message : LogError → String
  | invalidFilter level => "Invalid log level directive: " ++ level
  | blockedDirectory path => "Failed to create log directory: " ++ path

/-- A log that takes events: its filter, and the place of its directory. -/
structure OpenLog where
  filter : Filter
  place : Option (List String)
  deriving DecidableEq, Repr

/-- The directories and files of logs. A file is found by the place of its directory,
since all are of the same day. -/
structure LogState where
  tree : FileTree
  files : List (List String × List EventEntry)
  current : Option OpenLog
  deriving DecidableEq, Repr

namespace LogState

def ofTree (tree : FileTree) : LogState :=
  ⟨tree, [], none⟩

def target : String :=
  "render_events"

def fieldNames : List String :=
  ["message", "render_id", "event"]

def message : String :=
  "Render event"

/-- The start of the name of a log file. -/
def fileStem : String :=
  "blockforge.log"

/-- The end of the name of the log file of a day. -/
def fileSuffix (day : Date) : String :=
  String.ofList ('.' :: day.text)

/-- Make the file in a directory unless it is there. -/
def makeFile (state : LogState) (place : List String) : LogState :=
  if (state.files.lookup place).isSome then state
  else { state with files := state.files ++ [(place, [])] }

/-- Make the directory of a log and its file. The answer has the place of the
directory. -/
def makeDirectory? (state : LogState) (path : String) : Option (List String × LogState) := do
  let (tree, place) ← state.tree.makeDirectory? path
  return (place, { state with tree := tree }.makeFile place)

/-- Let a log take events unless another one does. -/
def install (state : LogState) (log : OpenLog) : LogState :=
  { state with current := some (state.current.getD log) }

/-- Open a log. The answer says whether it takes events. -/
def openLog (state : LogState) (options : LogOptions) : Except LogError Bool × LogState :=
  match Filter.read? options.level with
  | none => (.error (.invalidFilter options.level), state)
  | some filter =>
      match options.directory with
      | none => (.ok state.current.isNone, state.install ⟨filter, none⟩)
      | some path =>
          match state.makeDirectory? path with
          | none => (.error (.blockedDirectory path), state)
          | some (place, made) => (.ok state.current.isNone, made.install ⟨filter, some place⟩)

/-- Write an entry to the log that takes events. -/
def record (state : LogState) (entry : EventEntry) : LogState :=
  match state.current with
  | some ⟨filter, some place⟩ =>
      if filter.enables target.toList fieldNames entry.event.severity then
        { state with
          files := state.files.map fun file =>
            if file.1 = place then (place, file.2 ++ [entry]) else file }
      else state
  | _ => state

/-- The entries of the log file in a directory, if there is one. -/
def entries? (state : LogState) (path : String) : Option (List EventEntry) :=
  (state.tree.find? path).bind fun place => state.files.lookup place

end LogState

end MessageBlocks
