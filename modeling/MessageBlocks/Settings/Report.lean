import MessageBlocks.Files.FileTree
import MessageBlocks.Settings.Basic
import MessageBlocks.Text.Blank

/-!
# Reports on settings

Settings are checked against each other and against the files that they name. What
is found is an error, which makes them unusable, or a warning.
-/

namespace MessageBlocks

/-- Something found in settings, with the path of the field. -/
structure Finding where
  path : String
  message : String
  deriving DecidableEq, Repr

def Finding.text (finding : Finding) : String :=
  "Config validation error at '" ++ finding.path ++ "': " ++ finding.message

/-- What a check finds. -/
structure Report where
  errors : List Finding
  warnings : List Finding
  deriving DecidableEq, Repr

namespace Report

def isValid (report : Report) : Bool :=
  report.errors.isEmpty

/-- The findings of two checks, one after the other. -/
def append (first second : Report) : Report :=
  ⟨first.errors ++ second.errors, first.warnings ++ second.warnings⟩

def clean : Report :=
  ⟨[], []⟩

def error (path message : String) : Report :=
  ⟨[⟨path, message⟩], []⟩

def warning (path message : String) : Report :=
  ⟨[], [⟨path, message⟩]⟩

end Report

namespace Settings

def isPositiveWidth (width : Float) : Bool :=
  width.isFinite && 0 < width

def checkWidth (width : Float) : Report :=
  if isPositiveWidth width then .clean
  else .error "layout.fallbackWidth" "fallbackWidth must be a positive number"

def checkMetricsPath (tree : FileTree) (path : String) : Report :=
  if !tree.contains path then .error "layout.metricsPath" ("Metrics file not found: " ++ path)
  else if Path.extension? path = some "json" then .clean
  else .warning "layout.metricsPath" "Metrics file is expected to be JSON"

def levelNames : List String :=
  ["trace", "debug", "info", "warn", "error", "off"]

/-- Whether a text is the name of a level, in any case and with blank characters
around it. -/
def isLevelName (text : String) : Bool :=
  levelNames.contains (String.ofList ((Text.trim text.toList).map Char.toLower))

/-- Check the level of a log. Directives are not looked into. -/
def checkLevel (level : String) : Report :=
  if level.toList.any (fun character => character == '=' || character == ',') ||
      isLevelName level then
    .clean
  else .warning "logging.level" ("Unknown log level '" ++ level ++ "'")

def checkDirectory (tree : FileTree) (path : String) : Report :=
  if tree.isFile path then .error "logging.dir" "Log directory path points to a file" else .clean

def checkOptional {α : Type} (check : α → Report) (value : Option α) : Report :=
  (value.map check).getD .clean

def checkLayout (tree : FileTree) (settings : LayoutSettings) : Report :=
  (checkOptional checkWidth settings.fallbackWidth).append
    (checkOptional (checkMetricsPath tree) settings.metricsPath)

def checkLogging (tree : FileTree) (settings : LoggingSettings) : Report :=
  (checkOptional checkLevel settings.level).append
    (checkOptional (checkDirectory tree) settings.directory)

def check (tree : FileTree) (settings : Settings) : Report :=
  (checkOptional (checkLayout tree) settings.layout).append
    (checkOptional (checkLogging tree) settings.logging)

end Settings

end MessageBlocks
