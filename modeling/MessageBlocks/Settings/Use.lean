import MessageBlocks.Events.Log
import MessageBlocks.Layout.Reference
import MessageBlocks.Settings.Basic
import MessageBlocks.Settings.Substitution

/-!
# Using settings

The layout engine and the options of the log that settings ask for, and the place
where settings are looked for.
-/

namespace MessageBlocks.Settings

/-- Why there is no engine for settings. -/
inductive EngineError where
  | unreadable (path : String)
  | invalid (path : String) (failure : Metrics.Failure)
  deriving DecidableEq, Repr

def EngineError.message : EngineError → String
  | unreadable path => "Failed to read font metrics: " ++ path
  | invalid path _ => "Invalid font metrics at: " ++ path

def loadMetrics (tree : FileTree) (path : String) : Except EngineError (Metrics Float) :=
  match tree.read? path with
  | none => .error (.unreadable path)
  | some document => (Metrics.read document).mapError (.invalid path)

def engine (tree : FileTree) (settings : Settings) : Except EngineError (Engine Float) := do
  let metrics ←
    match settings.layout.bind LayoutSettings.metricsPath with
    | some path => loadMetrics tree path
    | none => .ok Metrics.reference
  return ⟨metrics, (settings.layout.bind LayoutSettings.fallbackWidth).getD defaultFallback⟩

/-- The options of the log that settings ask for. -/
def logOptions (settings : Settings) : LogOptions where
  level := (settings.logging.bind LoggingSettings.level).getD LogOptions.standard.level
  json := (settings.logging.bind LoggingSettings.json).getD LogOptions.standard.json
  directory := settings.logging.bind LoggingSettings.directory

/-- The home directory: the one that the environment names, or else that of the
account, if it has one. -/
def homeDirectory? (environment : Environment) (accountHome : Option String) : Option String :=
  ((environment.lookup "HOME").filter (!·.isEmpty)).or accountHome

/-- The directory of the settings: the one that the environment names, or else one in
the home directory. -/
def directory (environment : Environment) (accountHome : Option String) : String :=
  match environment.lookup "BLOCKFORGE_CONFIG_DIR" with
  | some directory => directory
  | none =>
      match homeDirectory? environment accountHome with
      | some home => Path.join home ".blockforge"
      | none => ".blockforge"

def filePath (directory : String) : String :=
  Path.join directory "config.yaml"

end MessageBlocks.Settings
