import MessageBlocks.Layout.Engine
import MessageBlocks.Settings.Format

/-!
# Settings

The settings of a renderer: which metrics it lays text out with and how it logs.
Sections and fields may all be absent. Settings are read from any format of
records and written as JSON.
-/

namespace MessageBlocks

/-- Settings of the layout. -/
structure LayoutSettings where
  metricsPath : Option String
  fallbackWidth : Option Float
  deriving DecidableEq, Inhabited, Repr

/-- Settings of the log. -/
structure LoggingSettings where
  level : Option String
  json : Option Bool
  directory : Option String
  deriving DecidableEq, Inhabited, Repr

/-- All settings. -/
structure Settings where
  layout : Option LayoutSettings
  logging : Option LoggingSettings
  deriving DecidableEq, Inhabited, Repr

namespace LayoutSettings

def read? {V : Type} (format : RecordFormat V) (value : V) : Option LayoutSettings := do
  let [metricsPath, fallbackWidth] ← format.record? ["metricsPath", "fallbackWidth"] value | none
  return ⟨← format.optional? format.string? metricsPath,
    ← format.optional? format.float? fallbackWidth⟩

/-- The JSON form of the settings. A width that is no number is null. -/
def toJson (settings : LayoutSettings) : Json :=
  .ofFields [("metricsPath", settings.metricsPath.map .string),
    ("fallbackWidth", settings.fallbackWidth.map fun width =>
      if width.isFinite then .float width else .null)]

end LayoutSettings

namespace LoggingSettings

def read? {V : Type} (format : RecordFormat V) (value : V) : Option LoggingSettings := do
  let [level, json, directory] ← format.record? ["level", "json", "dir"] value | none
  return ⟨← format.optional? format.string? level, ← format.optional? format.bool? json,
    ← format.optional? format.string? directory⟩

def toJson (settings : LoggingSettings) : Json :=
  .ofFields [("level", settings.level.map .string), ("json", settings.json.map .bool),
    ("dir", settings.directory.map .string)]

end LoggingSettings

namespace Settings

def empty : Settings :=
  ⟨none, none⟩

def read? {V : Type} (format : RecordFormat V) (value : V) : Option Settings := do
  let [layout, logging] ← format.record? ["layout", "logging"] value | none
  return ⟨← format.optional? (LayoutSettings.read? format) layout,
    ← format.optional? (LoggingSettings.read? format) logging⟩

def ofJson? (value : Json) : Option Settings :=
  read? Json.recordFormat value

def toJson (settings : Settings) : Json :=
  .ofFields [("layout", settings.layout.map LayoutSettings.toJson),
    ("logging", settings.logging.map LoggingSettings.toJson)]

/-- The level of the log unless something else is asked for. -/
def defaultLevel : String :=
  "info"

def withDefaults (settings : Settings) : Settings :=
  let layout := settings.layout.getD ⟨none, none⟩
  let logging := settings.logging.getD ⟨none, none, none⟩
  { layout := some
      { layout with fallbackWidth := some (layout.fallbackWidth.getD defaultFallback) }
    logging := some
      { logging with
        level := some (logging.level.getD defaultLevel)
        json := some (logging.json.getD false) } }

end Settings

end MessageBlocks
