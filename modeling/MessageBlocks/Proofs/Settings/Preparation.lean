import MessageBlocks.Proofs.Settings.Resolution
import MessageBlocks.Settings.Prepare

/-!
# Prepared settings

Settings pass through JSON on the way from their file to their use. All of them come back
from there, except for a width that is no number, which is null in JSON and so counts as
absent. Preparation therefore succeeds exactly if the references have values and the
settings without such a width are found to be in order once defaults are filled in.
-/

namespace MessageBlocks

namespace LayoutSettings

def mapStrings (change : String → String) (settings : LayoutSettings) : LayoutSettings :=
  { settings with metricsPath := settings.metricsPath.map change }

/-- The settings without a width that is no number. -/
def finite (settings : LayoutSettings) : LayoutSettings :=
  { settings with fallbackWidth := settings.fallbackWidth.filter Float.isFinite }

end LayoutSettings

def LoggingSettings.mapStrings (change : String → String) (settings : LoggingSettings) :
    LoggingSettings :=
  { settings with
    level := settings.level.map change
    directory := settings.directory.map change }

namespace Settings

/-- The settings with all their strings changed. -/
def mapStrings (change : String → String) (settings : Settings) : Settings where
  layout := settings.layout.map (LayoutSettings.mapStrings change)
  logging := settings.logging.map (LoggingSettings.mapStrings change)

def finite (settings : Settings) : Settings :=
  { settings with layout := settings.layout.map LayoutSettings.finite }

/-- The strings of the settings: the path of the metrics, the level and the directory. -/
def strings (settings : Settings) : List String :=
  (settings.layout.bind LayoutSettings.metricsPath).toList ++
    (settings.logging.bind LoggingSettings.level).toList ++
    (settings.logging.bind LoggingSettings.directory).toList

def width? (settings : Settings) : Option Float :=
  settings.layout.bind LayoutSettings.fallbackWidth

end Settings

section Json

/-- An optional value is written as a field, and it is there again when the field is read. -/
theorem RecordFormat.optional?_map {α β V : Type} {format : RecordFormat V}
    {decode : V → Option β} {encode : α → V} {change : α → β}
    (notNull : ∀ value, format.isNull? (encode value) = some false)
    (decoded : ∀ value, decode (encode value) = some (change value)) (content : Option α) :
    format.optional? decode (content.map encode) = some (content.map change) := by
  cases content with
  | none => rfl
  | some value => simp [RecordFormat.optional?, notNull, decoded]

theorem Json.optional?_string (content : Option String) :
    recordFormat.optional? recordFormat.string? (content.map .string) = some content := by
  cases content <;> rfl

theorem Json.optional?_bool (content : Option Bool) :
    recordFormat.optional? recordFormat.bool? (content.map .bool) = some content := by
  cases content <;> rfl

theorem LayoutSettings.read?_toJson (settings : LayoutSettings) :
    read? Json.recordFormat settings.toJson = some settings.finite := by
  have fields : Json.recordFormat.record? ["metricsPath", "fallbackWidth"] settings.toJson =
      some [settings.metricsPath.map .string, settings.fallbackWidth.map fun width =>
        if width.isFinite then .float width else .null] :=
    Json.record?_ofFields [("metricsPath", _), ("fallbackWidth", _)] (by simp)
  -- a width that is no number has been written as null
  have width : Json.recordFormat.optional? Json.recordFormat.float?
      (settings.fallbackWidth.map fun width =>
        if width.isFinite then .float width else .null) =
          some (settings.fallbackWidth.filter Float.isFinite) := by
    cases settings.fallbackWidth with
    | none => rfl
    | some width =>
        cases isFinite : width.isFinite <;>
          simp [RecordFormat.optional?, Json.recordFormat, Json.float?, Option.filter, isFinite]
  rw [read?, fields]
  simp [Json.optional?_string, width, finite]

theorem LoggingSettings.read?_toJson (settings : LoggingSettings) :
    read? Json.recordFormat settings.toJson = some settings := by
  have fields : Json.recordFormat.record? ["level", "json", "dir"] settings.toJson =
      some [settings.level.map .string, settings.json.map .bool,
        settings.directory.map .string] :=
    Json.record?_ofFields [("level", _), ("json", _), ("dir", _)] (by simp)
  rw [read?, fields]
  simp [Json.optional?_string, Json.optional?_bool]

/-- Settings come back from their JSON form, apart from a width that is no number. -/
theorem Settings.ofJson?_toJson (settings : Settings) :
    ofJson? settings.toJson = some settings.finite := by
  have fields : Json.recordFormat.record? ["layout", "logging"] settings.toJson =
      some [settings.layout.map LayoutSettings.toJson,
        settings.logging.map LoggingSettings.toJson] :=
    Json.record?_ofFields [("layout", _), ("logging", _)] (by simp)
  have layout : Json.recordFormat.optional? (LayoutSettings.read? Json.recordFormat)
      (settings.layout.map LayoutSettings.toJson) =
        some (settings.layout.map LayoutSettings.finite) :=
    RecordFormat.optional?_map (fun _ => rfl) LayoutSettings.read?_toJson _
  have logging : Json.recordFormat.optional? (LoggingSettings.read? Json.recordFormat)
      (settings.logging.map LoggingSettings.toJson) = some (settings.logging.map id) :=
    RecordFormat.optional?_map (fun _ => rfl) LoggingSettings.read?_toJson _
  rw [ofJson?, read?, fields]
  simp [layout, logging, finite]

end Json

namespace Settings

theorem toJson_mapStrings (change : String → String) (settings : Settings) :
    (settings.mapStrings change).toJson = settings.toJson.mapStrings change := by
  have layout (settings : LayoutSettings) :
      (settings.mapStrings change).toJson = settings.toJson.mapStrings change := by
    have width (value : Float) : (if value.isFinite then .float value else .null : Json).mapStrings
        change = if value.isFinite then .float value else .null := by
      split <;> rfl
    rw [LayoutSettings.toJson, LayoutSettings.toJson, Json.mapStrings_ofFields]
    simp [LayoutSettings.mapStrings, Json.mapStrings, width, Function.comp_def]
  have logging (settings : LoggingSettings) :
      (settings.mapStrings change).toJson = settings.toJson.mapStrings change := by
    rw [LoggingSettings.toJson, LoggingSettings.toJson, Json.mapStrings_ofFields]
    simp [LoggingSettings.mapStrings, Json.mapStrings, Function.comp_def]
  rw [toJson, toJson, Json.mapStrings_ofFields]
  simp [mapStrings, layout, logging, Function.comp_def]

variable {environment : Environment} {settings result : Settings}

/-- The strings of the JSON form are those of the settings. -/
theorem allStrings_toJson {good : String → Prop} :
    settings.toJson.AllStrings "" good ↔ ∀ text ∈ settings.strings, good text := by
  have text (path text : String) : (Json.string text).AllStrings path good ↔ good text := by
    simp [Json.AllStrings, Json.stringsAt]
  have flag (path : String) (flag : Bool) : (Json.bool flag).AllStrings path good := nofun
  have width (path : String) (width : Float) :
      (if width.isFinite then .float width else .null : Json).AllStrings path good := by
    split <;> exact nofun
  have layout (path : String) (layout : LayoutSettings) :
      layout.toJson.AllStrings path good ↔ ∀ text ∈ layout.metricsPath, good text := by
    rw [LayoutSettings.toJson, Json.allStrings_ofFields (by simp)]
    simp [text, width]
  have logging (path : String) (logging : LoggingSettings) :
      logging.toJson.AllStrings path good ↔
        (∀ text ∈ logging.level, good text) ∧ ∀ text ∈ logging.directory, good text := by
    rw [LoggingSettings.toJson, Json.allStrings_ofFields (by simp)]
    cases logging.json <;> simp [text, flag]
  rw [toJson, Json.allStrings_ofFields (by simp), strings]
  cases settings.layout <;> cases settings.logging <;> simp [layout, logging, or_imp, forall_and]

theorem resolve_eq_ok_iff :
    settings.resolve environment = .ok result ↔
      (∀ text ∈ settings.strings, Reference.Resolves environment text) ∧
        (settings.mapStrings (Reference.resolved environment)).finite = result := by
  rw [← allStrings_toJson, resolve]
  have substituted (value : Json) : settings.toJson.resolve environment = .ok value ↔ _ :=
    Json.substitute_eq_ok_iff "" settings.toJson value
  cases resolved : settings.toJson.resolve environment with
  | error missing =>
      refine iff_of_false nofun fun ⟨allResolve, _⟩ => ?_
      rw [(substituted _).2 ⟨allResolve, rfl⟩] at resolved
      cases resolved
  | ok value =>
      obtain ⟨allResolve, rfl⟩ := (substituted value).1 resolved
      rw [and_iff_right allResolve]
      simp only [← toJson_mapStrings, ofJson?_toJson, Except.ok.injEq]

theorem accept_eq_ok_iff {tree : FileTree} {path : String} :
    settings.accept tree path = .ok result ↔
      (settings.check tree).errors = [] ∧ settings = result := by
  rw [accept]
  cases (settings.check tree).errors <;> simp

/-- Preparation succeeds exactly if the file can be loaded, the references in its strings have
values and nothing is wrong with the settings once these are replaced, a width that is no
number is dropped and defaults are filled in. Then these are the settings prepared. -/
theorem prepare_eq_ok_iff {tree : FileTree} {path : String} :
    prepare tree environment path = .ok result ↔
      ∃ raw, load tree path = .ok raw ∧
        (∀ text ∈ raw.strings, Reference.Resolves environment text) ∧
        ((raw.mapStrings (Reference.resolved environment)).finite.withDefaults.check
          tree).errors = [] ∧
        (raw.mapStrings (Reference.resolved environment)).finite.withDefaults = result := by
  simp only [prepare, bind_eq_ok_iff, mapError_eq_ok_iff, resolve_eq_ok_iff, accept_eq_ok_iff]
  simp

section Width

theorem width?_mapStrings (change : String → String) (settings : Settings) :
    (settings.mapStrings change).width? = settings.width? := by
  obtain ⟨layout, logging⟩ := settings
  cases layout <;> rfl

theorem width?_finite (settings : Settings) :
    settings.finite.width? = settings.width?.filter Float.isFinite := by
  obtain ⟨layout, logging⟩ := settings
  cases layout <;> rfl

theorem width?_withDefaults (settings : Settings) :
    settings.withDefaults.width? = some (settings.width?.getD defaultFallback) := by
  obtain ⟨layout, logging⟩ := settings
  cases layout <;> rfl

/-- A width in settings with nothing wrong is a positive number. -/
theorem isPositiveWidth_of_check {tree : FileTree} {width : Float}
    (configured : settings.width? = some width) (clean : (settings.check tree).errors = []) :
    isPositiveWidth width = true := by
  obtain ⟨layout, found, inLayout⟩ := Option.bind_eq_some_iff.1 configured
  rw [check, Report.append, List.append_eq_nil_iff, found] at clean
  have layoutClean : (checkLayout tree layout).errors = [] := clean.1
  rw [checkLayout, Report.append, List.append_eq_nil_iff, inLayout] at layoutClean
  have widthClean : (checkWidth width).errors = [] := layoutClean.1
  rw [checkWidth] at widthClean
  split at widthClean
  · next positive => exact positive
  · cases widthClean

end Width

/-- What becomes of settings that have been loaded. They are prepared exactly if their references
have values and nothing is found wrong after a width that is no number has been dropped, and
a width that is a number but not above zero always makes preparation fail. -/
theorem prepare_of_load {tree : FileTree} {path : String} {raw : Settings}
    (environment : Environment) (loaded : load tree path = .ok raw) :
    (∀ result, prepare tree environment path = .ok result ↔
      (∀ text ∈ raw.strings, Reference.Resolves environment text) ∧
        ((raw.mapStrings (Reference.resolved environment)).finite.withDefaults.check
          tree).errors = [] ∧
        (raw.mapStrings (Reference.resolved environment)).finite.withDefaults = result) ∧
      ∀ width ∈ raw.width?, width.isFinite = true → ¬ 0 < width →
        ∀ result, prepare tree environment path ≠ .ok result := by
  have prepared (result : Settings) : prepare tree environment path = .ok result ↔
      (∀ text ∈ raw.strings, Reference.Resolves environment text) ∧
        ((raw.mapStrings (Reference.resolved environment)).finite.withDefaults.check
          tree).errors = [] ∧
        (raw.mapStrings (Reference.resolved environment)).finite.withDefaults = result := by
    rw [prepare_eq_ok_iff, loaded]
    simp
  refine ⟨prepared, fun width configured isFinite notPositive result success => ?_⟩
  have kept : (raw.mapStrings (Reference.resolved environment)).finite.withDefaults.width? =
      some width := by
    rw [Option.mem_def] at configured
    rw [width?_withDefaults, width?_finite, width?_mapStrings, configured]
    simp [Option.filter, isFinite]
  have positive := isPositiveWidth_of_check kept ((prepared result).1 success).2.1
  simp [isPositiveWidth, notPositive] at positive

/-- A file with a width that is no number. -/
def infiniteTree : FileTree :=
  ⟨[(["config.yaml"], "layout:\n  fallbackWidth: .inf\n")], [[]]⟩

/-- The width of the file is not finite, and yet the file is prepared: the width is dropped
before it is checked, and the default takes its place. -/
theorem infiniteTree_prepare :
    load infiniteTree "config.yaml" = .ok ⟨some ⟨none, some (1 / 0)⟩, none⟩ ∧
      isPositiveWidth (1 / 0) = false ∧
      prepare infiniteTree [] "config.yaml" =
        .ok ⟨some ⟨none, some defaultFallback⟩, some ⟨some "info", some false, none⟩⟩ := by
  have read : (load infiniteTree "config.yaml").toOption =
      some ⟨some ⟨none, some (1 / 0)⟩, none⟩ := by
    decide +kernel
  have loaded : load infiniteTree "config.yaml" = .ok ⟨some ⟨none, some (1 / 0)⟩, none⟩ := by
    cases outcome : load infiniteTree "config.yaml" with
    | error failure => simp [outcome, Except.toOption] at read
    | ok raw => simpa [outcome, Except.toOption] using read
  refine ⟨loaded, by decide +kernel, ((prepare_of_load [] loaded).1 _).2 ⟨nofun, ?_, ?_⟩⟩
  · decide +kernel
  · decide +kernel

end Settings

end MessageBlocks
