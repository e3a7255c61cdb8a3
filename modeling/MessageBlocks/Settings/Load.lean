import MessageBlocks.Files.FileTree
import MessageBlocks.Json.Reader
import MessageBlocks.Settings.Basic
import MessageBlocks.Text.Blank
import MessageBlocks.Yaml.Reader

/-!
# Loading settings

Settings are read from a file, which is JSON if its extension says so and YAML if
not. An absent file and a blank one are settings without anything set.
-/

namespace MessageBlocks.Settings

/-- Why a file of settings cannot be loaded. -/
inductive LoadError where
  | unreadable (path : String)
  | malformedJson (path : String)
  | malformedYaml (path : String)
  deriving DecidableEq, Repr

def LoadError.message : LoadError → String
  | unreadable path => "Failed to read config file: " ++ path
  | malformedJson path => "Failed to parse config JSON at: " ++ path
  | malformedYaml path => "Failed to parse config YAML at: " ++ path

/-- Whether a path names a JSON file, by its extension in any case. -/
def isJsonPath (path : String) : Bool :=
  (Path.extension? path).any fun extension => extension.toLower == "json"

def parse (path content : String) : Except LoadError Settings :=
  if isJsonPath path then
    match (Json.read? content).bind ofJson? with
    | some settings => .ok settings
    | none => .error (.malformedJson path)
  else
    match (Yaml.read? content).bind fun document => read? document.recordFormat document.root with
    | some settings => .ok settings
    | none => .error (.malformedYaml path)

def load (tree : FileTree) (path : String) : Except LoadError Settings :=
  if !tree.contains path then .ok empty
  else
    match tree.read? path with
    | none => .error (.unreadable path)
    | some content => if Text.isBlankText content.toList then .ok empty else parse path content

end MessageBlocks.Settings
