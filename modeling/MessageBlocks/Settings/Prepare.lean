import MessageBlocks.Settings.Load
import MessageBlocks.Settings.Report
import MessageBlocks.Settings.Substitution

/-!
# Preparing settings

Settings are made ready for use: loaded, with the references in them replaced and
defaults filled in, and checked. References are replaced in the JSON form of the
settings, where a width that is no number is null and gets its default.
-/

namespace MessageBlocks.Settings

/-- Why settings cannot be used. -/
inductive PrepareError where
  | load (error : LoadError)
  | missing (reference : MissingVariable)
  | undecodable
  | rejected (first : Finding) (count : Nat) (path : String)
  deriving DecidableEq, Repr

def PrepareError.message : PrepareError → String
  | load error => error.message
  | missing _ => "Failed to resolve env vars in config"
  | undecodable => "Failed to deserialize config after processing"
  | rejected first count path =>
      first.text ++ " (" ++ String.ofList (Number.digits count) ++ " error(s) in " ++ path ++ ")"

def resolve (environment : Environment) (settings : Settings) : Except PrepareError Settings :=
  match settings.toJson.resolve environment with
  | .error reference => .error (.missing reference)
  | .ok value =>
      match ofJson? value with
      | some settings => .ok settings
      | none => .error .undecodable

def accept (tree : FileTree) (path : String) (settings : Settings) :
    Except PrepareError Settings :=
  match (settings.check tree).errors with
  | [] => .ok settings
  | first :: rest => .error (.rejected first (rest.length + 1) path)

def prepare (tree : FileTree) (environment : Environment) (path : String) :
    Except PrepareError Settings := do
  let settings ← (load tree path).mapError .load
  let settings ← settings.resolve environment
  settings.withDefaults.accept tree path

end MessageBlocks.Settings
