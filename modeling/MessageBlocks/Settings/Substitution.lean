import MessageBlocks.Json.Basic
import MessageBlocks.Number.Text

/-!
# References to environment variables

A string may refer to a variable of the environment by its name between `${` and
`}`. A name starts with a capital letter or an underscore, and digits may follow.
A dollar sign in front of a reference makes it literal and is dropped. A variable
that is not set or empty is an error.
-/

namespace MessageBlocks

abbrev Environment :=
  List (String × String)

/-- A reference without a value, and the path of the string that holds it. -/
structure MissingVariable where
  name : String
  path : String
  deriving DecidableEq, Repr

def MissingVariable.message (missing : MissingVariable) : String :=
  "Missing env var \"" ++ missing.name ++ "\" referenced at config path: " ++ missing.path

namespace Reference

/-- Whether a character may start the name of a variable. -/
def isNameStart (character : Char) : Bool :=
  character.isUpper || character == '_'

/-- Whether a character may occur in the name of a variable. -/
def isNamePart (character : Char) : Bool :=
  isNameStart character || character.isDigit

/-- The name in the reference at the start of a text. -/
def name? : List Char → Option (List Char)
  | '$' :: '\x7b' :: rest =>
      let name := rest.takeWhile isNamePart
      if name.head?.any isNameStart && (rest.drop name.length).head? == some '\x7d' then some name
      else none
  | _ => none

/-- The number of characters of a reference to a name. -/
def size (name : List Char) : Nat :=
  name.length + 3

/-- The value of a variable. An empty one counts as not set. -/
def value? (environment : Environment) (name : String) : Option String :=
  (environment.lookup name).filter (!·.isEmpty)

/-- Replace the references in a text, after skipping the given number of
characters. An error names the variable without a value. -/
def replaceFrom (environment : Environment) : Nat → List Char → Except String (List Char)
  | _, [] => .ok []
  | skipped + 1, _ :: rest => replaceFrom environment skipped rest
  | 0, character :: rest =>
      match (if character = '$' then name? rest else none) with
      | some name => do
          let following ← replaceFrom environment (size name) rest
          return rest.take (size name) ++ following
      | none =>
          match name? (character :: rest) with
          | some name =>
              match value? environment (String.ofList name) with
              | some value => do
                  let following ← replaceFrom environment (size name - 1) rest
                  return value.toList ++ following
              | none => .error (String.ofList name)
          | none => do
              let following ← replaceFrom environment 0 rest
              return character :: following

def replace (environment : Environment) (text : List Char) : Except String (List Char) :=
  replaceFrom environment 0 text

end Reference

namespace Json

/-- The path of a member of the object at a path. -/
def memberPath (path name : String) : String :=
  if path.isEmpty then name else path ++ "." ++ name

/-- The path of an item of the array at a path. -/
def itemPath (path : String) (index : Nat) : String :=
  path ++ "[" ++ String.ofList (Number.digits index) ++ "]"

/-- Replace the references in the string at a path. -/
def substituteString (environment : Environment) (path text : String) :
    Except MissingVariable String :=
  match Reference.replace environment text.toList with
  | .ok replaced => .ok (String.ofList replaced)
  | .error name => .error ⟨name, path⟩

mutual

/-- Replace the references in all strings of a value, but not in names. -/
def substitute (environment : Environment) (path : String) : Json → Except MissingVariable Json
  | .string text => .string <$> substituteString environment path text
  | .array items => .array <$> substituteItems environment path 0 items
  | .object members => .object <$> substituteMembers environment path members
  | value => .ok value

/-- Replace the references in the items of an array from a given index on. -/
def substituteItems (environment : Environment) (path : String) (index : Nat) :
    List Json → Except MissingVariable (List Json)
  | [] => .ok []
  | item :: rest => do
      let item ← substitute environment (itemPath path index) item
      let items ← substituteItems environment path (index + 1) rest
      return item :: items

def substituteMembers (environment : Environment) (path : String) :
    List (String × Json) → Except MissingVariable (List (String × Json))
  | [] => .ok []
  | (name, value) :: rest => do
      let value ← substitute environment (memberPath path name) value
      let members ← substituteMembers environment path rest
      return (name, value) :: members

end

/-- Replace the references in all strings of a value. -/
def resolve (environment : Environment) (value : Json) : Except MissingVariable Json :=
  substitute environment "" value

end Json

end MessageBlocks
