/-!
# Paths

A path is a text of names separated by slashes. Empty names and single dots mean
nothing.
-/

namespace MessageBlocks.Path

def names (path : String) : List String :=
  (path.toList.splitOn '/').map String.ofList

/-- Whether a name of a path leads anywhere. -/
def isStep (name : String) : Bool :=
  name != "" && name != "."

/-- The name of the file that a path leads to, `none` if it ends by going up. -/
def fileName? (path : String) : Option String :=
  ((names path).filter isStep).getLast?.filter (· != "..")

/-- The extension of the file that a path leads to: what follows the last point of
its name, unless the point comes first. -/
def extension? (path : String) : Option String :=
  (fileName? path).bind fun name =>
    let reversed := name.toList.reverse
    match reversed.dropWhile (· != '.') with
    | '.' :: stem =>
        if stem.isEmpty then none
        else some (String.ofList (reversed.takeWhile (· != '.')).reverse)
    | _ => none

def join (base name : String) : String :=
  if base.isEmpty || base.toList.getLast? == some '/' then base ++ name
  else base ++ "/" ++ name

end MessageBlocks.Path
