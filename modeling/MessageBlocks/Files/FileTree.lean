import MessageBlocks.Files.Path

/-!
# File trees

The files and directories below a working directory. Only relative paths lead
anywhere in it, and none leads above it.
-/

namespace MessageBlocks

/-- Files with their contents, and directories, each by the names that lead to it.
The working directory has no names. -/
structure FileTree where
  files : List (List String × String)
  directories : List (List String)
  deriving DecidableEq, Repr

namespace FileTree

def empty : FileTree :=
  ⟨[], [[]]⟩

def isDirectoryAt (tree : FileTree) (place : List String) : Bool :=
  tree.directories.contains place

def contentAt? (tree : FileTree) (place : List String) : Option String :=
  tree.files.lookup place

def existsAt (tree : FileTree) (place : List String) : Bool :=
  tree.isDirectoryAt place || (tree.contentAt? place).isSome

def step? (tree : FileTree) (place : List String) (name : String) : Option (List String) :=
  if !tree.isDirectoryAt place then none
  else if !Path.isStep name then some place
  else if name = ".." then if place.isEmpty then none else some place.dropLast
  else if tree.existsAt (place ++ [name]) then some (place ++ [name])
  else none

/-- The place that a path leads to, if there is anything. -/
def find? (tree : FileTree) (path : String) : Option (List String) :=
  if path.isEmpty || path.toList.head? == some '/' then none
  else (Path.names path).foldlM tree.step? []

/-- Whether a path leads to a file or a directory. -/
def contains (tree : FileTree) (path : String) : Bool :=
  (tree.find? path).isSome

def isFile (tree : FileTree) (path : String) : Bool :=
  ((tree.find? path).bind tree.contentAt?).isSome

def isDirectory (tree : FileTree) (path : String) : Bool :=
  (tree.find? path).any tree.isDirectoryAt

/-- The content of the file that a path leads to. -/
def read? (tree : FileTree) (path : String) : Option String :=
  (tree.find? path).bind tree.contentAt?

/-- Follow one name from a place, making a directory if there is nothing. -/
def makeStep? (state : FileTree × List String) (name : String) :
    Option (FileTree × List String) :=
  let (tree, place) := state
  if !Path.isStep name then some state
  else if name = ".." then if place.isEmpty then none else some (tree, place.dropLast)
  else if (tree.contentAt? (place ++ [name])).isSome then none
  else if tree.isDirectoryAt (place ++ [name]) then some (tree, place ++ [name])
  else
    some (⟨tree.files, tree.directories ++ [place ++ [name]]⟩, place ++ [name])

/-- Make the directory that a path names, and those above it. It cannot be made
where there is a file. The answer has the place of the directory, which for the empty
path is the working directory. -/
def makeDirectory? (tree : FileTree) (path : String) : Option (FileTree × List String) :=
  if path.toList.head? == some '/' then none
  else (Path.names path).foldlM makeStep? (tree, [])

def write? (tree : FileTree) (path content : String) : Option FileTree := do
  let names := (Path.names path).filter Path.isStep
  let (tree, _) ← names.dropLast.foldlM makeStep? (tree, [])
  return ⟨tree.files.filter (·.1 != names) ++ [(names, content)], tree.directories⟩

end FileTree

end MessageBlocks
