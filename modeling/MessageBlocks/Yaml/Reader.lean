import MessageBlocks.Yaml.Nodes
import MessageBlocks.Yaml.Tokens

/-!
# Reading YAML

A text holds at most one document, and without one its value is nothing. Directives
need the mark in front of the document, and marks of its end may follow it.
-/

namespace MessageBlocks.Yaml

/-- The directives of a document: its version and what its tag handles stand for. -/
structure Directives where
  version : Option (Nat × Nat)
  handles : Handles
  deriving DecidableEq, Repr

namespace Directives

def empty : Directives :=
  ⟨none, []⟩

/-- One more directive. Neither the version nor a handle may be given twice, and the
version is 1.1 or 1.2. -/
def add? (directives : Directives) : Token → Option Directives
  | .version major minor =>
      if directives.version.isNone && major == 1 && (minor == 1 || minor == 2) then
        some { directives with version := some (major, minor) }
      else none
  | .tagHandle handle start =>
      if (directives.handles.lookup handle).isNone then
        some { directives with handles := (handle, start) :: directives.handles }
      else none
  | _ => some directives

def defaultHandles : Handles :=
  [(['!'], ['!']), (['!', '!'], "tag:yaml.org,2002:".toList)]

def allHandles (directives : Directives) : Handles :=
  directives.handles ++ defaultHandles

end Directives

namespace Token

def isDirective : Token → Bool
  | .version _ _ | .tagHandle _ _ => true
  | _ => false

def isMark (token : Token) : Bool :=
  token.isDirective || token == .documentStart || token == .documentEnd

end Token

/-- The value of a document at the start of some tokens, and the tokens after it. -/
def readRoot? (handles : Handles) (tokens : List Token) : Option (Node × List Token) :=
  ((Reader.readNode handles (3 * tokens.length + 3) .block).run ⟨tokens, []⟩).map
    fun (root, reading) => (root, reading.tokens)

/-- The value of a document at the start of some tokens, and the tokens after it. Behind
the mark in front of it, it may be left out. -/
def readDocument? (tokens : List Token) : Option (Node × List Token) := do
  let head := tokens.takeWhile Token.isDirective
  let directives ← head.foldlM Directives.add? .empty
  match tokens.drop head.length with
  | .documentStart :: rest =>
      if rest.head?.all Token.isMark then some (.nothing, rest)
      else readRoot? directives.allHandles rest
  | rest => if head.isEmpty then readRoot? directives.allHandles rest else none

def ofTokens? (tokens : List Token) : Option Document :=
  if tokens.isEmpty then some .empty
  else do
    let (root, rest) ← readDocument? tokens
    if rest.all (· == .documentEnd) then some (.ofRoot root) else none

def read? (text : String) : Option Document :=
  if text.toList.all isPrintable then (tokens? (letters text.toList)).bind ofTokens? else none

end MessageBlocks.Yaml
