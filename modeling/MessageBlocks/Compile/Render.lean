import MessageBlocks.Compile.Surface
import MessageBlocks.Events.Entry
import MessageBlocks.Grammar.Validation
import MessageBlocks.Layout.Cache
import MessageBlocks.Tree.Encoding

/-!
# Rendering trees

A tree is checked against the grammar and only then compiled; the first
violation ends the render. Every render reports what happened as events.
-/

namespace MessageBlocks

/-- Why a render has no result. -/
inductive RenderError where
  | malformed
  | violation (violation : Violation)
  deriving DecidableEq, Repr

def RenderError.message : RenderError → String
  | malformed => "Failed to parse node tree JSON"
  | violation breach => breach.message

/-- The result of a render and the events on the way to it, in their order. -/
structure Rendering where
  result : Except RenderError Surface
  events : List RenderEvent

variable {W : Type} [Width W]

def Element.render (root : Element) : Query W Rendering :=
  match root.validate with
  | .error breach =>
      pure ⟨.error (.violation breach), [.rejected breach.message breach.location.text]⟩
  | .ok () => do
      let surface ← root.surface
      return ⟨.ok surface,
        [.validated root.kind, .emitted root.kind surface.blocks.length]⟩

/-- Read, check and compile the JSON text of a tree. -/
def renderText (text : String) : Query W Rendering :=
  match Element.read? text with
  | none => pure ⟨.error .malformed, []⟩
  | some root => root.render

end MessageBlocks
