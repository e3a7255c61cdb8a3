import MessageBlocks.Calendar.Timestamp
import MessageBlocks.Json.Printer

/-!
# Render events

Every stage of a render is an event: a tree was found valid, or rejected, or its
blocks were emitted. An entry of the log is one line of JSON.
-/

namespace MessageBlocks

/-- A stage of a render. -/
inductive RenderEvent where
  | validated (root : String)
  | rejected (message path : String)
  | emitted (root : String) (blocks : Nat)
  deriving DecidableEq, Repr

/-- How important an event is. -/
inductive Severity where
  | trace
  | debug
  | info
  | warn
  | error
  deriving DecidableEq, Repr

def Severity.name : Severity → String
  | trace => "TRACE"
  | debug => "DEBUG"
  | info => "INFO"
  | warn => "WARN"
  | error => "ERROR"

/-- The rank of a severity, greater for what is less important. -/
def Severity.verbosity : Severity → Nat
  | error => 1
  | warn => 2
  | info => 3
  | debug => 4
  | trace => 5

namespace RenderEvent

/-- A rejection is a warning, and everything else is for information. -/
def severity : RenderEvent → Severity
  | rejected _ _ => .warn
  | _ => .info

/-- The JSON form of an event, its type first. -/
def toJson : RenderEvent → Json
  | validated root => .object [("type", .string "Validated"), ("root", .string root)]
  | rejected message path =>
      .object [("type", .string "Rejected"), ("error", .string message), ("path", .string path)]
  | emitted root blocks =>
      .object [("type", .string "Emitted"), ("root", .string root), ("blocks", .integer blocks)]

end RenderEvent

/-- An event with the render that it belongs to and the time at which it was
logged. -/
structure EventEntry where
  renderId : String
  seconds : Int
  nanoseconds : Nat
  event : RenderEvent
  deriving DecidableEq, Repr

namespace EventEntry

def line (entry : EventEntry) : String :=
  Json.print (.object [("render_id", .string entry.renderId),
    ("timestamp", .string
      (String.ofList (Timestamp.internetText entry.seconds entry.nanoseconds))),
    ("event", entry.event.toJson)])

end EventEntry

end MessageBlocks
