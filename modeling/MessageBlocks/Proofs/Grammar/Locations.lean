import MessageBlocks.Proofs.Grammar.FirstViolation
import MessageBlocks.Proofs.Number.Digits
import Mathlib.Data.List.DropRight

/-!
# Paths read back

The path in a message is put together from type names and positions without any escapes, and the
type name of a refused node may be any text, one that looks like a path included. Still the path
tells where the node stands: the nodes on the way to it have rules, so their names are names of the
grammar and have no brackets, and the name of the node itself is reported beside the path.
-/

namespace MessageBlocks

open Number

/-- The type name of the refused node. -/
def Violation.reported : Violation → String
  | unknownType kind _ | invalidAttribute kind _ _ | invalidAttributeValue kind _ _ _ _ => kind
  | invalidChild _ child _ => child

theorem Node.Fails.reported {host : Host} {location : Location} {node : Node}
    {violation : Violation} (fails : node.Fails host location violation) :
    violation.reported = node.kind := by
  cases fails <;> rfl

theorem Node.Fails.location {host : Host} {location : Location} {node : Node}
    {violation : Violation} (fails : node.Fails host location violation) :
    violation.location = location := by
  cases fails <;> rfl

/-- A path to a node ends in the type name of the node and its position. What is said of the names
before that one depends on the rules of the nodes on the way. -/
theorem Host.Reaches.path {host below : Host} {node other : Node} {steps : List Step}
    (reaches : host.Reaches node steps below other) :
    (steps = [] ∧ other = node) ∨
      ∃ between index, steps = between ++ [⟨other.kind, index⟩] ∧
        ∀ kind ∈ node.kind :: between.map Step.kind, ∃ rule, Grammar.rule? kind = some rule := by
  induction reaches with
  | here host node => exact .inl ⟨rfl, rfl⟩
  | @down host below element rule index child other steps ruled placed further ih =>
      right
      rcases ih with ⟨rfl, rfl⟩ | ⟨between, last, rfl, known⟩
      · exact ⟨[], index, rfl, by simpa [Node.kind] using ⟨rule, ruled⟩⟩
      · refine ⟨⟨child.kind, index⟩ :: between, last, rfl, fun kind member => ?_⟩
        rcases List.mem_cons.1 member with rfl | inside
        · exact ⟨rule, ruled⟩
        · exact known kind inside

theorem Tag.bracket_notMem_names (tag : Tag) : ∀ name ∈ tag.names, '[' ∉ name.toList := by
  cases tag <;> decide +kernel

theorem Grammar.bracket_notMem_of_rule? {kind : String} {rule : Rule}
    (ruled : rule? kind = some rule) : '[' ∉ kind.toList := by
  obtain ⟨tag, -, named, -⟩ := rule?_eq_some_iff.1 ruled
  exact tag.bracket_notMem_names kind named

/-- The text of a step in a path. -/
def Step.text (step : Step) : List Char :=
  [' ', '>', ' '] ++ step.kind.toList ++ '[' :: digits step.index ++ [']']

namespace Location

theorem toList_text (location : Location) :
    location.text.toList = location.root.toList ++ location.steps.flatMap Step.text := by
  rw [text, String.toList_append, String.toList_join, List.flatMap_map]
  congr 1
  apply List.flatMap_congr
  intro step _
  simp [Step.text, Nat.toString_eq_repr, Nat.toList_repr, digits]

/-- The numbers in a text that follow opening brackets. -/
def bracketed : List Char → List Nat
  | [] => []
  | character :: rest =>
      if character = '[' then ofDigits (spanDigits rest).1 :: bracketed rest else bracketed rest

theorem bracketed_append {text : List Char} (plain : '[' ∉ text) (rest : List Char) :
    bracketed (text ++ rest) = bracketed rest := by
  induction text with
  | nil => rfl
  | cons character text ih =>
      rw [List.mem_cons, not_or] at plain
      rw [List.cons_append, bracketed, if_neg (Ne.symm plain.1), ih plain.2]

theorem bracketed_step {step : Step} (plain : '[' ∉ step.kind.toList) (rest : List Char) :
    bracketed (step.text ++ rest) = step.index :: bracketed rest := by
  have front : '[' ∉ [' ', '>', ' '] ++ step.kind.toList := by
    rw [List.mem_append, not_or]
    exact ⟨by decide, plain⟩
  have number : spanDigits (digits step.index ++ ']' :: rest) = (digits step.index, ']' :: rest) :=
    spanDigits_append (fun _ => isDigit_of_mem_digits) _ (by simp)
  have noDigits : '[' ∉ digits step.index := by
    intro member
    exact absurd (isDigit_of_mem_digits member) (by decide)
  rw [Step.text, List.append_assoc, List.append_assoc, List.append_assoc, ← List.append_assoc,
    bracketed_append front]
  simp only [List.cons_append, List.nil_append, bracketed, if_pos, number, ofDigits_digits]
  rw [bracketed_append noDigits]
  rfl

theorem bracketed_steps {steps : List Step} (plain : ∀ step ∈ steps, '[' ∉ step.kind.toList)
    (rest : List Char) :
    bracketed (steps.flatMap Step.text ++ rest) = Step.positions steps ++ bracketed rest := by
  induction steps with
  | nil => rfl
  | cons step steps ih =>
      have following := ih fun other member => plain other (List.mem_cons_of_mem _ member)
      rw [List.flatMap_cons, List.append_assoc, bracketed_step (plain step List.mem_cons_self),
        following]
      rfl

/-- The digits of the last position on a path, which stand in front of the last bracket. -/
def lastDigits (path : List Char) : List Char :=
  (spanDigits path.reverse.tail).1.reverse

theorem lastDigits_append (front : List Char) (index : Nat) :
    lastDigits (front ++ ('[' :: digits index ++ [']'])) = digits index := by
  have isDigits : ∀ character ∈ (digits index).reverse, character.isDigit = true :=
    fun character member => isDigit_of_mem_digits (List.mem_reverse.1 member)
  have reversed : (front ++ ('[' :: digits index ++ [']'])).reverse.tail =
      (digits index).reverse ++ '[' :: front.reverse := by simp
  rw [lastDigits, reversed, spanDigits_append isDigits _ (by simp), List.reverse_reverse]

/-- The positions on a path to a node that is reported with a type name. The name and the position
in brackets behind it are taken off the path first, whatever they look like. -/
def decode (path reported : String) : List Nat :=
  if path = reported then []
  else
    bracketed (path.toList.rdrop (reported.toList.length + (lastDigits path.toList).length + 2)) ++
      [ofDigits (lastDigits path.toList)]

theorem decode_text {root : String} {between : List Step} (plainRoot : '[' ∉ root.toList)
    (plain : ∀ step ∈ between, '[' ∉ step.kind.toList) (kind : String) (index : Nat) :
    decode (text ⟨root, between ++ [⟨kind, index⟩]⟩) kind =
      Step.positions (between ++ [⟨kind, index⟩]) := by
  -- Only the ending holds a name that may have brackets of its own.
  let front := root.toList ++ (between.flatMap Step.text ++ [' ', '>', ' '])
  let ending := kind.toList ++ ('[' :: digits index ++ [']'])
  have path : (text ⟨root, between ++ [⟨kind, index⟩]⟩).toList = front ++ ending := by
    simp [toList_text, Step.text, front, ending]
  have endingLength : ending.length = kind.toList.length + (digits index).length + 2 := by
    simp only [ending, List.length_append, List.length_cons, List.length_nil]
    omega
  have longer : text ⟨root, between ++ [⟨kind, index⟩]⟩ ≠ kind := by
    intro same
    have lengths := congrArg List.length (path.symm.trans (congrArg String.toList same))
    rw [List.length_append, endingLength] at lengths
    omega
  have last : lastDigits (front ++ ending) = digits index := by
    rw [← List.append_assoc, lastDigits_append]
  have taken : (front ++ ending).rdrop ending.length = front := by simp [List.rdrop]
  have separator : bracketed [' ', '>', ' '] = [] := by rfl
  rw [decode, if_neg longer, path, last, ← endingLength, taken, ofDigits_digits,
    bracketed_append plainRoot, bracketed_steps plain, separator, List.append_nil]
  simp [Step.positions]

end Location

/-- If the checker refuses a tree then the path in its answer and the type name that it reports
alone tell the positions that lead from the root to the node whose check fails. -/
theorem decode_of_refused {root : Element} {violation : Violation}
    (refused : root.validate = .error violation) :
    ∃ steps host node, Host.top.Reaches (.element root) steps host node ∧
      node.Fails host ⟨root.kind, steps⟩ violation ∧
      Location.decode violation.location.text violation.reported = Step.positions steps := by
  obtain ⟨steps, host, node, reaches, fails, -⟩ :=
    (check_eq_error_iff root Host.top ⟨root.kind, []⟩).1 refused
  refine ⟨steps, host, node, reaches, fails, ?_⟩
  rw [fails.location, fails.reported]
  rcases reaches.path with ⟨rfl, rfl⟩ | ⟨between, index, rfl, known⟩
  · have same : Location.text ⟨root.kind, []⟩ = root.kind := by simp [Location.text]
    exact if_pos same
  · apply Location.decode_text
    · obtain ⟨rule, ruled⟩ := known _ List.mem_cons_self
      exact Grammar.bracket_notMem_of_rule? ruled
    · intro step member
      obtain ⟨rule, ruled⟩ := known _ (List.mem_cons_of_mem _ (List.mem_map_of_mem member))
      exact Grammar.bracket_notMem_of_rule? ruled

/-- A message with an element whose type name reads like a part of a path. -/
def misnamedMessage : Element :=
  (Element.ofKind "Blocks").append [.text " ", .element ((Element.ofKind "Section").append
    [.text "a", .element (Element.ofKind "b[3] > mark")])]

/-- The section is the second child of the message and the element the second one of the section,
which the path tells in spite of the name. -/
theorem decode_misnamedMessage :
    misnamedMessage.validate = .error
        (.unknownType "b[3] > mark" ⟨"Blocks", [⟨"Section", 1⟩, ⟨"b[3] > mark", 1⟩]⟩) ∧
      Location.decode "Blocks > Section[1] > b[3] > mark[1]" "b[3] > mark" = [1, 1] := by
  have refused : misnamedMessage.validate = .error
      (.unknownType "b[3] > mark" ⟨"Blocks", [⟨"Section", 1⟩, ⟨"b[3] > mark", 1⟩]⟩) := by rfl
  obtain ⟨steps, host, node, -, fails, decoded⟩ := decode_of_refused refused
  have place : [⟨"Section", 1⟩, ⟨"b[3] > mark", 1⟩] = steps :=
    congrArg Location.steps fails.location
  rw [← place] at decoded
  exact ⟨refused, decoded⟩

end MessageBlocks
