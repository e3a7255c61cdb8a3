import MessageBlocks.Markup.Token
import MessageBlocks.Proofs.Text.Escape
import MessageBlocks.Proofs.Text.Flat
import Mathlib.Logic.Basic
import Mathlib.Tactic.ByContra

/-!
# Places of tokens

A token may stand on a line of its own or in a label, where line feeds become spaces.
What a text does to a scan for flat tokens depends on the place where it is written:
in the label of a token a token is open already, so no other one may stand there.
-/

namespace MessageBlocks

/-- Where a run of text stands: on lines of its own, in the label of a link that has no
target, or in the label of a token. -/
inductive Place where
  | line
  | label
  | token
  deriving DecidableEq

namespace Place

/-- The place of what is inside a link without a target. -/
def inLabel : Place → Place
  | line | label => label
  | token => token

def isOpen : Place → Bool
  | line | label => false
  | token => true

/-- A text as it is written at the place. -/
def write : Place → List Char → List Char
  | line, text => text
  | label, text | token, text =>
      text.map fun character => if character = '\n' then ' ' else character

end Place

namespace Text

/-- A text leads a scan from one state to another if it is good, and makes it fail if it
is not. -/
structure Leads (first last : Bool) (text : List Char) (good : Prop) : Prop where
  passes : good → scan first text = some last
  fails : ¬ good → scan first text = none

namespace Leads

variable {first middle last : Bool} {text before after : List Char} {good other : Prop}

theorem append (leads : Leads first middle before good) (next : Leads middle last after other) :
    Leads first last (before ++ after) (good ∧ other) := by
  constructor
  · rintro ⟨goodBefore, goodAfter⟩
    rw [scan_append, leads.passes goodBefore]
    exact next.passes goodAfter
  · intro notBoth
    rw [scan_append]
    by_cases goodBefore : good
    · rw [leads.passes goodBefore]
      exact next.fails fun goodAfter => notBoth ⟨goodBefore, goodAfter⟩
    · rw [leads.fails goodBefore]
      rfl

theorem congr (leads : Leads first last before good)
    (same : after.filter isControl = before.filter isControl) (iff : other ↔ good) :
    Leads first last after other where
  passes isGood := by rw [scan_congr same, leads.passes (iff.1 isGood)]
  fails isBad := by rw [scan_congr same, leads.fails fun isGood => isBad (iff.2 isGood)]

theorem of_scan (passes : scan first text = some last) : Leads first last text True where
  passes _ := passes
  fails bad := absurd trivial bad

/-- A scan that starts and ends without an open token passes exactly the flat texts. -/
theorem isFlat_iff (leads : Leads false false text good) : IsFlat text ↔ good := by
  rw [isFlat_iff_scan]
  constructor
  · intro passes
    by_contra bad
    rw [leads.fails bad] at passes
    cases passes
  · exact leads.passes

/-- A text that cannot leave a token open. -/
theorem of_isFlat (settled : scan false text ≠ some true) :
    Leads false false text (IsFlat text) where
  passes flat := isFlat_iff_scan.1 flat
  fails notFlat := by
    rw [isFlat_iff_scan] at notFlat
    cases reached : scan false text with
    | none => rfl
    | some isOpen => cases isOpen <;> simp_all

end Leads

end Text

open Text

namespace IsSober

variable {text : List Char}

theorem filter_isControl (sober : IsSober text) : text.filter isControl = [] := by
  rw [List.filter_eq_nil_iff]
  intro character member
  obtain ⟨notOpen, notClose, notBreak⟩ := sober character member
  simp [isControl, notOpen, notClose, notBreak]

theorem leads (sober : IsSober text) (isOpen : Bool) : Leads isOpen isOpen text True := by
  have nothing : Leads isOpen isOpen [] True := .of_scan (by cases isOpen <;> rfl)
  exact nothing.congr sober.filter_isControl Iff.rfl

end IsSober

namespace Place

variable {place : Place} {text first second : List Char}

theorem write_append (place : Place) (first second : List Char) :
    place.write (first ++ second) = place.write first ++ place.write second := by
  cases place <;> simp [write]

theorem write_cons (place : Place) {character : Char} (notBreak : character ≠ '\n')
    (rest : List Char) : place.write (character :: rest) = character :: place.write rest := by
  cases place <;> simp [write, notBreak]

theorem write_token (text : List Char) : token.write text = label.write text :=
  rfl

/-- In a label the brackets of a text stay, and nothing else matters. -/
theorem filter_write_label (text : List Char) :
    (label.write text).filter isControl =
      (text.filter isControl).filter fun character => character != '\n' := by
  induction text with
  | nil => rfl
  | cons character rest ih =>
      rw [write] at ih ⊢
      rw [List.map_cons]
      by_cases isBreak : character = '\n'
      · subst isBreak
        simpa [isControl] using ih
      · by_cases control : isControl character = true <;> simp [isBreak, control, ih]

theorem filter_write (place : Place) (same : first.filter isControl = second.filter isControl) :
    (place.write first).filter isControl = (place.write second).filter isControl := by
  cases place with
  | line => exact same
  | label => rw [filter_write_label, filter_write_label, same]
  | token => rw [write_token, write_token, filter_write_label, filter_write_label, same]

/-- What is joined to one line already may be written at any place. -/
theorem filter_write_joined (place : Place)
    (same : first.filter isControl = (label.write second).filter isControl) :
    (place.write first).filter isControl = (label.write second).filter isControl := by
  have joinedAgain : (label.write first).filter isControl =
      (label.write second).filter isControl := by
    rw [filter_write_label, same, filter_write_label, List.filter_filter]
    simp
  cases place with
  | line => exact same
  | label => exact joinedAgain
  | token => exact joinedAgain

theorem filter_linkLabel (text : List Char) :
    (Markup.linkLabel text).filter isControl = (label.write text).filter isControl :=
  filter_trimBy (fun character isSpace => by rw [eq_of_beq isSpace]; rfl) _

theorem filter_write_linkLabel (place : Place) (text : List Char) :
    (place.write (Markup.linkLabel text)).filter isControl =
      (place.inLabel.write text).filter isControl := by
  have joined := place.filter_write_joined (filter_linkLabel text)
  cases place with
  | line => exact joined
  | label => exact joined
  | token => exact joined

/-- A text without brackets is written so as to have no control but line feeds on lines. -/
theorem isSober_write (place : Place) (noOpen : '<' ∉ text) (noClose : '>' ∉ text)
    (joined : place = .line → '\n' ∉ text) : IsSober (place.write text) := by
  have noBracket (character : Char) (member : character ∈ text) :
      character ≠ '<' ∧ character ≠ '>' :=
    ⟨fun same => noOpen (same ▸ member), fun same => noClose (same ▸ member)⟩
  have label : IsSober (text.map fun character => if character = '\n' then ' ' else character) := by
    intro character member
    obtain ⟨original, originalMember, rfl⟩ := List.mem_map.1 member
    obtain ⟨notOpen, notClose⟩ := noBracket original originalMember
    split
    · decide
    · next notBreak => exact ⟨notOpen, notClose, notBreak⟩
  cases place with
  | line =>
      intro character member
      obtain ⟨notOpen, notClose⟩ := noBracket character member
      exact ⟨notOpen, notClose, fun same => joined rfl (same ▸ member)⟩
  | label => exact label
  | token => exact label

theorem leads_plain (place : Place) (noOpen : '<' ∉ text) (noClose : '>' ∉ text) :
    Leads place.isOpen place.isOpen (place.write text) True := by
  cases place with
  | line => exact .of_scan (scan_false_of_notMem noOpen)
  | label => exact (isSober_write label noOpen noClose (by simp)).leads false
  | token => exact (isSober_write token noOpen noClose (by simp)).leads true

/-- Inside a token a text without brackets may have line feeds only where these are joined. -/
theorem leads_body (place : Place) (noOpen : '<' ∉ text) (noClose : '>' ∉ text) :
    Leads true true (place.write text) (place = .line → '\n' ∉ text) := by
  constructor
  · intro joined
    exact ((isSober_write place noOpen noClose joined).leads true).passes trivial
  · intro cut
    simp only [Classical.not_imp, not_not] at cut
    obtain ⟨rfl, member⟩ := cut
    obtain ⟨before, after, same, notBefore⟩ := List.eq_append_cons_of_mem member
    have sober : IsSober before := by
      intro character inBefore
      have inText : character ∈ text := same ▸ List.mem_append_left _ inBefore
      exact ⟨fun equal => noOpen (equal ▸ inText), fun equal => noClose (equal ▸ inText),
        fun equal => notBefore (equal ▸ inBefore)⟩
    rw [write, same, scan_append, (sober.leads true).passes trivial]
    simp [scan]

/-- A token at a place: no token may be open, and its body has to be good. -/
theorem leads_token {good : Prop} (place : Place) (body : Leads true true (place.write text) good) :
    Leads place.isOpen place.isOpen (place.write ('<' :: text ++ ['>']))
      (place ≠ .token ∧ good) := by
  have written : place.write ('<' :: text ++ ['>']) = ['<'] ++ place.write text ++ ['>'] := by
    rw [List.cons_append, write_cons _ (by decide), write_append, write_cons _ (by decide)]
    cases place <;> rfl
  have opening : Leads false true ['<'] True := .of_scan rfl
  have closing : Leads true false ['>'] True := .of_scan rfl
  have whole := (opening.append body).append closing
  rw [written]
  cases place with
  | line => simpa [isOpen] using whole
  | label => simpa [isOpen] using whole
  | token =>
      constructor
      · rintro ⟨outside, -⟩
        exact absurd rfl outside
      · intro _
        simp [scan, isOpen]

end Place

end MessageBlocks
