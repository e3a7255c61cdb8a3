import MessageBlocks.Layout.Reference
import MessageBlocks.Proofs.Markup.Tokens
import MessageBlocks.Proofs.Number.Digits
import MessageBlocks.Proofs.Text.EscapeLayout

/-!
# The fields of control tokens

A link token holds a target and, behind a bar, a label; a date token holds a timestamp, a format and
a text for readers without dates, each up to the mark that ends it. A bar in a target is written by
its number, so a link token can be read back. A bar in a format is written as it is, so a date token
can be read back only if its format has none.
-/

namespace MessageBlocks

namespace Text

/-- A text cut at the first place of a mark: what stands before the mark and what follows it. -/
def cutAt? (mark : Char) : List Char → Option (List Char × List Char)
  | [] => none
  | character :: rest =>
      if character = mark then some ([], rest)
      else (cutAt? mark rest).map fun parts => (character :: parts.1, parts.2)

variable {mark : Char} {text before after : List Char}

theorem cutAt?_append (absent : mark ∉ before) (after : List Char) :
    cutAt? mark (before ++ mark :: after) = some (before, after) := by
  induction before with
  | nil => exact if_pos rfl
  | cons character rest ih =>
      rw [List.mem_cons, not_or] at absent
      rw [List.cons_append, cutAt?, if_neg (Ne.symm absent.1), ih absent.2]
      rfl

theorem cutAt?_of_notMem (absent : mark ∉ text) : cutAt? mark text = none := by
  induction text with
  | nil => rfl
  | cons character rest ih =>
      rw [List.mem_cons, not_or] at absent
      rw [cutAt?, if_neg (Ne.symm absent.1), ih absent.2]
      rfl

end Text

open Text

/-! ## Link tokens -/

/-- What a link token tells: a target without bars and a label. -/
structure LinkFields where
  target : List Char
  label : List Char
  deriving DecidableEq, Repr

namespace LinkFields

/-- Read a link token. The target ends at the first bar, or with the token if there is none. -/
def read? : List Char → Option LinkFields
  | '<' :: rest =>
      if rest.getLast? = some '>' then
        match cutAt? '|' rest.dropLast with
        | some (target, label) => some ⟨unescape target, label⟩
        | none => some ⟨unescape rest.dropLast, []⟩
      else none
  | _ => none

/-- What a link writes: its target with bars by their number, and its label on one line without
spaces around it. -/
def ofLink (target : String) (text : List Char) : LinkFields where
  target := target.toList.flatMap Markup.escapeBar
  label := Markup.linkLabel text

end LinkFields

namespace Markup

/-- Whether a link writes the target into a token: it is not empty and makes no mention. -/
def IsAddress (target : String) : Prop :=
  target ≠ "" ∧ mention? target.toList = none

instance (target : String) : Decidable (IsAddress target) :=
  inferInstanceAs (Decidable (_ ∧ _))

/-- Bars may be written by their number before or after the escape, since no entity has one. -/
theorem linkTarget_eq (target : List Char) :
    linkTarget target = Text.escape (target.flatMap escapeBar) := by
  have each (character : Char) :
      (escapeChar character).flatMap escapeBar = (escapeBar character).flatMap escapeChar := by
    by_cases isBar : character = '|'
    · subst isBar
      decide
    · have kept : escapeBar character = [character] := if_neg isBar
      have entity : ∀ written ∈ entities, written.flatMap escapeBar = written := by decide
      rw [kept, List.flatMap_singleton, escapeChar]
      split
      · exact entity _ (by decide)
      · split
        · exact entity _ (by decide)
        · split
          · exact entity _ (by decide)
          · rw [List.flatMap_singleton, kept]
  rw [linkTarget, Text.escape, List.flatMap_assoc, Text.escape, List.flatMap_assoc]
  exact List.flatMap_congr fun character _ => each character

theorem bar_notMem_linkTarget (target : List Char) : '|' ∉ linkTarget target := by
  rw [linkTarget_eq, mem_escape_iff (by decide) (by decide) (by decide)]
  intro member
  obtain ⟨character, -, written⟩ := List.mem_flatMap.1 member
  rw [escapeBar] at written
  split at written
  · exact absurd written (by decide)
  · next notBar => exact notBar (List.mem_singleton.1 written).symm

theorem unescape_linkTarget (target : List Char) :
    unescape (linkTarget target) = target.flatMap escapeBar := by
  rw [linkTarget_eq, unescape_escape]

theorem linkText_of_isAddress {target : String} (isAddress : IsAddress target)
    (text : List Char) :
    linkText (some target) text = '<' :: (linkTarget target.toList ++
      if (linkLabel text).isEmpty then [] else '|' :: linkLabel text) ++ ['>'] := by
  obtain ⟨filled, noMention⟩ := isAddress
  have notEmpty : target.toList.isEmpty = false := by simpa using filled
  simp [linkText, notEmpty, noMention]

/-- A link token is read back to what the link writes. -/
theorem read?_linkText {target : String} (isAddress : IsAddress target) (text : List Char) :
    LinkFields.read? (linkText (some target) text) = some (.ofLink target text) := by
  rw [linkText_of_isAddress isAddress, List.cons_append, LinkFields.read?, if_pos (by simp),
    List.dropLast_concat]
  have noBar := bar_notMem_linkTarget target.toList
  by_cases empty : linkLabel text = []
  · simp [LinkFields.ofLink, empty, cutAt?_of_notMem noBar, unescape_linkTarget]
  · simp [LinkFields.ofLink, empty, cutAt?_append noBar, unescape_linkTarget]

/-- A link whose target is neither empty nor a mention is one token. Up to the first bar, or to the
end if there is none, stands the target with bars by their number, escaped and without any bracket;
behind the bar stands the label. So the token is read back, and two links are rendered alike exactly
if their targets agree up to the way in which bars are written and their labels are the same. -/
theorem link_token_determines {W : Type} [Width W] (engine : Engine W) (depth : Nat)
    {target : String} (isAddress : IsAddress target) (children : List Markup) :
    ∃ address rest,
      (piece depth (.link (some target) children)).answer engine =
          .run ('<' :: (address ++ rest) ++ ['>']) ∧
        '<' ∉ address ∧ '>' ∉ address ∧ '|' ∉ address ∧
        unescape address = target.toList.flatMap escapeBar ∧
        (rest = if linkLabel ((run children).answer engine) = [] then []
          else '|' :: linkLabel ((run children).answer engine)) ∧
        LinkFields.read? ('<' :: (address ++ rest) ++ ['>']) =
          some (.ofLink target ((run children).answer engine)) ∧
        ∀ (otherDepth : Nat) (other : String) (others : List Markup), IsAddress other →
          ((piece otherDepth (.link (some other) others)).answer engine =
              .run ('<' :: (address ++ rest) ++ ['>']) ↔
            LinkFields.ofLink other ((run others).answer engine) =
              .ofLink target ((run children).answer engine)) := by
  have rendered (depth : Nat) (target : String) (children : List Markup) :
      (piece depth (.link (some target) children)).answer engine =
        .run (linkText (some target) ((run children).answer engine)) := by
    rw [piece, Query.answer_map]
  have written := linkText_of_isAddress isAddress ((run children).answer engine)
  refine ⟨linkTarget target.toList, _, (rendered ..).trans (congrArg Piece.run written),
    open_notMem_linkTarget _, close_notMem_linkTarget _, bar_notMem_linkTarget _,
    unescape_linkTarget _, by simp, ?_, ?_⟩
  · rw [← written]
    exact read?_linkText isAddress _
  · intro otherDepth other others otherIsAddress
    rw [rendered, ← written, Piece.run.injEq]
    constructor
    · intro same
      have read := read?_linkText otherIsAddress ((run others).answer engine)
      rw [same, read?_linkText isAddress] at read
      exact (Option.some.inj read).symm
    · intro same
      obtain ⟨sameTarget, sameLabel⟩ := LinkFields.mk.inj same
      rw [linkText_of_isAddress otherIsAddress, linkText_of_isAddress isAddress, linkTarget_eq,
        sameTarget, sameLabel, ← linkTarget_eq]

/-- A label with a bar and a mark of its own. -/
def barredLabel : List Markup :=
  [.text " x|", .bold [.text "y"], .lineBreak]

/-- The label of this token begins at its first bar. The same token is written for the target in
which the bar stands by its number. -/
theorem barredLink_determines :
    IsAddress "/a|b&" ∧ IsAddress "/a%7Cb&" ∧
      (piece 0 (.link (some "/a|b&") barredLabel)).answer Engine.reference =
        .run "</a%7Cb&amp;|x|*y*>".toList ∧
      LinkFields.read? "</a%7Cb&amp;|x|*y*>".toList = some ⟨"/a%7Cb&".toList, "x|*y*".toList⟩ ∧
      (piece 0 (.link (some "/a%7Cb&") barredLabel)).answer Engine.reference =
        .run "</a%7Cb&amp;|x|*y*>".toList := by
  have isAddress : IsAddress "/a|b&" := by decide
  have otherIsAddress : IsAddress "/a%7Cb&" := by decide
  have written : (piece 0 (.link (some "/a|b&") barredLabel)).answer Engine.reference =
      .run "</a%7Cb&amp;|x|*y*>".toList := by rfl
  obtain ⟨address, rest, same, -, -, -, -, -, read, alike⟩ :=
    link_token_determines Engine.reference 0 isAddress barredLabel
  have token : "</a%7Cb&amp;|x|*y*>".toList = '<' :: (address ++ rest) ++ ['>'] :=
    Piece.run.inj (written.symm.trans same)
  refine ⟨isAddress, otherIsAddress, written, ?_, ?_⟩
  · rw [token, read]
    rfl
  · rw [token]
    exact (alike 0 "/a%7Cb&" barredLabel otherIsAddress).2 (by rfl)

end Markup

/-! ## Date tokens -/

/-- What a date token tells. -/
structure DateFields where
  timestamp : Int
  format : List Char
  fallback : List Char
  deriving DecidableEq, Repr

namespace DateFields

/-- What stands before the first caret of a date token. -/
def opening : List Char :=
  ['<', '!', 'd', 'a', 't', 'e']

/-- Read a date token: the timestamp up to the next caret, the format up to the first bar and the
fallback up to the first closing bracket. -/
def read? (token : List Char) : Option DateFields := do
  let (start, rest) ← cutAt? '^' token
  let (timestamp, rest) ← cutAt? '^' rest
  let (format, rest) ← cutAt? '|' rest
  let (fallback, rest) ← cutAt? '>' rest
  if start = opening ∧ rest = [] then
    some ⟨Number.ofIntText timestamp, unescape format, unescape fallback⟩
  else none

/-- What a time with a timestamp is to tell: its own text as the format, unless that is blank, and
its fallback or else date and time. -/
def ofTime (timestamp : Int64) (fallback : Option String) (text : List Char) : DateFields where
  timestamp := timestamp.toInt
  format := if (trim text).isEmpty then Markup.defaultTimeFormat else trim text
  fallback := (fallback.map String.toList).getD (Timestamp.readable timestamp.toInt)

/-- The token that tells the fields. -/
def token (fields : DateFields) : List Char :=
  opening ++ '^' :: (Number.intText fields.timestamp ++
    '^' :: (Text.escape fields.format ++ '|' :: (Text.escape fields.fallback ++ ['>'])))

/-- The fields with the format cut at its first bar. The rest of it comes before the fallback. -/
def cutAtBar (fields : DateFields) : DateFields :=
  match cutAt? '|' fields.format with
  | none => fields
  | some (before, after) => ⟨fields.timestamp, before, after ++ '|' :: fields.fallback⟩

theorem cutAtBar_of_notMem {fields : DateFields} (noBar : '|' ∉ fields.format) :
    fields.cutAtBar = fields := by
  rw [cutAtBar, cutAt?_of_notMem noBar]

theorem cutAtBar_of_eq {fields : DateFields} {before after : List Char}
    (same : fields.format = before ++ '|' :: after) (noBar : '|' ∉ before) :
    fields.cutAtBar = ⟨fields.timestamp, before, after ++ '|' :: fields.fallback⟩ := by
  rw [cutAtBar, same, cutAt?_append noBar]

/-- A format with a bar does not survive the cut, since it gets shorter. -/
theorem cutAtBar_eq_self_iff {fields : DateFields} :
    fields.cutAtBar = fields ↔ '|' ∉ fields.format := by
  constructor
  · intro same member
    obtain ⟨before, after, parts, notBefore⟩ := List.eq_append_cons_of_mem member
    rw [cutAtBar_of_eq parts notBefore] at same
    have lengths := congrArg (fun fields => fields.format.length) same
    simp [parts] at lengths
  · exact cutAtBar_of_notMem

/-- A token whose format has no bar is read as it is written. -/
theorem read?_token_of_notMem {fields : DateFields} (noBar : '|' ∉ fields.format) :
    read? fields.token = some fields := by
  have noCaret : '^' ∉ opening := by decide
  have noCaretInNumber : '^' ∉ Number.intText fields.timestamp := by
    intro member
    rcases IsMarkerText.intText fields.timestamp '^' member with alphanumeric | sign
    · exact absurd alphanumeric (by decide)
    · exact absurd sign (by decide)
  have noWrittenBar : '|' ∉ Text.escape fields.format := by
    rwa [mem_escape_iff (by decide) (by decide) (by decide)]
  have noBracket : '>' ∉ Text.escape fields.fallback := close_notMem_escape _
  simp only [token, read?, Option.bind_eq_bind, Option.bind_some, cutAt?_append noCaret,
    cutAt?_append noCaretInNumber, cutAt?_append noWrittenBar, cutAt?_append noBracket,
    Number.ofIntText_intText, unescape_escape, and_self, if_true]

/-- Cutting a format at its first bar does not change the token. -/
theorem token_cutAtBar (fields : DateFields) : fields.cutAtBar.token = fields.token := by
  by_cases member : '|' ∈ fields.format
  · obtain ⟨before, after, same, notBefore⟩ := List.eq_append_cons_of_mem member
    rw [cutAtBar_of_eq same notBefore, token, token, same]
    simp only [escape_append, escape_cons_of_isPlain (show isPlain '|' = true from rfl),
      List.append_assoc, List.cons_append]
  · rw [cutAtBar_of_notMem member]

theorem bar_notMem_format_cutAtBar (fields : DateFields) : '|' ∉ fields.cutAtBar.format := by
  by_cases member : '|' ∈ fields.format
  · obtain ⟨before, after, same, notBefore⟩ := List.eq_append_cons_of_mem member
    rwa [cutAtBar_of_eq same notBefore]
  · rwa [cutAtBar_of_notMem member]

theorem read?_token (fields : DateFields) : read? fields.token = some fields.cutAtBar := by
  rw [← token_cutAtBar]
  exact read?_token_of_notMem fields.bar_notMem_format_cutAtBar

theorem timeText_eq_token (timestamp : Int64) (fallback : Option String) (text : List Char) :
    Markup.timeText (some timestamp) fallback text = (ofTime timestamp fallback text).token := by
  have opens : "<!date^".toList = opening ++ ['^'] := by decide
  unfold Markup.timeText
  simp only [opens, ofTime, token]
  simp only [List.append_assoc, List.cons_append, List.nil_append]

/-- A time with a timestamp is one token, which tells the timestamp, the format and the fallback. It
is read with the format cut at its first bar, so exactly the formats without bars can be read
back. -/
theorem date_token_reads_back_iff {W : Type} [Width W] (depth : Nat) (timestamp : Int64)
    (fallback : Option String) (format : List Markup) :
    ∃ token, (Markup.piece depth (.time (some timestamp) fallback format) : Query W (Piece W)) =
        pure (.run token) ∧
      read? token = some (ofTime timestamp fallback (Markup.plainAll format)).cutAtBar ∧
      (read? token = some (ofTime timestamp fallback (Markup.plainAll format)) ↔
        '|' ∉ (ofTime timestamp fallback (Markup.plainAll format)).format) := by
  have read := read?_token (ofTime timestamp fallback (Markup.plainAll format))
  have piece : (Markup.piece depth (.time (some timestamp) fallback format) : Query W (Piece W)) =
      pure (.run (Markup.timeText (some timestamp) fallback (Markup.plainAll format))) := rfl
  rw [timeText_eq_token] at piece
  refine ⟨_, piece, read, ?_⟩
  rw [← cutAtBar_eq_self_iff]
  constructor
  · intro back
    exact Option.some.inj (read.symm.trans back)
  · intro same
    rwa [same] at read

/-! With a bar in the format the rest of the format is taken for the start of the fallback. -/

example : read? (ofTime 0 (some "then") "a|b".toList).token =
    some ⟨0, "a".toList, "b|then".toList⟩ := by decide

end DateFields

end MessageBlocks
