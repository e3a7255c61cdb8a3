import MessageBlocks.Proofs.Text.Selection

/-!
# Flat control tokens

Control tokens are flat in a text if every angle bracket that opens one is closed
on its line before another one opens. A scan from left to right decides this: it
remembers whether a token is open and fails at a bracket or a line feed inside
one. Only brackets and line feeds matter to the scan.
-/

namespace MessageBlocks.Text

/-- Every `<` is closed by a `>` on its line, with no other `<` in between. -/
def IsFlat (text : List Char) : Prop :=
  ∀ before after, text = before ++ '<' :: after →
    ∃ body rest, after = body ++ '>' :: rest ∧ '<' ∉ body ∧ '\n' ∉ body

/-- The first bracket of the text closes a token, and no line feed is before it. -/
def Closes (text : List Char) : Prop :=
  ∃ body rest, text = body ++ '>' :: rest ∧ '<' ∉ body ∧ '\n' ∉ body

/-- Scan a text, where the state says whether a token is open. -/
def scan : Bool → List Char → Option Bool
  | isOpen, [] => some isOpen
  | false, character :: rest => if character = '<' then scan true rest else scan false rest
  | true, character :: rest =>
      if character = '>' then scan false rest
      else if character = '<' ∨ character = '\n' then none
      else scan true rest

/-- The characters that matter to a scan. -/
def isControl (character : Char) : Bool :=
  character == '<' || character == '>' || character == '\n'

theorem isFlat_cons {character : Char} {rest : List Char} :
    IsFlat (character :: rest) ↔ (character = '<' → Closes rest) ∧ IsFlat rest := by
  constructor
  · intro flat
    constructor
    · intro opens
      exact flat [] rest (by rw [opens]; rfl)
    · intro before after same
      exact flat (character :: before) after (by rw [same]; rfl)
  · rintro ⟨closes, flat⟩ before after same
    cases before with
    | nil =>
        obtain ⟨opens, same⟩ := List.cons.inj same
        rw [← same]
        exact closes opens
    | cons first before =>
        obtain ⟨-, same⟩ := List.cons.inj same
        exact flat before after same

theorem closes_cons {character : Char} {rest : List Char} :
    Closes (character :: rest) ↔
      character = '>' ∨ (character ≠ '<' ∧ character ≠ '\n' ∧ Closes rest) := by
  constructor
  · rintro ⟨body, others, same, noOpen, noBreak⟩
    cases body with
    | nil =>
        obtain ⟨closes, -⟩ := List.cons.inj same
        exact .inl closes
    | cons first body =>
        obtain ⟨rfl, sameRest⟩ := List.cons.inj same
        simp only [List.mem_cons, not_or] at noOpen noBreak
        exact .inr
          ⟨Ne.symm noOpen.1, Ne.symm noBreak.1, body, others, sameRest, noOpen.2, noBreak.2⟩
  · rintro (rfl | ⟨noOpen, noBreak, body, others, rfl, bodyNoOpen, bodyNoBreak⟩)
    · exact ⟨[], rest, rfl, List.not_mem_nil, List.not_mem_nil⟩
    · refine ⟨character :: body, others, rfl, ?_, ?_⟩
      · simp [Ne.symm noOpen, bodyNoOpen]
      · simp [Ne.symm noBreak, bodyNoBreak]

/-- A scan ends with no open token exactly when the text is flat and, where a token was open
at its start, closes that one first. -/
theorem scan_eq_closed_iff (isOpen : Bool) (text : List Char) :
    scan isOpen text = some false ↔ (isOpen = true → Closes text) ∧ IsFlat text := by
  induction text generalizing isOpen with
  | nil =>
      have flat : IsFlat [] := by
        intro before after same
        simp at same
      have stays : ¬ Closes [] := by
        rintro ⟨body, rest, same, -⟩
        simp at same
      cases isOpen <;> simp [scan, flat, stays]
  | cons character rest ih =>
      rw [isFlat_cons, closes_cons]
      cases isOpen with
      | false =>
          rw [scan]
          split
          · next opens => simp [ih, opens]
          · next passes => simp [ih, passes]
      | true =>
          rw [scan]
          split
          · next closes => simp [ih, closes]
          · next notClosing =>
              split
              · next breaks => rcases breaks with rfl | rfl <;> simp
              · next passes =>
                  rw [not_or] at passes
                  simp [ih, notClosing, passes]

/-- The scan decides whether a text is flat. -/
theorem isFlat_iff_scan {text : List Char} : IsFlat text ↔ scan false text = some false := by
  simp [scan_eq_closed_iff]

instance (text : List Char) : Decidable (IsFlat text) :=
  decidable_of_iff _ isFlat_iff_scan.symm

theorem scan_append (isOpen : Bool) (first second : List Char) :
    scan isOpen (first ++ second) =
      (scan isOpen first).bind fun reached => scan reached second := by
  induction first generalizing isOpen with
  | nil => rfl
  | cons character rest ih =>
      cases isOpen with
      | false =>
          rw [List.cons_append, scan, scan]
          split <;> exact ih _
      | true =>
          rw [List.cons_append, scan, scan]
          split
          · exact ih _
          · split
            · rfl
            · exact ih _

/-- A scan sees nothing but brackets and line feeds. -/
theorem scan_filter_isControl (isOpen : Bool) (text : List Char) :
    scan isOpen (text.filter isControl) = scan isOpen text := by
  induction text generalizing isOpen with
  | nil => rfl
  | cons character rest ih =>
      by_cases control : isControl character = true
      · rw [List.filter_cons_of_pos control]
        cases isOpen <;> simp only [scan, ih]
      · rw [List.filter_cons_of_neg control, ih]
        simp only [isControl, Bool.or_eq_true, beq_iff_eq, not_or] at control
        obtain ⟨⟨notOpening, notClosing⟩, notBreak⟩ := control
        cases isOpen <;> simp [scan, notOpening, notClosing, notBreak]

theorem scan_congr {first second : List Char}
    (same : first.filter isControl = second.filter isControl) (isOpen : Bool) :
    scan isOpen first = scan isOpen second := by
  rw [← scan_filter_isControl, same, scan_filter_isControl]

theorem isFlat_congr {first second : List Char}
    (same : first.filter isControl = second.filter isControl) : IsFlat first ↔ IsFlat second := by
  rw [isFlat_iff_scan, isFlat_iff_scan, scan_congr same]

theorem scan_false_of_notMem {text : List Char} (noOpen : '<' ∉ text) :
    scan false text = some false := by
  induction text with
  | nil => rfl
  | cons character rest ih =>
      simp only [List.mem_cons, not_or] at noOpen
      rw [scan, if_neg (Ne.symm noOpen.1), ih noOpen.2]

theorem isFlat_of_notMem {text : List Char} (noOpen : '<' ∉ text) : IsFlat text :=
  isFlat_iff_scan.2 (scan_false_of_notMem noOpen)

/-- A text is flat exactly when all its lines are. -/
theorem isFlat_unlines (rows : List (List Char)) :
    IsFlat (unlines rows) ↔ ∀ row ∈ rows, IsFlat row := by
  simp only [isFlat_iff_scan]
  induction rows with
  | nil => simp [unlines, scan]
  | cons row rest ih =>
      cases rest with
      | nil => simp [unlines]
      | cons next rest =>
          rw [unlines_cons_cons, scan_append, List.forall_mem_cons, ← ih]
          cases scan false row with
          | none => simp
          | some isOpen => cases isOpen <;> simp [scan]

theorem isFlat_lines (text : List Char) : IsFlat text ↔ ∀ line ∈ lines text, IsFlat line := by
  rw [← isFlat_unlines, unlines_lines]

theorem isFlat_lineFeeds_append {feeds : List Char} (only : ∀ character ∈ feeds, character = '\n')
    (text : List Char) : IsFlat (feeds ++ text) ↔ IsFlat text := by
  have noOpen : '<' ∉ feeds := fun member => absurd (only _ member) (by decide)
  rw [isFlat_iff_scan, scan_append, scan_false_of_notMem noOpen, isFlat_iff_scan]
  rfl

theorem isFlat_append_lineFeeds {feeds : List Char} (only : ∀ character ∈ feeds, character = '\n')
    (text : List Char) : IsFlat (text ++ feeds) ↔ IsFlat text := by
  have noOpen : '<' ∉ feeds := fun member => absurd (only _ member) (by decide)
  rw [isFlat_iff_scan, isFlat_iff_scan, scan_append]
  cases scan false text with
  | none => simp
  | some isOpen =>
      cases isOpen with
      | false => simp [scan_false_of_notMem noOpen]
      | true =>
          cases feeds with
          | nil => simp [scan]
          | cons first rest =>
              have isFeed := only first List.mem_cons_self
              simp [isFeed, scan]

theorem isFlat_trimLineFeeds (text : List Char) : IsFlat (trimLineFeeds text) ↔ IsFlat text := by
  have onlyFeeds (text : List Char) : ∀ character ∈ text.takeWhile (· == '\n'), character = '\n' :=
    fun character member => eq_of_beq (List.all_eq_true.1 List.all_takeWhile character member)
  have start : IsFlat (trimStartBy (· == '\n') text) ↔ IsFlat text := by
    conv => rhs; rw [← List.takeWhile_append_dropWhile (p := (· == '\n')) (l := text)]
    rw [isFlat_lineFeeds_append (onlyFeeds text), trimStartBy]
  have onlyTrailing (rest : List Char) :
      ∀ character ∈ (rest.reverse.takeWhile (· == '\n')).reverse, character = '\n' :=
    fun character member => onlyFeeds _ character (List.mem_reverse.1 member)
  rw [← start, trimLineFeeds, trimBy]
  conv => rhs; rw [← trimEndBy_append (· == '\n') (trimStartBy (· == '\n') text)]
  rw [isFlat_append_lineFeeds (onlyTrailing _)]

end MessageBlocks.Text
