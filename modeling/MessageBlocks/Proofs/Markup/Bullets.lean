import MessageBlocks.Layout.Reference
import MessageBlocks.Proofs.Markup.RenderLaw

/-!
# Bullets of nested lists

A spot is a place for a node in markup that is reached through quotes, paragraphs and list items.
What stands around a spot is rendered in the same way whatever node stands there: the rendered form
depends on the node only through the piece that the node is at the depth of the spot. The depth
counts the lists around the spot of both kinds, since the numbered ones count, too, up to the
innermost paragraph, which starts counting anew. So it decides the bullets of a list that stands
there.
-/

namespace MessageBlocks

/-- A place for a node, and what stands around it. -/
inductive Spot where
  | page (before after : List Markup)
  | quote (outer : Spot) (before after : List Markup)
  | paragraph (outer : Spot) (before after : List Markup)
  | item (outer : Spot) (kind : ListKind) (itemsBefore itemsAfter : List ListItem)
      (number : Option Int64) (before after : List Markup)

variable {W : Type} [Width W]

namespace Spot

/-- The markup with a node at the spot. -/
def fill : Spot → Markup → List Markup
  | page before after, node => before ++ node :: after
  | quote outer before after, node => outer.fill (.blockquote (before ++ node :: after))
  | paragraph outer before after, node => outer.fill (.paragraph (before ++ node :: after))
  | item outer kind itemsBefore itemsAfter number before after, node =>
      outer.fill (.list kind (itemsBefore ++ ⟨number, before ++ node :: after⟩ :: itemsAfter))

/-- The kinds of the lists around the spot, from the innermost on. Lists around a paragraph do not
count in it. -/
def enclosing : Spot → List ListKind
  | page _ _ => []
  | quote outer _ _ => outer.enclosing
  | paragraph _ _ _ => []
  | item outer kind _ _ _ _ _ => kind :: outer.enclosing

/-- The rendered form of what stands around the spot, given the piece at the spot. -/
def around : Spot → Query W (Piece W) → Query W (List Char)
  | page before after, piece => do
      let before ← Markup.pieces 0 before
      let piece ← piece
      let after ← Markup.pieces 0 after
      let texts ← Line.renderAll (Piece.lines (before ++ piece :: after))
      return Text.unlines texts
  | quote outer before after, piece => outer.around do
      let before ← Markup.pieces outer.enclosing.length before
      let piece ← piece
      let after ← Markup.pieces outer.enclosing.length after
      let texts ← Line.renderAll (Piece.lines (before ++ piece :: after))
      return .block (Line.quoted texts)
  | paragraph outer before after, piece => outer.around do
      let before ← Markup.run before
      let piece ← piece
      let text ← piece.flatten
      let after ← Markup.run after
      return .paragraph (before ++ (text ++ after))
  | item outer kind itemsBefore itemsAfter number before after, piece => outer.around do
      let depth := outer.enclosing.length
      let markers := kind.markers depth (itemsBefore ++ ⟨number, []⟩ :: itemsAfter)
      let widths ← measureAll markers
      let space ← Query.width [' ']
      let bodiesBefore ← ListItem.bodies (depth + 1) itemsBefore
      let before ← Markup.pieces (depth + 1) before
      let piece ← piece
      let after ← Markup.pieces (depth + 1) after
      let body ← ItemBody.ofLines (Piece.lines (before ++ piece :: after))
      let bodiesAfter ← ListItem.bodies (depth + 1) itemsAfter
      return .block (ListKind.lines (widths.foldl Width.larger Width.zero) space markers widths
        (bodiesBefore ++ body :: bodiesAfter))

end Spot

/-! Nodes are rendered one after the other, so a list of them can be cut at any of them. -/

theorem Markup.pieces_append (depth : Nat) (first second : List Markup) :
    (Markup.pieces depth (first ++ second) : Query W (List (Piece W))) = do
      let before ← Markup.pieces depth first
      let after ← Markup.pieces depth second
      return before ++ after := by
  induction first with
  | nil => simp [Markup.pieces]
  | cons node rest ih => simp [Markup.pieces, ih]

theorem Markup.run_append (first second : List Markup) :
    (Markup.run (first ++ second) : Query W (List Char)) = do
      let before ← Markup.run first
      let after ← Markup.run second
      return before ++ after := by
  induction first with
  | nil => simp [Markup.run]
  | cons node rest ih => simp [Markup.run, ih, -bind_pure_comp]

theorem ListItem.bodies_append (depth : Nat) (first second : List ListItem) :
    (ListItem.bodies depth (first ++ second) : Query W (List (ItemBody W))) = do
      let before ← ListItem.bodies depth first
      let after ← ListItem.bodies depth second
      return before ++ after := by
  induction first with
  | nil => simp [ListItem.bodies]
  | cons item rest ih =>
      obtain ⟨number, children⟩ := item
      simp [ListItem.bodies, ih]

/-- The content of an item has no say in how items are numbered. -/
theorem ListItem.numbers_append_cons (start : Int64) (number : Option Int64)
    (children others : List Markup) (before after : List ListItem) :
    ListItem.numbers start (before ++ ⟨number, children⟩ :: after) =
      ListItem.numbers start (before ++ ⟨number, others⟩ :: after) := by
  induction before generalizing start with
  | nil => rfl
  | cons item rest ih => simp only [List.cons_append, ListItem.numbers, ih]

/-- What stands around a spot takes part in the rendering of a node as it would in that of any
other. -/
theorem Spot.render_fill (spot : Spot) (node : Markup) :
    (Markup.render (spot.fill node) : Query W (List Char)) =
      spot.around (Markup.piece spot.enclosing.length node) := by
  induction spot generalizing node with
  | page before after =>
      simp [fill, around, enclosing, Markup.render, Markup.lines, Markup.pieces_append,
        Markup.pieces, map_eq_pure_bind, -bind_pure_comp]
  | quote outer before after ih =>
      rw [fill, ih, around, enclosing]
      simp [Markup.piece, Markup.pieces_append, Markup.pieces]
  | paragraph outer before after ih =>
      rw [fill, ih, around, enclosing]
      simp [Markup.piece, Markup.run_append, Markup.run, map_eq_pure_bind, -bind_pure_comp]
  | item outer kind itemsBefore itemsAfter number before after ih =>
      have markers (children : List Markup) :
          kind.markers outer.enclosing.length (itemsBefore ++ ⟨number, children⟩ :: itemsAfter) =
            kind.markers outer.enclosing.length (itemsBefore ++ ⟨number, []⟩ :: itemsAfter) :=
        congrArg (List.map _) (ListItem.numbers_append_cons ..)
      rw [fill, ih, around, enclosing, Markup.piece, markers]
      simp [ListItem.bodies_append, ListItem.bodies, Markup.pieces_append, Markup.pieces]

/-- A list all of whose items are marked by one bullet. -/
def bulletedList (mark : Char) (depth : Nat) (items : List ListItem) : Query W (Piece W) := do
  let markers := List.replicate items.length [mark]
  let widths ← measureAll markers
  let space ← Query.width [' ']
  let bodies ← ListItem.bodies depth items
  return .block (ListKind.lines (widths.foldl Width.larger Width.zero) space markers widths bodies)

/-- Every item of an unordered list is marked by the bullet for the number of lists around the list,
be they unordered or ordered. -/
theorem render_unordered (spot : Spot) (items : List ListItem) :
    (Markup.render (spot.fill (.list .unordered items)) : Query W (List Char)) =
      spot.around
        (bulletedList (bullet spot.enclosing.length) (spot.enclosing.length + 1) items) := by
  have markers : ListKind.unordered.markers spot.enclosing.length items =
      List.replicate items.length [bullet spot.enclosing.length] := by
    rw [ListKind.markers, List.eq_replicate_iff, List.length_map, RenderLaw.length_numbers]
    refine ⟨rfl, fun marker member => ?_⟩
    obtain ⟨number, -, rfl⟩ := List.mem_map.1 member
    rfl
  rw [Spot.render_fill, Markup.piece, markers]
  rfl

/-- The content of the only item of a numbered list. -/
def numberedSpot : Spot :=
  .item (.page [] []) (.ordered .decimal 1) [] [] none [] []

/-! No unordered list stands around this spot, and yet a list there has the second bullet. -/

example : numberedSpot.enclosing.count .unordered = 0 := by decide

example : (Markup.render (numberedSpot.fill (.list .unordered [⟨none, [.text "a"]⟩]))).answer
    Engine.reference = "1. ◦ a".toList := by decide +kernel

end MessageBlocks
