import MessageBlocks.Layout.Reference
import MessageBlocks.Markup.Render
import MessageBlocks.Proofs.Markup.Content

/-!
# Arms that are never taken

The renderer has an answer for markup that breaks the content model: a block among formatting
is joined to a run, and formatting among preformatted text is dropped without an escape. Here
both answers are parameters. Markup that obeys the content model is rendered alike whatever
they are, so it never comes upon them.
-/

namespace MessageBlocks

namespace Markup

/-- The nodes directly below a node. Those of a list stand in its items. -/
def children : Markup → List Markup
  | .text _ | .lineBreak => []
  | .bold children | .italic children | .strike children | .code children | .link _ children
  | .paragraph children | .blockquote children | .preformatted children => children
  | .time _ _ format => format
  | .list _ items => items.flatMap ListItem.children

/-- `Occurs nodes node`: the node is among the nodes or below one of them, at any depth. -/
inductive Occurs (nodes : List Markup) : Markup → Prop where
  | here {node : Markup} (member : node ∈ nodes) : Occurs nodes node
  | deeper {outer node : Markup} (inside : Occurs nodes outer) (member : node ∈ outer.children) :
      Occurs nodes node

/-- Whether no block may stand below a node. -/
def keepsLine : Markup → Bool
  | .bold _ | .italic _ | .strike _ | .code _ | .link _ _ | .paragraph _ => true
  | _ => false

/-- The content model: what may stand below a node of markup. -/
structure ObeysContentModel (nodes : List Markup) : Prop where
  lines : ∀ outer, Occurs nodes outer → outer.keepsLine = true →
    ∀ node, Occurs outer.children node → node.isBlock = false
  formats : ∀ timestamp fallback format, Occurs nodes (.time timestamp fallback format) →
    ∀ node ∈ format, ∃ content, node = .text content
  verbatim : ∀ children, Occurs nodes (.preformatted children) → ∀ node ∈ children,
    (∃ content, node = .text content) ∨ node = .lineBreak ∨
      ∃ target label, node = .link target label

theorem IsInline.isBlock_eq_false {node : Markup} (isInline : node.IsInline) :
    node.isBlock = false := by
  cases node with
  | paragraph | blockquote | preformatted | list => cases isInline
  | _ => rfl

theorem IsInline.children {node : Markup} (isInline : node.IsInline) :
    AreInline node.children := by
  cases node with
  | text content => trivial
  | lineBreak => trivial
  | bold | italic | strike | code | link => exact isInline
  | time timestamp fallback format =>
      rw [areInline_iff]
      intro child member
      obtain ⟨content, rfl⟩ := isInline child member
      trivial
  | paragraph | blockquote | preformatted | list => cases isInline

theorem IsVerbatim.isInline {node : Markup} (isVerbatim : node.IsVerbatim) : node.IsInline := by
  cases node with
  | text content => trivial
  | lineBreak => trivial
  | link target children => exact isVerbatim
  | _ => cases isVerbatim

theorem AreInline.areFormed {nodes : List Markup} (areInline : AreInline nodes) :
    AreFormed nodes := by
  rw [areInline_iff] at areInline
  rw [areFormed_iff]
  exact fun node member => (areInline node member).isFormed

theorem IsFormed.children {node : Markup} (isFormed : node.IsFormed) :
    AreFormed node.children := by
  cases node with
  | paragraph children => exact AreInline.areFormed isFormed
  | blockquote children => exact isFormed
  | preformatted children =>
      rw [areFormed_iff]
      exact fun child member => (isFormed child member).isInline.isFormed
  | list kind items =>
      rw [areFormed_iff]
      intro child member
      obtain ⟨item, itemMember, inItem⟩ := List.mem_flatMap.1 member
      exact areFormed_iff.1 (ListItem.areFormed_iff.1 isFormed item itemMember) child inItem
  | _ => exact (IsInline.children isFormed).areFormed

/-- What may stand within a line has only such nodes below it. -/
theorem AreInline.occurs {nodes : List Markup} {node : Markup} (areInline : AreInline nodes)
    (occurs : Occurs nodes node) : node.IsInline := by
  induction occurs with
  | here member => exact areInline_iff.1 areInline _ member
  | deeper inside member ih => exact areInline_iff.1 ih.children _ member

theorem AreFormed.occurs {nodes : List Markup} {node : Markup} (areFormed : AreFormed nodes)
    (occurs : Occurs nodes node) : node.IsFormed := by
  induction occurs with
  | here member => exact areFormed_iff.1 areFormed _ member
  | deeper inside member ih => exact areFormed_iff.1 ih.children _ member

theorem AreFormed.obeysContentModel {nodes : List Markup} (areFormed : AreFormed nodes) :
    ObeysContentModel nodes where
  lines outer occurs keeps node below := by
    have isFormed := areFormed.occurs occurs
    cases outer with
    | bold | italic | strike | code | link | paragraph =>
        exact (AreInline.occurs isFormed below).isBlock_eq_false
    | _ => cases keeps
  formats timestamp fallback format occurs := areFormed.occurs occurs
  verbatim children occurs node member := by
    have isVerbatim := areFormed.occurs occurs node member
    cases node with
    | text content => exact .inl ⟨content, rfl⟩
    | lineBreak => exact .inr (.inl rfl)
    | link target label => exact .inr (.inr ⟨target, label, rfl⟩)
    | _ => cases isVerbatim

end Markup

/-- Answers for markup that breaks the content model: for a block that stands in a run, and
for a node in preformatted text that is no text, no line break and no link. -/
structure Arms (W : Type) where
  block : Markup → Query W (List Char)
  plain : Markup → Query W (List Char)

namespace Arms

variable {W : Type} [Width W]

/-- The answers of the renderer. -/
def standard : Arms W where
  block node := do
    let piece ← Markup.piece 0 node
    piece.flatten
  plain node := pure (Markup.plain node)

/-- A node as part of a run, given the piece that it is by itself. -/
def inRun (arms : Arms W) (node : Markup) (piece : Query W (Piece W)) : Query W (List Char) :=
  if node.isBlock then arms.block node else piece >>= Piece.flatten

mutual

/-- What a node contributes to a page, where the arms answer for misplaced nodes. -/
def piece (arms : Arms W) (depth : Nat) : Markup → Query W (Piece W)
  | .text content => pure (.run (Text.escape (Text.collapse content.toList)))
  | .bold children => (fun text => .run (Markup.marked '*' text)) <$> run arms children
  | .italic children => (fun text => .run (Markup.marked '_' text)) <$> run arms children
  | .strike children => (fun text => .run (Markup.marked '~' text)) <$> run arms children
  | .code children =>
      pure (.run (Markup.marked '\x60' (Text.escape (Markup.plainAll children))))
  | .link target children =>
      (fun text => .run (Markup.linkText target text)) <$> run arms children
  | .time timestamp fallback format =>
      pure (.run (Markup.timeText timestamp fallback (Markup.plainAll format)))
  | .lineBreak => pure (.run ['\n'])
  | .paragraph children => Piece.paragraph <$> run arms children
  | .blockquote children => do
      let pieces ← pieces arms depth children
      let texts ← Line.renderAll (Piece.lines pieces)
      return .block (Line.quoted texts)
  | .preformatted children =>
      (fun text => .block (Line.fenced text)) <$> verbatim arms children
  | .list kind items => do
      let markers := kind.markers depth items
      let widths ← measureAll markers
      let space ← Query.width [' ']
      let bodies ← bodies arms (depth + 1) items
      return .block (ListKind.lines (widths.foldl Width.larger Width.zero) space
        markers widths bodies)

def pieces (arms : Arms W) (depth : Nat) : List Markup → Query W (List (Piece W))
  | [] => pure []
  | node :: rest => do
      let first ← piece arms depth node
      let following ← pieces arms depth rest
      return first :: following

def run (arms : Arms W) : List Markup → Query W (List Char)
  | [] => pure []
  | node :: rest => do
      let text ← arms.inRun node (piece arms 0 node)
      let texts ← run arms rest
      return text ++ texts

def verbatim (arms : Arms W) : List Markup → Query W (List Char)
  | [] => pure []
  | .link target children :: rest => do
      let text ← run arms children
      let texts ← verbatim arms rest
      return Markup.linkText target text ++ texts
  | .text content :: rest => do
      let texts ← verbatim arms rest
      return Text.escape content.toList ++ texts
  | .lineBreak :: rest => do
      let texts ← verbatim arms rest
      return '\n' :: texts
  | node :: rest => do
      let text ← arms.plain node
      let texts ← verbatim arms rest
      return text ++ texts

def bodies (arms : Arms W) (depth : Nat) : List ListItem → Query W (List (ItemBody W))
  | [] => pure []
  | ⟨_, children⟩ :: rest => do
      let pieces ← pieces arms depth children
      let body ← ItemBody.ofLines (Piece.lines pieces)
      let following ← bodies arms depth rest
      return body :: following

end

def render (arms : Arms W) (nodes : List Markup) : Query W (List Char) := do
  let pieces ← pieces arms 0 nodes
  let texts ← Line.renderAll (Piece.lines pieces)
  return Text.unlines texts

/-! With the answers of the renderer this is the renderer. -/

theorem inRun_standard (node : Markup) :
    standard.inRun node (Markup.piece 0 node) =
      (Markup.piece 0 node >>= Piece.flatten : Query W (List Char)) :=
  ite_self _

theorem plain_standard (node : Markup) :
    (standard : Arms W).plain node = pure (Markup.plain node) :=
  rfl

mutual

theorem piece_standard : ∀ (depth : Nat) (node : Markup),
    piece standard depth node = (Markup.piece depth node : Query W (Piece W))
  | _, .text _ | _, .code _ | _, .time _ _ _ | _, .lineBreak => by rw [piece, Markup.piece]
  | _, .bold children | _, .italic children | _, .strike children | _, .link _ children
  | _, .paragraph children => by rw [piece, Markup.piece, run_standard children]
  | depth, .blockquote children => by rw [piece, Markup.piece, pieces_standard depth children]
  | _, .preformatted children => by rw [piece, Markup.piece, verbatim_standard children]
  | depth, .list _ items => by rw [piece, Markup.piece, bodies_standard (depth + 1) items]

theorem pieces_standard : ∀ (depth : Nat) (nodes : List Markup),
    pieces standard depth nodes = (Markup.pieces depth nodes : Query W (List (Piece W)))
  | _, [] => rfl
  | depth, node :: rest => by
      rw [pieces, Markup.pieces, piece_standard depth node, pieces_standard depth rest]

theorem run_standard : ∀ nodes : List Markup,
    run standard nodes = (Markup.run nodes : Query W (List Char))
  | [] => rfl
  | node :: rest => by
      rw [run, Markup.run, piece_standard 0 node, inRun_standard, run_standard rest, bind_assoc]

theorem verbatim_standard : ∀ nodes : List Markup,
    verbatim standard nodes = (Markup.verbatim nodes : Query W (List Char))
  | [] => rfl
  | .link _ children :: rest => by
      rw [verbatim, Markup.verbatim, run_standard children, verbatim_standard rest]
  | .text _ :: rest => by rw [verbatim, Markup.verbatim, verbatim_standard rest]
  | .lineBreak :: rest => by
      simp only [verbatim, Markup.verbatim, verbatim_standard rest]
      rfl
  | .bold _ :: rest | .italic _ :: rest | .strike _ :: rest | .code _ :: rest
  | .time _ _ _ :: rest | .paragraph _ :: rest | .blockquote _ :: rest
  | .preformatted _ :: rest | .list _ _ :: rest => by
      simp only [verbatim, Markup.verbatim, verbatim_standard rest, plain_standard, pure_bind]

theorem bodies_standard : ∀ (depth : Nat) (items : List ListItem),
    bodies standard depth items = (ListItem.bodies depth items : Query W (List (ItemBody W)))
  | _, [] => rfl
  | depth, ⟨_, children⟩ :: rest => by
      rw [bodies, ListItem.bodies, pieces_standard depth children, bodies_standard depth rest]

end

theorem render_standard (nodes : List Markup) :
    standard.render nodes = (Markup.render nodes : Query W (List Char)) := by
  rw [render, pieces_standard, Markup.render, Markup.lines, map_eq_pure_bind, bind_assoc]
  simp only [pure_bind]

/-! Markup that obeys the content model comes upon no arm, so it is rendered alike with any
two. -/

theorem inRun_of_isInline (arms : Arms W) {node : Markup} (isInline : node.IsInline)
    (piece : Query W (Piece W)) : arms.inRun node piece = piece >>= Piece.flatten := by
  rw [inRun, isInline.isBlock_eq_false]
  rfl

section Agreement

variable (arms others : Arms W)

mutual

theorem piece_agree : ∀ (depth : Nat) (node : Markup), node.IsFormed →
    piece arms depth node = piece others depth node
  | _, .text _, _ | _, .code _, _ | _, .time _ _ _, _ | _, .lineBreak, _ => by rw [piece, piece]
  | _, .bold children, formed | _, .italic children, formed | _, .strike children, formed
  | _, .link _ children, formed | _, .paragraph children, formed => by
      rw [piece, piece, run_agree children formed]
  | depth, .blockquote children, formed => by
      rw [piece, piece, pieces_agree depth children formed]
  | _, .preformatted children, formed => by
      rw [piece, piece, verbatim_agree children formed]
  | depth, .list _ items, formed => by
      rw [piece, piece, bodies_agree (depth + 1) items formed]

theorem pieces_agree : ∀ (depth : Nat) (nodes : List Markup), Markup.AreFormed nodes →
    pieces arms depth nodes = pieces others depth nodes
  | _, [], _ => rfl
  | depth, node :: rest, ⟨formed, restFormed⟩ => by
      rw [pieces, pieces, piece_agree depth node formed, pieces_agree depth rest restFormed]

theorem run_agree : ∀ nodes : List Markup, Markup.AreInline nodes →
    run arms nodes = run others nodes
  | [], _ => rfl
  | node :: rest, ⟨isInline, restInline⟩ => by
      rw [run, run, inRun_of_isInline arms isInline, inRun_of_isInline others isInline,
        piece_agree 0 node isInline.isFormed, run_agree rest restInline]

theorem verbatim_agree : ∀ nodes : List Markup, (∀ node ∈ nodes, node.IsVerbatim) →
    verbatim arms nodes = verbatim others nodes
  | [], _ => rfl
  | .link target children :: rest, verbatims => by
      obtain ⟨label, restVerbatim⟩ := List.forall_mem_cons.1 verbatims
      rw [verbatim, verbatim, run_agree children label, verbatim_agree rest restVerbatim]
  | .text _ :: rest, verbatims => by
      rw [verbatim, verbatim, verbatim_agree rest (List.forall_mem_cons.1 verbatims).2]
  | .lineBreak :: rest, verbatims => by
      rw [verbatim, verbatim, verbatim_agree rest (List.forall_mem_cons.1 verbatims).2]
  -- The other nodes are those for which the arm answers, and none of them is verbatim.
  | .bold _ :: _, verbatims | .italic _ :: _, verbatims | .strike _ :: _, verbatims
  | .code _ :: _, verbatims | .time _ _ _ :: _, verbatims | .paragraph _ :: _, verbatims
  | .blockquote _ :: _, verbatims | .preformatted _ :: _, verbatims
  | .list _ _ :: _, verbatims => nomatch verbatims _ List.mem_cons_self

theorem bodies_agree : ∀ (depth : Nat) (items : List ListItem), ListItem.AreFormed items →
    bodies arms depth items = bodies others depth items
  | _, [], _ => rfl
  | depth, ⟨_, children⟩ :: rest, ⟨formed, restFormed⟩ => by
      rw [bodies, bodies, pieces_agree depth children formed, bodies_agree depth rest restFormed]

end

end Agreement

/-- Markup that obeys the content model is rendered as it is whatever the arms are. -/
theorem render_of_areFormed (arms : Arms W) {nodes : List Markup}
    (formed : Markup.AreFormed nodes) : arms.render nodes = Markup.render nodes := by
  rw [← render_standard, render, render, pieces_agree arms standard 0 nodes formed]

end Arms

/-- Arms that can be told from those of the renderer. -/
def loudArms : Arms Float where
  block _ := pure ['!']
  plain _ := pure ['?']

example : (loudArms.render [.bold [.paragraph [.text "a"]]]).answer Engine.reference =
    "*!*".toList := by rfl

end MessageBlocks
