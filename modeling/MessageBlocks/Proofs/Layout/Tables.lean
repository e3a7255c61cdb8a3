import MessageBlocks.Proofs.Layout.Recognition
import MessageBlocks.Proofs.Number.Order
import MessageBlocks.Proofs.Text.Bytes

/-!
# What a glyph table holds

A glyph table descends, and for each space glyph it has one that is as wide and whose text is not
greater. There is only one such table, whatever the order is in which the glyphs are listed. So it
does not matter whether glyphs are put in one by one or all of them are sorted and then the repeated
widths dropped. The table has the least glyph of each width, and these are the only glyphs with a
width of their own.
-/

namespace MessageBlocks

theorem Keyed.find?_eq_some_iff {κ α : Type} [DecidableEq κ] {entries : List (κ × α)}
    (keyed : (entries.map Prod.fst).Nodup) {key : κ} {value : α} :
    find? key entries = some value ↔ (key, value) ∈ entries := by
  refine ⟨mem_of_find?_eq_some, fun member => ?_⟩
  induction entries with
  | nil => cases member
  | cons head rest ih =>
      obtain ⟨apart, restKeyed⟩ := List.nodup_cons.1 keyed
      rw [find?]
      rcases List.mem_cons.1 member with rfl | inRest
      · exact if_pos rfl
      · have different : key ≠ head.1 := fun same =>
          apart (List.mem_map.2 ⟨_, inRest, same⟩)
        rw [if_neg different, ih restKeyed inRest]

/-- A glyph as an entry of metrics. -/
def Glyph.entry {W : Type} (glyph : Glyph W) : String × W :=
  (glyph.text, glyph.width)

/-- An entry of metrics as a glyph. -/
def Glyph.ofEntry {W : Type} (entry : String × W) : Glyph W :=
  ⟨entry.2, entry.1⟩

namespace GlyphTable

section Order

variable {W : Type} [Width W] {table others : GlyphTable W} {spaces listing : List (String × W)}

/-- Whether the table has a glyph for an entry: as wide, and with a text that is not greater. -/
def Covers (table : GlyphTable W) (entry : String × W) : Prop :=
  ∃ glyph ∈ table, glyph.width = entry.2 ∧ glyph.text ≤ entry.1

omit [Width W] in
theorem covers_cons {glyph : Glyph W} {entry : String × W} :
    Covers (glyph :: table) entry ↔
      (glyph.width = entry.2 ∧ glyph.text ≤ entry.1) ∨ Covers table entry := by
  simp [Covers]

/-- A table of the least glyph of each width, from the widest on. -/
structure IsTableOf (spaces : List (String × W)) (table : GlyphTable W) : Prop where
  descends : Descends table
  listed : ∀ glyph ∈ table, glyph.entry ∈ spaces
  covers : ∀ entry ∈ spaces, Covers table entry

theorem IsTableOf.of_perm (isTable : IsTableOf listing table) (listed : listing.Perm spaces) :
    IsTableOf spaces table where
  descends := isTable.descends
  listed glyph member := listed.mem_iff.1 (isTable.listed glyph member)
  covers entry member := isTable.covers entry (listed.mem_iff.2 member)

theorem IsTableOf.exists_width_iff (isTable : IsTableOf spaces table) {width : W} :
    (∃ glyph ∈ table, glyph.width = width) ↔ ∃ entry ∈ spaces, entry.2 = width := by
  constructor
  · rintro ⟨glyph, member, rfl⟩
    exact ⟨_, isTable.listed glyph member, rfl⟩
  · rintro ⟨entry, among, rfl⟩
    obtain ⟨glyph, member, width, -⟩ := isTable.covers entry among
    exact ⟨glyph, member, width⟩

/-- A glyph that is wider than all others stands in front of them. -/
theorem IsTableOf.cons (isTable : IsTableOf spaces table) {glyph : Glyph W}
    (widest : ∀ entry ∈ spaces, Width.order glyph.width entry.2 = .gt) :
    IsTableOf (glyph.entry :: spaces) (glyph :: table) where
  descends := List.pairwise_cons.2
    ⟨fun next member => widest _ (isTable.listed next member), isTable.descends⟩
  listed := List.forall_mem_cons.2
    ⟨List.mem_cons_self, fun next member => List.mem_cons_of_mem _ (isTable.listed next member)⟩
  covers := List.forall_mem_cons.2
    ⟨covers_cons.2 (.inl ⟨rfl, le_rfl⟩), fun entry member =>
      covers_cons.2 (.inr (isTable.covers entry member))⟩

/-- A glyph as wide as another one and with a text that is not less changes nothing. -/
theorem IsTableOf.skip {glyph next : Glyph W} (isTable : IsTableOf (glyph.entry :: spaces) table)
    (width : glyph.width = next.width) (text : glyph.text ≤ next.text) :
    IsTableOf (glyph.entry :: next.entry :: spaces) table where
  descends := isTable.descends
  listed other member := by
    rcases List.mem_cons.1 (isTable.listed other member) with same | among
    · exact same ▸ List.mem_cons_self
    · exact List.mem_cons_of_mem _ (List.mem_cons_of_mem _ among)
  covers := by
    obtain ⟨covered, others⟩ := List.forall_mem_cons.1 isTable.covers
    refine List.forall_mem_cons.2 ⟨covered, List.forall_mem_cons.2 ⟨?_, others⟩⟩
    obtain ⟨least, member, sameWidth, notGreater⟩ := covered
    exact ⟨least, member, sameWidth.trans width, notGreater.trans text⟩

variable [Std.LawfulEqCmp (Width.order : W → W → Ordering)]

theorem covers_insert {added : Glyph W} {entry : String × W}
    (covered : (added.width = entry.2 ∧ added.text ≤ entry.1) ∨ Covers table entry) :
    Covers (insert added table) entry := by
  induction table with
  | nil => exact covers_cons.2 covered
  | cons head rest ih =>
      rw [insert]
      split
      · exact covers_cons.2 covered
      · next same =>
          have width : added.width = head.width := Std.LawfulEqCmp.eq_of_compare same
          rw [covers_cons, ← width] at covered
          split
          · next less =>
              rw [covers_cons]
              rcases covered with here | ⟨equal, notLess⟩ | inRest
              · exact .inl here
              · exact .inl ⟨equal, less.le.trans notLess⟩
              · exact .inr inRest
          · next notLess =>
              rw [covers_cons, ← width]
              rcases covered with ⟨equal, below⟩ | here | inRest
              · exact .inl ⟨equal, (not_lt.1 notLess).trans below⟩
              · exact .inl here
              · exact .inr inRest
      · rw [covers_cons] at covered ⊢
        rcases covered with here | isHead | inRest
        · exact .inr (ih (.inl here))
        · exact .inl isHead
        · exact .inr (ih (.inr inRest))

theorem order_ne_gt_of_eq {first second : W} (same : first = second) :
    Width.order first second ≠ .gt := by
  rw [same]
  exact fun wider => absurd (wider.symm.trans Std.ReflCmp.compare_self) (by decide)

theorem Descends.nodup (descends : Descends table) : table.Nodup := by
  refine List.Pairwise.imp ?_ descends
  exact fun wider same => order_ne_gt_of_eq (congrArg Glyph.width same) wider

/-- A table has one glyph of each width. -/
theorem Descends.eq_of_width_eq (descends : Descends table) {first second : Glyph W}
    (member : first ∈ table) (memberNext : second ∈ table) (same : first.width = second.width) :
    first = second := by
  induction table with
  | nil => cases member
  | cons head rest ih =>
      obtain ⟨below, restDescends⟩ := List.pairwise_cons.1 descends
      have apart {glyph : Glyph W} (inRest : glyph ∈ rest) : head.width ≠ glyph.width :=
        fun equal => order_ne_gt_of_eq equal (below glyph inRest)
      rcases List.mem_cons.1 member with rfl | inRest <;>
        rcases List.mem_cons.1 memberNext with rfl | nextInRest
      · rfl
      · exact absurd same (apart nextInRest)
      · exact absurd same.symm (apart inRest)
      · exact ih restDescends inRest nextInRest

namespace IsTableOf

theorem least (isTable : IsTableOf spaces table) {glyph : Glyph W} (member : glyph ∈ table)
    {entry : String × W} (among : entry ∈ spaces) (same : entry.2 = glyph.width) :
    glyph.text ≤ entry.1 := by
  obtain ⟨other, otherMember, width, text⟩ := isTable.covers entry among
  rwa [isTable.descends.eq_of_width_eq member otherMember (same.symm.trans width.symm)]

/-- The glyphs of the table are the least ones of their width. -/
theorem mem_iff (isTable : IsTableOf spaces table) {glyph : Glyph W} :
    glyph ∈ table ↔ glyph.entry ∈ spaces ∧
      ∀ entry ∈ spaces, entry.2 = glyph.width → glyph.text ≤ entry.1 := by
  refine ⟨fun member => ⟨isTable.listed glyph member, fun _ => isTable.least member⟩, ?_⟩
  rintro ⟨among, least⟩
  obtain ⟨⟨width, text⟩, member, rfl, notGreater⟩ := isTable.covers _ among
  have notLess : glyph.text ≤ text := least _ (isTable.listed _ member) rfl
  obtain rfl : text = glyph.text := le_antisymm notGreater notLess
  exact member

variable [Std.TransCmp (Width.order : W → W → Ordering)]

/-- There is one table only, since its glyphs and their order are determined. -/
theorem unique (isTable : IsTableOf spaces table) (otherTable : IsTableOf spaces others) :
    table = others := by
  have members : table.Perm others :=
    (List.perm_ext_iff_of_nodup isTable.descends.nodup otherTable.descends.nodup).2
      fun glyph => isTable.mem_iff.trans otherTable.mem_iff.symm
  refine members.eq_of_pairwise ?_ isTable.descends otherTable.descends
  intro first second _ _ wider narrower
  rw [Std.OrientedCmp.gt_iff_lt, wider] at narrower
  cases narrower

/-- The last glyph is the narrowest one. -/
theorem narrowest?_eq_some_iff (isTable : IsTableOf spaces table) {width : W} :
    table.narrowest? = some width ↔ (∃ entry ∈ spaces, entry.2 = width) ∧
      ∀ entry ∈ spaces, (Width.order width entry.2).isLE = true := by
  have minimal {last : Glyph W} (isLast : table.getLast? = some last) :
      ∀ entry ∈ spaces, (Width.order last.width entry.2).isLE = true := by
    intro entry among
    obtain ⟨glyph, member, width, -⟩ := isTable.covers entry among
    obtain ⟨init, rfl⟩ := List.getLast?_eq_some_iff.1 isLast
    rw [← width]
    rcases List.mem_append.1 member with inInit | isGlyph
    · have wider := (List.pairwise_append.1 isTable.descends).2.2 glyph inInit last (by simp)
      rw [Std.OrientedCmp.lt_of_gt wider]
      rfl
    · rw [List.mem_singleton.1 isGlyph]
      exact Std.ReflCmp.isLE_rfl
  rw [narrowest?, Option.map_eq_some_iff, ← isTable.exists_width_iff]
  constructor
  · rintro ⟨last, isLast, rfl⟩
    exact ⟨⟨last, List.mem_of_getLast? isLast, rfl⟩, minimal isLast⟩
  · rintro ⟨⟨glyph, member, rfl⟩, least⟩
    obtain ⟨last, isLast⟩ := Option.ne_none_iff_exists'.1
      (List.getLast?_eq_none_iff.not.2 (List.ne_nil_of_mem member))
    have below := least _ (isTable.listed last (List.mem_of_getLast? isLast))
    have above := minimal isLast _ (isTable.listed glyph member)
    exact ⟨last, isLast, Std.LawfulEqCmp.eq_of_compare (Std.OrientedCmp.isLE_antisymm above below)⟩

end IsTableOf

variable [Std.TransCmp (Width.order : W → W → Ordering)]

/-- Putting in glyphs one by one ends with the table of all of them. -/
theorem isTableOf_ofSpaces (spaces : List (String × W)) : IsTableOf spaces (ofSpaces spaces) where
  descends := descends_ofSpaces spaces
  listed _ := mem_of_mem_ofSpaces
  covers := by
    suffices ∀ (table : GlyphTable W) (entry : String × W), Covers table entry ∨ entry ∈ spaces →
        Covers (spaces.foldl (fun table entry => insert ⟨entry.2, entry.1⟩ table) table) entry from
      fun entry among => this [] entry (.inr among)
    induction spaces with
    | nil => exact fun _ _ covered => covered.resolve_right List.not_mem_nil
    | cons head rest ih =>
        intro table entry covered
        refine ih _ entry ?_
        rcases covered with inTable | among
        · exact .inl (covers_insert (.inr inTable))
        · rcases List.mem_cons.1 among with rfl | inRest
          · exact .inl (covers_insert (.inl ⟨rfl, le_rfl⟩))
          · exact .inr inRest

end Order

section Sorting

variable {W : Type} [Width W]

/-- How glyphs are sorted: by their widths downwards and, for one width, by their texts. -/
def compareGlyphs : Glyph W → Glyph W → Ordering :=
  compareLex (fun first second => Width.order second.width first.width) (compareOn Glyph.text)

def isBefore (first second : Glyph W) : Bool :=
  (compareGlyphs first second).isLE

/-- The glyphs sorted, with only the first one of each run of which a test says that their widths
are the same. -/
def bySorting (sameWidth : W → W → Bool) (spaces : List (String × W)) : GlyphTable W :=
  ((spaces.map Glyph.ofEntry).mergeSort isBefore).eraseRepsBy fun first second =>
    sameWidth first.width second.width

theorem eraseRepsBy_cons_cons {α : Type} (same : α → α → Bool) (first second : α) (rest : List α) :
    (first :: second :: rest).eraseRepsBy same =
      if same first second then (first :: rest).eraseRepsBy same
      else first :: (second :: rest).eraseRepsBy same := by
  have collected (rest : List α) : ∀ head done, List.eraseRepsBy.loop same head rest done =
      done.reverse ++ (head :: rest).eraseRepsBy same := by
    induction rest with
    | nil => exact fun head done => List.reverse_cons
    | cons next rest ih =>
        intro head done
        rw [List.eraseRepsBy, List.eraseRepsBy.loop, List.eraseRepsBy.loop]
        split
        · rw [ih, ih]
          rfl
        · rw [ih, ih]
          simp
  rw [List.eraseRepsBy, List.eraseRepsBy.loop]
  split
  · next isSame => rw [if_pos isSame, collected]; rfl
  · next notSame => rw [if_neg (by simp [notSame]), collected]; rfl

variable [Std.TransCmp (Width.order : W → W → Ordering)]

instance : Std.TransCmp (compareGlyphs : Glyph W → Glyph W → Ordering) := by
  have widths : Std.TransCmp fun first second : Glyph W =>
      Width.order second.width first.width :=
    { eq_swap := Std.OrientedCmp.eq_swap
      isLE_trans := fun below next => Std.TransCmp.isLE_trans next below }
  exact inferInstanceAs (Std.TransCmp (compareLex _ _))

theorem isBefore_trans (first second third : Glyph W) (before : isBefore first second = true)
    (next : isBefore second third = true) : isBefore first third = true :=
  Std.TransCmp.isLE_trans before next

theorem isBefore_total (first second : Glyph W) :
    (isBefore first second || isBefore second first) = true := by
  rw [Bool.or_eq_true]
  by_cases before : isBefore first second = true
  · exact .inl before
  · exact .inr (Ordering.isLE_of_eq_lt (Std.OrientedCmp.lt_of_not_isLE before))

variable [Std.LawfulEqCmp (Width.order : W → W → Ordering)]

theorem isBefore_iff {first second : Glyph W} :
    isBefore first second = true ↔ Width.order first.width second.width = .gt ∨
      (first.width = second.width ∧ first.text ≤ second.text) := by
  rw [isBefore, compareGlyphs, compareLex, Std.OrientedCmp.gt_iff_lt]
  cases order : Width.order second.width first.width with
  | lt => simp
  | eq =>
      have same : second.width = first.width := Std.LawfulEqCmp.eq_of_compare order
      have texts : (compare first.text second.text).isLE = true ↔ first.text ≤ second.text := by
        rw [Ordering.isLE_iff_ne_gt]
        exact compare_le_iff_le
      simpa [same, compareOn] using texts
  | gt =>
      have different : first.width ≠ second.width :=
        fun same => order_ne_gt_of_eq same.symm order
      simp [different]

/-- In sorted glyphs the first one of each width has the least text, so the table is left when the
others are dropped. -/
theorem isTableOf_eraseRepsBy {same : Glyph W → Glyph W → Bool} {glyphs : List (Glyph W)}
    (sorted : glyphs.Pairwise fun first second => isBefore first second = true)
    (decides : ∀ first ∈ glyphs, ∀ second ∈ glyphs,
      same first second = true ↔ first.width = second.width) :
    IsTableOf (glyphs.map Glyph.entry) (glyphs.eraseRepsBy same) := by
  cases glyphs with
  | nil => exact ⟨.nil, nofun, nofun⟩
  | cons head rest =>
      -- The head is the first glyph of its run, whatever has been dropped behind it.
      induction rest generalizing head with
      | nil =>
          have empty : IsTableOf ([] : List (String × W)) [] := ⟨.nil, nofun, nofun⟩
          exact empty.cons nofun
      | cons next rest ih =>
          obtain ⟨headBefore, restSorted⟩ := List.pairwise_cons.1 sorted
          obtain ⟨nextBefore, -⟩ := List.pairwise_cons.1 restSorted
          have order := isBefore_iff.1 (headBefore next List.mem_cons_self)
          have whether := decides head List.mem_cons_self next (by simp)
          rw [eraseRepsBy_cons_cons]
          split
          · next isSame =>
              have width : head.width = next.width := whether.1 isSame
              have text : head.text ≤ next.text :=
                (order.resolve_left (order_ne_gt_of_eq width)).2
              have kept : (head :: rest).Sublist (head :: next :: rest) :=
                (List.sublist_cons_self next rest).cons_cons head
              exact (ih head (sorted.sublist kept) fun first member second memberNext =>
                decides first (kept.subset member) second (kept.subset memberNext)).skip width text
          · next notSame =>
              have wider : Width.order head.width next.width = .gt :=
                order.resolve_right fun equal => notSame (whether.2 equal.1)
              refine IsTableOf.cons (ih next restSorted fun first member second memberNext =>
                decides first (List.mem_cons_of_mem _ member) second
                  (List.mem_cons_of_mem _ memberNext)) ?_
              rw [List.map_cons, List.forall_mem_cons, List.forall_mem_map]
              refine ⟨wider, fun glyph member => ?_⟩
              rcases isBefore_iff.1 (nextBefore glyph member) with narrower | ⟨equal, -⟩
              · exact Std.TransCmp.gt_trans wider narrower
              · exact (congrArg (Width.order head.width) equal).symm.trans wider

theorem isTableOf_bySorting {sameWidth : W → W → Bool} {spaces : List (String × W)}
    (decides : ∀ entry ∈ spaces, ∀ other ∈ spaces,
      sameWidth entry.2 other.2 = true ↔ entry.2 = other.2) :
    IsTableOf spaces (bySorting sameWidth spaces) := by
  have sorted := List.pairwise_mergeSort isBefore_trans isBefore_total (spaces.map Glyph.ofEntry)
  have permuted := List.mergeSort_perm (spaces.map Glyph.ofEntry) isBefore
  have original : (spaces.map Glyph.ofEntry).map Glyph.entry = spaces := by
    rw [List.map_map]
    exact List.map_id spaces
  have entries := permuted.map Glyph.entry
  rw [original] at entries
  refine (isTableOf_eraseRepsBy sorted fun first member second memberNext => ?_).of_perm entries
  obtain ⟨entry, among, rfl⟩ := List.mem_map.1 (permuted.mem_iff.1 member)
  obtain ⟨other, amongNext, rfl⟩ := List.mem_map.1 (permuted.mem_iff.1 memberNext)
  exact decides entry among other amongNext

end Sorting

/-- A text is the least one, by its bytes, of those that have its width in the metrics. -/
def IsLeastOfWidth (spaces : List (String × Float)) (text : String) (width : Float) : Prop :=
  ∀ entry ∈ spaces, entry.2 = width → Text.bytes text ≤ Text.bytes entry.1

/-- What is promised of the table of some space glyphs. -/
structure Tabulates (spaces : List (String × Float)) (table : GlyphTable Float) : Prop where
  decreasing : table.Pairwise fun glyph next => next.width < glyph.width
  widths : ∀ width, (∃ glyph ∈ table, glyph.width = width) ↔ ∃ entry ∈ spaces, entry.2 = width
  least : ∀ glyph ∈ table,
    (glyph.text, glyph.width) ∈ spaces ∧ IsLeastOfWidth spaces glyph.text glyph.width
  narrowest : ∀ width, table.narrowest? = some width ↔
    (∃ entry ∈ spaces, entry.2 = width) ∧ ∀ entry ∈ spaces, width ≤ entry.2
  widthOf : ∀ text width, table.widthOf? text = some width ↔
    Keyed.find? text spaces = some width ∧ IsLeastOfWidth spaces text width

theorem widthOf?_eq_some_iff_mem {W : Type} [Width W] {spaces : List (String × W)}
    (keyed : (spaces.map Prod.fst).Nodup) {text : String} {width : W} :
    (ofSpaces spaces).widthOf? text = some width ↔ ⟨width, text⟩ ∈ ofSpaces spaces := by
  refine ⟨fun found => ?_, widthOf?_of_mem keyed⟩
  rw [widthOf?, Option.map_eq_some_iff] at found
  obtain ⟨glyph, search, rfl⟩ := found
  obtain rfl : glyph.text = text := by simpa using List.find?_some search
  exact List.mem_of_find?_eq_some search

section Doubles

variable {spaces : List (String × Float)} {table : GlyphTable Float}
  (positive : ∀ entry ∈ spaces, entry.2.isFinite = true ∧ 0 < entry.2)

include positive

theorem tabulates_ofSpaces (keyed : (spaces.map Prod.fst).Nodup) :
    Tabulates spaces (ofSpaces spaces) := by
  have isTable := isTableOf_ofSpaces spaces
  have least {text : String} {width : Float} :
      IsLeastOfWidth spaces text width ↔ ∀ entry ∈ spaces, entry.2 = width → text ≤ entry.1 := by
    simp only [IsLeastOfWidth, Text.bytes_le_bytes_iff]
  have inTable {glyph : Glyph Float} : glyph ∈ ofSpaces spaces ↔
      (glyph.text, glyph.width) ∈ spaces ∧ IsLeastOfWidth spaces glyph.text glyph.width := by
    rw [least]
    exact isTable.mem_iff
  refine ⟨?_, fun _ => isTable.exists_width_iff, fun _ => inTable.1, fun width => ?_,
    fun text width => ?_⟩
  · refine isTable.descends.imp_of_mem fun {glyph next} member memberNext wider => ?_
    obtain ⟨isFinite, above⟩ := positive _ (isTable.listed glyph member)
    obtain ⟨isFiniteNext, aboveNext⟩ := positive _ (isTable.listed next memberNext)
    exact (Width.lt_iff_order isFiniteNext aboveNext isFinite above).2
      (Std.OrientedCmp.lt_of_gt wider)
  · rw [isTable.narrowest?_eq_some_iff]
    refine and_congr_right ?_
    rintro ⟨entry, among, rfl⟩
    obtain ⟨isFinite, above⟩ := positive entry among
    refine forall₂_congr fun other amongOther => ?_
    obtain ⟨isFiniteOther, aboveOther⟩ := positive other amongOther
    exact (Width.le_iff_order isFinite above isFiniteOther aboveOther).symm
  · rw [widthOf?_eq_some_iff_mem keyed, inTable, Keyed.find?_eq_some_iff keyed]

theorem bySorting_eq_ofSpaces :
    bySorting (fun first second => second == first) spaces = ofSpaces spaces := by
  refine IsTableOf.unique (isTableOf_bySorting fun entry among other amongOther => ?_)
    (isTableOf_ofSpaces spaces)
  obtain ⟨isFinite, above⟩ := positive entry among
  obtain ⟨isFiniteOther, aboveOther⟩ := positive other amongOther
  rw [Width.beq_iff_eq_of_pos isFiniteOther aboveOther isFinite above, eq_comm]

end Doubles

/-- The table of metrics does not depend on the order in which their space glyphs are listed, and
it is the one that is left when they are sorted and repeated widths are dropped. -/
theorem ofSpaces_tabulates {metrics : Metrics Float} {listing : List (String × Float)}
    (keyed : (metrics.spaces.map Prod.fst).Nodup)
    (positive : ∀ entry ∈ metrics.spaces, entry.2.isFinite = true ∧ 0 < entry.2)
    (listed : listing.Perm metrics.spaces) :
    ofSpaces listing = ofSpaces metrics.spaces ∧
      bySorting (fun first second => second == first) listing = ofSpaces metrics.spaces ∧
      Tabulates metrics.spaces (ofSpaces metrics.spaces) := by
  have same : ofSpaces listing = ofSpaces metrics.spaces :=
    ((isTableOf_ofSpaces listing).of_perm listed).unique (isTableOf_ofSpaces metrics.spaces)
  have listedPositive : ∀ entry ∈ listing, entry.2.isFinite = true ∧ 0 < entry.2 :=
    fun entry member => positive entry (listed.mem_iff.1 member)
  exact ⟨same, (bySorting_eq_ofSpaces listedPositive).trans same, tabulates_ofSpaces positive keyed⟩

/-- Metrics with two glyphs of one width. -/
def tiedMetrics : Metrics Float :=
  ⟨[], [("\u2003", 100.0), ("\u2005", 20.0), ("\u2009", 20.0)]⟩

/-- Of the two glyphs the one with the lesser bytes stays, also if it is listed last. -/
theorem tiedMetrics_tabulates :
    (tiedMetrics.spaces.map Prod.fst).Nodup ∧
      (∀ entry ∈ tiedMetrics.spaces, entry.2.isFinite = true ∧ 0 < entry.2) ∧
      tiedMetrics.spaces.reverse.Perm tiedMetrics.spaces ∧
      ofSpaces tiedMetrics.spaces.reverse = [⟨100.0, "\u2003"⟩, ⟨20.0, "\u2005"⟩] ∧
      ofSpaces tiedMetrics.spaces.reverse = ofSpaces tiedMetrics.spaces ∧
      bySorting (fun first second => second == first) tiedMetrics.spaces.reverse =
        ofSpaces tiedMetrics.spaces ∧
      Tabulates tiedMetrics.spaces (ofSpaces tiedMetrics.spaces) := by
  have keyed : (tiedMetrics.spaces.map Prod.fst).Nodup := by decide +kernel
  have positive : ∀ entry ∈ tiedMetrics.spaces, entry.2.isFinite = true ∧ 0 < entry.2 := by
    decide +kernel
  have listed := List.reverse_perm tiedMetrics.spaces
  exact ⟨keyed, positive, listed, by decide +kernel, ofSpaces_tabulates keyed positive listed⟩

end GlyphTable

end MessageBlocks
