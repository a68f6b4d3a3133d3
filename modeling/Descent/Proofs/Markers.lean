import Mathlib.Data.List.Chain
import Descent.Template

/-!
# What templates render to

The markers of a text are found from left to right: a place that opens a marker goes with the next
place that closes one (`Template.Pairs`).  A text has its pairs in one way only (`Pairs.unique`).

* A template is cut at the pairs of its text (`Pairs.pieces_eq`, `exists_pairs`).
* Its segments have no empty text, and no text next to another (`IsNormal`, `isNormal_segmentsOf`).
* Rendering puts values where the pairs name slots, and leaves the rest of the text as it is,
  whatever the values are (`render_read`, `fills_fillMarker`).  A pair is reported if no slot has
  the name that it holds (`problems_read`).
* A template is rendered from left to right, text without markers as it is
  (`render_read_append`, `render_read_marker_append`).
-/

namespace Descent

theorem Slot.mem_all (s : Slot) :
  s ∈ all
  := by cases s <;> decide

theorem Slot.ofName?_eq_some_iff {name : String} {s : Slot} :
  Slot.ofName? name = some s ↔ s.name = name
  := by
  constructor
  · intro h
    simpa using List.find?_some h
  · rintro rfl
    cases s <;> decide +kernel

namespace Template

/-! ### The first place of a mark -/

/-- Where a mark stands for the first time in a text. -/
structure IsFirst (mark cs before after : List Char) : Prop where
  eq : cs = before ++ mark ++ after
  le : ∀ u v, cs = u ++ mark ++ v → before.length ≤ u.length

theorem IsFirst.unique {mark cs before after before' after' : List Char}
    (h : IsFirst mark cs before after) (h' : IsFirst mark cs before' after') :
  before = before' ∧ after = after'
  := by
  have hlength := Nat.le_antisymm (h.le _ _ h'.eq) (h'.le _ _ h.eq)
  have heq := h.eq.symm.trans h'.eq
  rw [List.append_assoc, List.append_assoc] at heq
  obtain ⟨hbefore, hrest⟩ := List.append_inj heq hlength
  exact ⟨hbefore, List.append_cancel_left hrest⟩

theorem IsFirst.isInfix {mark cs before after : List Char} (h : IsFirst mark cs before after) :
  mark <:+: cs
  := ⟨before, after, h.eq.symm⟩

section

variable {c : Char} {mark before cs : List Char}

/-- A mark does not begin in a text that does not have its first character. -/
theorem exists_of_append_eq {u v : List Char} (h : c ∉ before)
    (heq : before ++ cs = u ++ c :: mark ++ v) :
  ∃ w, u = before ++ w ∧ cs = w ++ c :: mark ++ v
  := by
  rw [List.append_assoc, List.append_eq_append_iff] at heq
  obtain ⟨w, hu, hcs⟩ | ⟨w, hbefore, hw⟩ := heq
  · exact ⟨w, hu, by rw [hcs, List.append_assoc]⟩
  · cases w with
    | nil => exact ⟨[], by simpa using hbefore.symm, by simpa using hw.symm⟩
    | cons d w =>
      obtain ⟨rfl, -⟩ := List.cons.inj hw
      rw [hbefore] at h
      exact absurd (List.mem_append_right u List.mem_cons_self) h

theorem isFirst_nil (mark after : List Char) :
  IsFirst mark (mark ++ after) [] after
  := ⟨rfl, fun _ _ _ => Nat.zero_le _⟩

theorem IsFirst.append {u v : List Char} (hc : c ∉ before) (h : IsFirst (c :: mark) cs u v) :
  IsFirst (c :: mark) (before ++ cs) (before ++ u) v
  := by
  constructor
  · rw [h.eq]
    simp only [List.append_assoc]
  · intro u' v' heq
    obtain ⟨w, rfl, hcs⟩ := exists_of_append_eq hc heq
    rw [List.length_append, List.length_append]
    exact Nat.add_le_add_left (h.le w v' hcs) _

theorem not_infix_append (hc : c ∉ before) (h : ¬ c :: mark <:+: cs) :
  ¬ c :: mark <:+: before ++ cs
  := by
  rintro ⟨u, v, heq⟩
  obtain ⟨w, -, hcs⟩ := exists_of_append_eq hc heq.symm
  exact h ⟨w, v, hcs.symm⟩

end

section

variable {first second : Char} {cs before after : List Char}

theorem isFirst_of_breakAt (h : breakAt first second cs = some (before, after)) :
  IsFirst [first, second] cs before after
  := by
  induction cs generalizing before with
  | nil => simp [breakAt] at h
  | cons c cs ih =>
    unfold breakAt at h
    split at h
    case isTrue hc =>
      obtain ⟨rfl, hsecond⟩ := hc
      obtain ⟨rfl, rfl⟩ := Prod.mk.inj (Option.some.inj h)
      constructor
      · rw [List.nil_append, List.cons_append, List.singleton_append,
          List.cons_head?_tail hsecond]
      · exact fun _ _ _ => Nat.zero_le _
    case isFalse hc =>
      obtain ⟨⟨b, a⟩, hb, he⟩ := Option.map_eq_some_iff.1 h
      obtain ⟨rfl, rfl⟩ := Prod.mk.inj he
      have ih := ih hb
      constructor
      · rw [ih.eq]
        rfl
      · intro u v huv
        cases u with
        | nil =>
          obtain ⟨rfl, rfl⟩ := List.cons.inj huv
          exact absurd ⟨rfl, rfl⟩ hc
        | cons d u => exact Nat.succ_le_succ (ih.le u v (List.cons.inj huv).2)

theorem breakAt_append (u v : List Char) :
  breakAt first second (u ++ [first, second] ++ v) ≠ none
  := by
  induction u with
  | nil => simp [breakAt]
  | cons c u ih =>
    rw [List.cons_append, List.cons_append, breakAt]
    split
    · exact Option.some_ne_none _
    · exact mt Option.map_eq_none_iff.1 ih

theorem breakAt_eq_none_iff :
  breakAt first second cs = none ↔ ¬ [first, second] <:+: cs
  := by
  constructor
  · rintro h ⟨u, v, rfl⟩
    exact breakAt_append u v h
  · intro h
    match hcs : breakAt first second cs with
    | none => rfl
    | some (_, _) => exact absurd (isFirst_of_breakAt hcs).isInfix h

/-- Texts are cut where the mark stands for the first time. -/
theorem breakAt_eq_some_iff :
  breakAt first second cs = some (before, after) ↔ IsFirst [first, second] cs before after
  := by
  constructor
  · exact isFirst_of_breakAt
  · intro h
    match hcs : breakAt first second cs with
    | none => exact absurd h.isInfix (breakAt_eq_none_iff.1 hcs)
    | some (_, _) =>
      obtain ⟨rfl, rfl⟩ := h.unique (isFirst_of_breakAt hcs)
      rfl

end

/-! ### Pairs -/

/-- The places that open a marker, each with the next place that closes one, from left to right.  A
pair has the text before it, up to the pair before, and the content between its places; behind the
last pair there is the rest of the text. -/
inductive Pairs : List Char → List (List Char × List Char) → List Char → Prop where
  | unopened {cs : List Char} : ¬ ['<', '%'] <:+: cs → Pairs cs [] cs
  | unclosed {cs before after : List Char} :
    IsFirst ['<', '%'] cs before after → ¬ ['%', '>'] <:+: after → Pairs cs [] cs
  | pair {cs before after content rest last : List Char} {ps : List (List Char × List Char)} :
    IsFirst ['<', '%'] cs before after → IsFirst ['%', '>'] after content rest →
      Pairs rest ps last → Pairs cs ((before, content) :: ps) last

/-- The pieces that a pair makes. -/
def piecesOfPair (p : List Char × List Char) : List Piece := [.text p.1, .marker p.2]

section

variable {cs last : List Char} {ps : List (List Char × List Char)}

/-- A text is cut at its pairs. -/
theorem Pairs.pieces_eq (h : Pairs cs ps last) :
  pieces cs = ps.flatMap piecesOfPair ++ [.text last]
  := by
  induction h with
  | unopened hopen =>
    unfold pieces
    rw [breakAt_eq_none_iff.2 hopen]
    rfl
  | unclosed hopen hclose =>
    unfold pieces
    rw [breakAt_eq_some_iff.2 hopen]
    dsimp only
    rw [breakAt_eq_none_iff.2 hclose]
    rfl
  | pair hopen hclose _ ih =>
    unfold pieces
    rw [breakAt_eq_some_iff.2 hopen]
    dsimp only
    rw [breakAt_eq_some_iff.2 hclose]
    dsimp only
    rw [ih]
    rfl

theorem exists_pairs (cs : List Char) :
  ∃ ps last, Pairs cs ps last
  := by
  fun_induction pieces cs with
  | case1 cs hopen => exact ⟨[], cs, .unopened (breakAt_eq_none_iff.1 hopen)⟩
  | case2 cs before after hopen hclose =>
    exact ⟨[], cs, .unclosed (breakAt_eq_some_iff.1 hopen) (breakAt_eq_none_iff.1 hclose)⟩
  | case3 cs before after hopen content rest hclose ih =>
    obtain ⟨ps, last, h⟩ := ih
    exact ⟨(before, content) :: ps, last,
      .pair (breakAt_eq_some_iff.1 hopen) (breakAt_eq_some_iff.1 hclose) h⟩

theorem Pairs.unique {ps' : List (List Char × List Char)} {last' : List Char}
    (h : Pairs cs ps last) (h' : Pairs cs ps' last') :
  ps = ps' ∧ last = last'
  := by
  induction h generalizing ps' with
  | unopened hopen =>
    cases h' with
    | unopened => exact ⟨rfl, rfl⟩
    | unclosed => exact ⟨rfl, rfl⟩
    | pair hopen' => exact absurd hopen'.isInfix hopen
  | unclosed hopen hclose =>
    cases h' with
    | unopened => exact ⟨rfl, rfl⟩
    | unclosed => exact ⟨rfl, rfl⟩
    | pair hopen' hclose' =>
      obtain ⟨rfl, rfl⟩ := hopen.unique hopen'
      exact absurd hclose'.isInfix hclose
  | pair hopen hclose _ ih =>
    cases h' with
    | unopened hopen' => exact absurd hopen.isInfix hopen'
    | unclosed hopen' hclose' =>
      obtain ⟨rfl, rfl⟩ := hopen.unique hopen'
      exact absurd hclose.isInfix hclose'
    | pair hopen' hclose' h' =>
      obtain ⟨rfl, rfl⟩ := hopen.unique hopen'
      obtain ⟨rfl, rfl⟩ := hclose.unique hclose'
      obtain ⟨rfl, rfl⟩ := ih h'
      exact ⟨rfl, rfl⟩

/-- The text of a pair. -/
def textOfPair (p : List Char × List Char) : List Char := p.1 ++ ['<', '%'] ++ p.2 ++ ['%', '>']

/-- The pairs of a text and its rest make it up. -/
theorem Pairs.text_eq (h : Pairs cs ps last) :
  cs = ps.flatMap textOfPair ++ last
  := by
  induction h with
  | unopened => rfl
  | unclosed => rfl
  | pair hopen hclose _ ih =>
    rw [hopen.eq, hclose.eq, ih, List.flatMap_cons]
    simp only [textOfPair, List.append_assoc]

end

/-! ### Normal form -/

/-- Whether a segment is text. -/
def isText : Segment → Bool
  | .text _ => true
  | .slot _ => false

/-- No text is empty, and none stands next to another. -/
structure IsNormal (segments : List Segment) : Prop where
  ne_empty : ∀ s, .text s ∈ segments → s ≠ ""
  separated : segments.IsChain fun a b => ¬ (isText a ∧ isText b)

theorem IsNormal.nil : IsNormal [] := ⟨by simp, .nil⟩

theorem IsNormal.slot {segments : List Segment} (h : IsNormal segments) (s : Slot) :
  IsNormal (.slot s :: segments)
  := by
  constructor
  · intro t ht
    obtain ht | ht := List.mem_cons.1 ht
    · cases ht
    · exact h.ne_empty t ht
  · rw [List.isChain_cons]
    exact ⟨fun _ _ ha => Bool.false_ne_true ha.1, h.separated⟩

theorem IsNormal.addText {segments : List Segment} (h : IsNormal segments) (s : String) :
  IsNormal (addText s segments)
  := by
  fun_cases Template.addText s segments with
  | case1 t rest =>
    constructor
    · intro u hu
      obtain hu | hu := List.mem_cons.1 hu
      · have ht := h.ne_empty t List.mem_cons_self
        obtain rfl := Segment.text.inj hu
        exact fun hempty => ht (String.append_eq_empty_iff.1 hempty).2
      · exact h.ne_empty u (List.mem_cons_of_mem _ hu)
    · have hseparated := h.separated
      rw [List.isChain_cons] at hseparated ⊢
      exact hseparated
  | case2 => exact h
  | case3 _ hrest hs =>
    constructor
    · intro u hu
      obtain hu | hu := List.mem_cons.1 hu
      · obtain rfl := Segment.text.inj hu
        simpa using hs
      · exact h.ne_empty u hu
    · rw [List.isChain_cons]
      refine ⟨?_, h.separated⟩
      rintro (t | t) ht ⟨-, hb⟩
      · obtain ⟨rest, rfl⟩ := List.head?_eq_some_iff.1 ht
        exact hrest t rest rfl
      · exact Bool.false_ne_true hb

/-- Pieces make segments in normal form. -/
theorem isNormal_segmentsOf (ps : List Piece) :
  IsNormal (segmentsOf ps)
  := by
  induction ps with
  | nil => exact IsNormal.nil
  | cons p ps ih =>
    cases p with
    | text cs => exact ih.addText _
    | marker content =>
      unfold segmentsOf
      dsimp only
      split
      · exact ih.slot _
      · exact ih.addText _

/-! ### Names of slots -/

/-- No slot has the name that a pair holds. -/
def IsUnknown (content : List Char) : Prop := ∀ s : Slot, s.name ≠ String.ofList content

instance (content : List Char) : Decidable (IsUnknown content) :=
  decidable_of_iff (∀ s ∈ Slot.all, s.name ≠ String.ofList content)
    ⟨fun h s => h s s.mem_all, fun h s _ => h s⟩

theorem isUnknown_iff {content : List Char} :
  IsUnknown content ↔ Slot.ofName? (String.ofList content) = none
  := by
  rw [Option.eq_none_iff_forall_ne_some]
  apply forall_congr'
  intro s
  rw [ne_eq, ne_eq, Slot.ofName?_eq_some_iff]

/-- What a pair comes to: the value of the slot whose name it holds, or the pair itself if no slot
has that name. -/
inductive Fills (value : Slot → String) (content : List Char) : String → Prop
  | slot {s : Slot} (h : s.name = String.ofList content) : Fills value content (value s)
  | unknown (h : IsUnknown content) : Fills value content (marker (String.ofList content))

/-! ### Rendering -/

/-- What is put in the place of a pair with a given content. -/
def fillMarker (value : Slot → String) (content : List Char) : String :=
  match Slot.ofName? (String.ofList content) with
  | some s => value s
  | none => marker (String.ofList content)

theorem fills_fillMarker (value : Slot → String) (content : List Char) :
  Fills value content (fillMarker value content)
  := by
  unfold fillMarker
  split
  case h_1 s hs => apply Fills.slot (Slot.ofName?_eq_some_iff.mp hs)
  case h_2 hnone => apply Fills.unknown (isUnknown_iff.mpr hnone)

/-- What a piece renders to. -/
def Piece.fill (value : Slot → String) : Piece → String
  | .text cs => String.ofList cs
  | .marker content => fillMarker value content

section

variable (value : Slot → String)

theorem join_fill_addText (s : String) (segments : List Segment) :
  String.join ((addText s segments).map (Segment.fill value))
    = s ++ String.join (segments.map (Segment.fill value))
  := by
  fun_cases addText s segments with
  | case1 t rest =>
    rw [List.map_cons, List.map_cons, String.join_cons, String.join_cons, ← String.append_assoc]
    rfl
  | case2 _ _ hs =>
    rw [String.isEmpty_iff.1 hs, String.empty_append]
  | case3 =>
    rw [List.map_cons, String.join_cons]
    rfl

/-- Joining texts that stand next to each other does not change what is rendered. -/
theorem join_fill_segmentsOf (ps : List Piece) :
  String.join ((segmentsOf ps).map (Segment.fill value))
    = String.join (ps.map (Piece.fill value))
  := by
  induction ps with
  | nil => rfl
  | cons p ps ih =>
    rw [List.map_cons, String.join_cons, ← ih]
    cases p with
    | text cs => exact join_fill_addText value _ _
    | marker content =>
      rw [segmentsOf, Piece.fill, fillMarker]
      cases Slot.ofName? (String.ofList content) with
      | some s => exact String.join_cons
      | none => exact join_fill_addText value _ _

variable {name text : String} {ps : List (List Char × List Char)} {last : List Char}

/-- A template renders to its text, with the values in place of the pairs that name slots. -/
theorem render_read (h : Pairs text.toList ps last) :
  (read name text).1.render value
    = String.join (ps.map fun p => String.ofList p.1 ++ fillMarker value p.2) ++ String.ofList last
  := by
  unfold read render
  dsimp only
  rw [join_fill_segmentsOf, h.pieces_eq]
  clear h
  induction ps with
  | nil =>
    rw [List.map_nil, String.join_nil, String.empty_append]
    exact String.join_cons.trans String.append_empty
  | cons p ps ih =>
    rw [List.flatMap_cons, List.append_assoc, List.map_append, String.join_append, ih,
      List.map_cons, String.join_cons, String.append_assoc]
    simp [piecesOfPair, Piece.fill]

/-- With the slots filled by their own markers, pairs render to themselves. -/
theorem fillMarker_marker (content : List Char) :
  fillMarker Slot.marker content = marker (String.ofList content)
  := by
  unfold fillMarker
  split
  case h_1 s hs =>
    rw [← Slot.ofName?_eq_some_iff.1 hs]
    rfl
  case h_2 => rfl

theorem toList_marker (p : List Char × List Char) :
  (String.ofList p.1 ++ marker (String.ofList p.2)).toList = textOfPair p
  := by
  simp [marker, textOfPair]

theorem render_read_marker (h : Pairs text.toList ps last) :
  (read name text).1.render Slot.marker = text
  := by
  rw [render_read Slot.marker h]
  apply String.toList_inj.1
  rw [String.toList_append, String.toList_join, String.toList_ofList, List.flatMap_map, h.text_eq]
  simp only [fillMarker_marker, toList_marker]

/-! ### Problems -/

/-- What is reported about a pair that names no slot. -/
def unknown (name : String) (content : List Char) : Diagnostic :=
  (Problem.unknownMarker (String.ofList content) name).unlocated

/-- The pairs that name no slot are reported, and nothing else is. -/
theorem problems_read (h : Pairs text.toList ps last) :
  (read name text).2 = ((ps.map Prod.snd).filter (IsUnknown ·)).map (unknown name)
  := by
  unfold read
  dsimp only
  rw [h.pieces_eq, List.filterMap_append]
  apply (List.append_nil _).trans
  clear h
  induction ps with
  | nil => rfl
  | cons p ps ih =>
    rw [List.flatMap_cons, List.filterMap_append, ih, List.map_cons, List.filter_cons]
    cases hp : Slot.ofName? (String.ofList p.2) <;>
      simp [piecesOfPair, Piece.problem?, isUnknown_iff, hp, unknown]

end

section

variable (value : Slot → String) (name rest : String)

/-- Text with no sign that opens a marker is rendered as it is. -/
theorem render_read_append {before : String} (h : '<' ∉ before.toList) :
  (read name (before ++ rest)).1.render value = before ++ (read name rest).1.render value
  := by
  obtain ⟨ps, last, hrest⟩ := exists_pairs rest.toList
  rw [render_read value hrest]
  cases hrest with
  | unopened hopen =>
    rw [render_read value (.unopened (String.toList_append ▸ not_infix_append h hopen))]
    simp
  | unclosed hopen hclose =>
    rw [render_read value (.unclosed (String.toList_append ▸ hopen.append h) hclose)]
    simp
  | pair hopen hclose hs =>
    rw [render_read value (.pair (String.toList_append ▸ hopen.append h) hclose hs)]
    simp [String.append_assoc]

/-- The marker of a slot is rendered to the value of the slot. -/
theorem render_read_marker_append (s : Slot) :
  (read name (s.marker ++ rest)).1.render value = value s ++ (read name rest).1.render value
  := by
  have hname : '%' ∉ s.name.toList := by cases s <;> decide +kernel
  have htext : (s.marker ++ rest).toList =
      ['<', '%'] ++ (s.name.toList ++ (['%', '>'] ++ rest.toList)) := by
    simp [Slot.marker, marker]
  have hfill : fillMarker value s.name.toList = value s := by
    rw [fillMarker, String.ofList_toList, Slot.ofName?_eq_some_iff.mpr rfl]
  obtain ⟨ps, last, hrest⟩ := exists_pairs rest.toList
  have hclose := (isFirst_nil ['%', '>'] rest.toList).append hname
  rw [List.append_nil] at hclose
  have hpairs : Pairs (s.marker ++ rest).toList (([], s.name.toList) :: ps) last :=
    htext ▸ .pair (isFirst_nil _ _) hclose hrest
  rw [render_read value hpairs, render_read value hrest, List.map_cons, String.join_cons, hfill,
    String.append_assoc]
  simp

end

/-- Reading a template gives segments in normal form, and the template renders to its text when the
slots are filled by their markers.  Whatever the values are, what is rendered are its texts and the
values of its slots, in their order; and those are the text between the pairs, and for each pair
the value of the slot whose name it holds, or the pair itself.  As many unknown markers are reported
as there are pairs that hold the name of no slot. -/
theorem read_exact (name text : String) :
  IsNormal (read name text).1.segments ∧
  (read name text).1.render Slot.marker = text ∧
  ∃ (ps : List (List Char × List Char)) (last : List Char),
    Pairs text.toList ps last ∧
    (∀ value : Slot → String,
      (read name text).1.render value
        = String.join ((read name text).1.segments.map (Segment.fill value)) ∧
      ∃ fill : List Char → String, (∀ content, Fills value content (fill content)) ∧
        (read name text).1.render value
          = String.join (ps.map fun p => String.ofList p.1 ++ fill p.2) ++ String.ofList last) ∧
    (read name text).2 = ((ps.map Prod.snd).filter (IsUnknown ·)).map (unknown name) ∧
    (read name text).2.countP (·.code = 0x1065) = ps.countP (IsUnknown ·.2)
  := by
  obtain ⟨ps, last, h⟩ := exists_pairs text.toList
  refine ⟨isNormal_segmentsOf _, render_read_marker h, ps, last, h,
    fun value => ⟨rfl, fillMarker value, fills_fillMarker value, render_read value h⟩,
    problems_read h, ?_⟩
  rw [problems_read h, List.countP_map, List.countP_eq_length.2, ← List.countP_eq_length_filter,
    List.countP_map]
  · rfl
  · exact fun _ _ => by simp [unknown, Problem.unlocated, Diagnostic.unlocated, Diagnostic.located,
      Problem.code]

/-- Values are not searched for markers. -/
example :
  (read "" "[<%Namespace%>|<%Other%>]").1.render (fun _ => "<%IParser%>")
    = "[<%IParser%>|<%Other%>]"
  := by decide +kernel

end Template

end Descent
