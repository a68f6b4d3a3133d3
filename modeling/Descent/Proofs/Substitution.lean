import Mathlib.Tactic.Common
import Descent.ActionCode
import Descent.Proofs.Position

/-!
# Substituting references in their places

The references of an action code are told with the bytes that they take.  A code can be cut at these
bytes (`splitAtByte?`), and what lies between is what was read there.

* The pieces of a code are read as far as they go: a reference ends where it cannot be longer, and a
  dollar sign that is left alone has no name behind it (`ActionCode.isRead_of_pieces`).
* A reference takes the bytes of its text, behind those of the pieces before it
  (`ActionCode.mem_occurrences_iff`), so that references are in order and do not overlap.
* Copying what lies between the references, and putting something in the place of each, is what
  substituting does (`ActionCode.replace?_occurrences`, `ActionCode.references_and_substitute`).
-/

namespace Descent

/-! ### Cutting a text at bytes -/

/-- A text cut in two at a byte, unless this byte is inside of a character or the text has fewer. -/
def splitAtByte? : Nat → List Char → Option (List Char × List Char)
  | n, [] => if n = 0 then some ([], []) else none
  | n, c :: cs =>
    if n = 0 then some ([], c :: cs)
    else if n < c.utf8Size then none
    else (splitAtByte? (n - c.utf8Size) cs).map fun p => (c :: p.1, p.2)

/-- The stretch of a text from one byte to another, if the text can be cut at both. -/
def slice? (cs : List Char) (start stop : Nat) : Option (List Char) :=
  if start ≤ stop then do
    let (_, rest) ← splitAtByte? start cs
    let (inner, _) ← splitAtByte? (stop - start) rest
    return inner
  else none

/-- A text can be cut between characters, and only there. -/
theorem splitAtByte?_eq_some_iff {n : Nat} {cs u v : List Char} :
  splitAtByte? n cs = some (u, v) ↔ cs = u ++ v ∧ byteLength u = n
  := by
  induction cs generalizing n u with
  | nil =>
    rw [splitAtByte?]
    by_cases hn : n = 0
    · simp only [hn, if_true, Option.some_inj, Prod.mk.injEq, byteLength_eq_zero_iff]
      grind
    · simp only [hn, if_false, reduceCtorEq, false_iff, not_and]
      intro h
      rw [(List.append_eq_nil_iff.mp h.symm).1]
      exact Ne.symm hn
  | cons c cs ih =>
    have hpos := c.utf8Size_pos
    rw [splitAtByte?]
    cases u with
    | nil =>
      split
      case isTrue hn => simp [hn, eq_comm]
      case isFalse hn =>
        have hne : ¬ byteLength [] = n := Ne.symm hn
        simp only [hne, and_false, iff_false]
        split
        · simp
        · simp
    | cons d u =>
      rw [byteLength_cons, List.cons_append, List.cons.injEq]
      split
      case isTrue hn =>
        simp only [Option.some_inj, Prod.mk.injEq, reduceCtorEq, false_and, false_iff, not_and]
        rintro ⟨rfl, -⟩
        omega
      case isFalse hn =>
        split
        case isTrue hlt =>
          simp only [reduceCtorEq, false_iff, not_and]
          rintro ⟨rfl, -⟩
          omega
        case isFalse hlt =>
          simp only [Option.map_eq_some_iff, Prod.mk.injEq, List.cons.injEq, Prod.exists]
          constructor
          · rintro ⟨u', v', h, ⟨rfl, rfl⟩, rfl⟩
            obtain ⟨rfl, hlength⟩ := ih.mp h
            exact ⟨⟨rfl, rfl⟩, by omega⟩
          · rintro ⟨⟨rfl, rfl⟩, hlength⟩
            exact ⟨u, v, ih.mpr ⟨rfl, by omega⟩, ⟨rfl, rfl⟩, rfl⟩

/-- A slice of a text is a stretch of whole characters. -/
theorem slice?_eq_some_iff {cs v : List Char} {start stop : Nat} :
  slice? cs start stop = some v ↔
    ∃ u w, cs = u ++ v ++ w ∧ byteLength u = start ∧ start + byteLength v = stop
  := by
  unfold slice?
  split
  case isFalse hle =>
    simp only [reduceCtorEq, false_iff, not_exists, not_and]
    rintro u w - - rfl
    omega
  case isTrue hle =>
    simp only [bind, pure, Option.bind_eq_some_iff, Prod.exists, splitAtByte?_eq_some_iff,
      Option.some_inj]
    constructor
    · rintro ⟨u, _, ⟨rfl, hu⟩, v', w, ⟨rfl, hv⟩, rfl⟩
      exact ⟨u, w, by rw [List.append_assoc], hu, by omega⟩
    · rintro ⟨u, w, rfl, hu, hv⟩
      exact ⟨u, v ++ w, ⟨by rw [List.append_assoc], hu⟩, v, w, ⟨rfl, by omega⟩, rfl⟩

namespace ActionCode

/-! ### How pieces are read -/

/-- A reference is read as far as it goes when `rest` comes behind it: its name is not empty, and its
index neither is empty nor has a closing bracket. -/
structure Reference.IsRead (r : Reference) (rest : List Char) : Prop where
  name_ne_nil : r.name ≠ []
  name : ∀ c ∈ r.name, isNameChar c
  index : ∀ i ∈ r.index, i ≠ [] ∧ ']' ∉ i
  /-- Without an index, neither the name goes on nor an index comes next. -/
  longest : r.index = none → (∀ c ∈ rest.head?, ¬ isNameChar c) ∧
    ∀ i v, rest = '[' :: i ++ ']' :: v → ']' ∉ i → i = []

/-- A piece is read as far as it goes when `rest` comes behind it: a dollar sign alone has no name
behind it. -/
def Piece.IsRead (rest : List Char) : Piece → Prop
  | char c => c = '$' → ∀ d ∈ rest.head?, ¬ isNameChar d
  | reference r => r.IsRead rest

/-- An index in brackets is read up to the first closing bracket, if it is not empty. -/
theorem readIndex_eq_some_iff {cs i : List Char} :
  readIndex cs = some i ↔ i ≠ [] ∧ ']' ∉ i ∧ ∃ v, cs = '[' :: i ++ ']' :: v
  := by
  constructor
  · intro h
    obtain ⟨v, hv⟩ := indexText_readIndex cs
    rw [h, indexText] at hv
    refine ⟨?_, ?_, v, by rw [hv]; simp⟩
    all_goals
      unfold readIndex at h
      split at h
      case h_2 => cases h
    · next ds =>
      dsimp only at h
      split at h
      case isTrue => cases h
      case isFalse hne =>
        cases h
        simp only [Bool.or_eq_true, List.isEmpty_iff, not_or] at hne
        exact hne.1
    · next ds =>
      dsimp only at h
      split at h
      case isTrue => cases h
      case isFalse =>
        cases h
        intro hmem
        simpa using List.mem_takeWhile_imp hmem
  · rintro ⟨hne, hnot, v, rfl⟩
    have htake : (i ++ ']' :: v).takeWhile (· ≠ ']') = i := by
      rw [List.takeWhile_append_of_pos]
      · simp
      · intro c hc
        simpa using ne_of_mem_of_not_mem hc hnot
    rw [List.cons_append, readIndex, htake, if_neg (by simp [hne])]

theorem isRead_of_readReference {cs : List Char} {r : Reference} (h : readReference cs = some r)
    {rest : List Char} (hrest : cs = r.name ++ indexText r.index ++ rest) :
  r.IsRead rest
  := by
  unfold readReference at h
  dsimp only at h
  simp only [Option.ite_none_left_eq_some, Option.some_inj, List.isEmpty_iff] at h
  obtain ⟨hne, rfl⟩ := h
  dsimp only at hrest
  have hdrop : cs.drop (cs.takeWhile isNameChar).length =
      indexText (readIndex (cs.drop (cs.takeWhile isNameChar).length)) ++ rest := by
    rw [List.append_assoc] at hrest
    exact List.append_cancel_left ((takeWhile_append_drop isNameChar cs).trans hrest)
  constructor
  case name_ne_nil => exact hne
  case name => exact fun c => List.mem_takeWhile_imp
  case index =>
    intro i hi
    obtain ⟨hne, hnot, -⟩ := readIndex_eq_some_iff.mp hi
    exact ⟨hne, hnot⟩
  case longest =>
    intro hnone
    dsimp only at hnone
    rw [hnone, indexText, List.nil_append] at hdrop
    constructor
    · intro c hc
      obtain ⟨tail, htail⟩ := List.head?_eq_some_iff.mp hc
      rw [htail] at hdrop
      simp [head_drop_takeWhile hdrop]
    · intro i v hv hnot
      by_contra hi
      have hsome := readIndex_eq_some_iff.mpr ⟨hi, hnot, v, hdrop.trans hv⟩
      rw [hnone] at hsome
      cases hsome

theorem isRead_readPiece {c : Char} {cs rest : List Char}
    (h : c :: cs = (readPiece c cs).text ++ rest) :
  (readPiece c cs).IsRead rest
  := by
  unfold readPiece at h ⊢
  split at h
  case isFalse hc =>
    rw [if_neg hc]
    exact fun heq => absurd heq hc
  case isTrue hc =>
    rw [if_pos hc]
    subst hc
    split at h
    case h_1 r hr =>
      rw [Piece.text, Reference.text, List.cons_append, List.cons_append, List.cons.injEq] at h
      exact isRead_of_readReference hr h.2
    case h_2 hr =>
      intro _ d hd
      rw [Piece.text, List.singleton_append, List.cons.injEq] at h
      obtain ⟨tail, htail⟩ := List.head?_eq_some_iff.mp hd
      rw [h.2, htail] at hr
      intro hname
      simp [readReference, hname] at hr

/-- Every piece of a code is read as far as it goes. -/
theorem isRead_of_pieces (cs : List Char) : ∀ (before after : List Piece) (p : Piece),
    pieces cs = before ++ p :: after →
  p.IsRead (after.flatMap Piece.text)
  := by
  fun_induction pieces cs with
  | case1 =>
    intro before after p h
    simp at h
  | case2 c cs first ih =>
    intro before after p h
    cases before with
    | cons q before =>
      rw [List.cons_append, List.cons.injEq] at h
      exact ih _ _ _ h.2
    | nil =>
      rw [List.nil_append, List.cons.injEq] at h
      obtain ⟨rfl, rfl⟩ := h
      apply isRead_readPiece
      have htext := flatMap_text_pieces (c :: cs)
      rw [pieces, List.flatMap_cons] at htext
      exact htext.symm

/-! ### The bytes of references -/

/-- A reference takes the bytes of its text behind those of the pieces before it. -/
theorem mem_occurrences_iff {offset : Nat} {ps : List Piece} {o : Occurrence} :
  o ∈ occurrences offset ps ↔ ∃ before after, ps = before ++ .reference o.reference :: after ∧
    o.start = offset + byteLength (before.flatMap Piece.text) ∧
    o.stop = o.start + byteLength o.reference.text
  := by
  induction ps generalizing offset with
  | nil => simp [occurrences]
  | cons p ps ih =>
    have hsplit : (∃ before after, p :: ps = before ++ .reference o.reference :: after ∧
        o.start = offset + byteLength (before.flatMap Piece.text) ∧
        o.stop = o.start + byteLength o.reference.text) ↔
        (p = .reference o.reference ∧ o.start = offset ∧
          o.stop = o.start + byteLength o.reference.text) ∨
        o ∈ occurrences (offset + byteLength p.text) ps := by
      rw [ih]
      constructor
      · rintro ⟨_ | ⟨q, before⟩, after, hps, hstart, hstop⟩
        · cases hps
          exact .inl ⟨rfl, hstart, hstop⟩
        · cases hps
          rw [List.flatMap_cons, byteLength_append, ← Nat.add_assoc] at hstart
          exact .inr ⟨before, after, rfl, hstart, hstop⟩
      · rintro (⟨rfl, hstart, hstop⟩ | ⟨before, after, rfl, hstart, hstop⟩)
        · exact ⟨[], ps, rfl, hstart, hstop⟩
        · refine ⟨p :: before, after, rfl, ?_, hstop⟩
          rw [List.flatMap_cons, byteLength_append, ← Nat.add_assoc, hstart]
    rw [hsplit]
    cases p with
    | char c => simp [occurrences, Piece.text]
    | reference r =>
      rw [occurrences, List.mem_cons]
      apply or_congr _ Iff.rfl
      obtain ⟨start, stop, reference⟩ := o
      simp only [Occurrence.mk.injEq, Piece.reference.injEq]
      constructor
      · rintro ⟨rfl, rfl, rfl⟩
        exact ⟨rfl, rfl, rfl⟩
      · rintro ⟨rfl, rfl, rfl⟩
        exact ⟨rfl, rfl, rfl⟩

/-- References stand one behind the other. -/
theorem pairwise_occurrences (offset : Nat) (ps : List Piece) :
  (occurrences offset ps).Pairwise fun o o' => o.stop ≤ o'.start
  := by
  induction ps generalizing offset with
  | nil => exact .nil
  | cons p ps ih =>
    cases p with
    | char c => exact ih _
    | reference r =>
      refine .cons ?_ (ih _)
      intro o ho
      obtain ⟨before, after, -, hstart, -⟩ := mem_occurrences_iff.mp ho
      rw [hstart]
      apply Nat.le_add_right

/-- A dollar sign with the beginning of a name behind it is among the bytes of a reference. -/
theorem exists_occurrence {v : List Char} {c : Char} (hc : isNameChar c) : ∀ {ps : List Piece},
    (∀ before after p, ps = before ++ p :: after → p.IsRead (after.flatMap Piece.text)) →
    ∀ {u : List Char} (offset : Nat), ps.flatMap Piece.text = u ++ '$' :: c :: v →
  ∃ o ∈ occurrences offset ps, o.start ≤ offset + byteLength u ∧ offset + byteLength u < o.stop
  := by
  intro ps
  induction ps with
  | nil => simp
  | cons p ps ih =>
    intro hread u offset h
    have hread' : ∀ before after q, ps = before ++ q :: after →
        q.IsRead (after.flatMap Piece.text) := by
      intro before after q hq
      apply hread (p :: before)
      rw [hq, List.cons_append]
    -- The dollar sign stands behind the first piece, or in it.
    have hbehind : ∀ w, u = p.text ++ w → ps.flatMap Piece.text = w ++ '$' :: c :: v →
        ∃ o ∈ occurrences offset (p :: ps),
          o.start ≤ offset + byteLength u ∧ offset + byteLength u < o.stop := by
      rintro w rfl hw
      obtain ⟨o, ho, hle⟩ := ih hread' (offset + byteLength p.text) hw
      rw [byteLength_append, ← Nat.add_assoc]
      refine ⟨o, ?_, hle⟩
      cases p with
      | char d => simpa [Piece.text, occurrences] using ho
      | reference r => exact List.mem_cons_of_mem _ ho
    rw [List.flatMap_cons] at h
    obtain ⟨w, hw, hrest⟩ | ⟨w, hw, hrest⟩ := List.append_eq_append_iff.mp h
    · exact hbehind w hw hrest
    · cases w with
      | nil => exact hbehind [] (by simpa using hw.symm) hrest.symm
      | cons d w =>
        obtain ⟨rfl, htail⟩ := List.cons.inj hrest
        cases p with
        | char d =>
          have hfirst := hread [] ps (.char d) rfl
          cases u with
          | cons e u => simp [Piece.text] at hw
          | nil =>
            obtain ⟨rfl, rfl⟩ := List.cons.inj hw
            have hbehind : ps.flatMap Piece.text = c :: v := htail.symm
            exact absurd hc (hfirst rfl c (by rw [hbehind]; rfl))
        | reference r =>
          have hlength := congrArg byteLength hw
          have hpos := Char.utf8Size_pos '$'
          rw [byteLength_append, byteLength_cons] at hlength
          refine ⟨_, List.mem_cons_self, Nat.le_add_right _ _, ?_⟩
          change _ < offset + byteLength (Piece.reference r).text
          omega

/-! ### Replacing references -/

/-- A text from a byte on, with `f` of each reference in the place of what its range has there.
There is none if the text cannot be cut at some range. -/
def replace? (f : Reference → List Char) (cs : List Char) (last : Nat) :
    List Occurrence → Option (List Char)
  | [] => slice? cs last (byteLength cs)
  | o :: os => do
    let between ← slice? cs last o.start
    let rest ← replace? f cs o.stop os
    return between ++ f o.reference ++ rest

/-- Replacing the references of pieces, with characters before these that are to be copied. -/
theorem replace?_occurrences (f : Reference → List Char) (ps : List Piece) :
    ∀ before copied : List Char,
  replace? f (before ++ copied ++ ps.flatMap Piece.text) (byteLength before)
      (occurrences (byteLength (before ++ copied)) ps) =
    some (copied ++ ps.flatMap (Piece.substitute f))
  := by
  induction ps with
  | nil =>
    intro before copied
    rw [occurrences, replace?, slice?_eq_some_iff]
    exact ⟨before, [], by simp, rfl, by simp⟩
  | cons p ps ih =>
    intro before copied
    cases p with
    | char c =>
      have h := ih before (copied ++ [c])
      rw [← List.append_assoc, byteLength_append (before ++ copied)] at h
      rw [List.flatMap_cons, List.flatMap_cons, ← List.append_assoc, ← List.append_assoc]
      exact h
    | reference r =>
      have h := ih (before ++ copied ++ r.text) []
      rw [List.append_nil, byteLength_append (before ++ copied), List.nil_append] at h
      have hslice : slice? (before ++ copied ++ (r.text ++ ps.flatMap Piece.text))
          (byteLength before) (byteLength (before ++ copied)) = some copied :=
        slice?_eq_some_iff.mpr ⟨before, _, rfl, rfl, by rw [byteLength_append]⟩
      rw [List.flatMap_cons, Piece.text, occurrences, replace?, hslice]
      rw [← List.append_assoc, h, List.flatMap_cons, ← List.append_assoc]
      rfl

/-! ### The references of a code -/

/-- A reference has its bytes in a code: they can be cut out of it and are the reference as written,
which is read as far as it goes. -/
structure Occurrence.IsIn (o : Occurrence) (code : String) : Prop where
  start_lt_stop : o.start < o.stop
  stop_le : o.stop ≤ byteLength code.toList
  slice : slice? code.toList o.start o.stop =
    some ('$' :: o.reference.name ++ indexText o.reference.index)
  isRead : ∀ rest, slice? code.toList o.stop (byteLength code.toList) = some rest →
    o.reference.IsRead rest

theorem isIn_of_mem_references {code : String} {o : Occurrence} (h : o ∈ references code) :
  o.IsIn code
  := by
  obtain ⟨before, after, hpieces, hstart, hstop⟩ := mem_occurrences_iff.mp h
  have hcode : code.toList =
      before.flatMap Piece.text ++ o.reference.text ++ after.flatMap Piece.text := by
    rw [← flatMap_text_pieces code.toList, hpieces, List.flatMap_append, List.flatMap_cons,
      ← List.append_assoc]
    rfl
  rw [Nat.zero_add] at hstart
  have hlength := congrArg byteLength hcode
  rw [byteLength_append, byteLength_append, ← hstart, ← hstop] at hlength
  constructor
  case start_lt_stop =>
    rw [hstop, Reference.text, List.cons_append, byteLength_cons]
    have := Char.utf8Size_pos '$'
    omega
  case stop_le =>
    rw [hlength]
    apply Nat.le_add_right
  case slice => exact slice?_eq_some_iff.mpr ⟨_, _, hcode, hstart.symm, hstop.symm⟩
  case isRead =>
    intro rest hrest
    have hafter : slice? code.toList o.stop (byteLength code.toList) =
        some (after.flatMap Piece.text) :=
      slice?_eq_some_iff.mpr ⟨_, [], by rw [List.append_nil]; exact hcode, by
        rw [byteLength_append, ← hstart, hstop], hlength.symm⟩
    rw [hafter, Option.some_inj] at hrest
    rw [← hrest]
    exact isRead_of_pieces _ _ _ _ hpieces

/-- Rendering each reference as it is written gives the code back. -/
theorem substitute_eq_self {code : String} {f : Reference → List Char}
    (h : ∀ o ∈ references code, f o.reference = o.reference.text) :
  substitute f code = code
  := by
  have hpiece : ∀ p ∈ pieces code.toList, p.substitute f = p.text := by
    intro p hp
    cases p with
    | char c => rfl
    | reference r =>
      obtain ⟨before, after, hsplit⟩ := List.append_of_mem hp
      let start := 0 + byteLength (before.flatMap Piece.text)
      exact h ⟨start, start + byteLength r.text, r⟩
        (mem_occurrences_iff.mpr ⟨before, after, hsplit, rfl, rfl⟩)
  rw [substitute, List.flatMap_congr hpiece, flatMap_text_pieces, String.ofList_toList]

/-- The references of a code are in it, one behind the other, and no dollar sign with a name behind
it is left out.  Substituting is putting something in the place of exactly their bytes, and what is
written back as it was leaves the code as it is. -/
theorem references_and_substitute (code : String) :
  (∀ o ∈ references code, o.IsIn code) ∧
  (references code).Pairwise (fun o o' => o.stop ≤ o'.start) ∧
  (∀ u c v, code.toList = u ++ '$' :: c :: v → isNameChar c →
    ∃ o ∈ references code, o.start ≤ byteLength u ∧ byteLength u < o.stop) ∧
  (∀ f, (∀ o ∈ references code, f o.reference = o.reference.text) → substitute f code = code) ∧
  ∀ f, replace? f code.toList 0 (references code) = some (substitute f code).toList
  := by
  refine ⟨fun o => isIn_of_mem_references, pairwise_occurrences _ _, ?_,
    fun f => substitute_eq_self, ?_⟩
  · intro u c v hcode hc
    obtain ⟨o, ho, hle, hlt⟩ := exists_occurrence hc (isRead_of_pieces code.toList) 0
      ((flatMap_text_pieces _).trans hcode)
    rw [Nat.zero_add] at hle hlt
    exact ⟨o, ho, hle, hlt⟩
  · intro f
    have h := replace?_occurrences f (pieces code.toList) [] []
    rw [flatMap_text_pieces, List.nil_append] at h
    rw [substitute, String.toList_ofList]
    exact h

/-- An index may have characters of several bytes, and brackets with nothing inside are left alone. -/
example : replace? (fun r => '<' :: r.name ++ ['>']) "é$a[ü]$$b[] $".toList 0
    (references "é$a[ü]$$b[] $") = some "é<a>$<b>[] $".toList
  := by decide +kernel

end ActionCode

end Descent
