import Mathlib.Data.List.TakeDrop
import Descent.Pattern.Compiled
import Descent.Proofs.Calls
import Descent.Proofs.Position
import Descent.Proofs.Scanning

/-!
# Line directives renumber lines

What a scanner takes of a text is a trail of pieces (`Cursor.Trail`): each starts at the place
behind the one before it, where a piece that is a line directive has changed line and file.  The
tokens that are consumed, and one that is returned after them, make such a trail from the beginning
of the text on (`Scanner.trail_returned`), so that line and file of a piece are told by the last
directive before it and by the line feeds in between (`Cursor.Trail.line`, `Cursor.Trail.file`).

The number of a directive is that of the next line.  It is taken for the line behind the directive
if the piece ends in a line feed, and for the one after it if not.  So lines are numbered as the
directive says if and only if what follows the directive in its piece has no line feed but one at
its very end (`Scanner.renumbers`).
-/

namespace Descent

/-! ### The text of a directive -/

namespace LineDirective

/-- The word that a directive begins with. -/
def word : List Char := "line ".toList

/-- The characters of a directive. -/
def text (d : LineDirective) : List Char :=
  word ++ d.digits ++ d.file?.elim [] fun name => ' ' :: '"' :: name.toList ++ ['"']

/-- What follows the first directive in a text. -/
def behind : List Char → List Char
  | [] => []
  | c :: cs => (read? (c :: cs)).elim (behind cs) fun d => (c :: cs).drop d.text.length

variable {cs : List Char} {d : LineDirective}

theorem eq_of_readFile {name : String} (h : readFile cs = some name) :
  ∃ rest, cs = ' ' :: '"' :: name.toList ++ '"' :: rest
  := by
  unfold readFile at h
  split at h
  · next cs =>
    split at h
    · next name' rest hspan =>
      split at h
      · cases h
      · obtain rfl := Option.some_inj.mp h
        rw [List.span_eq_takeWhile_dropWhile, Prod.mk.injEq] at hspan
        have hcs := List.takeWhile_append_dropWhile (p := (· ≠ '"')) (l := cs)
        rw [hspan.1, hspan.2] at hcs
        use rest
        rw [String.toList_ofList, ← hcs]
        rfl
    · cases h
  · cases h

/-- A directive at the front of a text has digits, and then its file name, if there is one. -/
theorem eq_of_read? (h : read? cs = some d) :
  d.digits ≠ [] ∧ (∀ c ∈ d.digits, Text.isDigit c) ∧
    ∃ rest, cs = word ++ d.digits ++ rest ∧ d.file? = readFile rest
  := by
  unfold read? at h
  split at h
  case isFalse => cases h
  case isTrue hword =>
    split at h
    case h_1 => cases h
    case h_2 digits rest hne hspan =>
      obtain rfl := Option.some_inj.mp h
      rw [List.span_eq_takeWhile_dropWhile, Prod.mk.injEq] at hspan
      obtain ⟨hdigits, hrest⟩ := hspan
      obtain ⟨tail, rfl⟩ : word <+: cs := List.isPrefixOf_iff_prefix.mp hword
      have htail : (word ++ tail).drop 5 = tail := rfl
      rw [htail] at hdigits hrest
      refine ⟨?_, ?_, rest, ?_, rfl⟩
      · rintro rfl
        exact hne rfl
      · intro c hc
        rw [← hdigits] at hc
        apply List.mem_takeWhile_imp hc
      · rw [List.append_assoc, ← hdigits, ← hrest, List.takeWhile_append_dropWhile]

theorem text_isPrefix_of_read? (h : read? cs = some d) :
  d.text <+: cs
  := by
  obtain ⟨-, -, rest, rfl, hfile⟩ := eq_of_read? h
  rw [text]
  apply (List.prefix_append_right_inj _).mpr
  cases hname : d.file? with
  | none => apply List.nil_prefix
  | some name =>
    rw [hname] at hfile
    obtain ⟨rest, rfl⟩ := eq_of_readFile hfile.symm
    use rest
    simp

/-- A text with a directive is what comes before it, the directive, and what follows it. -/
theorem exists_eq_of_find? (h : find? cs = some d) :
  ∃ before, cs = before ++ d.text ++ behind cs
  := by
  induction cs with
  | nil => cases h
  | cons c cs ih =>
    rw [find?] at h
    rw [behind]
    cases hread : read? (c :: cs) with
    | some e =>
      rw [hread, Option.some_or] at h
      obtain rfl := Option.some_inj.mp h
      use []
      exact (List.prefix_iff_eq_append.mp (text_isPrefix_of_read? hread)).symm
    | none =>
      rw [hread, Option.none_or] at h
      obtain ⟨before, hbefore⟩ := ih h
      use c :: before
      rw [Option.elim_none, List.cons_append, List.cons_append, ← hbefore]

theorem exists_read?_of_find? (h : find? cs = some d) :
  ∃ ds, read? ds = some d
  := by
  induction cs with
  | nil => cases h
  | cons c cs ih =>
    rw [find?, Option.or_eq_some_iff] at h
    obtain h | ⟨-, h⟩ := h
    · exact ⟨_, h⟩
    · apply ih h

/-- A directive ends in a digit or in a quote. -/
theorem exists_getLast?_text (h : find? cs = some d) :
  ∃ c, d.text.getLast? = some c ∧ c ≠ '\n'
  := by
  obtain ⟨ds, hread⟩ := exists_read?_of_find? h
  obtain ⟨hne, hdigits, -⟩ := eq_of_read? hread
  cases hname : d.file? with
  | some name =>
    use '"'
    rw [text, hname, Option.elim_some, ← List.append_assoc, List.getLast?_concat]
    exact ⟨rfl, by decide⟩
  | none =>
    have hlast := List.getLast?_eq_some_getLast hne
    refine ⟨d.digits.getLast hne, ?_, ?_⟩
    · rw [text, hname, Option.elim_none, List.append_nil, List.getLast?_append, hlast,
        Option.some_or]
    · intro heq
      have hdigit := hdigits _ (List.getLast_mem hne)
      rw [heq] at hdigit
      exact absurd hdigit (by decide)

/-- A text with a directive ends in a line feed if what follows the directive does. -/
theorem getLast?_behind (h : find? cs = some d) :
  cs.getLast? = some '\n' ↔ (behind cs).getLast? = some '\n'
  := by
  obtain ⟨before, hcs⟩ := exists_eq_of_find? h
  obtain ⟨c, hc, hne⟩ := exists_getLast?_text h
  rw [hcs, List.getLast?_append, List.getLast?_append, hc, ← hcs]
  cases (behind cs).getLast? <;> simp [hne]

end LineDirective

/-! ### Pieces of a text -/

/-- A piece that a scanner takes of a text, and whether line and file are changed by a directive in
it. -/
structure Piece where
  span : Span
  text : List Char
  redirects : Bool
  deriving DecidableEq, Repr

/-- The directive in a piece. -/
def Piece.directive? (x : Piece) : Option LineDirective :=
  if x.redirects then LineDirective.find? x.text else none

theorem Piece.directive?_eq_some_iff {x : Piece} {d : LineDirective} :
  x.directive? = some d ↔ x.redirects ∧ LineDirective.find? x.text = some d
  := by simp [directive?]

namespace Cursor

/-- The place behind a piece. -/
def behind (c : Cursor) (x : Piece) : Cursor :=
  if x.redirects then (c.advance x.text.length).redirect x.text else c.advance x.text.length

/-- Pieces of a text that lead from one place to another. -/
inductive Trail : Cursor → List Piece → Cursor → Prop
  | nil (c : Cursor) : Trail c [] c
  | cons {c c' : Cursor} {x : Piece} {xs : List Piece} (htext : x.text <+: c.rest)
      (hspan : x.span = c.span (byteLength x.text)) (h : Trail (c.behind x) xs c') :
      Trail c (x :: xs) c'

variable {c c' c'' : Cursor} {x : Piece} {xs ys : List Piece} {d : LineDirective}

theorem Trail.append (h : Trail c xs c') (h' : Trail c' ys c'') :
  Trail c (xs ++ ys) c''
  := by
  induction h with
  | nil c => apply h'
  | cons htext hspan _ ih => exact .cons htext hspan (ih h')

/-- Where pieces of a trail come to, the rest of them begins. -/
theorem Trail.exists_of_append : ∀ {c : Cursor} {xs : List Piece}, Trail c (xs ++ ys) c'' →
  ∃ c', Trail c xs c' ∧ Trail c' ys c''
  | c, [], h => ⟨c, .nil c, h⟩
  | _, _ :: _, .cons htext hspan h => by
      obtain ⟨c', hx, hy⟩ := h.exists_of_append
      exact ⟨c', .cons htext hspan hx, hy⟩

/-! ### Lines and files along a trail -/

theorem rest_behind (c : Cursor) (x : Piece) :
  (c.behind x).rest = c.rest.drop x.text.length
  := by
  rw [behind]
  split
  · rw [rest_redirect, rest_advance]
  · rw [rest_advance]

/-- The pieces of a trail, one after the other, are the text that it leaves behind. -/
theorem Trail.flatMap_text (h : Trail c xs c') :
  xs.flatMap Piece.text ++ c'.rest = c.rest
  := by
  induction h with
  | nil c => rfl
  | cons htext _ _ ih =>
    rw [List.flatMap_cons, List.append_assoc, ih, rest_behind]
    apply List.prefix_iff_eq_append.mp htext

/-- The line behind a piece is told by the number of its directive. -/
theorem line_behind_of_number (hd : x.directive? = some d) {n : Nat} (hn : d.line? = some n) :
  (c.behind x).position.line = if x.text.getLast? = some '\n' then n else n - 1
  := by
  obtain ⟨hx, hd⟩ := Piece.directive?_eq_some_iff.mp hd
  simp only [behind, if_pos hx, redirect, hd, hn]

/-- Without a number the line feeds of a piece count. -/
theorem line_behind (htext : x.text <+: c.rest) (hx : ∀ d ∈ x.directive?, d.line? = none) :
  (c.behind x).position.line = c.position.line + x.text.count '\n'
  := by
  have hadvance : (c.advance x.text.length).position.line =
      c.position.line + x.text.count '\n' := by
    rw [advance, ← List.prefix_iff_eq_take.mp htext]
    apply Position.line_advance
  rw [behind]
  split
  case isFalse => apply hadvance
  case isTrue hredirects =>
    rw [redirect]
    cases hd : LineDirective.find? x.text with
    | none => apply hadvance
    | some d =>
      simp only [hx d (Piece.directive?_eq_some_iff.mpr ⟨hredirects, hd⟩)]
      apply hadvance

/-- The file behind a piece is told by the name in its directive. -/
theorem file_behind_of_name (hd : x.directive? = some d) {name : String}
    (hname : d.file? = some name) :
  (c.behind x).file = name
  := by
  obtain ⟨hx, hd⟩ := Piece.directive?_eq_some_iff.mp hd
  simp only [behind, if_pos hx, redirect, hd, hname, Option.getD_some]

/-- Without a name the file stays the same. -/
theorem file_behind (hx : ∀ d ∈ x.directive?, d.file? = none) :
  (c.behind x).file = c.file
  := by
  rw [behind]
  split
  case isFalse => rfl
  case isTrue hredirects =>
    rw [redirect]
    cases hd : LineDirective.find? x.text with
    | none => rfl
    | some d =>
      simp only [hx d (Piece.directive?_eq_some_iff.mpr ⟨hredirects, hd⟩)]
      rfl

theorem Trail.line (h : Trail c xs c') (hxs : ∀ x ∈ xs, ∀ d ∈ x.directive?, d.line? = none) :
  c'.position.line = c.position.line + (xs.flatMap Piece.text).count '\n'
  := by
  induction h with
  | nil c => rfl
  | cons htext _ _ ih =>
    obtain ⟨hx, hxs⟩ := List.forall_mem_cons.mp hxs
    rw [ih hxs, line_behind htext hx, List.flatMap_cons, List.count_append, Nat.add_assoc]

theorem Trail.file (h : Trail c xs c') (hxs : ∀ x ∈ xs, ∀ d ∈ x.directive?, d.file? = none) :
  c'.file = c.file
  := by
  induction h with
  | nil c => rfl
  | cons _ _ _ ih =>
    obtain ⟨hx, hxs⟩ := List.forall_mem_cons.mp hxs
    rw [ih hxs, file_behind hx]

end Cursor

/-! ### Trails of tokens -/

namespace Scanner

variable {κ : Type} [DecidableEq κ]

/-- The piece of a lexeme that is skipped. -/
def skippedPiece (s : Scanner κ) (l : Lexeme κ) : Piece :=
  ⟨l.span, l.text.toList, s.fileAndLine = some l.kind⟩

/-- The pieces of a token, those of what is skipped before it first.  A token with an empty span
takes nothing, whatever its text. -/
def pieces (s : Scanner κ) (t : Token κ) : List Piece :=
  t.skipped.map s.skippedPiece ++
    [⟨t.span, if t.span.isEmpty then [] else t.text.toList, false⟩]

variable {s : Scanner κ} {c : Cursor} {t : Token κ}

/-- A token that takes nothing stays at its place. -/
theorem trail_of_isEmpty (hskipped : t.skipped = []) (hspan : t.span = c.span 0) :
  c.Trail (s.pieces t) c
  := by
  have hempty : t.span.isEmpty := by
    rw [hspan, Cursor.span, Span.isEmpty]
    simp [Span.ofPosition]
  rw [pieces, hskipped, List.map_nil, List.nil_append, if_pos hempty, hspan]
  exact .cons (List.nil_prefix) rfl (.nil c)

variable [TokenKind κ]

omit [TokenKind κ] in
/-- What is skipped leads to the place behind it. -/
theorem afterSkipped_eq_behind {kind : κ} {count : Nat} (hcount : count ≤ c.rest.length) :
  s.afterSkipped c kind count = c.behind (s.skippedPiece (c.lexeme kind count))
  := by
  rw [skippedPiece, Cursor.lexeme, String.toList_ofList, afterSkipped, Cursor.behind]
  dsimp only
  rw [List.length_take_of_le hcount]
  simp only [decide_eq_true_eq]

/-- The pieces of the next token lead to the place after it. -/
theorem trail_next (s : Scanner κ) (expected : List κ) (c : Cursor) :
  c.Trail (s.pieces (s.next expected c).1) (s.next expected c).2
  := by
  fun_induction next s expected c with
  | case1 c hselect => exact trail_of_isEmpty rfl rfl
  | case2 c kind count hselect hk token after hn ih =>
    rw [hn, afterSkipped_eq_behind (le_of_select hselect)] at ih
    refine Cursor.Trail.cons ?_ ?_ ih
    · rw [skippedPiece, Cursor.lexeme, String.toList_ofList]
      apply List.take_prefix
    · rw [skippedPiece, Cursor.lexeme, String.toList_ofList]
  | case3 c kind count hselect hk =>
    have htext : (if (c.lexeme kind count).span.isEmpty then []
        else (c.lexeme kind count).text.toList) = c.rest.take count := by
      rw [Cursor.lexeme, String.toList_ofList]
      split
      case isFalse => rfl
      case isTrue hempty =>
        rw [Cursor.span, Span.isEmpty, Span.ofPosition] at hempty
        symm
        apply byteLength_eq_zero_iff.mp
        simpa using hempty
    rw [pieces]
    dsimp only
    rw [htext]
    refine Cursor.Trail.cons (List.take_prefix count c.rest) rfl ?_
    rw [Cursor.behind, if_neg Bool.false_ne_true,
      List.length_take_of_le (le_of_select hselect)]
    exact .nil _

/-! ### States -/

/-- What was seen ahead follows the place of a state. -/
def State.SeesTrail (s : Scanner κ) (st : State κ) : Prop :=
  ∀ p ∈ st.ahead, st.cursor.Trail (s.pieces p.1) p.2

variable {st : State κ}

theorem State.SeesTrail.upcoming (h : st.SeesTrail s) (expected : List κ) :
  st.cursor.Trail (s.pieces (s.upcoming st expected).1) (s.upcoming st expected).2
  := by
  obtain hu | ⟨p, hp, _, hu⟩ := s.upcoming_cases st expected
  · rw [hu]
    apply trail_next
  · rw [hu]
    apply h p hp

/-- A call leads along the pieces of what it consumes. -/
theorem State.SeesTrail.call (h : st.SeesTrail s) {call : Call κ} (hcall : ¬ call.isStart) :
  st.cursor.Trail ((s.consumed st [call]).flatMap s.pieces) (s.call st call).2.cursor ∧
    (s.call st call).2.SeesTrail s
  := by
  match call with
  | .start .. => exact absurd rfl hcall
  | .lookAhead expected =>
    refine ⟨.nil st.cursor, ?_⟩
    rintro _ ⟨⟩
    apply h.upcoming expected
  | .scan expected =>
    constructor
    · have hscan := h.upcoming expected
      rw [← List.append_nil (s.pieces _)] at hscan
      exact hscan
    · rintro _ ⟨⟩
  | .here _ => exact ⟨.nil st.cursor, h⟩

theorem State.SeesTrail.run {calls : List (Call κ)} (hcalls : ∀ call ∈ calls, ¬ call.isStart)
    (h : st.SeesTrail s) :
  st.cursor.Trail ((s.consumed st calls).flatMap s.pieces) (s.after st calls).cursor ∧
    (s.after st calls).SeesTrail s
  := by
  induction calls generalizing st with
  | nil => exact ⟨.nil st.cursor, h⟩
  | cons call calls ih =>
    obtain ⟨hcall, hcalls⟩ := List.forall_mem_cons.mp hcalls
    obtain ⟨hfirst, hseen⟩ := h.call hcall
    obtain ⟨hrest, hlast⟩ := ih hcalls hseen
    rw [consumed_cons, List.flatMap_append]
    exact ⟨hfirst.append hrest, hlast⟩

/-- What a call returns follows the place of the state. -/
theorem State.SeesTrail.exists_returned (h : st.SeesTrail s) {call : Call κ}
    (ht : (s.call st call).1 = some t) :
  ∃ c, st.cursor.Trail (s.pieces t) c
  := by
  match call with
  | .start .. => cases ht
  | .lookAhead expected | .scan expected =>
    obtain rfl := Option.some_inj.mp ht
    exact ⟨_, h.upcoming expected⟩
  | .here kind =>
    obtain rfl := Option.some_inj.mp ht
    exact ⟨_, trail_of_isEmpty rfl rfl⟩

/-- The pieces of what calls consume after a text is given to the scanner, and of a token that is
returned then. -/
def trail (s : Scanner κ) (text file : String) (calls : List (Call κ)) (t : Token κ) : List Piece :=
  (s.consumed (.start text file) calls).flatMap s.pieces ++ s.pieces t

/-- What calls consume, and a token that is returned then, is a trail from the beginning of the
text. -/
theorem trail_returned {text file : String} {calls : List (Call κ)}
    (hcalls : ∀ call ∈ calls, ¬ call.isStart) {call : Call κ}
    (ht : (s.call (s.after (.start text file) calls) call).1 = some t) :
  ∃ c, (Cursor.start text file).Trail (s.trail text file calls t) c
  := by
  have hstart : State.SeesTrail s (.start text file : State κ) := by rintro _ ⟨⟩
  obtain ⟨hconsumed, hseen⟩ := hstart.run hcalls
  obtain ⟨c, hreturned⟩ := hseen.exists_returned ht
  exact ⟨c, hconsumed.append hreturned⟩

/-! ### Renumbering -/

/-- What a directive with a number counts to is what the number says if what follows the directive
has no line feed but one at its end. -/
theorem count_eq_iff {n lines : Nat} (hn : 1 ≤ n) (cs : List Char) :
  ((if cs.getLast? = some '\n' then n else n - 1) + lines = n - 1 + (cs.count '\n' + lines)) ↔
    '\n' ∉ cs.dropLast
  := by
  rw [← List.count_eq_zero]
  cases cs using List.reverseRecOn with
  | nil => simp
  | append_singleton cs a =>
    rw [List.getLast?_concat, List.dropLast_concat, List.count_append, List.count_singleton]
    by_cases ha : a = '\n'
    · simp [ha]
      omega
    · simp [ha]

/-- After a directive with a number, up to the next one, lines are counted by the line feeds behind
the piece that it is in, from its number if that piece ends in a line feed and from one less if not.
This is what the number says, that of the first line to begin behind the directive, if and only if
nothing but a line feed at the very end of the piece begins a line in it.  After a directive with a
file name, up to the next one, pieces are of that file. -/
theorem renumbers {text file : String} {calls : List (Call κ)}
    (hcalls : ∀ call ∈ calls, ¬ call.isStart) {call : Call κ}
    (ht : (s.call (s.after (.start text file) calls) call).1 = some t) :
  (s.trail text file calls t).flatMap Piece.text <+: text.toList ∧
    ∀ before x between y rest d,
      s.trail text file calls t = before ++ x :: (between ++ y :: rest) → x.directive? = some d →
      let behind := LineDirective.behind x.text
      let lines := (between.flatMap Piece.text).count '\n'
      (∃ front, x.text = front ++ d.text ++ behind) ∧
        (∀ n, d.line? = some n → 1 ≤ n → (∀ z ∈ between, ∀ e ∈ z.directive?, e.line? = none) →
          y.span.line = (if x.text.getLast? = some '\n' then n else n - 1) + lines ∧
            (y.span.line = n - 1 + (behind.count '\n' + lines) ↔ '\n' ∉ behind.dropLast)) ∧
        ∀ name, d.file? = some name → (∀ z ∈ between, ∀ e ∈ z.directive?, e.file? = none) →
          y.span.file = name
  := by
  obtain ⟨c, htrail⟩ := trail_returned hcalls ht
  refine ⟨⟨c.rest, htrail.flatMap_text⟩, ?_⟩
  intro before x between y rest d hsplit hd behind lines
  rw [hsplit] at htrail
  obtain ⟨c₁, -, hx⟩ := htrail.exists_of_append
  cases hx with
  | cons _ _ hafter =>
    obtain ⟨c₂, hbetween, hy⟩ := hafter.exists_of_append
    cases hy with
    | cons _ hspan _ =>
      have hfind := (Piece.directive?_eq_some_iff.mp hd).2
      refine ⟨LineDirective.exists_eq_of_find? hfind, ?_, ?_⟩
      · intro n hn hpos hnone
        have hline : y.span.line = (if x.text.getLast? = some '\n' then n else n - 1) + lines := by
          have hcursor : y.span.line = c₂.position.line := by rw [hspan]; rfl
          rw [hcursor, hbetween.line hnone, Cursor.line_behind_of_number hd hn]
        refine ⟨hline, ?_⟩
        simp only [hline, LineDirective.getLast?_behind hfind]
        apply count_eq_iff hpos
      · intro name hname hnone
        have hcursor : y.span.file = c₂.file := by rw [hspan]; rfl
        rw [hcursor, hbetween.file hnone, Cursor.file_behind_of_name hd hname]

/-- Two lines behind a directive that leaves the rest of its own line to what is skipped next. -/
theorem renumbers_twoLinesBehind :
  let patterns := ["#line [0-9]+ \"[a-z]+\"", "\n+", "[a-z]+"]
  let s : Scanner SymbolKind :=
    { ofPatterns patterns [⟨0⟩, ⟨1⟩] with fileAndLine := some (.terminal ⟨0⟩) }
  let text := "#line 40 \"f\"\n\na"
  ∃ t x z y d, (s.call (s.after (.start text "") []) (.scan [])).1 = some t ∧
    s.trail text "" [] t = [x, z, y] ∧ x.directive? = some d ∧ d.line? = some 40 ∧
    d.file? = some "f" ∧ y.text = ['a'] ∧ y.span.line = 41 ∧ y.span.file = "f"
  := by
  intro patterns s text
  let t : Token SymbolKind := (s.scan (.start text "") []).1
  let x : Piece := ⟨⟨"", 0, 12, 1, 1⟩, "#line 40 \"f\"".toList, true⟩
  let z : Piece := ⟨⟨"f", 12, 14, 39, 13⟩, ['\n', '\n'], false⟩
  let y : Piece := ⟨⟨"f", 14, 15, 41, 1⟩, ['a'], false⟩
  let d : LineDirective := ⟨['4', '0'], some "f"⟩
  have htrail : s.trail text "" [] t = [x, z, y] := by decide +kernel
  have hd : x.directive? = some d := by decide +kernel
  have hn : d.line? = some 40 := by decide +kernel
  have hnone : ∀ w ∈ [z], w.directive? = none := by decide +kernel
  have ht : (s.call (s.after (.start text "") []) (.scan [])).1 = some t := rfl
  obtain ⟨-, hpieces⟩ := renumbers (by simp) ht
  obtain ⟨-, hline, hfile⟩ := hpieces [] x [z] y [] d htrail hd
  refine ⟨t, x, z, y, d, ht, htrail, hd, hn, rfl, rfl, ?_, ?_⟩
  · obtain ⟨hline, -⟩ := hline 40 hn (by decide) (by simp [hnone])
    apply hline.trans
    decide +kernel
  · apply hfile "f" rfl
    simp [hnone]

/-- A directive whose piece goes on to the next line, but not to its end: the line that begins in
the piece is the first one behind the directive, and yet it is not the one that the number is taken
for. -/
theorem not_renumbers_indented :
  let patterns := ["#line [0-9]+[ \n]*", "[a-z]+"]
  let s : Scanner SymbolKind :=
    { ofPatterns patterns [⟨0⟩] with fileAndLine := some (.terminal ⟨0⟩) }
  let text := "#line 40\n  a"
  ∃ t x y d, (s.call (s.after (.start text "input") []) (.scan [])).1 = some t ∧
    s.trail text "input" [] t = [x, y] ∧ x.directive? = some d ∧ d.line? = some 40 ∧
    y.text = ['a'] ∧ (LineDirective.behind x.text).count '\n' = 1 ∧ y.span.line ≠ 40
  := by
  intro patterns s text
  let x : Piece := ⟨⟨"input", 0, 11, 1, 1⟩, "#line 40\n  ".toList, true⟩
  let y : Piece := ⟨⟨"input", 11, 12, 39, 3⟩, ['a'], false⟩
  exact ⟨_, x, y, ⟨['4', '0'], none⟩, rfl, by decide +kernel, by decide +kernel, by decide +kernel,
    rfl, by decide +kernel, by decide⟩

end Scanner

end Descent
