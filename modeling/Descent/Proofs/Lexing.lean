import Descent.Description.Lexing
import Descent.Proofs.Position

/-!
# Nothing is lost between tokens

The lexemes of a description, with those that are skipped, are laid side by side like tiles
(`Tiles`): each comes right after the one before it, and its span says where it stands.  Cutting a
text into tokens makes such a tiling of the text (`Tokens.tiles_ofText`), with one end after it.
-/

namespace Descent.Description

/-- All lexemes before the end, in order: those that are skipped before a token, then the token. -/
def Tokens.lexemes (ts : Tokens) : List (Lexeme Kind) :=
  (ts.tokens.flatMap fun t => t.skipped ++ [t.toLexeme]) ++ ts.eof.skipped

/-! ### Tilings -/

/-- Lexemes that make up a text, one after the other, given the text before them. -/
inductive Tiles (file : String) : (before : List Char) → List (Lexeme Kind) → List Char → Prop
  | nil (before : List Char) : Tiles file before [] []
  | cons {before rest : List Char} {l : Lexeme Kind} {ls : List (Lexeme Kind)}
      (hl : l.span.Covers file before l.text.toList)
      (h : Tiles file (before ++ l.text.toList) ls rest) :
      Tiles file before (l :: ls) (l.text.toList ++ rest)

namespace Tiles

variable {file : String} {before cs : List Char} {ls : List (Lexeme Kind)}

/-- The spans of a tiling, each with the text of its lexeme, lie side by side. -/
theorem spans (h : Tiles file before ls cs) :
  Span.Tiles file before (ls.map fun l => (l.span, l.text.toList)) (before ++ cs)
  := by
  induction h with
  | nil before =>
    rw [List.append_nil]
    exact .nil before
  | cons hl _ ih =>
    rw [← List.append_assoc]
    exact .cons hl ih

/-- The texts of a tiling, one after the other, are the whole text. -/
theorem flatMap_text (h : Tiles file before ls cs) :
  ls.flatMap (·.text.toList) = cs
  := by
  have hs := List.append_cancel_left h.spans.flatMap_snd
  rwa [List.flatMap_map] at hs

/-- The spans of a tiling leave no gap. -/
theorem contiguous (h : Tiles file before ls cs) :
  Span.Contiguous (byteLength before) (ls.map (·.span)) (byteLength (before ++ cs))
  := by
  have hs := h.spans.contiguous
  rwa [List.map_map] at hs

/-- Every lexeme of a tiling stands in the text where its span says. -/
theorem exists_covers (h : Tiles file before ls cs) :
  ∀ l ∈ ls, ∃ u v, before ++ cs = u ++ l.text.toList ++ v ∧
    l.span.Covers file u l.text.toList
  := by
  intro l hl
  apply h.spans.exists_covers (l.span, l.text.toList) (List.mem_map_of_mem hl)

end Tiles

/-! ### Cutting -/

/-- A number is an integer or a double. -/
theorem kind_numberExtent (cs : List Char) :
  (numberExtent cs).kind = .integer ∨ (numberExtent cs).kind = .double
  := by
  unfold numberExtent
  dsimp only
  split
  · split <;> simp [Extent.complete]
  · simp [Extent.complete]

/-- A character that is a token by itself is not the end, and has no text to stand for. -/
theorem punctuation_ne (c : Char) :
  punctuation c ≠ .eof ∧ punctuation c ≠ .ident ∧ (∀ body, punctuation c ≠ .code body) ∧
    ∀ value, punctuation c ≠ .str value
  := by
  unfold punctuation
  split <;> simp

/-- No character starts a lexeme of the kind of the end. -/
theorem kind_extent_ne_eof (context : Context) (c : Char) (cs : List Char) :
  (extent context c cs).kind ≠ .eof
  := by
  -- Besides numbers and characters that are tokens by themselves, every branch gives its kind.
  fun_cases extent context c cs with
  | case9 => obtain h | h := kind_numberExtent cs <;> simp [h]
  | case11 => exact (punctuation_ne c).1
  | _ => rintro ⟨⟩

namespace Tokens

/-- The outcome of cutting a text, given the text before it and the lexemes that were skipped since
the last token: after these the lexemes are a tiling of the text, and the end comes after it. -/
structure Cut (ts : Tokens) (file : String) (before : List Char) (skipped : List (Lexeme Kind))
    (cs : List Char) : Prop where
  eof : ts.eof.kind = .eof ∧ ts.eof.span.Covers file (before ++ cs) []
  lexemes : ∃ ls, ts.lexemes = skipped ++ ls ∧ (∀ l ∈ ls, l.kind ≠ .eof) ∧ Tiles file before ls cs

variable {ts : Tokens} {file : String} {before rest : List Char} {skipped : List (Lexeme Kind)}
  {l : Lexeme Kind}

/-- A lexeme that is skipped comes before the tiling of the rest. -/
theorem Cut.skip (hl : l.span.Covers file before l.text.toList) (hk : l.kind ≠ .eof)
    (h : ts.Cut file (before ++ l.text.toList) (skipped ++ [l]) rest)
    (ds : List Diagnostic) :
  ({ ts with diagnostics := ds } : Tokens).Cut file before skipped (l.text.toList ++ rest)
  := by
  obtain ⟨heof, ls, hls, hkinds, htiles⟩ := h
  constructor
  · rwa [← List.append_assoc]
  · refine ⟨l :: ls, ?_, List.forall_mem_cons.mpr ⟨hk, hkinds⟩, .cons hl htiles⟩
    rw [List.append_cons]
    apply hls

/-- So does a token with the lexemes that were skipped before it. -/
theorem Cut.token (hl : l.span.Covers file before l.text.toList) (hk : l.kind ≠ .eof)
    (h : ts.Cut file (before ++ l.text.toList) [] rest) (ds : List Diagnostic) :
  ({ ts with tokens := { l with skipped } :: ts.tokens, diagnostics := ds } : Tokens).Cut
    file before skipped (l.text.toList ++ rest)
  := by
  obtain ⟨heof, ls, hls, hkinds, htiles⟩ := h
  constructor
  · rwa [← List.append_assoc]
  · refine ⟨l :: ls, ?_, List.forall_mem_cons.mpr ⟨hk, hkinds⟩, .cons hl htiles⟩
    rw [List.append_cons, Tokens.lexemes, List.flatMap_cons, List.append_assoc]
    congr 1

/-- The lexeme that is cut off after a text stands where its span says, the rest of the text comes
after it, and the position after it is that of the text up to there. -/
theorem covers_next (file : String) (before : List Char) (kind : Kind) (c : Char) (cs : List Char)
    (n : Nat) :
  let p := Position.start.advance before
  let text := c :: cs.take n
  let l : Lexeme Kind := ⟨kind, .ofPosition file p (byteLength text), String.ofList text⟩
  l.text.toList ++ cs.drop n = c :: cs ∧ l.span.Covers file before l.text.toList ∧
    p.advance text = Position.start.advance (before ++ l.text.toList)
  := by
  dsimp only
  rw [String.toList_ofList, List.cons_append, List.take_append_drop]
  exact ⟨rfl, Span.covers_ofPosition file before _, (Position.advance_append ..).symm⟩

theorem cut_ofRest (context : Context) (p : Position) (before : List Char)
    (skipped : List (Lexeme Kind)) (cs : List Char) (hp : p = Position.start.advance before) :
  (ofRest file context p skipped cs).Cut file before skipped cs
  := by
  fun_induction ofRest file context p skipped cs generalizing before with
  | case1 context p skipped =>
    subst hp
    constructor
    · refine ⟨rfl, ?_⟩
      rw [List.append_nil]
      apply Span.covers_ofPosition file before []
    · -- What was skipped before the end comes with the end.
      refine ⟨[], ?_, List.forall_mem_nil _, .nil before⟩
      rw [List.append_nil]
      rfl
  | case2 context p skipped c cs e text span lexeme left hk after =>
    rename_i ih
    subst hp
    obtain ⟨hcs, hcovers, hnext⟩ := covers_next file before e.kind c cs e.tail
    have h := ih _ hnext
    rw [← hcs]
    apply h.skip hcovers (kind_extent_ne_eof context c cs)
  | case3 context p skipped c cs e text span lexeme left hk after =>
    rename_i ih
    subst hp
    obtain ⟨hcs, hcovers, hnext⟩ := covers_next file before e.kind c cs e.tail
    have h := ih _ hnext
    rw [← hcs]
    apply h.token hcovers (kind_extent_ne_eof context c cs)

/-- Cutting a text into tokens loses nothing and locates everything.  The end comes last and only
there.  The texts of all lexemes make up the text, and their spans leave no gap from its first byte
to its last; every lexeme stands in the text where its span says, with line and column counted from
the beginning, and the end after all of them. -/
theorem tiles_ofText (text file : String) :
  let ts := ofText text file
  (ts.eof.kind = .eof ∧ ∀ l ∈ ts.lexemes, l.kind ≠ .eof) ∧
    ts.lexemes.flatMap (·.text.toList) = text.toList ∧
    Span.Contiguous 0 (ts.lexemes.map (·.span)) (byteLength text.toList) ∧
    (∀ l ∈ ts.lexemes, ∃ u v, text.toList = u ++ l.text.toList ++ v ∧
      l.span.Covers file u l.text.toList) ∧
    ts.eof.span.Covers file text.toList []
  := by
  obtain ⟨⟨hkind, hspan⟩, ls, hls, hkinds, htiles⟩ :=
    cut_ofRest .plain .start [] [] text.toList rfl
  rw [List.nil_append] at hls
  intro ts
  change ts.lexemes = ls at hls
  rw [hls]
  exact ⟨⟨hkind, hkinds⟩, htiles.flatMap_text, htiles.contiguous, htiles.exists_covers, hspan⟩

end Tokens

end Descent.Description
