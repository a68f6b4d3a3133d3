import Descent.Proofs.Declarations
import Descent.Proofs.Lexing
import Descent.Proofs.Phrases

/-!
# Where spans stand in a text

A span stands in a text if it covers a stretch of it (`Span.StandsIn`).  The tokens of a text stand
in it one after the other, so that a span from one token to a later one stands in it as well
(`Tokens.placed_ofText`).

* All spans of an item, names, literal texts, parameters and whole attributes, are spans of its
  tokens or go from one of them to a later one (`SpellsItem.marked`).
* The code of a production stands after the brace and the blanks of its token, and a name that the
  code refers to right after a dollar sign (`Placed.exists_covers_code`,
  `ActionCode.exists_of_mem_namesAfter`).
-/

namespace Descent

/-! ### Spans in a text -/

namespace Span

/-- A span that covers a stretch of a text. -/
def StandsIn (s : Span) (file : String) (text : List Char) : Prop :=
  ∃ before inner after, text = before ++ inner ++ after ∧ s.Covers file before inner

variable {s t : Span} {file : String} {before inner : List Char}

/-- A span that is grown to a later one covers all between them. -/
theorem Covers.widen {between inner' : List Char} (hs : s.Covers file before inner)
    (ht : t.Covers file (before ++ inner ++ between) inner') :
  (s.widen t).Covers file before (inner ++ between ++ inner')
  := by
  have hstart := ht.start
  have hstop := ht.stop
  simp only [byteLength_append] at hstart hstop
  constructor
  case file => exact hs.file
  case start =>
    change min s.start t.start = _
    rw [hs.start, hstart]
    omega
  case stop =>
    change max s.stop t.stop = _
    rw [hs.stop, hstop]
    simp only [byteLength_append]
    omega
  case line => exact hs.line
  case column => exact hs.column

/-- What is found in a stretch after some text stands after that text. -/
theorem Covers.within (hs : s.Covers file before inner) (skipped found : List Char) :
  (s.within skipped found).Covers file (before ++ skipped) found
  := by
  rw [Span.within, hs.position, hs.file, ← Position.advance_append]
  apply covers_ofPosition

end Span

namespace Description

/-! ### Tokens in their order -/

/-- Two lexemes of a text, one before the other. -/
def Precedes (file : String) (text : List Char) (l r : Lexeme Kind) : Prop :=
  ∃ u m v, text = u ++ l.text.toList ++ m ++ r.text.toList ++ v ∧
    l.span.Covers file u l.text.toList ∧
    r.span.Covers file (u ++ l.text.toList ++ m) r.text.toList

theorem Precedes.standsIn_widen {file : String} {text : List Char} {l r : Lexeme Kind}
    (h : Precedes file text l r) :
  (l.span.widen r.span).StandsIn file text
  := by
  obtain ⟨u, m, v, htext, hl, hr⟩ := h
  refine ⟨u, l.text.toList ++ m ++ r.text.toList, v, ?_, hl.widen hr⟩
  rw [htext]
  simp only [List.append_assoc]

namespace Tiles

variable {file : String} {before cs : List Char} {ls : List (Lexeme Kind)}

/-- Every lexeme of a tiling comes after the text before it. -/
theorem exists_covers_after (h : Tiles file before ls cs) :
  ∀ l ∈ ls, ∃ m v, cs = m ++ l.text.toList ++ v ∧
    l.span.Covers file (before ++ m) l.text.toList
  := by
  induction h with
  | nil => exact List.forall_mem_nil _
  | @cons before rest l ls hl h ih =>
    rw [List.forall_mem_cons]
    constructor
    · exact ⟨[], rest, rfl, by rwa [List.append_nil]⟩
    · intro r hr
      obtain ⟨m, v, rfl, hcovers⟩ := ih r hr
      exact ⟨l.text.toList ++ m, v, by simp, by rwa [← List.append_assoc]⟩

theorem pairwise_precedes (h : Tiles file before ls cs) :
  ls.Pairwise (Precedes file (before ++ cs))
  := by
  induction h with
  | nil => apply List.Pairwise.nil
  | @cons before rest l ls hl h ih =>
    rw [← List.append_assoc]
    apply List.Pairwise.cons _ ih
    intro r hr
    obtain ⟨m, v, rfl, hcovers⟩ := h.exists_covers_after r hr
    exact ⟨before, m, v, by simp, hl, hcovers⟩

end Tiles

/-! ### What is cut off -/

/-- A lexeme that is cut off at the front of some text. -/
def IsCut (l : Lexeme Kind) : Prop :=
  ∃ context c cs, l.kind = (extent context c cs).kind ∧
    l.text.toList = c :: cs.take (extent context c cs).tail

/-- What is known of the tokens of the rest of a text, given the lexemes that were skipped since the
last token: all lexemes are cut off, and whatever is reported is about one that is left open. -/
def Tokens.AreCut (ts : Tokens) (skipped : List (Lexeme Kind)) : Prop :=
  ∃ ls, ts.lexemes = skipped ++ ls ∧ (∀ l ∈ ls, IsCut l) ∧
    ∀ y ∈ ts.diagnostics, ∃ what, ∃ l ∈ ls, y = (Problem.unterminated what).located l.span

namespace Tokens

theorem areCut_ofRest (file : String) (context : Context) (p : Position)
    (skipped : List (Lexeme Kind)) (cs : List Char) :
  (ofRest file context p skipped cs).AreCut skipped
  := by
  -- What one lexeme leaves open is reported before what the others do.
  have hreported : ∀ (e : Extent) (l : Lexeme Kind) (ls : List (Lexeme Kind))
      (ds : List Diagnostic),
      (∀ y ∈ ds, ∃ what, ∃ r ∈ ls, y = (Problem.unterminated what).located r.span) →
      ∀ y ∈ (e.unterminated.toList.map fun what => (Problem.unterminated what).located l.span) ++
        ds, ∃ what, ∃ r ∈ l :: ls, y = (Problem.unterminated what).located r.span := by
    intro e l ls ds hds y hy
    obtain hy | hy := List.mem_append.mp hy
    · obtain ⟨what, -, rfl⟩ := List.mem_map.mp hy
      exact ⟨what, l, List.mem_cons_self, rfl⟩
    · obtain ⟨what, r, hr, rfl⟩ := hds y hy
      exact ⟨what, r, List.mem_cons_of_mem _ hr, rfl⟩
  fun_induction ofRest file context p skipped cs with
  | case1 context p skipped =>
    refine ⟨[], ?_, List.forall_mem_nil _, List.forall_mem_nil _⟩
    rw [List.append_nil]
    rfl
  | case2 context p skipped c cs e text span lexeme left hk after ih =>
    obtain ⟨ls, hls, hcut, hsaid⟩ := ih
    have hlexeme : IsCut lexeme := ⟨context, c, cs, rfl, String.toList_ofList⟩
    refine ⟨lexeme :: ls, ?_, List.forall_mem_cons.mpr ⟨hlexeme, hcut⟩,
      hreported e lexeme ls _ hsaid⟩
    rw [List.append_cons]
    apply hls
  | case3 context p skipped c cs e text span lexeme left hk after ih =>
    obtain ⟨ls, hls, hcut, hsaid⟩ := ih
    have hlexeme : IsCut lexeme := ⟨context, c, cs, rfl, String.toList_ofList⟩
    refine ⟨lexeme :: ls, ?_, List.forall_mem_cons.mpr ⟨hlexeme, hcut⟩,
      hreported e lexeme ls _ hsaid⟩
    rw [List.append_cons, lexemes, List.flatMap_cons, List.append_assoc]
    congr 1

/-- The tokens are among the lexemes, in their order. -/
theorem sublist_lexemes (ts : Tokens) :
  (ts.tokens.map (·.toLexeme)).Sublist ts.lexemes
  := by
  rw [lexemes]
  apply List.sublist_append_of_sublist_left
  induction ts.tokens with
  | nil => apply List.nil_sublist
  | cons t us ih =>
    rw [List.map_cons, List.flatMap_cons]
    apply List.Sublist.append (List.sublist_append_right t.skipped [t.toLexeme]) ih

end Tokens

/-- Tokens that stand in a text in their order, each of them cut off some text. -/
structure Placed (file : String) (text : List Char) (us : List Token) : Prop where
  covers : ∀ t ∈ us, ∃ u v, text = u ++ t.text.toList ++ v ∧ t.span.Covers file u t.text.toList
  cut : ∀ t ∈ us, IsCut t.toLexeme
  ordered : us.Pairwise fun l r => Precedes file text l.toLexeme r.toLexeme

/-- The tokens of a text stand in it. -/
theorem Tokens.placed_ofText (text file : String) :
  Placed file text.toList (ofText text file).tokens
  := by
  have hwhole : (ofText text file).Cut file [] [] text.toList := cut_ofRest _ _ _ _ _ rfl
  obtain ⟨-, ls, hls, -, htiles⟩ := hwhole
  obtain ⟨ls', hls', hcut, -⟩ := areCut_ofRest file .plain .start [] text.toList
  rw [List.nil_append] at hls hls'
  obtain rfl := hls'.symm.trans hls
  have hsub := sublist_lexemes (ofText text file)
  rw [hls] at hsub
  have hmem : ∀ t ∈ (ofText text file).tokens, t.toLexeme ∈ ls' :=
    fun t ht => hsub.subset (List.mem_map_of_mem ht)
  constructor
  case covers => exact fun t ht => htiles.exists_covers t.toLexeme (hmem t ht)
  case cut => exact fun t ht => hcut t.toLexeme (hmem t ht)
  case ordered => exact List.pairwise_map.mp (htiles.pairwise_precedes.sublist hsub)

/-! ### Spans of phrases -/

/-- The span of a token, or that from a token to a later one. -/
inductive Marked (us : List Token) : Span → Prop
  | token {t : Token} (h : t ∈ us) : Marked us t.span
  | stretch {l r : Token} (h : [l, r].Sublist us) : Marked us (l.span.widen r.span)

theorem Marked.mono {us vs : List Token} {s : Span} (h : Marked us s) (hs : us.Sublist vs) :
  Marked vs s
  := by
  cases h with
  | token h => apply Marked.token (hs.subset h)
  | stretch h => apply Marked.stretch (h.trans hs)

/-- Marked spans stand in the text of the tokens. -/
theorem Placed.standsIn {file : String} {text : List Char} {us : List Token} {s : Span}
    (h : Placed file text us) (hs : Marked us s) :
  s.StandsIn file text
  := by
  cases hs with
  | @token t ht =>
    obtain ⟨u, v, htext, hcovers⟩ := h.covers t ht
    exact ⟨u, t.text.toList, v, htext, hcovers⟩
  | stretch hlr =>
    have hpair := h.ordered.sublist hlr
    rw [List.pairwise_pair] at hpair
    apply hpair.standsIn_widen

/-- Each of several phrases is spelled by some of the tokens. -/
theorem Many.exists_of_mem {α : Type} {R : List Token → α → Prop} {us : List Token} {as : List α}
    (h : Many R us as) :
  ∀ a ∈ as, ∃ vs, vs.Sublist us ∧ R vs a
  := by
  induction h with
  | nil => exact List.forall_mem_nil _
  | @cons us vs a as h hs ih =>
    rw [List.forall_mem_cons]
    refine ⟨⟨us, List.sublist_append_left us vs, h⟩, fun b hb => ?_⟩
    obtain ⟨ws, hws, hR⟩ := ih b hb
    exact ⟨ws, hws.trans (List.sublist_append_right us vs), hR⟩

theorem spansAll_cons_subset {us vs : List Token} {e : Expr} {es : List Expr}
    (h : e.spans ⊆ us.map (·.span)) (hs : Expr.spansAll es ⊆ vs.map (·.span)) :
  Expr.spansAll (e :: es) ⊆ (us ++ vs).map (·.span)
  := by
  rw [List.map_append]
  apply List.append_subset.mpr
    ⟨List.subset_append_of_subset_left _ h, List.subset_append_of_subset_right _ hs⟩

theorem spans_of_operator? {kind : Kind} {operator : Expr → Expr}
    (h : kind.operator? = some operator) (e : Expr) :
  (operator e).spans = e.spans
  := by
  unfold Kind.operator? at h
  split at h <;> cases h <;> rfl

/-- The names and the literal texts of an expression stand at tokens. -/
theorem SpellsChoice.spans_subset {us : List Token} {e : Expr} (h : SpellsChoice us e) :
  e.spans ⊆ us.map (·.span)
  := by
  -- One induction over all the relations that spell expressions.
  refine @SpellsChoice.rec (fun us e _ => e.spans ⊆ us.map (·.span))
    (fun us e _ => e.spans ⊆ us.map (·.span)) (fun us e _ => e.spans ⊆ us.map (·.span))
    (fun us e _ => e.spans ⊆ us.map (·.span)) (fun us es _ => Expr.spansAll es ⊆ us.map (·.span))
    (fun us es _ => Expr.spansAll es ⊆ us.map (·.span)) (fun us e _ => e.spans ⊆ us.map (·.span))
    ?ident ?literal ?group ?plain ?postfixed ?symbol ?symbols ?concat ?choice ?noSymbol ?nextSymbol
    ?noConcat ?nextConcat ?after us e h
  case ident => exact fun _ => List.Subset.refl _
  case literal => exact fun _ => List.Subset.refl _
  case group =>
    intro l r us e _ _ _ ih
    rw [List.map_cons, List.map_append]
    apply List.subset_cons_of_subset _ (List.subset_append_of_subset_left _ ih)
  case plain => exact fun _ ih => ih
  case postfixed =>
    intro t us e operator _ ht ih
    rw [spans_of_operator? ht, List.map_append]
    apply List.subset_append_of_subset_left _ ih
  case symbol => exact fun _ ih => ih
  case symbols => exact fun _ _ _ ih ih' => spansAll_cons_subset ih ih'
  case concat => exact fun _ ih => ih
  case choice => exact fun _ _ _ ih ih' => spansAll_cons_subset ih ih'
  case noSymbol => exact List.nil_subset _
  case nextSymbol => exact fun _ _ ih ih' => spansAll_cons_subset ih ih'
  case noConcat => exact List.nil_subset _
  case nextConcat => exact fun _ _ ih ih' => spansAll_cons_subset ih ih'
  case after => exact fun _ _ ih => List.subset_cons_of_subset _ ih

/-! ### Spans of items -/

theorem SpellsParam.marked {us : List Token} {p : Located Param} (h : SpellsParam us p) :
  Marked us p.span
  := by cases h <;> apply Marked.token List.mem_cons_self

theorem SpellsParams.marked {us : List Token} {ps : List (Located Param)} (h : SpellsParams us ps) :
  ∀ p ∈ ps, Marked us p.span
  := by
  cases h with
  | absent => exact List.forall_mem_nil _
  | empty => exact List.forall_mem_nil _
  | @some l r us vs p ps hl h hs hr =>
    have hus : us.Sublist (l :: (us ++ (vs ++ [r]))) := (List.sublist_append_left _ _).cons l
    have hvs : vs.Sublist (l :: (us ++ (vs ++ [r]))) :=
      ((List.sublist_append_left vs [r]).trans (List.sublist_append_right us _)).cons l
    rw [List.forall_mem_cons]
    refine ⟨h.marked.mono hus, fun q hq => ?_⟩
    obtain ⟨ws, hws, ht, hq⟩ := hs.exists_of_mem q hq
    apply (hq.marked.mono (List.sublist_cons_self _ _)).mono (hws.trans hvs)

theorem SpellsAttribute.marked {us : List Token} {a : Attribute} (h : SpellsAttribute us a) :
  ∀ s ∈ a.spans, Marked us s
  := by
  cases h with
  | @mk l name r us ps hl hname h hr =>
    have hus : us.Sublist (l :: name :: (us ++ [r])) :=
      ((List.sublist_append_left us [r]).cons name).cons l
    have hlr : [l, r].Sublist (l :: name :: (us ++ [r])) :=
      (((List.sublist_append_right us [r])).cons name).cons_cons l
    rw [Attribute.spans, List.forall_mem_cons, List.forall_mem_cons, List.forall_mem_map]
    refine ⟨.token (by simp), .stretch hlr, fun p hp => (h.marked p hp).mono hus⟩

theorem SpellsEntry.marked {us : List Token} {e : Entry} (h : SpellsEntry us e) :
  ∀ s ∈ e.spans, Marked us s
  := by
  cases h with
  | @mk key equals value semicolon =>
    have hkey : Marked [key, equals, value, semicolon] key.span := .token (by simp)
    have hvalue : Marked [key, equals, value, semicolon] value.span := .token (by simp)
    simp [Entry.spans, hkey, hvalue]

theorem SpellsBody.marked {us : List Token} {rhs : Rhs} {code : Option (Located String)}
    (h : SpellsBody us rhs code) :
  ∀ s ∈ rhs.spans, Marked us s
  := by
  cases h with
  | pattern => exact List.forall_mem_singleton.mpr (.token List.mem_cons_self)
  | rule h =>
    intro s hs
    obtain ⟨t, ht, rfl⟩ := List.mem_map.mp (h.spans_subset hs)
    apply Marked.token (List.mem_append_left _ ht)

/-- All spans of an item are marked by its tokens. -/
theorem SpellsItem.marked {us : List Token} {i : Item} (h : SpellsItem us i) :
  ∀ s ∈ i.spans, Marked us s
  := by
  cases h with
  | @directive sign name l r us entries hsign hname hl h hr =>
    have hus : us.Sublist (sign :: name :: l :: (us ++ [r])) :=
      (((List.sublist_append_left us [r]).cons l).cons name).cons sign
    rw [Item.spans, List.forall_mem_cons, List.forall_mem_flatMap]
    refine ⟨.token (by simp), fun e he => ?_⟩
    obtain ⟨vs, hvs, he⟩ := h.exists_of_mem e he
    exact fun s hs => (he.marked s hs).mono (hvs.trans hus)
  | production h =>
    cases h with
    | @mk name arrow semicolon us vs ws before after rhs code hbefore hname hafter harrow h hsemi =>
      have hus : us.Sublist (us ++ (name :: (vs ++ (arrow :: (ws ++ [semicolon]))))) :=
        List.sublist_append_left _ _
      have hvs : vs.Sublist (us ++ (name :: (vs ++ (arrow :: (ws ++ [semicolon]))))) :=
        List.sublist_append_of_sublist_right ((List.sublist_append_left _ _).cons name)
      have hws : ws.Sublist (us ++ (name :: (vs ++ (arrow :: (ws ++ [semicolon]))))) :=
        List.sublist_append_of_sublist_right
          ((List.sublist_append_of_sublist_right ((List.sublist_append_left _ _).cons arrow)).cons
            name)
      rw [Item.spans, Production.spans, List.forall_mem_cons, List.forall_mem_append,
        List.forall_mem_flatMap, List.forall_mem_append]
      refine ⟨.token (by simp), ⟨fun a ha => ?_, fun a ha => ?_⟩, fun s hs => ?_⟩
      · obtain ⟨us', hus', ha⟩ := hbefore.exists_of_mem a ha
        exact fun s hs => (ha.marked s hs).mono (hus'.trans hus)
      · obtain ⟨vs', hvs', ha⟩ := hafter.exists_of_mem a ha
        exact fun s hs => (ha.marked s hs).mono (hvs'.trans hvs)
      · apply (h.marked s hs).mono hws

/-- The code of a production is that of one of its tokens. -/
theorem SpellsProduction.exists_code {us : List Token} {p : Production} {c : Located String}
    (h : SpellsProduction us p) (hc : p.code = some c) :
  ∃ t ∈ us, t.kind = .code c.value ∧ SpellsCode [t] (some c)
  := by
  obtain ⟨-, -, -, -, h, -⟩ := h
  cases h with
  | pattern => cases hc
  | rule _ hcode _ =>
    cases hc
    obtain ⟨t, rfl, ht⟩ := hcode.exists_kind
    exact ⟨t, by simp, ht, hcode⟩

/-! ### Codes -/

/-- The text of a code stands at the front of what follows the opening brace. -/
theorem text_codeBody_prefix (depth : Nat) (cs : List Char) :
  (codeBody depth cs).text <+: cs.take (codeBody depth cs).length
  := by
  fun_induction codeBody depth cs <;>
    simp_all [Body.prepend, Nat.add_comm 1]

/-- A text that goes on consists of blanks, the trimmed text, and what comes then. -/
theorem exists_eq_trim (cs rest : List Char) :
  ∃ after, cs ++ rest = (cs ++ rest).takeWhile Text.isBlank ++ Text.trim cs ++ after
  := by
  by_cases hblank : ∀ c ∈ cs, Text.isBlank c
  · have htrim : Text.trim cs = [] := by
      rw [Text.trim, Text.trimLeft, List.dropWhile_eq_nil_iff.mpr hblank]
      rfl
    refine ⟨(cs ++ rest).dropWhile Text.isBlank, ?_⟩
    rw [htrim, List.append_nil, List.takeWhile_append_dropWhile]
  · -- The first character that is not blank is in the text itself.
    obtain ⟨after, hafter⟩ := List.rdropWhile_prefix Text.isBlank (Text.trimLeft cs)
    refine ⟨after ++ rest, ?_⟩
    have htake : (cs ++ rest).takeWhile Text.isBlank = cs.takeWhile Text.isBlank := by
      rw [List.takeWhile_append, if_neg]
      intro hlength
      apply hblank
      rw [← List.takeWhile_eq_self_iff]
      apply (List.takeWhile_prefix _).eq_of_length hlength
    rw [htake, ← List.append_assoc, List.append_assoc (cs.takeWhile _)]
    change _ = _ ++ (List.rdropWhile _ _ ++ after) ++ rest
    rw [hafter, Text.trimLeft, List.takeWhile_append_dropWhile]

/-- What a lexeme after an opening brace is if it is a code block: its body without blanks. -/
def Extent.IsCodeAs (e : Extent) (cs : List Char) : Prop :=
  ∀ body, e.kind = .code body →
    body.toList = Text.trim (codeBody 0 cs).text ∧ e.tail = (codeBody 0 cs).length

theorem isCodeAs_extent (context : Context) (c : Char) (cs : List Char) :
  (extent context c cs).IsCodeAs cs
  := by
  intro body
  fun_cases extent context c cs with
  | case7 =>
    intro h
    obtain rfl := Kind.code.inj h
    exact ⟨String.toList_ofList, rfl⟩
  | case9 => obtain h | h := kind_numberExtent cs <;> simp [h]
  | case11 => exact fun h => absurd h ((punctuation_ne c).2.2.1 body)
  | _ => rintro ⟨⟩

/-- Behind the opening of a code block comes its code. -/
theorem Placed.exists_eq_code {file : String} {text : List Char} {us : List Token} {t : Token}
    (h : Placed file text us) (ht : t ∈ us) {body : String} (hk : t.kind = .code body)
    {opening inside : List Char} (hopens : Opens t.text.toList opening inside) :
  ∃ after, t.text.toList = opening ++ body.toList ++ after ∧ inside = body.toList ++ after
  := by
  obtain ⟨context, c, cs, hkind, hcut⟩ := h.cut t ht
  obtain ⟨hbody, htail⟩ := isCodeAs_extent context c cs body (hkind.symm.trans hk)
  obtain ⟨rest, hrest⟩ := text_codeBody_prefix 0 cs
  obtain ⟨after, hafter⟩ := exists_eq_trim (codeBody 0 cs).text rest
  rw [htail, ← hrest] at hcut
  rw [← hbody] at hafter
  obtain ⟨hopening, htext⟩ := hopens.eq_append
  have hbehind : t.text.toList = opening ++ body.toList ++ after := by
    rw [hopening, hcut]
    apply congrArg (c :: ·) hafter
  refine ⟨after, hbehind, ?_⟩
  rw [htext, List.append_assoc] at hbehind
  apply List.append_cancel_left hbehind

/-- The code of a code block stands where its span says. -/
theorem Placed.exists_covers_code {file : String} {text : List Char} {us : List Token} {t : Token}
    (h : Placed file text us) (ht : t ∈ us) {code : Located String}
    (hcode : SpellsCode [t] (some code)) :
  ∃ before after, text = before ++ code.value.toList ++ after ∧
    code.span.Covers file before code.value.toList
  := by
  cases hcode with
  | @present t body opening inside hk hopens hroom =>
    obtain ⟨after, hcut, -⟩ := h.exists_eq_code ht hk hopens
    obtain ⟨u, v, htext, hcovers⟩ := h.covers t ht
    refine ⟨_, after ++ v, ?_, hcovers.within _ _⟩
    rw [htext, hcut]
    simp only [List.append_assoc]
  | @crowded t body opening inside hk hopens hroom =>
    -- The code is part of what is inside, so there is room for it.
    obtain ⟨after, -, rfl⟩ := h.exists_eq_code ht hk hopens
    rw [byteLength_append] at hroom
    omega

end Description

/-! ### Names in a code -/

/-- A name that a code refers to stands in it right after a dollar sign. -/
theorem ActionCode.exists_of_mem_namesAfter {before name : List Char} (ps : List Piece) :
    ∀ skipped : List Char, (before, name) ∈ namesAfter skipped ps →
  ∃ first after, before = first ++ ['$'] ∧
    skipped ++ ps.flatMap Piece.text = before ++ name ++ after
  := by
  induction ps with
  | nil => rintro skipped ⟨⟩
  | cons p ps ih =>
    intro skipped h
    cases p with
    | char c =>
      obtain ⟨first, after, hfirst, heq⟩ := ih _ h
      refine ⟨first, after, hfirst, ?_⟩
      rw [← heq, List.flatMap_cons, List.append_assoc]
      rfl
    | reference r =>
      obtain h | h := List.mem_cons.mp h
      · cases h
        refine ⟨skipped, indexText r.index ++ ps.flatMap Piece.text, rfl, ?_⟩
        simp [Piece.text, Reference.text]
      · obtain ⟨first, after, hfirst, heq⟩ := ih _ h
        refine ⟨first, after, hfirst, ?_⟩
        rw [← heq, List.flatMap_cons, List.append_assoc]
        rfl

end Descent
