import Descent.Compilation
import Descent.Proofs.PhraseSoundness
import Descent.Proofs.Places

/-!
# Where diagnostics point to

A diagnostic with a place points into a text if it gives the bytes, the line and the column of a
stretch of that text; one about a reference that is not matched points to the name after its dollar
sign (`Diagnostic.PointsInto`).

* Where a parser fails, the last of the tokens are left (`Parser.Leaves`), so that what is reported
  is about a token or the end of the text (`Description.pointsInto_parse`).
* While items are declared and rules are added, everything is reported at spans of the description,
  and the nonterminals keep such spans (`Draft.PointsInto`).
* So all diagnostics of a compilation point into its text (`Compilation.pointsInto_ofText`).
-/

namespace Descent

open Description (Item Production Expr Token)

/-! ### Pointing into a text -/

/-- A diagnostic that points into a text, if it has a place at all: its bytes are those of a stretch
of the text, and line and column count the line feeds before it and the characters since the last of
them.  If it is about a reference that is not matched, then it points to the name of that reference,
which a dollar sign precedes. -/
structure Diagnostic.PointsInto (file : String) (text : List Char) (y : Diagnostic) : Prop where
  place : y.line ≠ 0 → ∃ before inner after, text = before ++ inner ++ after ∧ y.file = file ∧
    y.position = byteLength before ∧ y.length = byteLength inner ∧
    y.line = 1 + before.count '\n' ∧ y.column = 1 + (lastLine before).length
  reference : y.code = 0x1016 → y.line ≠ 0 ∧ ∃ (name : String) (before after : List Char),
    y.message = s!"Variable ${name} cannot be matched." ∧
    text = before ++ '$' :: (name.toList ++ after) ∧
    y.position = byteLength (before ++ ['$']) ∧ y.length = byteLength name.toList

variable {file : String} {text : List Char}

/-- What is located at a span that stands in a text points there. -/
theorem Span.Covers.place {s : Span} {before inner : List Char} (h : s.Covers file before inner)
    (p : Problem) :
  (p.located s).file = file ∧ (p.located s).position = byteLength before ∧
    (p.located s).length = byteLength inner ∧ (p.located s).line = 1 + before.count '\n' ∧
    (p.located s).column = 1 + (lastLine before).length
  := by
  refine ⟨h.file, h.start, ?_, h.line, h.column⟩
  change s.stop - s.start = _
  rw [h.start, h.stop, Nat.add_sub_cancel_left]

theorem Problem.pointsInto_located {p : Problem} {s : Span} (hp : p.code ≠ 0x1016)
    (hs : s.line ≠ 0 → s.StandsIn file text) :
  (p.located s).PointsInto file text
  := by
  constructor
  case place =>
    intro hline
    obtain ⟨before, inner, after, htext, hcovers⟩ := hs hline
    exact ⟨before, inner, after, htext, hcovers.place p⟩
  case reference => exact fun hcode => absurd hcode hp

/-- Remarks at spans that stand in a text point into it. -/
theorem Diagnostic.IsRemark.pointsInto {spans : List Span} {y : Diagnostic} (h : y.IsRemark spans)
    (hs : ∀ s ∈ spans, s.StandsIn file text) :
  y.PointsInto file text
  := by
  obtain ⟨p, hp, s, hmem, rfl⟩ := h
  apply Problem.pointsInto_located (Problem.code_of_isNaming hp).2.1 fun _ => hs s hmem

/-- A reference of a code that is not matched is reported at its name. -/
theorem Grammar.pointsInto_unmatched {g : Grammar} {r : Rule} {code : Located String}
    {before after : List Char} (htext : text = before ++ code.value.toList ++ after)
    (hcode : code.span.Covers file before code.value.toList) :
  ∀ y ∈ g.unmatched r code, y.PointsInto file text
  := by
  intro y hy
  obtain ⟨skipped, name, hmem, rfl⟩ := exists_of_mem_unmatched hy
  obtain ⟨first, rest, rfl, heq⟩ := ActionCode.exists_of_mem_namesAfter _ _ hmem
  rw [List.nil_append, ActionCode.flatMap_text_pieces] at heq
  have hcovers := hcode.within (first ++ ['$']) name
  have hplace := hcovers.place (.unmatchedVariable (String.ofList name))
  rw [heq] at htext
  constructor
  case place =>
    intro _
    refine ⟨before ++ (first ++ ['$']), name, rest ++ after, ?_, hplace⟩
    rw [htext]
    simp only [List.append_assoc]
  case reference =>
    intro _
    constructor
    · rw [hplace.2.2.2.1]
      omega
    · refine ⟨String.ofList name, before ++ first, rest ++ after, rfl, ?_, ?_, ?_⟩
      · rw [htext, String.toList_ofList]
        simp
      · rw [hplace.2.1, List.append_assoc]
      · rw [hplace.2.2.1, String.toList_ofList]

namespace Description

/-! ### What parsers leave -/

namespace Parser

/-- A parser that leaves the last of the tokens, both where it ends and where it fails. -/
structure Leaves {α : Type} (p : Parser α) : Prop where
  of_ok : ∀ ts a rest, p ts = .ok (a, rest) → rest <:+ ts
  of_error : ∀ ts f, p ts = .error f → f.rest <:+ ts

variable {α β : Type} {p : Parser α}

theorem leaves_pure (a : α) :
  Leaves (pure a : Parser α)
  := by
  constructor
  · rintro ts _ rest ⟨⟩
    apply List.suffix_refl
  · rintro ts f ⟨⟩

theorem leaves_fail (expected : Expected) :
  Leaves (fail expected : Parser α)
  := by
  constructor
  · rintro ts a rest ⟨⟩
  · rintro ts f ⟨⟩
    apply List.suffix_refl

theorem leaves_peek :
  Leaves peek
  := by
  constructor
  · rintro ts _ rest ⟨⟩
    apply List.suffix_refl
  · rintro ts f ⟨⟩

theorem leaves_token (expected : Expected) (f : Token → Option α) :
  Leaves (token expected f)
  := by
  constructor
  · rintro (_ | ⟨t, ts⟩) a rest h
    · cases h
    · rw [token] at h
      split at h <;> cases h
      apply List.suffix_cons
  · rintro (_ | ⟨t, ts⟩) failure h
    · cases h
      apply List.suffix_refl
    · rw [token] at h
      split at h <;> cases h
      apply List.suffix_refl

theorem leaves_accept (kind : Kind) :
  Leaves (accept kind)
  := by
  constructor
  · rintro (_ | ⟨t, ts⟩) a rest h
    · cases h
      apply List.suffix_refl
    · rw [accept] at h
      split at h <;> cases h
      · apply List.suffix_cons
      · apply List.suffix_refl
  · rintro (_ | ⟨t, ts⟩) failure h
    · cases h
    · rw [accept] at h
      split at h <;> cases h

theorem Leaves.bind {f : α → Parser β} (hp : Leaves p) (hf : ∀ a, Leaves (f a)) :
  Leaves (p >>= f)
  := by
  constructor
  · intro ts b rest h
    obtain ⟨a, mid, ha, hb⟩ := of_bind_ok h
    apply ((hf a).of_ok mid b rest hb).trans (hp.of_ok ts a mid ha)
  · intro ts failure h
    cases hr : p ts with
    | error failure' =>
      rw [bind_of_error hr] at h
      cases h
      apply hp.of_error ts failure hr
    | ok r =>
      rw [bind_of_ok hr] at h
      apply ((hf r.1).of_error r.2 failure h).trans (hp.of_ok ts r.1 r.2 hr)

theorem Leaves.map (hp : Leaves p) (f : α → β) :
  Leaves (f <$> p)
  := by
  rw [map_eq_pure_bind]
  apply hp.bind fun a => leaves_pure (f a)

theorem leaves_many {p : Parser (Option α)} (hp : Leaves p) :
  Leaves (many p)
  := by
  constructor
  · intro ts
    fun_induction Parser.many p ts with
    | case1 ts f hf => rintro as rest ⟨⟩
    | case2 ts rest hr =>
      rintro as _ ⟨⟩
      apply hp.of_ok ts none rest hr
    | case3 ts a rest hr hlt f hf ih => rintro as rest' ⟨⟩
    | case4 ts a rest hr hlt as rest' hm ih =>
      rintro _ _ ⟨⟩
      apply (ih as rest' hm).trans (hp.of_ok ts (some a) rest hr)
    | case5 ts a rest hr hlt =>
      rintro _ _ ⟨⟩
      apply hp.of_ok ts (some a) rest hr
  · intro ts
    fun_induction Parser.many p ts with
    | case1 ts f hf =>
      rintro _ ⟨⟩
      apply hp.of_error ts f hf
    | case2 ts rest hr => rintro _ ⟨⟩
    | case3 ts a rest hr hlt f hf ih =>
      rintro _ ⟨⟩
      apply (ih f hf).trans (hp.of_ok ts (some a) rest hr)
    | case4 ts a rest hr hlt as rest' hm ih => rintro _ ⟨⟩
    | case5 ts a rest hr hlt => rintro _ ⟨⟩

end Parser

open Description.Parser

theorem leaves_ident (expected : Expected) :
  Leaves (ident expected)
  := leaves_token expected _

theorem leaves_string (expected : Expected) :
  Leaves (string expected)
  := leaves_token expected _

theorem leaves_expect (kind : Kind) (expected : Expected) :
  Leaves (expect kind expected)
  := leaves_token expected _

theorem leaves_entryOrEnd :
  Leaves entryOrEnd
  := by
  apply (leaves_accept _).bind
  rintro (_ | r)
  · apply (leaves_ident _).bind
    intro key
    apply (leaves_expect _ _).bind
    intro _
    apply (leaves_string _).bind
    intro value
    apply (leaves_expect _ _).bind
    exact fun _ => leaves_pure _
  · apply leaves_pure

theorem leaves_directiveBlock :
  Leaves directiveBlock
  := by
  apply (leaves_ident _).bind
  intro name
  apply (leaves_expect _ _).bind
  intro _
  apply (leaves_many leaves_entryOrEnd).bind
  exact fun entries => leaves_pure _

theorem leaves_param :
  Leaves param
  := leaves_token _ _

theorem leaves_nextParam? :
  Leaves nextParam?
  := by
  apply (leaves_accept _).bind
  rintro (_ | t)
  · apply leaves_pure
  · apply leaves_param.map

theorem leaves_params :
  Leaves params
  := by
  apply (leaves_accept _).bind
  rintro (_ | l)
  · apply leaves_pure
  · apply leaves_peek.bind
    intro kind
    split
    · apply (leaves_expect _ _).bind
      exact fun _ => leaves_pure _
    · apply leaves_param.bind
      intro first
      apply (leaves_many leaves_nextParam?).bind
      intro others
      apply (leaves_expect _ _).bind
      exact fun _ => leaves_pure _

theorem leaves_attribute? :
  Leaves attribute?
  := by
  apply (leaves_accept _).bind
  rintro (_ | left)
  · apply leaves_pure
  · apply (leaves_ident _).bind
    intro name
    apply leaves_params.bind
    intro ps
    apply (leaves_expect _ _).bind
    exact fun right => leaves_pure _

theorem leaves_postfixed (e : Expr) :
  Leaves (postfixed e)
  := by
  constructor
  · rintro (_ | ⟨t, ts⟩) e' rest h
    · rw [postfixed_nil] at h
      cases h
      apply List.suffix_refl
    · rw [postfixed_cons] at h
      split at h <;> cases h
      · apply List.suffix_cons
      · apply List.suffix_refl
  · rintro (_ | ⟨t, ts⟩) f h
    · rw [postfixed_nil] at h
      cases h
    · rw [postfixed_cons] at h
      split at h <;> cases h

section

variable {symbol : Parser Expr} (h : Leaves symbol)

include h

theorem leaves_concatOf :
  Leaves (concatOf symbol)
  := by
  apply h.bind
  intro first
  apply (leaves_many _).bind
  · exact fun others => leaves_pure _
  · apply leaves_peek.bind
    intro kind
    split
    · apply h.map
    · apply leaves_pure

theorem leaves_choiceOf :
  Leaves (choiceOf symbol)
  := by
  apply (leaves_concatOf h).bind
  intro first
  apply (leaves_many _).bind
  · exact fun others => leaves_pure _
  · apply (leaves_accept _).bind
    rintro (_ | bar)
    · apply leaves_pure
    · apply (leaves_concatOf h).map

end

theorem leaves_symbol (depth : Nat) :
  Leaves (symbol depth)
  := by
  induction depth with
  | zero => apply leaves_fail
  | succ depth ih =>
    apply leaves_peek.bind
    intro kind
    split
    · apply (leaves_ident _).bind fun name => leaves_postfixed _
    · apply (leaves_string _).bind fun value => leaves_postfixed _
    · apply (leaves_expect _ _).bind
      intro _
      apply (leaves_choiceOf ih).bind
      intro inner
      apply (leaves_expect _ _).bind fun _ => leaves_postfixed _
    · apply leaves_fail

theorem leaves_rule :
  Leaves rule
  := by
  constructor
  · exact fun ts => (leaves_choiceOf (leaves_symbol (ts.length + 1))).of_ok ts
  · exact fun ts => (leaves_choiceOf (leaves_symbol (ts.length + 1))).of_error ts

theorem leaves_code? :
  Leaves code?
  := by
  constructor
  · rintro (_ | ⟨t, ts⟩) code rest h
    · cases h
      apply List.suffix_refl
    · rw [code?] at h
      split at h <;> cases h
      · apply List.suffix_cons
      · apply List.suffix_refl
  · rintro (_ | ⟨t, ts⟩) f h
    · cases h
    · rw [code?] at h
      split at h <;> cases h

theorem leaves_rhs :
  Leaves rhs
  := by
  have hpattern := (leaves_string .symbol).map Rhs.pattern
  have hrule := leaves_rule.map Rhs.rule
  constructor
  · intro ts r rest h
    unfold rhs at h
    split at h
    · split at h
      · apply hpattern.of_ok _ _ _ h
      · apply hrule.of_ok _ _ _ h
    · apply hrule.of_ok _ _ _ h
  · intro ts f h
    unfold rhs at h
    split at h
    · split at h
      · apply hpattern.of_error _ _ h
      · apply hrule.of_error _ _ h
    · apply hrule.of_error _ _ h

theorem leaves_production :
  Leaves production
  := by
  apply (leaves_many leaves_attribute?).bind
  intro before
  apply (leaves_ident _).bind
  intro name
  apply (leaves_many leaves_attribute?).bind
  intro after
  apply (leaves_expect _ _).bind
  intro _
  apply leaves_rhs.bind
  intro rhs
  apply leaves_code?.bind
  intro code
  apply (leaves_expect _ _).bind
  exact fun _ => leaves_pure _

theorem leaves_item :
  Leaves item
  := by
  apply leaves_peek.bind
  intro kind
  split
  · apply (leaves_expect _ _).bind fun _ => leaves_directiveBlock.map _
  · apply leaves_production.map
  · apply leaves_production.map
  · apply leaves_fail

/-! ### What is reported of the tokens -/

theorem recover_suffix (ts : List Token) :
  recover ts <:+ ts
  := (List.drop_suffix _ _).trans (List.dropWhile_suffix _)

/-- A failure is reported at one of the last tokens, or at the end. -/
theorem Failure.exists_diagnostic_eq {f : Failure} {ts : List Token} (h : f.rest <:+ ts)
    (eof : Token) :
  ∃ t ∈ eof :: ts, ∃ p : Problem, p.code ≠ 0x1016 ∧ f.diagnostic eof = p.located t.span
  := by
  refine ⟨f.rest.headD eof, ?_, _, ?_, rfl⟩
  · cases hr : f.rest with
    | nil => apply List.mem_cons_self
    | cons t us =>
      rw [hr] at h
      apply List.mem_cons_of_mem _ (h.subset List.mem_cons_self)
  · simp [Problem.code]

/-- All that is reported while items are read is about a token or the end. -/
theorem exists_of_mem_readItems (eof : Token) (ts : List Token) :
  ∀ y ∈ (readItems eof ts).2,
    ∃ t ∈ eof :: ts, ∃ p : Problem, p.code ≠ 0x1016 ∧ y = p.located t.span
  := by
  have hmono : ∀ {us vs : List Token} {ds : List Diagnostic}, us <:+ vs →
      (∀ y ∈ ds, ∃ t ∈ eof :: us, ∃ p : Problem, p.code ≠ 0x1016 ∧ y = p.located t.span) →
      ∀ y ∈ ds, ∃ t ∈ eof :: vs, ∃ p : Problem, p.code ≠ 0x1016 ∧ y = p.located t.span := by
    intro us vs ds hsuffix hds y hy
    obtain ⟨t, ht, hp⟩ := hds y hy
    exact ⟨t, List.cons_subset_cons eof hsuffix.subset ht, hp⟩
  fun_induction readItems eof ts with
  | case1 => exact List.forall_mem_nil _
  | case2 t ts i rest hr hlt is ds hrest ih =>
    rw [hrest] at ih
    apply hmono (leaves_item.of_ok _ _ _ hr) ih
  | case3 t ts i rest hr hlt => exact List.forall_mem_nil _
  | case4 t ts f hr hlt is ds hrest ih =>
    have hsuffix := leaves_item.of_error _ _ hr
    rw [hrest] at ih
    rw [List.forall_mem_cons]
    exact ⟨f.exists_diagnostic_eq hsuffix eof, hmono ((recover_suffix _).trans hsuffix) ih⟩
  | case5 t ts f hr hlt =>
    rw [List.forall_mem_singleton]
    apply f.exists_diagnostic_eq (leaves_item.of_error _ _ hr) eof

/-- A description whose names, literal texts, parameters and codes stand in a text. -/
structure StandsIn (desc : Description) (file : String) (text : List Char) : Prop where
  spans : ∀ i ∈ desc.items, ∀ s ∈ i.spans, s.StandsIn file text
  codes : ∀ p ∈ desc.productions, ∀ c ∈ p.code, ∃ before after,
    text = before ++ c.value.toList ++ after ∧ c.span.Covers file before c.value.toList

theorem StandsIn.production {desc : Description} (h : desc.StandsIn file text) {p : Production}
    (hp : p ∈ desc.productions) :
  ∀ s ∈ p.spans, s.StandsIn file text
  := h.spans _ (mem_productions.mp hp)

/-- What is reported while a description is read points into it. -/
theorem pointsInto_parse (text file : String) :
  ∀ y ∈ (Description.parse text file).2, y.PointsInto file text.toList
  := by
  obtain ⟨-, -, -, hlexemes, heof⟩ := Tokens.tiles_ofText text file
  obtain ⟨ls, hls, -, hreported⟩ := Tokens.areCut_ofRest file .plain .start [] text.toList
  rw [List.nil_append] at hls
  have hplaced := Tokens.placed_ofText text file
  rw [parse, List.forall_mem_append]
  constructor
  · intro y hy
    obtain ⟨what, l, hl, rfl⟩ := hreported y hy
    obtain ⟨u, v, htext, hcovers⟩ := hlexemes l (by rw [Tokens.ofText, hls]; exact hl)
    exact Problem.pointsInto_located (by simp [Problem.code]) fun _ => ⟨u, _, v, htext, hcovers⟩
  · intro y hy
    obtain ⟨t, ht, p, hp, rfl⟩ := exists_of_mem_readItems _ _ y hy
    apply Problem.pointsInto_located hp
    intro _
    obtain rfl | ht := List.mem_cons.mp ht
    · exact ⟨text.toList, [], [], by simp, heof⟩
    · apply hplaced.standsIn (.token ht)

/-- A description that is read without a report stands in its text. -/
theorem standsIn_parse {text file : String} (h : (Description.parse text file).2 = []) :
  (Description.parse text file).1.StandsIn file text.toList
  := by
  have hplaced := Tokens.placed_ofText text file
  have hspells := spells_of_readItems _ _ (List.append_eq_nil_iff.mp h).2
  constructor
  case spans =>
    intro i hi s hs
    obtain ⟨us, hus, hi⟩ := hspells.exists_of_mem i hi
    apply hplaced.standsIn ((hi.marked s hs).mono hus)
  case codes =>
    intro p hp c hc
    obtain ⟨us, hus, hspells⟩ := hspells.exists_of_mem _ (mem_productions.mp hp)
    cases hspells with
    | production hspells =>
      obtain ⟨t, ht, -, hcode⟩ := hspells.exists_code hc
      apply hplaced.exists_covers_code (hus.subset ht) hcode

end Description

/-! ### Spans of nonterminals -/

namespace Grammar

/-- The spans of the names of the nonterminals. -/
def nameSpans (g : Grammar) : List Span := (g.nonterminals.map (·.span)).toList

theorem nameSpans_of_core {g g' : Grammar} (h : g'.core = g.core) :
  g'.nameSpans = g.nameSpans
  := by
  have hcore : ∀ g : Grammar, g.nameSpans = (g.core.nonterminals.map (·.span)).toList := by
    intro g
    rw [core, Array.map_map]
    rfl
  rw [hcore, h, ← hcore]

theorem nameSpans_withNonterminal (g : Grammar) (n : Nonterminal) :
  (g.withNonterminal n).nameSpans = g.nameSpans ++ [n.span]
  := by simp [nameSpans, withNonterminal]

theorem nameSpans_define (d : Draft) (n : NonterminalId) (e : Expr)
    (code : Option (Located String)) :
  (d.define n e code).grammar.nameSpans = d.grammar.nameSpans
  := by
  rw [d.define_eq_write, nameSpans, map_modify_of_comp_eq rfl]
  rfl

/-- Left recursions are reported where nonterminals are declared. -/
theorem mem_nameSpans_of_mem_diagnostics {g : Grammar} (hg : g.cached = none) :
  ∀ y ∈ g.firstSets.diagnostics, ∃ name s, y = (Problem.leftRecursion name).located s ∧
    (s.line ≠ 0 → s ∈ g.nameSpans)
  := by
  intro y hy
  rw [firstSets, hg, Option.getD_none, FirstSets.diagnostics, FirstSets.ofGrammar,
    List.map_map] at hy
  obtain ⟨n, -, rfl⟩ := List.mem_map.mp hy
  refine ⟨_, _, rfl, ?_⟩
  dsimp only
  intro hline
  rw [nonterminal, Array.getD_eq_getD_getElem?] at hline ⊢
  cases hn : g.nonterminals[n.index]? with
  | none =>
    rw [hn] at hline
    exact absurd rfl hline
  | some x =>
    have hmem := Array.mem_of_getElem? hn
    rw [nameSpans, Array.toList_map]
    apply List.mem_map_of_mem hmem.val

end Grammar

/-! ### Drafts -/

namespace Draft

/-- What holds of a draft of a description that stands in a text. -/
structure PointsInto (file : String) (text : List Char) (d : Draft) : Prop where
  diagnostics : ∀ y ∈ d.diagnostics, y.PointsInto file text
  nameSpans : ∀ s ∈ d.grammar.nameSpans, s.StandsIn file text

variable {d d' : Draft} {spans : List Span}

theorem PointsInto.annotates (hd : d.PointsInto file text) (h : d.Annotates spans d')
    (hs : ∀ s ∈ spans, s.StandsIn file text) :
  d'.PointsInto file text
  := by
  obtain ⟨hcore, ds, hds, hremarks⟩ := h
  constructor
  · rw [hds, List.forall_mem_append]
    exact ⟨hd.diagnostics, fun y hy => (hremarks y hy).pointsInto hs⟩
  · rw [Grammar.nameSpans_of_core hcore]
    apply hd.nameSpans

theorem PointsInto.report (hd : d.PointsInto file text) {p : Problem} {s : Span}
    (hp : p.code ≠ 0x1016) (hs : s.StandsIn file text) :
  (d.report p s).PointsInto file text
  := by
  constructor
  · exact List.forall_mem_append.mpr
      ⟨hd.diagnostics, List.forall_mem_singleton.mpr (p.pointsInto_located hp fun _ => hs)⟩
  · exact hd.nameSpans

theorem PointsInto.update (hd : d.PointsInto file text) {f : Grammar → Grammar}
    (h : ∀ s ∈ (f d.grammar).nameSpans, s.StandsIn file text) :
  (d.update f).PointsInto file text
  := ⟨hd.diagnostics, h⟩

theorem PointsInto.declares [Engine] (hd : d.PointsInto file text) {i : Item} (h : d.Declares i d')
    (hs : ∀ s ∈ i.spans, s.StandsIn file text) :
  d'.PointsInto file text
  := by
  cases h with
  | directive h => apply hd.annotates h hs
  | invalid => apply hd.report (by simp [Problem.code]) (hs _ List.mem_cons_self)
  | terminal ht hl h => apply (hd.update hd.nameSpans).annotates h hs
  | duplicate ht hl hg h =>
    apply (hd.annotates h hs).report (by simp [Problem.code]) (hs _ List.mem_cons_self)
  | @nonterminal p e d' hr hl h =>
    apply PointsInto.annotates (hd.update _) h hs
    rw [Grammar.nameSpans_withNonterminal, List.forall_mem_append, List.forall_mem_singleton]
    exact ⟨hd.nameSpans, hs _ List.mem_cons_self⟩
  | again hr hl h => apply hd.annotates h hs
  | clash => apply hd.report (by simp [Problem.code]) (hs _ List.mem_cons_self)

theorem PointsInto.declaresLiteral [Engine] (hd : d.PointsInto file text) {reserved : List String}
    {literal : Located String} (h : d.DeclaresLiteral reserved literal d')
    (hs : literal.span.StandsIn file text) :
  d'.PointsInto file text
  := by
  cases h with
  | known => apply hd
  | invalid => apply hd.report (by simp [Problem.code]) hs
  | added => apply hd.update hd.nameSpans

/-- While items are declared, everything is reported at spans of the description. -/
theorem pointsInto_ofDeclarations [Engine] (o : Options) (fs : FileSystem) {desc : Description}
    (h : desc.StandsIn file text) :
  (ofDeclarations o fs desc).PointsInto file text
  := by
  apply ofDeclarations_induction (P := fun d => d.PointsInto file text)
  · refine ⟨List.forall_mem_nil _, fun s hs => ?_⟩
    simp [empty, Grammar.empty, Grammar.nameSpans] at hs
  · intro d d' literal hliteral hd hp
    obtain ⟨p, hp', hliteral⟩ := List.mem_flatMap.mp hliteral
    apply hp.declaresLiteral hd (h.production hp' _ _)
    apply List.mem_cons_of_mem _ (List.mem_append_right _ _)
    apply Description.Rhs.span_mem_spans_of_mem_literals hliteral
  · exact fun d d' i hi hd hp => hp.declares hd (h.spans i hi)

/-- So is everything while rules are added, or in the code of a rule. -/
theorem PointsInto.define (hd : d.PointsInto file text) {desc : Description}
    (h : desc.StandsIn file text) {p : Production} (hp : p ∈ desc.productions) {e : Expr}
    (he : p.rule? = some e) (n : NonterminalId) :
  (d.define n e p.code).PointsInto file text
  := by
  have hspans : ∀ s ∈ e.spans, s.StandsIn file text := by
    intro s hs
    apply h.production hp s (List.mem_cons_of_mem _ (List.mem_append_right _ _))
    unfold Production.rule? at he
    split at he
    case h_1 => cases he
    case h_2 heq =>
      cases he
      rwa [heq]
  constructor
  case diagnostics =>
    rw [define_eq_write]
    simp only [List.forall_mem_append]
    refine ⟨hd.diagnostics, fun y hy => ?_, fun y hy => ?_⟩
    · apply (d.grammar.isRemark_undeclared e false y hy).pointsInto hspans
    · obtain ⟨c, hc, hy⟩ := List.mem_flatMap.mp hy
      obtain ⟨before, after, htext, hcovers⟩ := h.codes p hp c (Option.mem_toList.mp hc)
      apply Grammar.pointsInto_unmatched htext hcovers y hy
  case nameSpans =>
    rw [Grammar.nameSpans_define]
    apply hd.nameSpans

end Draft

/-! ### Compilations -/

/-- All diagnostics of a compilation that have a place point into the text. -/
theorem Compilation.pointsInto_ofText [Engine] (fs : FileSystem) (o : Options)
    (text file : String) :
  ∀ y ∈ (ofText fs o text file).diagnostics, y.PointsInto file text.toList
  := by
  have hparse := Description.pointsInto_parse text file
  have hfull := Description.parse_isFull text file
  rw [ofText]
  split
  · next d ds heq =>
    rw [heq] at hparse
    apply hparse
  · next desc heq =>
    have hdesc := Description.standsIn_parse (congrArg Prod.snd heq)
    rw [heq] at hdesc hfull
    have hdeclared := Draft.pointsInto_ofDeclarations o fs hdesc
    have hdefined : (desc.productions.foldl Draft.defineProduction
        (Draft.ofDeclarations o fs desc)).PointsInto file text.toList := by
      apply Draft.foldl_defineProduction_induction hdeclared
      exact fun d p hp e n he _ hd => hd.define hdesc hp he n
    obtain ⟨-, hnone⟩ | ⟨-, hsome⟩ := Grammar.ofDescription_cases o fs desc
    · rw [hnone, List.forall_mem_append, List.forall_mem_singleton]
      exact ⟨hdeclared.diagnostics,
        Problem.pointsInto_located (by simp [Problem.code]) (absurd rfl)⟩
    · have hcached := (Grammar.closed_of_ofDescription hfull hsome).cached
      rw [hsome, List.forall_mem_append]
      refine ⟨hdefined.diagnostics, fun y hy => ?_⟩
      obtain ⟨name, s, rfl, hs⟩ := Grammar.mem_nameSpans_of_mem_diagnostics hcached y hy
      exact Problem.pointsInto_located (by simp [Problem.code]) fun hline =>
        hdefined.nameSpans s (hs hline)

/-- A description whose code refers, in its second line, to a symbol that its rule has not. -/
def strayText : String := "Start -> A \x7b\n  ä $b \x7d;\nA -> 'a';"

/-- The stray reference is reported at its name. -/
theorem Compilation.pointsInto_strayText :
  let y : Diagnostic := ⟨0x1016, "Variable $b cannot be matched.", "g", 2, 6, 19, 1⟩
  y ∈ (ofText (.bare []) ⟨⟨"."⟩, ⟨"."⟩⟩ strayText "g").diagnostics ∧
    y.PointsInto "g" strayText.toList
  := by
  intro y
  have hy : y ∈ (ofText (.bare []) ⟨⟨"."⟩, ⟨"."⟩⟩ strayText "g").diagnostics := by decide +kernel
  exact ⟨hy, pointsInto_ofText _ _ _ _ y hy⟩

end Descent
