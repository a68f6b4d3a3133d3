import Descent.Proofs.Leaves
import Descent.Proofs.Selection

/-!
# FIRST sets and statements agree

If no alternative is nullable, then the statements of a rule take every token that the rule may
begin with, and pass every other one if the rule is nullable (`Interpreter.Agrees`).  This is shown
along left corners, which end where nothing is left recursive.  So a token in the FIRST set of a
rule is consumed before anything is reported (`Interpreter.comesTo_lower`).

A nullable alternative breaks this (`Interpreter.not_comesTo_lower_optionOrB`): the FIRST set of a
sequence goes on after a choice that has one, whereas the dispatch on the choice never passes on.
-/

namespace Descent

/-! ### Nodes of rules -/

namespace Rule

mutual

/-- The nodes of a rule, beginning with the rule itself. -/
def nodes (r : Rule) : List Rule :=
  r :: match r with
    | concat _ rs | choice _ rs => nodesAll rs
    | option _ r | zeroOrMore _ r | oneOrMore _ r => nodes r
    | terminal .. | nonterminal .. | unresolved .. => []

/-- The nodes of several rules. -/
def nodesAll : List Rule → List Rule
  | [] => []
  | r :: rs => nodes r ++ nodesAll rs

end

variable {id : RuleId} {q r : Rule} {rs : List Rule}

theorem mem_nodesAll :
  q ∈ nodesAll rs ↔ ∃ r ∈ rs, q ∈ r.nodes
  := by
  induction rs with
  | nil => simp [nodesAll]
  | cons r rs ih => simp [nodesAll, ih]

theorem mem_nodes_self (r : Rule) :
  r ∈ r.nodes
  := by
  unfold nodes
  apply List.mem_cons_self

/-- The nodes below a rule are those of its children. -/
theorem mem_nodes :
  q ∈ r.nodes ↔ q = r ∨ ∃ p ∈ r.children, q ∈ p.nodes
  := by
  rw [nodes.eq_def r, List.mem_cons]
  cases r <;> simp [children, mem_nodesAll]

theorem sizeOf_lt_of_mem_children (h : q ∈ r.children) :
  sizeOf q < sizeOf r
  := by
  cases r with
  | concat id rs | choice id rs =>
    have hlt : sizeOf q < sizeOf rs := List.sizeOf_lt_of_mem h
    simp only [concat.sizeOf_spec, choice.sizeOf_spec]
    omega
  | option id r | zeroOrMore id r | oneOrMore id r =>
    rw [List.mem_singleton.mp h]
    simp only [option.sizeOf_spec, zeroOrMore.sizeOf_spec, oneOrMore.sizeOf_spec]
    omega
  | terminal | nonterminal | unresolved => cases h

/-- The nodes of a node of a rule are nodes of the rule. -/
theorem mem_nodes_trans (r : Rule) {p q : Rule} (hq : q ∈ r.nodes) (hp : p ∈ q.nodes) :
  p ∈ r.nodes
  := by
  obtain rfl | ⟨c, hc, hq⟩ := mem_nodes.mp hq
  · apply hp
  · exact mem_nodes.mpr (.inr ⟨c, hc, mem_nodes_trans c hq hp⟩)
termination_by r
decreasing_by apply sizeOf_lt_of_mem_children hc

/-- The nodes of a proper rule are proper. -/
theorem isProper_of_mem_nodes (r : Rule) (hr : r.isProper) (hq : q ∈ r.nodes) :
  q.isProper
  := by
  obtain rfl | ⟨c, hc, hq⟩ := mem_nodes.mp hq
  · apply hr
  · have hcp : c.isProper := by
      cases r with
      | concat id rs => apply (isProper_concat.mp hr).2 c hc
      | choice id rs => apply (isProper_choice.mp hr).2 c hc
      | option id r | zeroOrMore id r | oneOrMore id r =>
        rw [List.mem_singleton.mp hc]
        apply hr
      | terminal | nonterminal | unresolved => cases hc
    apply isProper_of_mem_nodes c hcp hq
termination_by r
decreasing_by apply sizeOf_lt_of_mem_children hc

/-- The alternatives of a choice. -/
def alternatives : Rule → List Rule
  | choice _ rs => rs
  | _ => []

end Rule

/-! ### Choices without a nullable alternative -/

namespace Productions

/-- No alternative of a choice in a rule is nullable. -/
def Selective (ps : Productions) (r : Rule) : Prop :=
  ∀ id qs, .choice id qs ∈ r.nodes → ∀ q ∈ qs, ¬ ps.Nullable q

theorem Selective.child {ps : Productions} {q r : Rule} (h : ps.Selective r)
    (hq : q ∈ r.children) :
  ps.Selective q
  := fun id qs hc => h id qs (Rule.mem_nodes.mpr (.inr ⟨q, hq, hc⟩))

end Productions

/-- A grammar in which a token selects every alternative: none of a choice, and none of several
alternatives of a nonterminal, derives the empty word. -/
structure Grammar.IsSelective (g : Grammar) : Prop where
  choice : ∀ n id qs, .choice id qs ∈ Rule.nodesAll (g.productions n) →
    ∀ q ∈ qs, ¬ g.productions.CanVanish q
  alternatives : ∀ n, 2 ≤ (g.productions n).length →
    ∀ q ∈ g.productions n, ¬ g.productions.CanVanish q

/-- The same, as far as FIRST sets tell. -/
def Grammar.LooksSelective (g : Grammar) : Prop :=
  ∀ n ∈ g.nonterminalIds,
    (∀ r ∈ Rule.nodesAll (g.productions n), ∀ q ∈ r.alternatives,
      ¬ (g.firstSets.ofRule q).empty) ∧
    (2 ≤ (g.productions n).length → ∀ q ∈ g.productions n, ¬ (g.firstSets.ofRule q).empty)

instance (g : Grammar) : Decidable g.LooksSelective :=
  inferInstanceAs (Decidable (∀ n ∈ g.nonterminalIds, _ ∧ _))

namespace Grammar.IsSelective

variable {g : Grammar} {n : NonterminalId} {r : Rule}

theorem selective (h : g.IsSelective) (hg : g.WellFormed)
    (hr : r ∈ Rule.nodesAll (g.productions n)) :
  g.productions.Selective r
  := by
  obtain ⟨p, hp, hr⟩ := Rule.mem_nodesAll.mp hr
  intro id qs hc q hq hn
  have hc := Rule.mem_nodes_trans p hr hc
  apply h.choice n id qs (Rule.mem_nodesAll.mpr ⟨p, hp, hc⟩) q hq
  have hproper := Rule.isProper_choice.mp (Rule.isProper_of_mem_nodes p (hg.proper n p hp) hc)
  apply hn.canVanish hg.proper (hproper.2 q hq)

theorem not_nullable (h : g.IsSelective) (hg : g.WellFormed)
    (hn : 2 ≤ (g.productions n).length) (hr : r ∈ g.productions n) :
  ¬ g.productions.Nullable r
  := fun hv => h.alternatives n hn r hr (hv.canVanish hg.proper (hg.proper n r hr))

end Grammar.IsSelective

/-! ### Selecting an arm -/

namespace Program

variable {g : Grammar} {fs : FirstSets} {t : TerminalId}

/-- A terminal that selects an alternative selects some arm. -/
theorem exists_mem_lowerArms : ∀ {rs : List Rule} {claimed : List TerminalId}, t ∉ claimed →
    (∃ r ∈ rs, t ∈ lookahead fs r) →
  ∃ a ∈ lowerArms g fs claimed rs, t ∈ a.terminals
  | [], _, _, h => by
      obtain ⟨_, ⟨⟩, _⟩ := h
  | r :: rs, claimed, hc, h => by
      rw [lowerArms_cons]
      by_cases hr : t ∈ lookahead fs r
      · have hu : t ∈ unclaimed fs claimed r := List.mem_filter.mpr ⟨hr, by simpa using hc⟩
        rw [if_neg (by simpa using List.ne_nil_of_mem hu)]
        exact ⟨_, List.mem_cons_self, hu⟩
      · have hrs : ∃ r ∈ rs, t ∈ lookahead fs r := by simpa [hr] using h
        have hu : t ∉ claimed ++ unclaimed fs claimed r := by simp [hc, unclaimed, hr]
        obtain ⟨a, ha, hta⟩ := exists_mem_lowerArms hu hrs
        split
        · exact ⟨a, ha, hta⟩
        · exact ⟨a, List.mem_cons_of_mem _ ha, hta⟩

end Program

/-- The compilation of `Start -> (('a'? | 'b') 'c')?;`. -/
def Compilation.optionOrB : Compilation :=
  .ofText (.bare []) ⟨⟨"."⟩, ⟨"."⟩⟩ "Start -> (('a'? | 'b') 'c')?;" ""

namespace Interpreter

open Program

variable {i : Interpreter} {t : TerminalId} {r : Rule} {rs : List Rule} {n : NonterminalId}

/-- A token that selects some of several alternatives is taken by the dispatch on them if all that
it selects take it. -/
theorem takes_dispatchOf {g : Grammar} {fs : FirstSets} (claimed : List TerminalId)
    (ht : ∃ r ∈ rs, t ∈ lookahead fs r)
    (h : ∀ r ∈ rs, t ∈ lookahead fs r → i.Takes t (lower g fs r)) :
  i.Takes t (dispatchOf g claimed (lowerArms g fs [] rs))
  := by
  obtain ⟨a, ha, hta⟩ := exists_mem_lowerArms (g := g) List.not_mem_nil ht
  obtain ⟨arm, harm⟩ : ∃ arm, (lowerArms g fs [] rs).find? (fun a => t ∈ a.terminals) = some arm :=
    Option.isSome_iff_exists.mp (List.find?_isSome.mpr ⟨a, ha, decide_eq_true hta⟩)
  obtain ⟨r, hr, hbody, hsub⟩ := mem_lowerArms (List.mem_of_find?_eq_some harm)
  have htr : t ∈ lookahead fs r := hsub t (of_decide_eq_true (List.find?_some harm :))
  rw [dispatchOf, if_neg (by simpa using List.ne_nil_of_mem ha)]
  apply takes_dispatch _ harm
  rw [hbody]
  apply h r hr htr

section

variable {ts : List TerminalId} {body : List Stmt}

theorem takes_optionalOf (ht : t ∈ ts) (h : i.Takes t body) :
  i.Takes t (optionalOf ts body)
  := by
  rw [optionalOf, if_neg (by simpa using List.ne_nil_of_mem ht)]
  apply takes_optional ht h

theorem passes_optionalOf (ht : t ∉ ts) :
  i.Passes t (optionalOf ts body)
  := by
  rw [optionalOf]
  split
  · apply passes_nil
  · apply passes_optional ht

theorem takes_loopOf (ht : t ∈ ts) (h : i.Takes t body) (atLeastOnce : Bool) :
  i.Takes t (loopOf ts body atLeastOnce)
  := by
  rw [loopOf, if_pos (by simpa using List.ne_nil_of_mem ht)]
  apply takes_loop ht h

theorem passes_loopOf (ht : t ∉ ts) :
  i.Passes t (loopOf ts body false)
  := by
  rw [loopOf]
  split
  · apply passes_loop ht
  · apply passes_nil

theorem passes_loopOf_once (ht : t ∉ ts) (h : i.Passes t body) :
  i.Passes t (loopOf ts body true)
  := by
  rw [loopOf]
  split
  · apply passes_loop_once ht h
  · apply h

end

/-! ### Rules and their statements -/

/-- While a token waits, the statements of a rule that begins with it take it, and those of a
nullable rule that does not begin with it pass it. -/
structure Agrees (i : Interpreter) (t : TerminalId) (r : Rule) : Prop where
  takes : i.grammar.productions.Begins r t → i.Takes t (lower i.grammar i.grammar.firstSets r)
  passes : ¬ i.grammar.productions.Begins r t → i.grammar.productions.Nullable r →
    i.Passes t (lower i.grammar i.grammar.firstSets r)

/-- While a token waits, the statements of a sequence that begins with it take it, and those of one
whose parts are nullable and that does not begin with it pass it. -/
structure SeqAgrees (i : Interpreter) (t : TerminalId) (rs : List Rule) : Prop where
  takes : i.grammar.productions.SeqBegins rs t →
    i.Takes t (lowerSeq i.grammar i.grammar.firstSets rs)
  passes : ¬ i.grammar.productions.SeqBegins rs t →
    (∀ r ∈ rs, i.grammar.productions.Nullable r) →
    i.Passes t (lowerSeq i.grammar i.grammar.firstSets rs)

theorem seqAgrees_nil :
  i.SeqAgrees t []
  := ⟨fun hb => absurd hb Productions.not_seqBegins_nil, fun _ _ => passes_nil⟩

/-- The parts after the first matter only if that may be passed over. -/
theorem Agrees.cons (hr : i.Agrees t r)
    (hrs : i.grammar.productions.Nullable r → i.SeqAgrees t rs) :
  i.SeqAgrees t (r :: rs)
  := by
  constructor
  · intro hb
    rw [lowerSeq_cons]
    by_cases hr' : i.grammar.productions.Begins r t
    · apply (hr.takes hr').append
    · obtain hb | ⟨hn, hb⟩ := Productions.seqBegins_cons.mp hb
      · exact absurd hb hr'
      · apply (hr.passes hr' hn).takes ((hrs hn).takes hb)
  · intro hb hn
    obtain ⟨hn, hns⟩ := List.forall_mem_cons.mp hn
    rw [Productions.seqBegins_cons, not_or, not_and] at hb
    rw [lowerSeq_cons]
    apply (hr.passes hb.1 hn).append ((hrs hn).passes (hb.2 hn) hns)

mutual

/-- The statements of a rule agree with it if those of the nonterminals do that it may begin
with. -/
theorem agrees_of_corners (hi : i.Compiled) : ∀ {r : Rule}, i.grammar.productions.Selective r →
    (∀ id m, i.grammar.productions.Corner r (.nonterminal m) → i.Agrees t (.nonterminal id m)) →
  i.Agrees t r
  | .terminal id u, _, _ => by
      constructor
      · intro hb
        rw [Productions.begins_terminal.mp hb]
        apply takes_expect
      · intro _ hn
        exact absurd hn Productions.not_nullable_terminal
  | .nonterminal id m, _, h => h id m (.nonterminal id m)
  | .unresolved .., _, _ => by
      constructor
      · intro hb
        exact absurd hb Productions.not_begins_unresolved
      · intro _ _
        apply passes_nil
  | .concat id rs, hs, h => by
      have hrs := seqAgrees_of_corners hi (fun r (hr : r ∈ rs) => hs.child hr)
        fun id m hc => h id m (Productions.corner_concat.mpr hc)
      constructor
      · intro hb
        apply hrs.takes (Productions.begins_concat.mp hb)
      · intro hb hn
        apply hrs.passes (Productions.begins_concat.not.mp hb) (Productions.nullable_concat.mp hn).2
  | .choice id rs, hs, h => by
      constructor
      · intro hb
        obtain ⟨r, hr, hb⟩ := Productions.begins_choice.mp hb
        apply takes_dispatchOf _ ⟨r, hr, hi.mem_lookahead.mpr hb⟩
        intro q hq hqt
        apply Agrees.takes _ (hi.mem_lookahead.mp hqt)
        apply agrees_of_mem hi (fun q hq => hs.child hq) q hq
        intro id' m hc
        apply h id' m (Productions.corner_choice.mpr ⟨q, hq, hc⟩)
      · intro _ hn
        obtain ⟨q, hq, hn⟩ := Productions.nullable_choice.mp hn
        exact absurd hn (hs id rs (Rule.mem_nodes_self _) q hq)
  | .option id r, hs, h => by
      have hr := agrees_of_corners hi (hs.child List.mem_cons_self)
        fun id m hc => h id m (Productions.corner_option.mpr hc)
      constructor
      · intro hb
        rw [Productions.begins_option] at hb
        apply takes_optionalOf (hi.mem_lookahead.mpr hb) (hr.takes hb)
      · intro hb _
        rw [Productions.begins_option] at hb
        apply passes_optionalOf (hi.mem_lookahead.not.mpr hb)
  | .zeroOrMore id r, hs, h => by
      have hr := agrees_of_corners hi (hs.child List.mem_cons_self)
        fun id m hc => h id m (Productions.corner_zeroOrMore.mpr hc)
      constructor
      · intro hb
        rw [Productions.begins_zeroOrMore] at hb
        apply takes_loopOf (hi.mem_lookahead.mpr hb) (hr.takes hb)
      · intro hb _
        rw [Productions.begins_zeroOrMore] at hb
        apply passes_loopOf (hi.mem_lookahead.not.mpr hb)
  | .oneOrMore id r, hs, h => by
      have hr := agrees_of_corners hi (hs.child List.mem_cons_self)
        fun id m hc => h id m (Productions.corner_oneOrMore.mpr hc)
      constructor
      · intro hb
        rw [Productions.begins_oneOrMore] at hb
        apply takes_loopOf (hi.mem_lookahead.mpr hb) (hr.takes hb)
      · intro hb hn
        rw [Productions.begins_oneOrMore] at hb
        rw [Productions.nullable_oneOrMore] at hn
        apply passes_loopOf_once (hi.mem_lookahead.not.mpr hb) (hr.passes hb hn)

theorem seqAgrees_of_corners (hi : i.Compiled) : ∀ {rs : List Rule},
    (∀ r ∈ rs, i.grammar.productions.Selective r) →
    (∀ id m, i.grammar.productions.SeqCorner rs (.nonterminal m) →
      i.Agrees t (.nonterminal id m)) →
  i.SeqAgrees t rs
  | [], _, _ => seqAgrees_nil
  | r :: rs, hs, h => by
      obtain ⟨hr, hrs⟩ := List.forall_mem_cons.mp hs
      have hr := agrees_of_corners hi hr fun id m hc => h id m (.inl hc)
      apply hr.cons
      intro hn
      apply seqAgrees_of_corners hi hrs
      exact fun id m hc => h id m (.inr ⟨hn, hc⟩)

theorem agrees_of_mem (hi : i.Compiled) : ∀ {rs : List Rule},
    (∀ r ∈ rs, i.grammar.productions.Selective r) →
  ∀ r ∈ rs,
    (∀ id m, i.grammar.productions.Corner r (.nonterminal m) → i.Agrees t (.nonterminal id m)) →
    i.Agrees t r
  | [], _ => fun _ hr => absurd hr List.not_mem_nil
  | q :: rs, hs => by
      obtain ⟨hq, hrs⟩ := List.forall_mem_cons.mp hs
      intro r hr h
      obtain hrq | hr := List.mem_cons.mp hr
      · rw [hrq] at h ⊢
        apply agrees_of_corners hi hq h
      · apply agrees_of_mem hi hrs r hr h

end

/-! ### Nonterminals -/

/-- Without left recursion every path of left corners ends. -/
theorem Compiled.grounded (hi : i.Compiled) (n : NonterminalId) :
  i.grammar.productions.Grounded n
  := by
  by_cases hn : i.grammar.Has (.nonterminal n)
  · have hclean := (FirstSets.diagnostics_ofGrammar_iff _).mp hi.diagnostics
    apply (Survey.valid_ofGrammar i.grammar).grounded hclean n
    apply Survey.finished_ofGrammar _ hclean (Grammar.mem_nonterminalIds.mpr hn)
  · constructor
    rintro m ⟨r, hr, -⟩
    exact absurd (Grammar.lt_size_of_mem_productions hr) hn

theorem takes_lowerAlternatives (hi : i.Compiled)
    (hb : ∃ r ∈ rs, i.grammar.productions.Begins r t) (h : ∀ r ∈ rs, i.Agrees t r) :
  i.Takes t (lowerAlternatives i.grammar i.grammar.firstSets rs)
  := by
  obtain ⟨r, hr, hb⟩ := hb
  unfold lowerAlternatives
  split
  · cases hr
  · apply (h _ List.mem_cons_self).takes
    rwa [← List.mem_singleton.mp hr]
  · apply takes_dispatchOf _ ⟨r, hr, hi.mem_lookahead.mpr hb⟩
    intro q hq hqt
    apply (h q hq).takes (hi.mem_lookahead.mp hqt)

/-- The statements of a nonterminal agree with it if those of its alternatives do. -/
theorem agrees_nonterminal (hi : i.Compiled) (hg : i.grammar.IsSelective) (id : RuleId)
    (h : ∀ r ∈ i.grammar.productions n, i.Agrees t r) :
  i.Agrees t (.nonterminal id n)
  := by
  constructor
  · intro hb
    obtain ⟨r, hr, hb⟩ := Productions.begins_nonterminal.mp hb
    apply takes_call (hi.routine? (Grammar.lt_size_of_mem_productions hr))
    apply takes_lowerAlternatives hi ⟨r, hr, hb⟩ h
  · intro hb hn
    obtain ⟨r, hr, hn⟩ := Productions.nullable_nonterminal.mp hn
    -- A nullable alternative is the only one.
    obtain ⟨q, hq⟩ : ∃ q, i.grammar.productions n = [q] := by
      have hlen : ¬ 2 ≤ (i.grammar.productions n).length :=
        fun hlen => hg.not_nullable hi.wellFormed hlen hr hn
      have hpos := List.length_pos_of_mem hr
      apply List.length_eq_one_iff.mp
      omega
    have hqr : q = r := (List.mem_singleton.mp (hq ▸ hr)).symm
    apply passes_call (hi.routine? (Grammar.lt_size_of_mem_productions hr))
    change i.Passes t (lowerAlternatives _ _ (i.grammar.productions n))
    rw [hq, hqr]
    apply (h r hr).passes _ hn
    exact fun hr' => hb (Productions.begins_nonterminal.mpr ⟨r, hr, hr'⟩)

/-- In a selective grammar the statements of rules agree with them: left corners end. -/
theorem agrees (hi : i.Compiled) (hg : i.grammar.IsSelective)
    (hr : i.grammar.productions.Selective r) :
  i.Agrees t r
  := by
  -- The induction is on paths of left corners, as nothing else gets smaller from call to call.
  have hn : ∀ n id, i.Agrees t (.nonterminal id n) := by
    intro n
    induction hi.grounded n with
    | intro n _ ih =>
      intro id
      apply agrees_nonterminal hi hg id
      intro q hq
      have hs := hg.selective hi.wellFormed (Rule.mem_nodesAll.mpr ⟨q, hq, Rule.mem_nodes_self q⟩)
      apply agrees_of_corners hi hs
      exact fun id m hc => ih m ⟨q, hq, hc⟩ id
  apply agrees_of_corners hi hr
  exact fun id n _ => hn n id

/-- A FIRST set says that the rule may match nothing just when it derives the empty word. -/
theorem Compiled.empty_ofRule_iff (hi : i.Compiled) (hr : r.isProper) :
  (i.grammar.firstSets.ofRule r).empty ↔ i.grammar.productions.CanVanish r
  := by
  rw [hi.firstSets, ← Productions.nullable_iff_canVanish hi.wellFormed.proper hr]
  apply (FirstSets.fits_ofRule i.grammar r).empty_iff hi.diagnostics

/-- The FIRST sets tell whether a grammar is selective. -/
theorem Compiled.isSelective_iff (hi : i.Compiled) :
  i.grammar.IsSelective ↔ i.grammar.LooksSelective
  := by
  have hproper : ∀ n, ∀ id qs, .choice id qs ∈ Rule.nodesAll (i.grammar.productions n) →
      ∀ q ∈ qs, q.isProper := by
    intro n id qs hc
    obtain ⟨p, hp, hc⟩ := Rule.mem_nodesAll.mp hc
    have hp := hi.wellFormed.proper n p hp
    apply (Rule.isProper_choice.mp (Rule.isProper_of_mem_nodes p hp hc)).2
  constructor
  · intro h n _
    constructor
    · intro r hr q hq
      cases r with
      | choice id qs =>
        rw [hi.empty_ofRule_iff (hproper n id qs hr q hq)]
        apply h.choice n id qs hr q hq
      | _ => cases hq
    · intro hlen q hq
      rw [hi.empty_ofRule_iff (hi.wellFormed.proper n q hq)]
      apply h.alternatives n hlen q hq
  · intro h
    constructor
    · intro n id qs hc q hq
      obtain ⟨p, hp, _⟩ := Rule.mem_nodesAll.mp hc
      have hn := Grammar.mem_nonterminalIds.mpr (Grammar.lt_size_of_mem_productions hp)
      rw [← hi.empty_ofRule_iff (hproper n id qs hc q hq)]
      apply (h n hn).1 _ hc q hq
    · intro n hlen q hq
      have hn := Grammar.mem_nonterminalIds.mpr (Grammar.lt_size_of_mem_productions hq)
      rw [← hi.empty_ofRule_iff (hi.wellFormed.proper n q hq)]
      apply (h n hn).2 hlen q hq

/-- In a selective grammar what the FIRST sets say of a node of a rule its statements do: if the
scanner has seen a token ahead that the node begins with, then running the statements comes to a
place where this token is consumed as the terminal that is expected, and before that no error is
recorded.  So every execution that ends has added the token to the tree. -/
theorem comesTo_lower [Engine] {fs : FileSystem} {o : Options} {text file : String}
    (hi : (Compilation.ofText fs o text file).interpreter? = some i)
    (hg : i.grammar.IsSelective) (hr : r ∈ Rule.nodesAll (i.grammar.productions n))
    (ht : t ∈ (i.grammar.firstSets.ofRule r).terminals) {s : State} {token : Token SymbolKind}
    {after : Cursor} (hs : s.scanner.ahead = some (token, after)) (hk : token.kind = .terminal t)
    (node : NodeId) :
  (∃ place there, ComesTo i t place there (lower i.grammar i.grammar.firstSets r) node s ∧
      (there.consume i place t).1 = token ∧ there.tree.errors = s.tree.errors) ∧
    ∀ fuel result, exec i fuel (lower i.grammar i.grammar.firstSets r) node s = some result →
      s.tree.terminals ++ [(token.kind, token.text)] <+: result.2.tree.terminals
  := by
  have hi := Compilation.compiled_of_interpreter? hi
  have ha : i.Agrees t r := agrees hi hg (hg.selective hi.wellFormed hr)
  obtain ⟨place, there, hc, hkeeps⟩ := ha.takes (hi.mem_lookahead.mp ht) node s ⟨_, hs, hk⟩
  rw [← hkeeps.scanner] at hs
  have hup := State.consume_of_ahead (i := i) hs hk place
  refine ⟨⟨place, there, hc, hup, hkeeps.errors⟩, ?_⟩
  intro fuel result he
  obtain ⟨expected, rest, r', h, hp⟩ := hc.exists_runs (runs_of_exec fuel he)
  apply List.IsPrefix.trans _ hp
  cases h with
  | expect _ h =>
    have hadded := h.terminals
    rw [State.terminals_consume, hup, hkeeps.terminals] at hadded
    simpa [Node.terminal?, hk] using hadded
  | reject hk' => exact absurd (hup ▸ hk) hk'

/-- The state in front of a text after looking ahead for some terminals. -/
def State.facing (i : Interpreter) (text : String) (ts : List TerminalId) : State :=
  (State.lookAhead i ⟨.start text "", .single⟩ ts).2

/-- A token that was seen ahead is taken by the choice that it selects. -/
theorem comesTo_lower_bThenA :
  ∃ i, Compilation.bThenA.interpreter? = some i ∧ ∃ r ∈ i.grammar.productions ⟨0⟩,
    ∃ place there, ComesTo i ⟨1⟩ place there (lower i.grammar i.grammar.firstSets r)
      ParseTree.root (.facing i "ba" [⟨1⟩]) ∧ (there.consume i place ⟨1⟩).1.text = "b" ∧
      there.tree.errors = []
  := by
  have h : Compilation.bThenA.interpreter?.any fun i => decide
      (i.grammar.LooksSelective ∧
      (∃ r ∈ i.grammar.productions ⟨0⟩, ⟨1⟩ ∈ (i.grammar.firstSets.ofRule r).terminals) ∧
      (i.grammar.scanner.upcoming (.start "ba" "") [.terminal ⟨1⟩]).1.kind = .terminal ⟨1⟩ ∧
      (i.grammar.scanner.upcoming (.start "ba" "") [.terminal ⟨1⟩]).1.text = "b") := by
    decide +kernel
  obtain ⟨i, hi, h⟩ := (Option.any_eq_true _ _).mp h
  obtain ⟨hg, ⟨r, hr, ht⟩, hk, htext⟩ := of_decide_eq_true h
  have hg := (Compilation.compiled_of_interpreter? hi).isSelective_iff.mpr hg
  have hn := Rule.mem_nodesAll.mpr ⟨r, hr, Rule.mem_nodes_self r⟩
  obtain ⟨place, there, hc, hconsume, herrors⟩ :=
    (comesTo_lower hi hg hn ht (s := .facing i "ba" [⟨1⟩]) rfl hk ParseTree.root).1
  refine ⟨i, hi, r, hr, place, there, hc, ?_, herrors⟩
  rw [hconsume]
  apply htext

/-- Whether statements begin with a dispatch that has no arm for the next token. -/
def rejects (i : Interpreter) (s : State) : List Stmt → Bool
  | .dispatch ts arms _ :: _ =>
    (arms.find? fun a => isOneOf (s.lookAhead i ts).1 a.terminals).isNone
  | _ => false

theorem not_comesTo_of_rejects {ss : List Stmt} {s there : State} {node place : NodeId}
    (h : i.rejects s ss) :
  ¬ ComesTo i t place there ss node s
  := by
  intro hc
  cases hc with
  | select ha _ =>
    rw [rejects, ha] at h
    cases h
  | _ => cases h

/-- A token that comes after a choice with a nullable alternative is not taken, although the rule
may begin with it: the option around is entered because of this token, and then the dispatch on the
alternatives does not let it pass. -/
theorem not_comesTo_lower_optionOrB :
  ∃ i, Compilation.optionOrB.interpreter? = some i ∧
    (∃ r ∈ Rule.nodesAll (i.grammar.productions ⟨0⟩),
      ⟨2⟩ ∈ (i.grammar.firstSets.ofRule r).terminals ∧
      (State.facing i "c" [⟨0⟩, ⟨1⟩, ⟨2⟩]).scanner.ahead.any (·.1.kind = .terminal ⟨2⟩) ∧
      ¬ ∃ place there, ComesTo i ⟨2⟩ place there (lower i.grammar i.grammar.firstSets r)
        ParseTree.root (.facing i "c" [⟨0⟩, ⟨1⟩, ⟨2⟩])) ∧
    (i.parse? 10 "c" "").map (fun t => t.errors.map Diagnostic.message) =
      some ["Unexpected token 'c' found. Expected a or b."]
  := by
  have h : Compilation.optionOrB.interpreter?.any fun i : Interpreter => decide
      ((∃ r ∈ Rule.nodesAll (i.grammar.productions ⟨0⟩),
        ⟨2⟩ ∈ (i.grammar.firstSets.ofRule r).terminals ∧
        (State.facing i "c" [⟨0⟩, ⟨1⟩, ⟨2⟩]).scanner.ahead.any (·.1.kind = .terminal ⟨2⟩) ∧
        i.rejects (.facing i "c" [⟨0⟩, ⟨1⟩, ⟨2⟩]) (lower i.grammar i.grammar.firstSets r)) ∧
      (i.parse? 10 "c" "").map (fun t => t.errors.map Diagnostic.message) =
        some ["Unexpected token 'c' found. Expected a or b."]) := by
    decide +kernel
  obtain ⟨i, hi, h⟩ := (Option.any_eq_true _ _).mp h
  obtain ⟨⟨r, hr, ht, hahead, hrejects⟩, hparse⟩ := of_decide_eq_true h
  refine ⟨i, hi, ⟨r, hr, ht, hahead, ?_⟩, hparse⟩
  rintro ⟨place, there, hc⟩
  apply not_comesTo_of_rejects hrejects hc

end Interpreter

end Descent
