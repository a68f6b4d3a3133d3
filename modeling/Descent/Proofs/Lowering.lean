import Descent.Program.Lowering
import Descent.Proofs.Compilation

/-!
# What statements accept

The statements of a program make up a regular expression over symbols, too
(`Program.expressionSeq`): what they consume and call when they run up to their end.  The statements
of a proper rule accept only words that the rule denotes (`Program.Lowers.denotes`), provided that
every rule begins with some terminal, so that no alternative is left out.  That is so when the rules
of a grammar are proper, every nonterminal has one and none is left recursive
(`Interpreter.Compiled.lowers`).
-/

namespace Descent

namespace Program

variable {p : Program}

/-! ### The words of statements -/

mutual

/-- A statement as a regular expression over symbols: what it consumes and calls if it does not end
the routine.  A call without a routine does nothing. -/
def expression (p : Program) : Stmt → RegularExpression Symbol
  | .expect t _ => .char (.terminal t)
  | .call n => if (p.routine? n).isSome then .char (.nonterminal n) else 1
  | .optional _ body => 1 + expressionSeq p body
  | .loop _ body true => expressionSeq p body * (expressionSeq p body).star
  | .loop _ body false => (expressionSeq p body).star
  | .dispatch _ arms _ => expressionArms p arms

/-- Statements as a regular expression over symbols. -/
def expressionSeq (p : Program) : List Stmt → RegularExpression Symbol
  | [] => 1
  | s :: ss => expression p s * expressionSeq p ss

/-- An arm as a regular expression over symbols. -/
def expressionArm (p : Program) : Arm → RegularExpression Symbol
  | .mk _ body => expressionSeq p body

/-- Arms as a regular expression over symbols. -/
def expressionArms (p : Program) : List Arm → RegularExpression Symbol
  | [] => 0
  | a :: arms => expressionArm p a + expressionArms p arms

end

/-- Statements accept the words that match their expression. -/
def Accepts (p : Program) (ss : List Stmt) (w : List Symbol) : Prop :=
  w ∈ (expressionSeq p ss).matches'

variable {ss : List Stmt} {w : List Symbol}

@[simp]
theorem accepts_nil :
  p.Accepts [] w ↔ w = []
  := Iff.rfl

theorem accepts_cons {s : Stmt} :
  p.Accepts (s :: ss) w ↔ ∃ u ∈ (p.expression s).matches', ∃ v, p.Accepts ss v ∧ u ++ v = w
  := Language.mem_mul

theorem accepts_append {ss' : List Stmt} :
  p.Accepts (ss ++ ss') w ↔ ∃ u, p.Accepts ss u ∧ ∃ v, p.Accepts ss' v ∧ u ++ v = w
  := by
  induction ss generalizing w with
  | nil => simp
  | cons s ss ih =>
    rw [List.cons_append]
    simp only [accepts_cons, ih]
    constructor
    · rintro ⟨u, hu, _, ⟨v, hv, v', hv', rfl⟩, rfl⟩
      exact ⟨u ++ v, ⟨u, hu, v, hv, rfl⟩, v', hv', List.append_assoc u v v'⟩
    · rintro ⟨_, ⟨u, hu, v, hv, rfl⟩, v', hv', rfl⟩
      exact ⟨u, hu, v ++ v', ⟨v, hv, v', hv', rfl⟩, (List.append_assoc u v v').symm⟩

theorem accepts_singleton {s : Stmt} :
  p.Accepts [s] w ↔ w ∈ (p.expression s).matches'
  := by
  rw [accepts_cons]
  simp

theorem mem_expressionArms {arms : List Arm} :
  w ∈ (p.expressionArms arms).matches' ↔ ∃ a ∈ arms, p.Accepts a.body w
  := by
  induction arms with
  | nil =>
    constructor
    · intro h
      apply absurd h (Language.notMem_zero w)
    · rintro ⟨_, ⟨⟩, _⟩
  | cons a arms ih =>
    obtain ⟨ts, body⟩ := a
    simp only [List.mem_cons, exists_eq_or_imp, ← ih]
    apply Language.mem_add

theorem mem_expression_call {n : NonterminalId} (hn : (p.routine? n).isSome)
    (h : w ∈ (p.expression (.call n)).matches') :
  w = [.nonterminal n]
  := by
  change w ∈ RegularExpression.matches' (if _ then _ else _) at h
  rw [if_pos hn] at h
  apply h

theorem mem_expression_optional {ts : List TerminalId} :
  w ∈ (p.expression (.optional ts ss)).matches' ↔ w = [] ∨ p.Accepts ss w
  := Iff.rfl

theorem mem_expression_loop {ts : List TerminalId} :
  w ∈ (p.expression (.loop ts ss false)).matches' ↔
    ∃ ws : List (List Symbol), w = ws.flatten ∧ ∀ v ∈ ws, p.Accepts ss v
  := Iff.rfl

theorem mem_expression_loop_once {ts : List TerminalId} :
  w ∈ (p.expression (.loop ts ss true)).matches' ↔
    ∃ u, p.Accepts ss u ∧ ∃ v ∈ (p.expression (.loop ts ss false)).matches', u ++ v = w
  := Language.mem_mul

theorem mem_expression_dispatch {ts : List TerminalId} {arms : List Arm} {expected : String} :
  w ∈ (p.expression (.dispatch ts arms expected)).matches' ↔ ∃ a ∈ arms, p.Accepts a.body w
  := mem_expressionArms

/-! ### Parts of statements with what follows them -/

variable {ts : List TerminalId} {body rest : List Stmt}

theorem Accepts.take (h : p.Accepts (body ++ rest) w) :
  p.Accepts (.optional ts body :: rest) w
  := by
  obtain ⟨u, hu, v, hv, rfl⟩ := accepts_append.mp h
  apply accepts_cons.mpr ⟨u, mem_expression_optional.mpr (.inr hu), v, hv, rfl⟩

theorem Accepts.pass (h : p.Accepts rest w) :
  p.Accepts (.optional ts body :: rest) w
  := accepts_cons.mpr ⟨[], mem_expression_optional.mpr (.inl rfl), w, h, rfl⟩

theorem Accepts.once (h : p.Accepts (body ++ .loop ts body false :: rest) w) :
  p.Accepts (.loop ts body true :: rest) w
  := by
  obtain ⟨u, hu, _, hr, rfl⟩ := accepts_append.mp h
  obtain ⟨v, hv, v', hv', rfl⟩ := accepts_cons.mp hr
  refine accepts_cons.mpr ⟨u ++ v, ?_, v', hv', List.append_assoc u v v'⟩
  apply mem_expression_loop_once.mpr ⟨u, hu, v, hv, rfl⟩

theorem Accepts.again (h : p.Accepts (body ++ .loop ts body false :: rest) w) :
  p.Accepts (.loop ts body false :: rest) w
  := by
  obtain ⟨u, hu, _, hr, rfl⟩ := accepts_append.mp h
  obtain ⟨v, hv, v', hv', rfl⟩ := accepts_cons.mp hr
  obtain ⟨vs, rfl, hvs⟩ := mem_expression_loop.mp hv
  refine accepts_cons.mpr ⟨u ++ vs.flatten, ?_, v', hv', List.append_assoc u _ v'⟩
  apply mem_expression_loop.mpr ⟨u :: vs, rfl, List.forall_mem_cons.mpr ⟨hu, hvs⟩⟩

theorem Accepts.stop (h : p.Accepts rest w) :
  p.Accepts (.loop ts body false :: rest) w
  := accepts_cons.mpr ⟨[], mem_expression_loop.mpr ⟨[], rfl, by simp⟩, w, h, rfl⟩

theorem Accepts.select {arms : List Arm} {expected : String} {a : Arm} (ha : a ∈ arms)
    (h : p.Accepts (a.body ++ rest) w) :
  p.Accepts (.dispatch ts arms expected :: rest) w
  := by
  obtain ⟨u, hu, v, hv, rfl⟩ := accepts_append.mp h
  apply accepts_cons.mpr ⟨u, mem_expression_dispatch.mpr ⟨a, ha, hu⟩, v, hv, rfl⟩

/-! ### Statements of rules -/

variable {g : Grammar} {fs : FirstSets}

theorem lowerSeq_cons (r : Rule) (rs : List Rule) :
  lowerSeq g fs (r :: rs) = lower g fs r ++ lowerSeq g fs rs
  := rfl

theorem lowerSeq_singleton (r : Rule) :
  lowerSeq g fs [r] = lower g fs r
  := List.append_nil (lower g fs r)

/-- The arms of alternatives start with that of the first one if a terminal selects it. -/
theorem lowerArms_cons (claimed : List TerminalId) (r : Rule) (rs : List Rule) :
  lowerArms g fs claimed (r :: rs) =
    if (unclaimed fs claimed r).isEmpty then lowerArms g fs (claimed ++ unclaimed fs claimed r) rs
    else .mk (unclaimed fs claimed r) (lower g fs r) ::
      lowerArms g fs (claimed ++ unclaimed fs claimed r) rs
  := rfl

/-- What is claimed after all alternatives is what was claimed before them, and side by side what
their arms claim: an alternative without an arm claims nothing. -/
theorem claimedAfter_eq (g : Grammar) (fs : FirstSets) (rs : List Rule) :
    ∀ claimed : List TerminalId,
  claimedAfter fs claimed rs = claimed ++ (lowerArms g fs claimed rs).flatMap Arm.terminals
  := by
  induction rs with
  | nil =>
    intro claimed
    apply (List.append_nil claimed).symm
  | cons r rs ih =>
    intro claimed
    rw [lowerArms_cons, claimedAfter, List.foldl_cons]
    change claimedAfter fs (claimed ++ unclaimed fs claimed r) rs = _
    rw [ih]
    split
    case isTrue h => rw [List.isEmpty_iff.mp h, List.append_nil]
    case isFalse => rw [List.flatMap_cons, List.append_assoc]; rfl

/-- An arm is made of an alternative that its terminals select. -/
theorem mem_lowerArms {claimed : List TerminalId} {rs : List Rule} {a : Arm}
    (h : a ∈ lowerArms g fs claimed rs) :
  ∃ r ∈ rs, a.body = lower g fs r ∧ ∀ t ∈ a.terminals, t ∈ lookahead fs r
  := by
  induction rs generalizing claimed with
  | nil =>
    cases h
  | cons r rs ih =>
    rw [lowerArms_cons] at h
    split at h
    · obtain ⟨q, hq, h⟩ := ih h
      exact ⟨q, List.mem_cons_of_mem r hq, h⟩
    · obtain rfl | h := List.mem_cons.mp h
      · refine ⟨r, List.mem_cons_self, rfl, ?_⟩
        intro t ht
        apply (List.mem_filter.mp ht).1
      · obtain ⟨q, hq, h⟩ := ih h
        exact ⟨q, List.mem_cons_of_mem r hq, h⟩

/-- The first alternative is not left out if a terminal selects it. -/
theorem lowerArms_ne_nil {r : Rule} (rs : List Rule) (h : lookahead fs r ≠ []) :
  lowerArms g fs [] (r :: rs) ≠ []
  := by
  rw [lowerArms_cons]
  have hu : unclaimed fs [] r = lookahead fs r := by simp [unclaimed]
  rw [hu, if_neg (by simpa using h)]
  apply List.cons_ne_nil

theorem Accepts.of_optionalOf (h : p.Accepts (optionalOf ts ss) w) :
  w = [] ∨ p.Accepts ss w
  := by
  rw [optionalOf] at h
  split at h
  · apply Or.inl (accepts_nil.mp h)
  · apply mem_expression_optional.mp (accepts_singleton.mp h)

theorem Accepts.of_loopOf (h : p.Accepts (loopOf ts ss false) w) :
  ∃ ws : List (List Symbol), w = ws.flatten ∧ ∀ v ∈ ws, p.Accepts ss v
  := by
  rw [loopOf] at h
  split at h
  · apply mem_expression_loop.mp (accepts_singleton.mp h)
  · exact ⟨[], accepts_nil.mp h, List.forall_mem_nil _⟩

theorem Accepts.of_loopOf_once (h : p.Accepts (loopOf ts ss true) w) :
  ∃ u, p.Accepts ss u ∧
    ∃ ws : List (List Symbol), u ++ ws.flatten = w ∧ ∀ v ∈ ws, p.Accepts ss v
  := by
  rw [loopOf] at h
  split at h
  · obtain ⟨u, hu, v, hv, rfl⟩ := mem_expression_loop_once.mp (accepts_singleton.mp h)
    obtain ⟨ws, rfl, hws⟩ := mem_expression_loop.mp hv
    exact ⟨u, hu, ws, rfl, hws⟩
  · exact ⟨w, h, [], List.append_nil w, List.forall_mem_nil _⟩

/-- Nonterminals have routines, and every rule that refers to symbols of the grammar begins with
some terminal. -/
structure Lowers (g : Grammar) (fs : FirstSets) (p : Program) : Prop where
  routine : ∀ n, g.Has (.nonterminal n) → (p.routine? n).isSome
  lookahead : ∀ r : Rule, r.isProper → (∀ x ∈ r.symbols, g.Has x) → lookahead fs r ≠ []

namespace Lowers

/-- A dispatch on the alternatives of a choice accepts what one of them accepts. -/
theorem exists_of_dispatchOf (hl : Lowers g fs p) {rs : List Rule} (hne : rs ≠ [])
    (hp : ∀ r ∈ rs, r.isProper) (hs : ∀ x ∈ Rule.symbolsAll rs, g.Has x)
    (h : p.Accepts (dispatchOf g (claimedAfter fs [] rs) (lowerArms g fs [] rs)) w) :
  ∃ r ∈ rs, p.Accepts (lower g fs r) w
  := by
  obtain ⟨r, rs, rfl⟩ := List.exists_cons_of_ne_nil hne
  have hr := hl.lookahead r (hp r List.mem_cons_self) fun x hx =>
    hs x (List.mem_append_left _ hx)
  have ha := lowerArms_ne_nil (g := g) rs hr
  rw [dispatchOf, if_neg (by simpa using ha), accepts_singleton, mem_expression_dispatch] at h
  obtain ⟨a, ha, h⟩ := h
  obtain ⟨q, hq, hb, _⟩ := mem_lowerArms ha
  exact ⟨q, hq, hb ▸ h⟩

mutual

/-- The statements of a proper rule accept only words that it denotes. -/
theorem denotes (hl : Lowers g fs p) : ∀ {r : Rule} {w : List Symbol}, r.isProper →
    (∀ x ∈ r.symbols, g.Has x) → p.Accepts (lower g fs r) w →
  r.Denotes w
  | .terminal _ t, w, _, _, h => by
      apply Rule.denotes_terminal.mpr (accepts_singleton.mp h)
  | .nonterminal _ n, w, _, hs, h => by
      have hc := hl.routine n (hs _ List.mem_cons_self)
      apply Rule.denotes_nonterminal.mpr (mem_expression_call hc (accepts_singleton.mp h))
  | .unresolved .., _, hr, _, _ => absurd hr Rule.not_isProper_unresolved
  | .concat _ rs, w, hr, hs, h => by
      apply Rule.denotes_concat.mpr (seqDenotes hl (Rule.isProper_concat.mp hr).2 hs h)
  | .choice _ rs, w, hr, hs, h => by
      obtain ⟨hne, hp⟩ := Rule.isProper_choice.mp hr
      obtain ⟨q, hq, h⟩ := hl.exists_of_dispatchOf hne hp hs h
      apply Rule.denotes_choice.mpr ⟨q, hq, denotes_of_mem hl hp hs q hq h⟩
  | .option _ r, w, hr, hs, h => by
      obtain h | h := Accepts.of_optionalOf h
      · apply Rule.denotes_option.mpr (.inl h)
      · apply Rule.denotes_option.mpr (.inr (denotes hl (Rule.isProper_option.mp hr) hs h))
  | .zeroOrMore _ r, w, hr, hs, h => by
      obtain ⟨ws, rfl, hws⟩ := Accepts.of_loopOf h
      refine Rule.denotes_zeroOrMore.mpr ⟨ws, rfl, ?_⟩
      intro v hv
      apply denotes hl (Rule.isProper_zeroOrMore.mp hr) hs (hws v hv)
  | .oneOrMore id r, w, hr, hs, h => by
      have hr := Rule.isProper_oneOrMore.mp hr
      obtain ⟨u, hu, ws, rfl, hws⟩ := Accepts.of_loopOf_once h
      refine Rule.denotes_oneOrMore.mpr ⟨u, denotes hl hr hs hu, ws.flatten, ?_, rfl⟩
      refine Rule.denotes_zeroOrMore.mpr ⟨ws, rfl, ?_⟩
      intro v hv
      apply denotes hl hr hs (hws v hv)

theorem seqDenotes (hl : Lowers g fs p) : ∀ {rs : List Rule} {w : List Symbol},
    (∀ r ∈ rs, r.isProper) → (∀ x ∈ Rule.symbolsAll rs, g.Has x) →
    p.Accepts (lowerSeq g fs rs) w →
  Rule.SeqDenotes rs w
  | [], w, _, _, h => by
      apply Rule.seqDenotes_nil.mpr (accepts_nil.mp h)
  | r :: rs, w, hp, hs, h => by
      obtain ⟨hr, hrs⟩ := List.forall_mem_cons.mp hp
      obtain ⟨u, hu, v, hv, rfl⟩ := accepts_append.mp (h :)
      refine Rule.seqDenotes_cons.mpr ⟨u, ?_, v, ?_, rfl⟩
      · apply denotes hl hr (fun x hx => hs x (List.mem_append_left _ hx)) hu
      · apply seqDenotes hl hrs (fun x hx => hs x (List.mem_append_right _ hx)) hv

theorem denotes_of_mem (hl : Lowers g fs p) : ∀ {rs : List Rule} {w : List Symbol},
    (∀ r ∈ rs, r.isProper) → (∀ x ∈ Rule.symbolsAll rs, g.Has x) →
  ∀ r ∈ rs, p.Accepts (lower g fs r) w → r.Denotes w
  | [], _, _, _ => fun _ hq => absurd hq List.not_mem_nil
  | r :: rs, w, hp, hs => by
      obtain ⟨hr, hrs⟩ := List.forall_mem_cons.mp hp
      intro q hq h
      obtain hqr | hq := List.mem_cons.mp hq
      · rw [hqr] at h ⊢
        apply denotes hl hr (fun x hx => hs x (List.mem_append_left _ hx)) h
      · apply denotes_of_mem hl hrs (fun x hx => hs x (List.mem_append_right _ hx)) q hq h

end

/-- The statements of the alternatives of a nonterminal accept only words that one of them
denotes. -/
theorem exists_denotes (hl : Lowers g fs p) {rs : List Rule} (hne : rs ≠ [])
    (hp : ∀ r ∈ rs, r.isProper) (hs : ∀ x ∈ Rule.symbolsAll rs, g.Has x)
    (h : p.Accepts (lowerAlternatives g fs rs) w) :
  ∃ r ∈ rs, r.Denotes w
  := by
  unfold lowerAlternatives at h
  split at h
  · exact absurd rfl hne
  · next r => exact ⟨r, List.mem_cons_self, denotes_of_mem hl hp hs r List.mem_cons_self h⟩
  · obtain ⟨r, hr, h⟩ := hl.exists_of_dispatchOf hne hp hs h
    exact ⟨r, hr, denotes_of_mem hl hp hs r hr h⟩

end Lowers

end Program

/-! ### Every rule begins with a terminal -/

namespace Grammar.WellFormed

variable {g : Grammar}

theorem has_of_mem_symbolsAll (hg : g.WellFormed) (n : NonterminalId) :
  ∀ x ∈ Rule.symbolsAll (g.productions n), g.Has x
  := by
  intro x hx
  obtain ⟨r, hr, hx⟩ := Rule.mem_symbolsAll.mp hx
  apply hg.has n r hr x hx

/-- A nonterminal from which every path of left corners ends starts with a terminal. -/
theorem exists_starts (hg : g.WellFormed) {n : NonterminalId} (h : g.productions.Grounded n)
    (hn : g.Has (.nonterminal n)) :
  ∃ t, g.productions.Starts (.nonterminal n) t
  := by
  induction h with
  | intro n _ ih =>
    obtain ⟨r, rs, hrs⟩ := List.exists_cons_of_ne_nil (hg.inhabited n hn)
    have hr : r ∈ g.productions n := by
      rw [hrs]
      apply List.mem_cons_self
    obtain ⟨x, hx, hc⟩ := Productions.exists_corner (hg.proper n r hr)
    have hx := hg.has n r hr x hx
    cases x with
    | terminal t => exact ⟨t, .nonterminal hr hc (.terminal t)⟩
    | nonterminal m =>
      obtain ⟨t, ht⟩ := ih m ⟨r, hr, hc⟩ hx
      exact ⟨t, .nonterminal hr hc ht⟩

/-- Without left recursion a proper rule begins with a terminal. -/
theorem exists_begins (hg : g.WellFormed) (hd : (FirstSets.ofGrammar g).diagnostics = []) {r : Rule}
    (hr : r.isProper) (hs : ∀ x ∈ r.symbols, g.Has x) :
  ∃ t, g.productions.Begins r t
  := by
  obtain ⟨x, hx, hc⟩ := Productions.exists_corner hr
  have hx := hs x hx
  cases x with
  | terminal t => exact ⟨t, .terminal t, hc, .terminal t⟩
  | nonterminal n =>
    have hclean := (FirstSets.diagnostics_ofGrammar_iff g).mp hd
    have hf := Survey.finished_ofGrammar g hclean (Grammar.mem_nonterminalIds.mpr hx)
    have hgr := (Survey.valid_ofGrammar g).grounded hclean n hf
    obtain ⟨t, ht⟩ := hg.exists_starts hgr hx
    exact ⟨t, .nonterminal n, hc, ht⟩

end Grammar.WellFormed

/-- The routine of a nonterminal of a grammar. -/
theorem Grammar.routine?_program {g : Grammar} {n : NonterminalId} (h : g.Has (.nonterminal n)) :
  g.program.routine? n = some (g.routine n)
  := by
  have hn := Grammar.mem_nonterminalIds.mpr h
  rw [Program.routine?, program, List.find?_map, Option.map_eq_some_iff]
  refine ⟨n, ?_, rfl⟩
  cases hf : g.nonterminalIds.find? ((fun r : Routine => r.nonterminal = n) ∘ g.routine) with
  | none =>
    have h' := List.find?_eq_none.mp hf n hn
    exact absurd (decide_eq_true rfl) h'
  | some m =>
    have hm : m = n := of_decide_eq_true (List.find?_some hf :)
    rw [hm]

/-- A routine of a program is that of a nonterminal of the grammar. -/
theorem Grammar.of_routine?_program {g : Grammar} {n : NonterminalId} {r : Routine}
    (h : g.program.routine? n = some r) :
  g.Has (.nonterminal n) ∧ r = g.routine n
  := by
  obtain ⟨m, hm, hr⟩ := List.mem_map.mp (List.mem_of_find?_eq_some h)
  have hn : r.nonterminal = n := of_decide_eq_true (List.find?_some h :)
  rw [← hr] at hn
  change m = n at hn
  rw [← hn]
  exact ⟨Grammar.mem_nonterminalIds.mp hm, hr.symm⟩

namespace Interpreter.Compiled

variable {i : Interpreter}

theorem routine? (hi : i.Compiled) {n : NonterminalId} (h : i.grammar.Has (.nonterminal n)) :
  i.program.routine? n = some (i.grammar.routine n)
  := by rw [hi.program, Grammar.routine?_program h]

/-- The FIRST set of a rule, by which its statements are selected, is exact. -/
theorem mem_lookahead (hi : i.Compiled) {r : Rule} {t : TerminalId} :
  t ∈ Program.lookahead i.grammar.firstSets r ↔ i.grammar.productions.Begins r t
  := by
  rw [Program.lookahead, hi.firstSets]
  apply (FirstSets.fits_ofRule i.grammar r).mem_iff hi.diagnostics t

/-- The program of a well-formed grammar without left recursion leaves no alternative out. -/
theorem lowers (hi : i.Compiled) :
  Program.Lowers i.grammar i.grammar.firstSets i.program
  := by
  constructor
  · intro n hn
    rw [hi.routine? hn]
    rfl
  · intro r hr hs
    obtain ⟨t, ht⟩ := hi.wellFormed.exists_begins hi.diagnostics hr hs
    apply List.ne_nil_of_mem (hi.mem_lookahead.mpr ht)

end Interpreter.Compiled

end Descent
