import Descent.Proofs.Follow
import Descent.Proofs.Leaves
import Descent.Proofs.Segments

/-!
# LL(1) grammars are parsed

Of an LL(1) grammar every word that the nonterminal to start with derives is parsed without errors,
provided that the input is made of its tokens (`Interpreter.parse?_of_derives`).  A run goes along
with what the rules yield (`Interpreter.exists_advances`): the next token is one that the rest
begins with, or one that follows it, so that every look ahead decides as the derivation does.
-/

namespace Descent

/-! ### Selecting an arm -/

/-- The arm of the first alternative that a terminal selects is found. -/
theorem Program.exists_find?_lowerArms {g : Grammar} {fs : FirstSets} {t : TerminalId} {r : Rule}
    (hr : t ∈ lookahead fs r) (after : List Rule) :
    ∀ {before : List Rule} {claimed : List TerminalId}, t ∉ claimed → (∀ q ∈ before, t ∉ lookahead fs q) →
  ∃ a, (lowerArms g fs claimed (before ++ r :: after)).find? (fun a => t ∈ a.terminals) = some a ∧
    a.body = lower g fs r
  | [], claimed, hc, _ => by
      have hu : t ∈ unclaimed fs claimed r := List.mem_filter.mpr ⟨hr, by simpa using hc⟩
      rw [List.nil_append, lowerArms_cons, if_neg (by simpa using List.ne_nil_of_mem hu)]
      exact ⟨_, List.find?_cons_of_pos (decide_eq_true hu), rfl⟩
  | q :: before, claimed, hc, hb => by
      obtain ⟨hq, hb⟩ := List.forall_mem_cons.mp hb
      have hu : t ∉ unclaimed fs claimed q := fun h => hq (List.mem_filter.mp h).1
      have hc' : t ∉ claimed ++ unclaimed fs claimed q := by simp [hc, hu]
      obtain ⟨a, ha, hbody⟩ := exists_find?_lowerArms hr after hc' hb
      rw [List.cons_append, lowerArms_cons]
      split
      · exact ⟨a, ha, hbody⟩
      · refine ⟨a, (List.find?_cons_of_neg ?_).trans ha, hbody⟩
        exact fun h => hu (of_decide_eq_true h)

namespace Interpreter

variable {i : Interpreter}

/-- The kind and the text of the node of a token. -/
def label (x : TerminalId × List Char) : SymbolKind × String := (.terminal x.1, String.ofList x.2)

/-! ### Going along with a derivation -/

/-- Running statements reads tokens and goes on with other statements.  No error is recorded, and
the tokens are added to the terminals of the tree. -/
structure Advances (i : Interpreter) (node : NodeId) (s : State) (ss : List Stmt)
    (ts us : List (TerminalId × List Char)) (s' : State) (ss' : List Stmt) : Prop where
  ready : s'.Ready i us
  errors : s'.tree.errors = s.tree.errors
  terminals : s'.tree.terminals = s.tree.terminals ++ ts.map label
  runs : ∀ {rest : List Stmt} {r : Result},
    Runs i (ss' ++ rest) node s' r → Runs i (ss ++ rest) node s r

variable {node : NodeId} {s s' s'' : State} {ss ss' ss'' : List Stmt}
  {ts us vs : List (TerminalId × List Char)} {x : TerminalId × List Char}

theorem Advances.refl (h : s.Ready i us) :
  Advances i node s ss [] us s ss
  := ⟨h, rfl, by simp, fun h => h⟩

theorem Advances.trans (h : Advances i node s ss ts vs s' ss')
    (h' : Advances i node s' ss' us vs' s'' ss'') :
  Advances i node s ss (ts ++ us) vs' s'' ss''
  := by
  constructor
  · apply h'.ready
  · apply h'.errors.trans h.errors
  · rw [h'.terminals, h.terminals, List.map_append, List.append_assoc]
  · intro rest r hr
    apply h.runs (h'.runs hr)

theorem Advances.ended (h : Advances i node s ss ts us s' []) :
  Runs i ss node s (true, s')
  := by
  have hdone : Runs i (ss ++ []) node s (true, s') := h.runs (.done node s')
  rwa [List.append_nil] at hdone

/-- Statements that come after others wait for them. -/
theorem Advances.append (h : Advances i node s ss ts us s' ss') (rest : List Stmt) :
  Advances i node s (ss ++ rest) ts us s' (ss' ++ rest)
  := by
  refine ⟨h.ready, h.errors, h.terminals, ?_⟩
  intro rest' r hr
  rw [List.append_assoc] at hr ⊢
  apply h.runs hr

/-- Statements go on with others after a look ahead. -/
theorem Advances.of_lookAhead (h : s.Ready i us) (expected : List TerminalId)
    (hr : ∀ {rest : List Stmt} {r : Result},
      Runs i (ss' ++ rest) node (s.lookAhead i expected).2 r → Runs i (ss ++ rest) node s r) :
  Advances i node s ss [] us (s.lookAhead i expected).2 ss'
  := ⟨h.lookAhead expected, rfl, by simp [State.lookAhead], hr⟩

theorem advances_expect {expected : String} (h : s.Ready i (x :: us)) :
  Advances i node s [.expect x.1 expected] [x] us (s.consume i node x.1).2 []
  := by
  obtain ⟨hk, ht, hr⟩ := h.consume node
  refine ⟨hr, rfl, ?_, fun h => .expect hk h⟩
  have htok : (s.consume i node x.1).2.tree =
      (s.tree.addToken i.grammar.kindName node (s.consume i node x.1).1).2 := rfl
  rw [htok, ParseTree.addToken]
  dsimp only
  rw [ParseTree.terminals_widenTo, ParseTree.terminals_create]
  simp [Node.terminal?, hk, ht, label]

/-! ### Deciding by the next token -/

/-- The terminals that select a proper rule are those that may begin it. -/
theorem Compiled.mem_lookahead_iff (hi : i.Compiled) {r : Rule} (hr : r.isProper) {t : TerminalId} :
  t ∈ Program.lookahead i.grammar.firstSets r ↔ i.grammar.productions.CanBegin r t
  := hi.mem_lookahead.trans (Productions.begins_iff_canBegin hi.wellFormed.proper hr)

variable {start n : NonterminalId} {r : Rule} {qs rs : List Rule} {id : RuleId}

/-- The next token takes the alternative that it begins. -/
theorem exists_advances_dispatchOf (hi : i.Compiled) (ha : i.grammar.productions.Apart rs)
    (hp : ∀ q ∈ rs, q.isProper) (hr : r ∈ rs) (hx : i.grammar.productions.CanBegin r x.1)
    (hs : s.Ready i (x :: us)) (node : NodeId) :
  ∃ s', Advances i node s
    (Program.dispatchOf i.grammar (Program.claimedAfter i.grammar.firstSets [] rs)
      (Program.lowerArms i.grammar i.grammar.firstSets [] rs)) []
    (x :: us) s' (Program.lower i.grammar i.grammar.firstSets r)
  := by
  obtain ⟨before, after, rfl⟩ := List.append_of_mem hr
  have hbefore : ∀ q ∈ before, x.1 ∉ Program.lookahead i.grammar.firstSets q := by
    intro q hq hqx
    rw [hi.mem_lookahead_iff (hp q (List.mem_append_left _ hq))] at hqx
    obtain ⟨_, _, hd⟩ := List.pairwise_append.mp ha.2
    apply hd q hq r List.mem_cons_self x.1 hqx hx
  have hrx := (hi.mem_lookahead_iff (hp r hr)).mpr hx
  obtain ⟨a, hfind, hbody⟩ := Program.exists_find?_lowerArms (g := i.grammar) hrx after
    List.not_mem_nil hbefore
  rw [Program.claimedAfter_eq i.grammar, List.nil_append]
  -- The arms matter only as a list in which the token finds the one of the alternative.
  generalize Program.lowerArms i.grammar i.grammar.firstSets [] (before ++ r :: after) = arms at *
  have hmem := List.mem_of_find?_eq_some hfind
  have hsel : x.1 ∈ arms.flatMap Arm.terminals :=
    List.mem_flatMap.mpr ⟨a, hmem, of_decide_eq_true (List.find?_some hfind :)⟩
  rw [Program.dispatchOf, if_neg (by simpa using List.ne_nil_of_mem hmem), ← hbody]
  refine ⟨_, .of_lookAhead hs (arms.flatMap Arm.terminals) fun h => .select ?_ h⟩
  have hk : ∀ b : Arm, isOneOf (s.lookAhead i (arms.flatMap Arm.terminals)).1 b.terminals =
      decide (x.1 ∈ b.terminals) := by
    intro b
    simp [isOneOf, hs.kind_lookAhead hsel]
  simp only [hk, hfind]

/-- A token that may follow does not select an operand that it cannot begin. -/
theorem not_isOneOf_lookAhead (hi : i.Compiled) (hr : r.isProper)
    (hf : ∀ {t}, i.grammar.productions.CanBegin r t → ¬ i.grammar.productions.Follows start n rs t)
    (hc : i.grammar.productions.Continues start n rs (us.map Prod.fst)) (hs : s.Ready i us) :
  ¬ isOneOf (s.lookAhead i (Program.lookahead i.grammar.firstSets r)).1
    (Program.lookahead i.grammar.firstSets r)
  := by
  rw [hs.isOneOf_lookAhead]
  rintro ⟨x, vs, rfl, hx⟩
  apply hf ((hi.mem_lookahead_iff hr).mp hx) hc.follows

/-- A token that begins an operand selects it. -/
theorem isOneOf_lookAhead (hi : i.Compiled) (hr : r.isProper)
    (hx : i.grammar.productions.CanBegin r x.1) (hs : s.Ready i (x :: us)) :
  isOneOf (s.lookAhead i (Program.lookahead i.grammar.firstSets r)).1
    (Program.lookahead i.grammar.firstSets r)
  := (hs.isOneOf_lookAhead _).mpr ⟨x, us, rfl, (hi.mem_lookahead_iff hr).mpr hx⟩

/-! ### Options and repetitions -/

variable {la : List TerminalId} (body : List Stmt)

theorem ne_nil_of_isOneOf {token : Token SymbolKind} (h : isOneOf token la) :
  la ≠ []
  := by
  rintro rfl
  unfold isOneOf at h
  split at h <;> simp at h

theorem exists_advances_take (hk : isOneOf (s.lookAhead i la).1 la) (hs : s.Ready i us)
    (node : NodeId) :
  ∃ s', Advances i node s (Program.optionalOf la body) [] us s' body
  := by
  rw [Program.optionalOf, if_neg (by simpa using ne_nil_of_isOneOf hk)]
  exact ⟨_, .of_lookAhead hs la fun h => .take hk h⟩

theorem exists_advances_pass (hk : ¬ isOneOf (s.lookAhead i la).1 la) (hs : s.Ready i us)
    (node : NodeId) :
  ∃ s', Advances i node s (Program.optionalOf la body) [] us s' []
  := by
  rw [Program.optionalOf]
  split
  · exact ⟨s, .refl hs⟩
  · exact ⟨_, .of_lookAhead hs la fun h => .pass hk h⟩

theorem exists_advances_again (hk : isOneOf (s.lookAhead i la).1 la) (hs : s.Ready i us)
    (node : NodeId) :
  ∃ s', Advances i node s (Program.loopOf la body false) [] us s'
    (body ++ Program.loopOf la body false)
  := by
  rw [Program.loopOf, if_pos (by simpa using ne_nil_of_isOneOf hk)]
  refine ⟨_, .of_lookAhead hs la fun h => .again hk ?_⟩
  rwa [List.append_assoc] at h

theorem exists_advances_stop (hk : ¬ isOneOf (s.lookAhead i la).1 la) (hs : s.Ready i us)
    (node : NodeId) :
  ∃ s', Advances i node s (Program.loopOf la body false) [] us s' []
  := by
  rw [Program.loopOf]
  split
  · exact ⟨_, .of_lookAhead hs la fun h => .stop hk h⟩
  · exact ⟨s, .refl hs⟩

/-- The first round of a repetition that runs at least once. -/
theorem advances_once (hs : s.Ready i us) :
  Advances i node s (Program.loopOf la body true) [] us s (body ++ Program.loopOf la body false)
  := by
  refine ⟨hs, rfl, by simp, ?_⟩
  intro rest r h
  rw [Program.loopOf] at h ⊢
  split at h
  case isTrue hla =>
    rw [if_pos hla]
    rw [List.append_assoc] at h
    exact .once h
  case isFalse hla =>
    rw [if_neg hla]
    simpa using h

/-! ### Calls -/

/-- The routine of a nonterminal goes along with the alternative that yields the next tokens. -/
theorem exists_advances_alternatives (hi : i.Compiled) (hl : i.grammar.IsLL1 start)
    (hr : r ∈ i.grammar.productions n)
    (hv : i.grammar.productions.Yields [r] (ts.map Prod.fst)) (hs : s.Ready i (ts ++ us))
    (h : ∀ node s, s.Ready i (ts ++ us) →
      ∃ s', Advances i node s (Program.lower i.grammar i.grammar.firstSets r) ts us s' [])
    (node : NodeId) :
  ∃ s', Advances i node s
    (Program.lowerAlternatives i.grammar i.grammar.firstSets (i.grammar.productions n)) ts us s' []
  := by
  have hp := hi.wellFormed.proper n
  have ha := hl.alternatives n
  unfold Program.lowerAlternatives
  split
  · next hrs =>
    rw [hrs] at hr
    cases hr
  · next q hrs =>
    rw [hrs, List.mem_singleton] at hr
    rw [← hr]
    apply h node s hs
  · next hne hne' =>
    have hlen : 2 ≤ (i.grammar.productions n).length := by
      match hrs : i.grammar.productions n with
      | [] => exact absurd hrs hne
      | [q] => exact absurd hrs (hne' q)
      | _ :: _ :: _ => simp
    obtain ⟨t, w, hts, hx⟩ := (ha hlen).exists_cons hr hv
    obtain ⟨x, ts, rfl, rfl, rfl⟩ := List.map_eq_cons_iff.mp hts
    obtain ⟨s₁, h₁⟩ := exists_advances_dispatchOf hi (ha hlen) hp hr hx hs node
    obtain ⟨s₂, h₂⟩ := h node s₁ h₁.ready
    exact ⟨s₂, h₁.trans h₂⟩

/-- A call goes along with an alternative of its nonterminal. -/
theorem exists_advances_call (hi : i.Compiled) (hl : i.grammar.IsLL1 start)
    (hr : r ∈ i.grammar.productions n)
    (hv : i.grammar.productions.Yields [r] (ts.map Prod.fst)) (hs : s.Ready i (ts ++ us))
    (h : ∀ node s, s.Ready i (ts ++ us) →
      ∃ s', Advances i node s (Program.lower i.grammar i.grammar.firstSets r) ts us s' [])
    (node : NodeId) :
  ∃ s', Advances i node s [.call n] ts us s' []
  := by
  have hn : i.grammar.Has (.nonterminal n) := Grammar.lt_size_of_mem_productions hr
  have hs₀ : (s.enter node (i.grammar.routine n)).2.Ready i (ts ++ us) := hs.congr rfl
  obtain ⟨s₁, hbody⟩ := exists_advances_alternatives hi hl hr hv hs₀ h
    (s.enter node (i.grammar.routine n)).1
  use s₁.leave node (s.enter node (i.grammar.routine n)).1
  constructor
  · exact hbody.ready.congr rfl
  · rw [State.leave, errors_widen]
    apply hbody.errors
  · rw [State.leave, ParseTree.terminals_widen, hbody.terminals]
    congr 1
    apply (ParseTree.terminals_create _ _ _ _).trans
    apply List.append_nil
  · intro rest r' hrest
    exact .call (hi.routine? hn) hbody.ended hrest

/-! ### Rules -/

/-- Wherever rules are pending, runs of their statements read a word that they yield, provided that
what comes after it is yielded from there on. -/
def Tracks (i : Interpreter) (start : NonterminalId) (rs : List Rule) (w : List TerminalId) :
    Prop :=
  ∀ ⦃n : NonterminalId⦄ ⦃qs : List Rule⦄ ⦃ts us : List (TerminalId × List Char)⦄ ⦃s : State⦄,
    i.grammar.productions.Pending n (rs ++ qs) →
    i.grammar.productions.Continues start n qs (us.map Prod.fst) → ts.map Prod.fst = w →
    s.Ready i (ts ++ us) → ∀ node,
    ∃ s', Advances i node s (Program.lowerSeq i.grammar i.grammar.firstSets rs) ts us s' []

namespace Tracks

variable {v w : List TerminalId}

theorem nil :
  i.Tracks start [] []
  := by
  intro n qs ts us s _ _ hts hs node
  rw [List.map_eq_nil_iff.mp hts] at hs ⊢
  exact ⟨s, .refl hs⟩

theorem terminal (id : RuleId) (t : TerminalId) :
  i.Tracks start [.terminal id t] [t]
  := by
  intro n qs ts us s _ _ hts hs node
  obtain ⟨x, rfl, rfl⟩ := List.map_eq_singleton_iff.mp hts
  rw [Program.lowerSeq_singleton]
  exact ⟨_, advances_expect hs⟩

/-- In the routine of a nonterminal, what comes after the call comes after the alternative. -/
theorem nonterminal (hi : i.Compiled) (hl : i.grammar.IsLL1 start) (id : RuleId)
    (hr : r ∈ i.grammar.productions n) (hv : i.grammar.productions.Yields [r] v)
    (h : i.Tracks start [r] v) :
  i.Tracks start [.nonterminal id n] v
  := by
  rintro m qs ts us s hp hc rfl hs node
  rw [Program.lowerSeq_singleton]
  apply exists_advances_call hi hl hr hv hs
  intro child s hs
  rw [← Program.lowerSeq_singleton]
  apply h (.alternative hr) (.call .nil hp hc) rfl hs child

theorem concat (id : RuleId) (h : i.Tracks start rs v) :
  i.Tracks start [.concat id rs] v
  := by
  intro n qs ts us s hp hc hts hs node
  rw [Program.lowerSeq_singleton]
  apply h hp.concat hc hts hs node

theorem choice (hi : i.Compiled) (hl : i.grammar.IsLL1 start) (id : RuleId) (hr : r ∈ rs)
    (hv : i.grammar.productions.Yields [r] v) (h : i.Tracks start [r] v) :
  i.Tracks start [.choice id rs] v
  := by
  intro n qs ts us s hp hc hts hs node
  have hq := Rule.isProper_choice.mp (hp.proper hi.wellFormed.proper _ List.mem_cons_self)
  obtain ⟨t, w, rfl, hx⟩ := (hl.choice hp).exists_cons hr hv
  obtain ⟨x, ts, rfl, rfl, rfl⟩ := List.map_eq_cons_iff.mp hts
  rw [Program.lowerSeq_singleton]
  obtain ⟨s₁, h₁⟩ := exists_advances_dispatchOf hi (hl.choice hp) hq.2 hr hx hs node
  obtain ⟨s₂, h₂⟩ := h (.choice hr hp) hc hts h₁.ready node
  rw [Program.lowerSeq_singleton] at h₂
  exact ⟨s₂, h₁.trans h₂⟩

theorem pass (hi : i.Compiled) (hl : i.grammar.IsLL1 start) (id : RuleId) (r : Rule) :
  i.Tracks start [.option id r] []
  := by
  intro n qs ts us s hp hc hts hs node
  have hr := Rule.isProper_option.mp (hp.proper hi.wellFormed.proper _ List.mem_cons_self)
  rw [List.map_eq_nil_iff.mp hts] at hs ⊢
  rw [Program.lowerSeq_singleton]
  apply exists_advances_pass _ (not_isOneOf_lookAhead hi hr (hl.option hp) hc hs) hs node

theorem take (hi : i.Compiled) (id : RuleId) (hne : v ≠ [])
    (hv : i.grammar.productions.Yields [r] v) (h : i.Tracks start [r] v) :
  i.Tracks start [.option id r] v
  := by
  intro n qs ts us s hp hc hts hs node
  have hr := Rule.isProper_option.mp (hp.proper hi.wellFormed.proper _ List.mem_cons_self)
  obtain ⟨t, v, rfl⟩ := List.exists_cons_of_ne_nil hne
  obtain ⟨x, ts, rfl, rfl, rfl⟩ := List.map_eq_cons_iff.mp hts
  rw [Program.lowerSeq_singleton]
  obtain ⟨s₁, h₁⟩ := exists_advances_take _ (isOneOf_lookAhead hi hr hv.canBegin hs) hs node
  obtain ⟨s₂, h₂⟩ := h hp.option hc hts h₁.ready node
  rw [Program.lowerSeq_singleton] at h₂
  exact ⟨s₂, h₁.trans h₂⟩

theorem stop (hi : i.Compiled) (hl : i.grammar.IsLL1 start) (id : RuleId) (r : Rule) :
  i.Tracks start [.zeroOrMore id r] []
  := by
  intro n qs ts us s hp hc hts hs node
  have hr := Rule.isProper_zeroOrMore.mp (hp.proper hi.wellFormed.proper _ List.mem_cons_self)
  rw [List.map_eq_nil_iff.mp hts] at hs ⊢
  rw [Program.lowerSeq_singleton]
  apply exists_advances_stop _ (not_isOneOf_lookAhead hi hr (hl.zeroOrMore hp) hc hs) hs node

/-- A run that has read a first part of a word goes on with rules that yield the rest. -/
theorem exists_advances (h : i.Tracks start rs w) (hw : i.grammar.productions.Yields rs w)
    (hp : i.grammar.productions.Pending n (rs ++ qs))
    (hc : i.grammar.productions.Continues start n qs (us.map Prod.fst))
    (hts : ts.map Prod.fst = v ++ w) (hs : s.Ready i (ts ++ us))
    (hfirst : ∀ {ts us : List (TerminalId × List Char)}, ts.map Prod.fst = v →
      i.grammar.productions.Continues start n (rs ++ qs) (us.map Prod.fst) → s.Ready i (ts ++ us) →
      ∃ s', Advances i node s ss ts us s' (Program.lowerSeq i.grammar i.grammar.firstSets rs)) :
  ∃ s', Advances i node s ss ts us s' []
  := by
  obtain ⟨a, b, rfl, ha, hb⟩ := List.map_eq_append_iff.mp hts
  -- For the first part, what comes after begins with the rest of the word.
  have hcb : i.grammar.productions.Continues start n (rs ++ qs) ((b ++ us).map Prod.fst) := by
    rw [List.map_append, hb]
    apply hc.append hw
  rw [List.append_assoc] at hs
  obtain ⟨s₁, h₁⟩ := hfirst ha hcb hs
  obtain ⟨s₂, h₂⟩ := h hp hc hb h₁.ready node
  exact ⟨s₂, h₁.trans h₂⟩

theorem cons (h : i.Tracks start [r] v) (hrs : i.Tracks start rs w)
    (hw : i.grammar.productions.Yields rs w) :
  i.Tracks start (r :: rs) (v ++ w)
  := by
  intro n qs ts us s hp hc hts hs node
  apply hrs.exists_advances hw hp.next hc hts hs
  intro ts us hts hc hs
  obtain ⟨s₁, h₁⟩ := h hp hc hts hs node
  rw [Program.lowerSeq_singleton] at h₁
  rw [Program.lowerSeq_cons]
  exact ⟨s₁, h₁.append _⟩

theorem again (hi : i.Compiled) (hne : v ≠ []) (hv : i.grammar.productions.Yields [r] v)
    (h : i.Tracks start [r] v) (hrs : i.Tracks start (.zeroOrMore id r :: rs) w)
    (hw : i.grammar.productions.Yields (.zeroOrMore id r :: rs) w) :
  i.Tracks start (.zeroOrMore id r :: rs) (v ++ w)
  := by
  intro n qs ts us s hp hc hts hs node
  apply hrs.exists_advances hw hp hc hts hs
  intro ts us hts hc hs
  have hr := Rule.isProper_zeroOrMore.mp (hp.proper hi.wellFormed.proper _ List.mem_cons_self)
  obtain ⟨t, v, rfl⟩ := List.exists_cons_of_ne_nil hne
  obtain ⟨x, ts, rfl, rfl, rfl⟩ := List.map_eq_cons_iff.mp hts
  rw [Program.lowerSeq_cons]
  obtain ⟨s₁, h₁⟩ := exists_advances_again _ (isOneOf_lookAhead hi hr hv.canBegin hs) hs node
  obtain ⟨s₂, h₂⟩ := h hp.zeroOrMore hc hts h₁.ready node
  rw [Program.lowerSeq_singleton] at h₂
  exact ⟨s₂, (h₁.trans (h₂.append _)).append _⟩

theorem once (h : i.Tracks start [r] v) (hrs : i.Tracks start (.zeroOrMore id r :: rs) w)
    (hw : i.grammar.productions.Yields (.zeroOrMore id r :: rs) w) :
  i.Tracks start (.oneOrMore id r :: rs) (v ++ w)
  := by
  intro n qs ts us s hp hc hts hs node
  apply hrs.exists_advances hw hp.oneOrMore.next hc hts hs
  intro ts us hts hc hs
  rw [Program.lowerSeq_cons, Program.lowerSeq_cons]
  obtain ⟨s₁, h₁⟩ := h hp.oneOrMore hc hts hs node
  rw [Program.lowerSeq_singleton] at h₁
  exact ⟨s₁, ((advances_once _ hs).trans (h₁.append _)).append _⟩

end Tracks

/-- What rules yield is tracked: what comes after each part tells where it stops. -/
theorem tracks (hi : i.Compiled) (hl : i.grammar.IsLL1 start) {w : List TerminalId}
    (h : i.grammar.productions.Yields rs w) :
  i.Tracks start rs w
  := by
  induction h with
  | nil => exact .nil
  | terminal id t h ih => apply (Tracks.terminal id t).cons ih h
  | nonterminal id hr hv h ihv ih => apply (Tracks.nonterminal hi hl id hr hv ihv).cons ih h
  | concat id hv h ihv ih => apply (Tracks.concat id ihv).cons ih h
  | choice id hr hv h ihv ih => apply (Tracks.choice hi hl id hr hv ihv).cons ih h
  | pass id r h ih => apply (Tracks.pass hi hl id r).cons ih h
  | take id hne hv h ihv ih => apply (Tracks.take hi id hne hv ihv).cons ih h
  | stop id r h ih => apply (Tracks.stop hi hl id r).cons ih h
  | again id hne hv h ihv ih => exact .again hi hne hv ihv ih h
  | once id hv h ihv ih => exact .once ihv ih h

/-! ### Parsing -/

/-- The tokens of a word that is derived are those of terminals of the grammar, and none is
skipped. -/
theorem visible_of_yields (hi : i.Compiled) (hl : i.grammar.IsLL1 start)
    (hr : r ∈ i.grammar.productions n) (hv : i.grammar.productions.Yields [r] w) :
  ∀ t ∈ w, t ∈ i.grammar.terminalIds ∧ t ∉ i.grammar.skip
  := by
  intro t ht
  obtain ⟨m, hm⟩ : ∃ m, .terminal t ∈ Rule.symbolsAll (i.grammar.productions m) := by
    obtain h | h := hv.mentions t ht
    · rw [Rule.symbolsAll_singleton] at h
      exact ⟨n, Rule.mem_symbolsAll.mpr ⟨r, hr, h⟩⟩
    · apply h
  constructor
  · apply Grammar.mem_terminalIds.mpr (hi.wellFormed.has_of_mem_symbolsAll m _ hm)
  · exact fun h => hl.visible m t h hm

/-- Of an LL(1) grammar every word that the nonterminal to start with derives is parsed: an input
that is cut into its tokens has, with all fuel that is enough, the same derivation tree without
errors, the leaves of which are the tokens. -/
theorem parse?_of_derives [Engine] {fs : FileSystem} {o : Options} {text file : String}
    (hi : (Compilation.ofText fs o text file).interpreter? = some i)
    (hn : i.grammar.start? = some start) (hl : i.grammar.IsLL1 start)
    {ts : List (TerminalId × List Char)}
    (hd : i.grammar.productions.Derives [.nonterminal start] ((ts.map Prod.fst).map .terminal))
    (hs : i.grammar.Segments ts) {input : String} (hinput : input.toList = joined ts)
    (name : String) :
  ∃ t, (∃ enough, ∀ fuel, enough ≤ fuel → i.parse? fuel input name = some t) ∧ t.errors = [] ∧
    t.IsDerivation i.grammar input.toList ∧
    t.leaves = ts.map fun x => (.terminal x.1, String.ofList x.2)
  := by
  have hi := Compilation.compiled_of_interpreter? hi
  obtain ⟨r, hr, hv⟩ := Productions.exists_yields_of_derives hd
  have hready : State.Ready i (ts ++ []) ⟨.start input name, .single⟩ := by
    rw [List.append_nil]
    refine ⟨hs, ?_, hinput, by rintro p ⟨⟩⟩
    intro x hx
    apply visible_of_yields hi hl hr hv x.1 (List.mem_map_of_mem hx)
  obtain ⟨s, h⟩ := exists_advances_call hi hl hr hv hready (fun child s hs => by
    rw [← Program.lowerSeq_singleton]
    apply tracks hi hl hv (.alternative hr) (.last .nil) rfl hs child) ParseTree.root
  have hruns := h.ended
  have htree := hruns.isDerivation hi hn h.errors
  obtain ⟨enough, hexec⟩ := exec_of_runs_of_le hruns
  refine ⟨s.tree, ⟨enough, ?_⟩, h.errors, htree, htree.leaves_eq.trans h.terminals⟩
  intro fuel hfuel
  rw [parse?, hn]
  dsimp only
  rw [hexec fuel hfuel, Option.map_some]

end Interpreter

/-- The compilation of `Start -> 'b'? 'a';`. -/
def Compilation.optionalB : Compilation :=
  .ofText (.bare []) ⟨⟨"."⟩, ⟨"."⟩⟩ "Start -> 'b'? 'a';" ""

/-- Whether the only alternative is an option of a terminal before another terminal. -/
def Rule.isOptionBefore (b a : TerminalId) : List Rule → Bool
  | [.concat _ [.option _ (.terminal _ b'), .terminal _ a']] => b' = b ∧ a' = a
  | _ => false

theorem Rule.exists_of_isOptionBefore {b a : TerminalId} {rs : List Rule}
    (h : isOptionBefore b a rs) :
  ∃ id₀ id₁ id₂ id₃, rs = [.concat id₀ [.option id₁ (.terminal id₂ b), .terminal id₃ a]]
  := by
  rw [isOptionBefore.eq_def] at h
  split at h
  · obtain ⟨rfl, rfl⟩ := of_decide_eq_true h
    exact ⟨_, _, _, _, rfl⟩
  · cases h

/-- A grammar with one rule, an option of a terminal before another one, is LL(1). -/
theorem Grammar.isLL1_of_option_before {g : Grammar} (hg : g.productions.Proper)
    (hskip : g.skip = []) {id₀ id₁ id₂ id₃ : RuleId} {start : NonterminalId} {a b : TerminalId}
    (hab : a ≠ b)
    (hps : ∀ n, ∀ r ∈ g.productions n,
      r = .concat id₀ [.option id₁ (.terminal id₂ b), .terminal id₃ a])
    (hlen : ∀ n, (g.productions n).length < 2) :
  g.IsLL1 start
  := by
  -- The places of the rule are these, and the option is the only node that a token decides on.
  have hpending : ∀ {n rs}, g.productions.Pending n rs →
      rs = [.concat id₀ [.option id₁ (.terminal id₂ b), .terminal id₃ a]] ∨
      rs = [.option id₁ (.terminal id₂ b), .terminal id₃ a] ∨
      rs = [.terminal id₂ b, .terminal id₃ a] ∨ rs = [.terminal id₃ a] ∨ rs = [] := by
    intro n rs h
    induction h with
    | alternative hr => exact .inl (by rw [hps _ _ hr])
    | next _ ih => obtain ih | ih | ih | ih | ih := ih <;> cases ih <;> simp
    | concat _ ih => obtain ih | ih | ih | ih | ih := ih <;> cases ih; simp
    | choice _ _ ih => obtain ih | ih | ih | ih | ih := ih <;> cases ih
    | option _ ih => obtain ih | ih | ih | ih | ih := ih <;> cases ih; simp
    | zeroOrMore _ ih => obtain ih | ih | ih | ih | ih := ih <;> cases ih
    | oneOrMore _ ih => obtain ih | ih | ih | ih | ih := ih <;> cases ih
  constructor
  · simp [hskip]
  · intro n hn
    exact absurd (hlen n) (by omega)
  · intro n id qs rs h
    obtain h | h | h | h | h := hpending h <;> cases h
  · intro n id r rs t h hb hf
    obtain h | h | h | h | h := hpending h <;> cases h
    have ha : (Rule.terminal id₃ a).isProper := rfl
    rw [← Productions.begins_iff_canBegin hg rfl, Productions.begins_terminal] at hb
    cases hf with
    | begins _ h =>
      obtain ⟨v, hv, h⟩ := Productions.seqDerives_singleton.mp h
      have h := (Productions.begins_iff_canBegin hg ha).mpr ⟨v, hv, _, h⟩
      rw [Productions.begins_terminal] at h
      apply hab (h.symm.trans hb)
    | ends h _ _ =>
      have h := Productions.seqDerives_singleton.mp h
      rw [← Productions.CanVanish, ← Productions.nullable_iff_canVanish hg ha] at h
      simp at h
  · intro n id r rs t h
    obtain h | h | h | h | h := hpending h <;> cases h
  · intro n id r rs t h
    obtain h | h | h | h | h := hpending h <;> cases h

/-- The option is taken where its token is next. -/
theorem Interpreter.parse?_optionalB :
  ∃ i t, Compilation.optionalB.interpreter? = some i ∧
    (∃ enough, ∀ fuel, enough ≤ fuel → i.parse? fuel "ba" "" = some t) ∧ t.errors = [] ∧
    t.leaves = [(.terminal ⟨0⟩, "b"), (.terminal ⟨1⟩, "a")]
  := by
  have h : Compilation.optionalB.interpreter?.any fun i => decide
      (i.grammar.start? = some ⟨0⟩ ∧ i.grammar.nonterminals.size = 1 ∧ i.grammar.skip = [] ∧
      Rule.isOptionBefore ⟨0⟩ ⟨1⟩ (i.grammar.productions ⟨0⟩) ∧
      i.grammar.Segments [(⟨0⟩, ['b']), (⟨1⟩, ['a'])]) := by
    decide +kernel
  obtain ⟨i, hi, h⟩ := (Option.any_eq_true _ _).mp h
  obtain ⟨hstart, hsize, hskip, hrules, hsegments⟩ := of_decide_eq_true h
  obtain ⟨id₀, id₁, id₂, id₃, hr⟩ := Rule.exists_of_isOptionBefore hrules
  have hn : ∀ n, i.grammar.productions n = i.grammar.productions ⟨0⟩ ∨
      i.grammar.productions n = [] := by
    rintro ⟨j⟩
    by_cases hj : j < i.grammar.nonterminals.size
    · obtain rfl : j = 0 := by omega
      exact .inl rfl
    · apply Or.inr
      apply List.eq_nil_iff_forall_not_mem.mpr
      intro r hr
      apply hj (Grammar.lt_size_of_mem_productions hr)
  have hl : i.grammar.IsLL1 ⟨0⟩ := by
    apply Grammar.isLL1_of_option_before (Compilation.compiled_of_interpreter? hi).wellFormed.proper
      hskip (b := ⟨0⟩) (a := ⟨1⟩) (by decide)
    · intro n r hr'
      obtain hn | hn := hn n
      · rw [hn, hr] at hr'
        apply List.mem_singleton.mp hr'
      · rw [hn] at hr'
        cases hr'
    · intro n
      obtain hn | hn := hn n <;> simp [hn, hr]
  have hd : i.grammar.productions.Derives [.nonterminal ⟨0⟩]
      (([(⟨0⟩, ['b']), (⟨1⟩, ['a'])].map Prod.fst).map .terminal) := by
    apply Productions.Derives.of_alternative (v := [.terminal ⟨0⟩, .terminal ⟨1⟩]) _ _ .refl
    · exact .concat id₀ [.option id₁ (.terminal id₂ ⟨0⟩), .terminal id₃ ⟨1⟩]
    · rw [hr]
      exact List.mem_cons_self
    · simp [Rule.seqDenotes_cons]
  have hinput : "ba".toList = joined [(⟨0⟩, ['b']), (⟨1⟩, ['a'])] := by decide
  obtain ⟨t, hparse, he, _, hleaves⟩ := parse?_of_derives hi hstart hl hd hsegments hinput ""
  exact ⟨i, t, hi, hparse, he, hleaves⟩

end Descent
