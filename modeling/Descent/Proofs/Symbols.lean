import Descent.Proofs.Declarations

/-!
# Symbols and their names

Symbols are added to a grammar under names that are free, and literal texts under names made up from
them.

* The names of a grammar are kept the other way round, too: the entries of its name table are its
  symbols under their names (`Grammar.Indexed`), and every literal text has a terminal that shows it
  (`Grammar.Interned`).  An addition keeps both (`Grammar.Indexed.perform`,
  `Grammar.Interned.perform`).
* The name of a new literal is the first that is free of the one made up from its text and those
  with low lines behind it (`Grammar.isFirstFree_freeName`), so that the search for it ends.
* So whatever is added, in any order, names and symbols correspond, and texts and terminals of
  literals do (`Grammar.names_build`).
-/

namespace Descent

namespace Grammar

/-! ### The first free name -/

/-- A name is the first that is free of a name and those with low lines behind it. -/
def IsFirstFree (free : String → Prop) (name found : String) : Prop :=
  ∃ count, found = underscored name count ∧ free found ∧ ∀ k < count, ¬ free (underscored name k)

/-- Low lines are added as long as the name is taken. -/
theorem exists_freshName_eq (taken : String → Bool) (bound : Nat) : ∀ name : String,
  ∃ count, freshName taken bound name = underscored name count ∧
    ∀ k < count, taken (underscored name k)
  := by
  induction bound with
  | zero =>
    intro name
    exact ⟨0, rfl, by simp⟩
  | succ bound ih =>
    intro name
    rw [freshName]
    split
    case isFalse => exact ⟨0, rfl, by simp⟩
    case isTrue hname =>
      obtain ⟨count, hcount, htaken⟩ := ih (name ++ "_")
      refine ⟨count + 1, hcount, ?_⟩
      intro k hk
      obtain _ | k := k
      · apply hname
      · apply htaken k (Nat.lt_of_succ_lt_succ hk)

variable {g g' : Grammar} {name : String} {x : Symbol} {op : Operation}

/-- A name that no symbol has and that is not reserved. -/
def IsFree (g : Grammar) (reserved : List String) (name : String) : Prop :=
  g.lookup? name = none ∧ name ∉ reserved

/-- The name of a literal is the first that is free of those made up from its text. -/
theorem isFirstFree_freeName (g : Grammar) (text : String) (reserved : List String) :
  IsFirstFree (g.IsFree reserved) (literalName text g.literals.entries.length)
    (g.freeName text reserved)
  := by
  obtain ⟨count, hcount, htaken⟩ := exists_freshName_eq
    (fun name => g.names.contains name || reserved.contains name)
    (g.names.entries.length + reserved.length) (literalName text g.literals.entries.length)
  refine ⟨count, hcount, g.freeName_free text reserved, ?_⟩
  rintro k hk ⟨hlookup, hreserved⟩
  have h := htaken k hk
  rw [Bool.or_eq_true_iff, contains_names, hlookup, List.contains_iff_mem] at h
  obtain h | h := h
  · cases h
  · exact hreserved h

/-! ### Names of symbols -/

/-- The name table of a grammar lists its symbols under their names, each name once. -/
structure Indexed (g : Grammar) : Prop where
  nodup_keys : g.names.keys.Nodup
  mem_entries_iff : ∀ name x, (name, x) ∈ g.names.entries ↔ g.Has x ∧ g.nameOf x = name

theorem indexed_empty :
  empty.Indexed
  := by
  constructor
  · apply List.nodup_nil
  · rintro name (t | n) <;> simp [empty, OrderedMap.empty, Has]

/-- Every symbol is found under its name, and nothing else is found. -/
theorem Indexed.lookup?_iff (h : g.Indexed) (name : String) (x : Symbol) :
  g.lookup? name = some x ↔ g.Has x ∧ g.nameOf x = name
  := by rw [lookup?, OrderedMap.get?_eq_some_iff h.nodup_keys, h.mem_entries_iff]

/-- No two symbols have the same name. -/
theorem Indexed.eq_of_nameOf (h : g.Indexed) {x y : Symbol} (hx : g.Has x) (hy : g.Has y)
    (hname : g.nameOf x = g.nameOf y) :
  x = y
  := by
  have hl := (h.lookup?_iff (g.nameOf y) x).mpr ⟨hx, hname⟩
  rw [(h.lookup?_iff (g.nameOf y) y).mpr ⟨hy, rfl⟩] at hl
  exact (Option.some_inj.mp hl).symm

/-- A grammar with a new symbol under a name that was free, the others having their names. -/
structure Names (g : Grammar) (name : String) (x : Symbol) (g' : Grammar) : Prop where
  free : g.lookup? name = none
  new : ¬ g.Has x
  names : g'.names = g.names.insert name x
  has : ∀ y, g'.Has y ↔ y = x ∨ g.Has y
  nameOf : ∀ y, g'.nameOf y = if y = x then name else g.nameOf y

/-- A new symbol is listed behind the others. -/
theorem Indexed.names (h : g.Indexed) (hx : g.Names name x g') :
  g'.Indexed
  := by
  have hfree : name ∉ g.names.keys := by
    rw [OrderedMap.mem_keys_iff, contains_names, hx.free]
    simp
  have hentries : g'.names.entries = g.names.entries ++ [(name, x)] := by
    rw [hx.names]
    apply OrderedMap.write_of_notMem hfree
  constructor
  · rw [OrderedMap.keys, hentries, List.map_append, List.map_singleton, ← List.concat_eq_append]
    apply h.nodup_keys.concat hfree
  · intro k y
    rw [hentries, List.mem_append, List.mem_singleton, h.mem_entries_iff, hx.has, hx.nameOf,
      Prod.mk.injEq]
    by_cases hy : y = x
    · rw [hy]
      simp [hx.new, eq_comm]
    · simp [hy]

theorem names_withTerminal {t : Terminal} (h : g.lookup? t.name = none) :
  g.Names t.name (.terminal ⟨g.terminals.size⟩) (g.withTerminal t)
  := by
  constructor
  · apply h
  · exact Nat.lt_irrefl _
  · rfl
  · rintro (⟨⟨i⟩⟩ | ⟨⟨i⟩⟩) <;> simp [Has, withTerminal]
    omega
  · rintro (⟨⟨i⟩⟩ | ⟨⟨i⟩⟩)
    · rw [Grammar.nameOf, terminal_withTerminal, Grammar.nameOf, apply_ite Terminal.name]
      simp
    · rfl

theorem names_withNonterminal {n : Nonterminal} (h : g.lookup? n.name = none) :
  g.Names n.name (.nonterminal ⟨g.nonterminals.size⟩) (g.withNonterminal n)
  := by
  constructor
  · apply h
  · exact Nat.lt_irrefl _
  · rfl
  · rintro (⟨⟨i⟩⟩ | ⟨⟨i⟩⟩) <;> simp [Has, withNonterminal]
    omega
  · rintro (⟨⟨i⟩⟩ | ⟨⟨i⟩⟩)
    · rfl
    · rw [Grammar.nameOf, nonterminal_withNonterminal, Grammar.nameOf, apply_ite Nonterminal.name]
      simp

/-! ### Additions -/

/-- Whether an operation adds a symbol. -/
def Operation.isAddition : Operation → Bool
  | .addTerminal _ | .addNonterminal _ | .addLiteral .. => true
  | _ => false

/-- What an addition comes to. -/
inductive Addition [Engine] (g : Grammar) : Operation → Grammar → Prop
  /-- A symbol whose name is taken, a literal text that has a terminal, or one whose pattern does
  not compile. -/
  | none (op : Operation) : Addition g op g
  | terminal {t : Terminal} (h : g.lookup? t.name = .none) :
      Addition g (.addTerminal t) (g.withTerminal t)
  | nonterminal {n : Nonterminal} (h : g.lookup? n.name = .none) :
      Addition g (.addNonterminal n) (g.withNonterminal n)
  | literal {text : String} {reserved : List String} {matcher : Matcher} {span : Span}
      (h : g.literal? text = .none) :
      Addition g (.addLiteral text reserved span)
        (g.withLiteral text (.ofLiteral (g.freeName text reserved) text matcher span))

theorem addition_perform [Engine] (g : Grammar) (h : op.isAddition) :
  g.Addition op (g.perform op)
  := by
  cases op with
  | addTerminal t =>
    rw [perform, addTerminal?_eq]
    split
    case isTrue => exact .none _
    case isFalse hname => exact .terminal (Option.not_isSome_iff_eq_none.mp hname)
  | addNonterminal n =>
    rw [perform, addNonterminal?_eq]
    split
    case isTrue => exact .none _
    case isFalse hname => exact .nonterminal (Option.not_isSome_iff_eq_none.mp hname)
  | addLiteral text reserved span =>
    rw [perform]
    cases hl : g.literal? text with
    | some t =>
      rw [addLiteral, hl]
      exact .none _
    | none =>
      cases hc : Engine.anchored (Engine.escape text) false with
      | error e =>
        rw [addLiteral, hl, hc]
        exact .none _
      | ok matcher =>
        rw [addLiteral_eq hl hc]
        exact .literal hl
  | _ => cases h

theorem Indexed.addition [Engine] (h : g.Indexed) (ha : g.Addition op g') :
  g'.Indexed
  := by
  cases ha with
  | none => apply h
  | terminal hfree => apply h.names (names_withTerminal hfree)
  | nonterminal hfree => apply h.names (names_withNonterminal hfree)
  | @literal text reserved matcher span hl =>
    have hfree := (g.freeName_free text reserved).1
    obtain ⟨hkeys, hentries⟩ :=
      h.names (names_withTerminal (t := .ofLiteral _ text matcher span) hfree)
    exact ⟨hkeys, hentries⟩

/-! ### Literal texts -/

/-- The terminal of a literal text shows the text. -/
def Interned (g : Grammar) : Prop :=
  ∀ text t, g.literal? text = some t →
    g.Has (.terminal t) ∧ (g.terminal t).niceName? = some text

/-- Different texts have different terminals. -/
theorem Interned.eq_of_literal? (h : g.Interned) {text text' : String} {t : TerminalId}
    (ht : g.literal? text = some t) (ht' : g.literal? text' = some t) :
  text = text'
  := by
  have htext := (h text t ht).2
  rw [(h text' t ht').2] at htext
  exact (Option.some_inj.mp htext).symm

theorem Interned.withTerminal (h : g.Interned) (u : Terminal) :
  (g.withTerminal u).Interned
  := by
  intro text t ht
  obtain ⟨hhas, htext⟩ := h text t ht
  constructor
  · rw [Has, Grammar.withTerminal, Array.size_push]
    apply Nat.lt_succ_of_lt hhas
  · rw [terminal_withTerminal, if_neg (Nat.ne_of_lt hhas), htext]

theorem Interned.addition [Engine] (h : g.Interned) (ha : g.Addition op g') :
  g'.Interned
  := by
  cases ha with
  | none => apply h
  | terminal => apply h.withTerminal
  | nonterminal => apply h
  | @literal text reserved matcher span =>
    intro k t ht
    rw [literal?_withLiteral] at ht
    split at ht
    case isTrue hk =>
      cases ht
      rw [hk]
      constructor
      · simp [Has, withLiteral, Grammar.withTerminal]
      · change ((g.withTerminal _).terminal _).niceName? = _
        rw [terminal_withTerminal, if_pos rfl]
        rfl
    case isFalse => apply h.withTerminal _ k t ht

/-- A literal text keeps its terminal. -/
theorem Addition.literal? [Engine] (ha : g.Addition op g') {text : String} {t : TerminalId}
    (ht : g.literal? text = some t) :
  g'.literal? text = some t
  := by
  cases ha with
  | none | terminal | nonterminal => apply ht
  | literal hl =>
    rw [literal?_withLiteral, if_neg, ht]
    rintro rfl
    cases hl.symm.trans ht

/-! ### Sequences of additions -/

section

variable [Engine] {ops : List Operation}

/-- What an addition keeps, additions one after the other keep. -/
theorem foldl_perform_induction {P : Grammar → Prop}
    (hstep : ∀ {g g' : Grammar} {op : Operation}, P g → g.Addition op g' → P g')
    (hops : ∀ op ∈ ops, op.isAddition) (h : P g) :
  P (ops.foldl perform g)
  := by
  induction ops generalizing g with
  | nil => apply h
  | cons op ops ih =>
    obtain ⟨hop, hops⟩ := List.forall_mem_cons.mp hops
    apply ih hops (hstep h (addition_perform g hop))

theorem indexed_build (hops : ∀ op ∈ ops, op.isAddition) :
  (build ops).Indexed
  := foldl_perform_induction Indexed.addition hops indexed_empty

theorem interned_build (hops : ∀ op ∈ ops, op.isAddition) :
  (build ops).Interned
  := by
  apply foldl_perform_induction Interned.addition hops
  rintro text t ⟨⟩

/-- One of several operations gives a literal text a terminal, or finds that it has one. -/
def Gives (ops : List Operation) (text : String) (t : TerminalId) : Prop :=
  ∃ before reserved span after g, ops = before ++ .addLiteral text reserved span :: after ∧
    (build before).addLiteral text reserved span = .ok (t, g)

/-- The terminal that a literal text is given stays its terminal. -/
theorem Gives.literal? {text : String} {t : TerminalId} (h : Gives ops text t)
    (hops : ∀ op ∈ ops, op.isAddition) :
  (build ops).literal? text = some t
  := by
  obtain ⟨before, reserved, span, after, g, rfl, hadd⟩ := h
  have hafter := (List.forall_mem_cons.mp (List.forall_mem_append.mp hops).2).2
  have hg : (build before).perform (.addLiteral text reserved span) = g := by
    rw [perform, hadd]
    rfl
  have hliteral : g.literal? text = some t := by
    obtain ⟨ht, rfl⟩ | ⟨name, g₁, _, rfl⟩ := addLiteral_ok hadd
    · apply ht
    · exact (literal?_insert g₁ text t text).trans (if_pos rfl)
  rw [build, List.foldl_append, List.foldl_cons]
  change (after.foldl perform ((build before).perform _)).literal? text = some t
  rw [hg]
  exact foldl_perform_induction (P := fun g => g.literal? text = some t)
    (fun h ha => ha.literal? h) hafter hliteral

/-- However symbols are added to a grammar, its names are found to be those of its symbols, each of
one symbol; a literal text whose pattern compiles is given a terminal, and if that is new it has the
first name that is neither taken nor reserved; equal texts are given the same terminal, and
different ones different terminals. -/
theorem names_build (hops : ∀ op ∈ ops, op.isAddition)
    (hcompile : ∀ text reserved span, .addLiteral text reserved span ∈ ops →
      ∃ matcher, Engine.anchored (Engine.escape text) false = .ok matcher) :
  ((build ops).Indexed ∧
      (∀ name x, (build ops).lookup? name = some x ↔
        (build ops).Has x ∧ (build ops).nameOf x = name) ∧
      ∀ x y, (build ops).Has x → (build ops).Has y →
        (build ops).nameOf x = (build ops).nameOf y → x = y) ∧
    (∀ before text reserved span after, ops = before ++ .addLiteral text reserved span :: after →
      ∃ t g, (build before).addLiteral text reserved span = .ok (t, g) ∧
        (¬ (build before).Has (.terminal t) →
          IsFirstFree ((build before).IsFree reserved)
            (literalName text (build before).literals.entries.length) (g.terminal t).name)) ∧
    ∀ text text' t t', Gives ops text t → Gives ops text' t' → (t = t' ↔ text = text')
  := by
  have hindexed := indexed_build hops
  refine ⟨⟨hindexed, hindexed.lookup?_iff, fun x y => hindexed.eq_of_nameOf⟩, ?_, ?_⟩
  · rintro before text reserved span after rfl
    obtain ⟨matcher, hc⟩ := hcompile text reserved span (by simp)
    cases hl : (build before).literal? text with
    | some t =>
      refine ⟨t, build before, by rw [addLiteral, hl], ?_⟩
      intro hnew
      apply absurd _ hnew
      apply (interned_build (List.forall_mem_append.mp hops).1 text t hl).1
    | none =>
      refine ⟨_, _, addLiteral_eq hl hc reserved span, ?_⟩
      intro _
      change IsFirstFree _ _ (((build before).withTerminal _).terminal _).name
      rw [terminal_withTerminal, if_pos rfl]
      apply isFirstFree_freeName
  · intro text text' t t' h h'
    have ht := h.literal? hops
    have ht' := h'.literal? hops
    constructor
    · rintro rfl
      apply (interned_build hops).eq_of_literal? ht ht'
    · rintro rfl
      rw [ht'] at ht
      exact (Option.some_inj.mp ht).symm

end

/-- Literals whose names are taken or reserved, one of them added twice. -/
theorem names_build_plus :
  let plus : Operation := .addLiteral "+" ["PLUS_"] .nowhere
  let ops := [.addNonterminal (.bare "PLUS" .nowhere), plus, .addLiteral "if" ["IF"] .nowhere,
    .addLiteral "IF" [] .nowhere, plus]
  (∀ op ∈ ops, op.isAddition) ∧
    (∀ text reserved span, .addLiteral text reserved span ∈ ops →
      ∃ matcher, Engine.anchored (Engine.escape text) false = .ok matcher) ∧
    (build ops).names.keys = ["PLUS", "PLUS__", "IF_", "IF"] ∧
    (build ops).Indexed ∧ ∃ t, Gives ops "if" t ∧ ¬ Gives ops "+" t
  := by
  intro plus ops
  have hops : ∀ op ∈ ops, op.isAddition := by decide
  have hcompiles : ∀ text ∈ ["+", "if", "IF"],
      (Engine.anchored (Engine.escape text) false).toOption.isSome := by decide +kernel
  have hcompile : ∀ text reserved span, .addLiteral text reserved span ∈ ops →
      ∃ matcher, Engine.anchored (Engine.escape text) false = .ok matcher := by
    intro text reserved span hmem
    have htext : text ∈ ["+", "if", "IF"] := by
      simp only [ops, plus, List.mem_cons, reduceCtorEq, Operation.addLiteral.injEq,
        List.not_mem_nil, or_false, false_or] at hmem
      obtain ⟨rfl, -⟩ | ⟨rfl, -⟩ | ⟨rfl, -⟩ | ⟨rfl, -⟩ := hmem <;> simp
    have h := hcompiles text htext
    cases hc : Engine.anchored (Engine.escape text) false with
    | error e =>
      rw [hc] at h
      cases h
    | ok matcher => exact ⟨matcher, rfl⟩
  have hkeys : (build ops).names.keys = ["PLUS", "PLUS__", "IF_", "IF"] := by decide +kernel
  obtain ⟨⟨hindexed, -, -⟩, hadded, hgives⟩ := names_build hops hcompile
  obtain ⟨t, g, hadd, -⟩ := hadded [.addNonterminal (.bare "PLUS" .nowhere), plus] _ _ _ _ rfl
  have hif : Gives ops "if" t := ⟨_, _, _, _, g, rfl, hadd⟩
  refine ⟨hops, hcompile, hkeys, hindexed, t, hif, ?_⟩
  intro hplus
  exact absurd ((hgives "if" "+" t t hif hplus).mp rfl) (by decide)

end Grammar

end Descent
