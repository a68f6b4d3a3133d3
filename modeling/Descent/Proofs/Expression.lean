import Descent.Description.Parsing

/-!
# Expressions that are read have parts

Whatever a parser reads may be known to satisfy a predicate (`Parser.Gives`), and what parsers put
together then does as well.  So no choice and no sequence that is read from a text is without parts
(`Description.parse_isFull`).
-/

namespace Descent

namespace Description

/-! ### Full expressions -/

namespace Expr

mutual

/-- Whether all choices and sequences in an expression have parts. -/
def isFull : Expr → Bool
  | ident _ | literal _ => true
  | choice es | concat es => !es.isEmpty && areFull es
  | option e | zeroOrMore e | oneOrMore e => isFull e

/-- Whether all of several expressions are full. -/
def areFull : List Expr → Bool
  | [] => true
  | e :: es => isFull e && areFull es

end

variable {e : Expr} {es : List Expr}

theorem areFull_iff :
  areFull es ↔ ∀ e ∈ es, e.isFull
  := by
  induction es with
  | nil => simp [areFull]
  | cons e es ih => simp [areFull, ih]

@[simp]
theorem isFull_choice :
  (choice es).isFull ↔ es ≠ [] ∧ ∀ e ∈ es, e.isFull
  := by simp [isFull, areFull_iff]

@[simp]
theorem isFull_concat :
  (concat es).isFull ↔ es ≠ [] ∧ ∀ e ∈ es, e.isFull
  := by simp [isFull, areFull_iff]

/-- Parts that are full make up a full expression, if there are any. -/
theorem isFull_ofList {many : List Expr → Expr}
    (hmany : ∀ {es}, es ≠ [] → (∀ e ∈ es, e.isFull) → (many es).isFull) (hne : es ≠ [])
    (h : ∀ e ∈ es, e.isFull) :
  (ofList many es).isFull
  := by
  unfold ofList
  split
  · apply h _ List.mem_cons_self
  · apply hmany hne h

end Expr

/-! ### What parsers read -/

namespace Parser

variable {α β : Type}

/-- All that a parser reads satisfies a predicate. -/
structure Gives (P : α → Prop) (p : Parser α) : Prop where
  of_ok : ∀ ts a rest, p ts = .ok (a, rest) → P a

variable {P : α → Prop} {Q : β → Prop} {p : Parser α}

theorem Gives.trivial :
  Gives (fun _ => True) p
  := ⟨fun _ _ _ _ => True.intro⟩

theorem gives_pure {a : α} (h : P a) :
  Gives P (pure a)
  := by
  constructor
  rintro ts _ rest ⟨⟩
  apply h

theorem gives_fail {expected : Expected} :
  Gives P (fail expected)
  := by
  constructor
  rintro ts a rest ⟨⟩

theorem Gives.bind {f : α → Parser β} (hp : Gives P p) (hf : ∀ a, P a → Gives Q (f a)) :
  Gives Q (p >>= f)
  := by
  constructor
  intro ts b rest h
  change (p ts >>= fun r => f r.1 r.2) = _ at h
  cases hr : p ts with
  | error e =>
    rw [hr] at h
    cases h
  | ok r =>
    rw [hr] at h
    apply (hf r.1 (hp.of_ok ts r.1 r.2 hr)).of_ok r.2 b rest h

/-- After something of which nothing need be known. -/
theorem Gives.next {f : α → Parser β} (hf : ∀ a, Gives Q (f a)) :
  Gives Q (p >>= f)
  := Gives.trivial.bind fun a _ => hf a

theorem Gives.map {f : α → β} (hp : Gives P p) (hf : ∀ a, P a → Q (f a)) :
  Gives Q (f <$> p)
  := by
  rw [map_eq_pure_bind]
  apply hp.bind
  intro a ha
  apply gives_pure (hf a ha)

theorem Gives.many {p : Parser (Option α)} (hp : Gives (∀ a ∈ ·, P a) p) :
  Gives (∀ a ∈ ·, P a) (many p)
  := by
  constructor
  intro ts
  fun_induction Parser.many p ts with
  | case1 ts f hf =>
    rintro as rest ⟨⟩
  | case2 ts rest hr =>
    rintro as rest' ⟨⟩
    simp
  | case3 ts a rest hr hlt f hf ih =>
    rintro as rest' ⟨⟩
  | case4 ts a rest hr hlt as rest' hm ih =>
    rintro bs rest'' ⟨⟩
    apply List.forall_mem_cons.mpr ⟨hp.of_ok ts _ rest hr a rfl, ih as rest' hm⟩
  | case5 ts a rest hr hlt =>
    rintro bs rest'' ⟨⟩
    apply List.forall_mem_cons.mpr ⟨hp.of_ok ts _ rest hr a rfl, by simp⟩

end Parser

open Descent.Description.Parser

/-! ### Expressions -/

theorem gives_postfixed {e : Expr} (h : e.isFull) :
  Gives (Expr.isFull ·) (postfixed e)
  := by
  constructor
  intro ts e' rest h'
  unfold postfixed at h'
  split at h'
  · cases h'
    apply h
  · split at h' <;> cases h' <;> simpa [Expr.isFull] using h

variable {symbol : Parser Expr}

theorem gives_concatOf (hs : Gives (Expr.isFull ·) symbol) :
  Gives (Expr.isFull ·) (concatOf symbol)
  := by
  rw [concatOf]
  apply hs.bind
  intro first hfirst
  apply Gives.bind (P := fun es : List Expr => ∀ e ∈ es, e.isFull)
  · apply Gives.many
    apply Gives.next
    intro k
    split
    · apply hs.map
      rintro e he _ ⟨⟩
      apply he
    · apply gives_pure
      simp
  · intro others hothers
    apply gives_pure
    apply Expr.isFull_ofList (fun hne h => Expr.isFull_concat.mpr ⟨hne, h⟩) (List.cons_ne_nil _ _)
    exact List.forall_mem_cons.mpr ⟨hfirst, hothers⟩

theorem gives_choiceOf (hs : Gives (Expr.isFull ·) symbol) :
  Gives (Expr.isFull ·) (choiceOf symbol)
  := by
  apply (gives_concatOf hs).bind
  intro first hfirst
  apply Gives.bind (P := fun es : List Expr => ∀ e ∈ es, e.isFull)
  · apply Gives.many
    apply Gives.next
    intro t
    split
    · apply (gives_concatOf hs).map
      rintro e he _ ⟨⟩
      apply he
    · apply gives_pure
      simp
  · intro others hothers
    apply gives_pure
    apply Expr.isFull_ofList (fun hne h => Expr.isFull_choice.mpr ⟨hne, h⟩) (List.cons_ne_nil _ _)
    exact List.forall_mem_cons.mpr ⟨hfirst, hothers⟩

theorem gives_symbol (depth : Nat) :
  Gives (Expr.isFull ·) (Description.symbol depth)
  := by
  induction depth with
  | zero => apply gives_fail
  | succ depth ih =>
    apply Gives.next
    intro k
    split
    · apply Gives.next
      intro name
      apply gives_postfixed (by simp [Expr.isFull])
    · apply Gives.next
      intro text
      apply gives_postfixed (by simp [Expr.isFull])
    · apply Gives.next
      intro left
      apply (gives_choiceOf ih).bind
      intro inner hinner
      apply Gives.next
      intro right
      apply gives_postfixed hinner
    · apply gives_fail

theorem gives_rule :
  Gives (Expr.isFull ·) rule
  := ⟨fun ts => (gives_choiceOf (gives_symbol (ts.length + 1))).of_ok ts⟩

/-! ### Descriptions -/

/-- The expression of a right-hand side is full, if it has one. -/
def Rhs.IsFull (r : Rhs) : Prop := ∀ e, r = .rule e → e.isFull

/-- The expression of an item is full, if it has one. -/
def Item.IsFull (i : Item) : Prop := ∀ p, i = .production p → p.rhs.IsFull

theorem gives_rhs :
  Gives Rhs.IsFull rhs
  := by
  have hrule : Gives Rhs.IsFull (.rule <$> rule) := by
    apply gives_rule.map
    rintro e he _ ⟨⟩
    apply he
  have hpattern : Gives Rhs.IsFull (.pattern <$> string .symbol) := by
    apply Gives.trivial.map
    rintro p _ e ⟨⟩
  constructor
  intro ts r rest h
  unfold rhs at h
  split at h
  · split at h
    · apply hpattern.of_ok _ r rest h
    · apply hrule.of_ok _ r rest h
  · apply hrule.of_ok _ r rest h

theorem gives_production :
  Gives (fun p => p.rhs.IsFull) production
  := by
  apply Gives.next
  intro before
  apply Gives.next
  intro name
  apply Gives.next
  intro after
  apply Gives.next
  intro arrow
  apply gives_rhs.bind
  intro rhs hrhs
  apply Gives.next
  intro code
  apply Gives.next
  intro semicolon
  exact gives_pure hrhs

theorem gives_item :
  Gives Item.IsFull item
  := by
  have hproduction : Gives Item.IsFull (.production <$> production) := by
    apply gives_production.map
    rintro p hp _ ⟨⟩
    apply hp
  apply Gives.next
  intro k
  split
  · apply Gives.next
    intro at_
    apply Gives.trivial.map
    rintro b _ p ⟨⟩
  · apply hproduction
  · apply hproduction
  · apply gives_fail

theorem readItems_isFull (eof : Token) (ts : List Token) :
  ∀ i ∈ (readItems eof ts).1, i.IsFull
  := by
  fun_induction readItems eof ts with
  | case1 => simp
  | case2 t ts i rest hi hlt is ds hr ih =>
    rw [hr] at ih
    apply List.forall_mem_cons.mpr ⟨gives_item.of_ok _ i rest hi, ih⟩
  | case3 t ts i rest hi hlt =>
    apply List.forall_mem_cons.mpr ⟨gives_item.of_ok _ i rest hi, by simp⟩
  | case4 t ts f hi hlt is ds hr ih =>
    rw [hr] at ih
    apply ih
  | case5 => simp

end Description

theorem Description.mem_productions {desc : Description} {p : Description.Production} :
  p ∈ desc.productions ↔ .production p ∈ desc.items
  := by
  rw [productions, List.mem_filterMap]
  constructor
  · rintro ⟨i, hi, hip⟩
    split at hip <;> cases hip
    exact hi
  · exact fun h => ⟨_, h, rfl⟩

/-- The expressions in a description that is read from a text are full. -/
theorem Description.parse_isFull (text file : String) :
  ∀ p ∈ (Description.parse text file).1.productions, p.rhs.IsFull
  := by
  intro p hp
  apply Description.readItems_isFull _ _ _ (Description.mem_productions.mp hp) _ rfl

end Descent
