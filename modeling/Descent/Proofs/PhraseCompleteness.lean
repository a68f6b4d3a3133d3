import Descent.Proofs.PhraseSoundness

/-!
# What is spelled is read

A parser finds the phrases of a kind (`Parser.Finds`) if it reads each of them up to its end,
whatever comes after it, as long as that does not go on with the phrase: a postfix operator would go
on with a symbol, another symbol with a sequence, and a bar with a choice.  So tokens that spell
items are read as these, and nothing is reported (`readItems_iff`).
-/

namespace Descent.Description

/-- What holds of the tokens after phrases also holds before them if it holds before each phrase. -/
theorem Many.holds_append {α : Type} {R : List Token → α → Prop} {F : List Token → Prop}
    {us rest : List Token} {as : List α} (h : Many R us as)
    (hF : ∀ us a rest, R us a → F (us ++ rest)) (hrest : F rest) :
  F (us ++ rest)
  := by
  cases h with
  | nil => apply hrest
  | cons h hs =>
    rw [List.append_assoc]
    apply hF _ _ _ h

namespace Parser

variable {α β : Type} {R : List Token → α → Prop} {F : List Token → Prop}

/-! ### Steps that succeed -/

section

variable {p : Parser α} {f : α → Parser β} {ts mid rest : List Token} {a : α} {b : β} {t : Token}
  {kind : Kind}

theorem bind_ok (h : p ts = .ok (a, mid)) (hf : f a mid = .ok (b, rest)) :
  (p >>= f) ts = .ok (b, rest)
  := by rw [bind_of_ok h, hf]

theorem expect_of_kind (expected : Expected) (ht : t.kind = kind) :
  expect kind expected (t :: ts) = .ok (t, ts)
  := by
  apply token_of_some
  apply if_pos ht

theorem accept_of_kind (ht : t.kind = kind) :
  accept kind (t :: ts) = .ok (some t, ts)
  := by apply if_pos ht

theorem accept_of_ne (h : ∀ t ∈ ts.head?, t.kind ≠ kind) :
  accept kind ts = .ok (none, ts)
  := by
  cases ts with
  | nil => rfl
  | cons t ts => apply if_neg (h t rfl)

end

/-! ### Finding phrases -/

/-- Phrases are read up to their ends, before tokens of which something may be known. -/
structure Finds (R : List Token → α → Prop) (F : List Token → Prop) (p : Parser α) : Prop where
  ok_of : ∀ us a rest, R us a → F rest → p (us ++ rest) = .ok (a, rest)

/-- Phrases that come one after the other are found if what a phrase starts with does not go on with
the phrase before it. -/
theorem many_of_finds {p : Parser (Option α)}
    (hp : ∀ us a rest, R us a → F rest → p (us ++ rest) = .ok (some a, rest))
    (hne : ∀ us a, R us a → us ≠ []) (hF : ∀ us a rest, R us a → F (us ++ rest))
    {vs rest rest' : List Token} {as : List α} (h : Many R vs as) (hrest : F rest)
    (hend : p rest = .ok (none, rest')) :
  many p (vs ++ rest) = .ok (as, rest')
  := by
  induction h with
  | nil =>
    rw [many, List.nil_append, hend]
  | @cons us vs a as hus hvs ih =>
    have hnext := hvs.holds_append hF hrest
    have hlt : (vs ++ rest).length < (us ++ (vs ++ rest)).length := by
      have := List.length_pos_iff.mpr (hne us a hus)
      simp [this]
    rw [List.append_assoc, many, hp us a _ hus hnext]
    dsimp only
    rw [if_pos hlt, ih]

/-- Phrases that are found before any tokens are found one after the other. -/
theorem many_of_found {p : Parser (Option α)}
    (hp : ∀ us a rest, R us a → p (us ++ rest) = .ok (some a, rest))
    (hne : ∀ us a, R us a → us ≠ []) {vs rest rest' : List Token} {as : List α} (h : Many R vs as)
    (hend : p rest = .ok (none, rest')) :
  many p (vs ++ rest) = .ok (as, rest')
  := by
  apply many_of_finds (F := fun _ => True) _ hne (fun _ _ _ _ => trivial) h trivial hend
  exact fun us a rest hus _ => hp us a rest hus

end Parser

open Descent.Description.Parser

section

variable {t : Token} {ts : List Token}

theorem ident_of_kind (expected : Expected) (ht : t.kind = .ident) :
  ident expected (t :: ts) = .ok (⟨t.text, t.span⟩, ts)
  := by
  apply token_of_some
  apply if_pos ht

theorem string_of_kind {value : String} (expected : Expected) (ht : t.kind = .str value) :
  string expected (t :: ts) = .ok (⟨value, t.span⟩, ts)
  := by
  apply token_of_some
  rw [ht]

end

/-! ### Entries and attributes -/

theorem entryOrEnd_of_spells {us : List Token} {entry : Entry} (rest : List Token)
    (h : SpellsEntry us entry) :
  entryOrEnd (us ++ rest) = .ok (some entry, rest)
  := by
  obtain ⟨hkey, hequals, hvalue, hsemicolon⟩ := h
  apply bind_ok (accept_of_ne (by simp [hkey]))
  apply bind_ok (ident_of_kind _ hkey)
  apply bind_ok (expect_of_kind _ hequals)
  apply bind_ok (string_of_kind _ hvalue)
  apply bind_ok (expect_of_kind _ hsemicolon)
  rfl

theorem entries_of_spells {us : List Token} {r : Token} {entries : List Entry} (rest : List Token)
    (h : Many SpellsEntry us entries) (hr : r.kind = .rightBrace) :
  many entryOrEnd (us ++ r :: rest) = .ok (entries, rest)
  := by
  apply many_of_found _ _ h
  · apply bind_ok (accept_of_kind hr)
    rfl
  · exact fun us entry rest hus => entryOrEnd_of_spells rest hus
  · rintro _ _ ⟨⟩
    simp

theorem param_of_spells {us : List Token} {p : Located Param} (rest : List Token)
    (h : SpellsParam us p) :
  param (us ++ rest) = .ok (p, rest)
  := by
  cases h with
  | _ ht =>
    apply token_of_some
    rw [ht]

theorem nextParams_of_spells {us rest : List Token} {ps : List (Located Param)}
    (h : Many (After .comma SpellsParam) us ps) (hrest : ∀ t ∈ rest.head?, t.kind ≠ .comma) :
  many nextParam? (us ++ rest) = .ok (ps, rest)
  := by
  apply many_of_found _ _ h
  · apply bind_ok (accept_of_ne hrest)
    rfl
  · rintro _ p rest ⟨ht, hus⟩
    apply bind_ok (accept_of_kind ht)
    apply map_of_ok (param_of_spells rest hus)
  · rintro _ _ ⟨⟩
    simp

theorem params_of_spells {us rest : List Token} {ps : List (Located Param)}
    (h : SpellsParams us ps) (hrest : ∀ t ∈ rest.head?, t.kind ≠ .leftParen) :
  params (us ++ rest) = .ok (ps, rest)
  := by
  cases h with
  | absent =>
    apply bind_ok (accept_of_ne hrest)
    rfl
  | @empty l r hl hr =>
    apply bind_ok (accept_of_kind hl)
    apply bind_ok (a := some r.kind) rfl
    rw [hr]
    apply bind_ok (expect_of_kind _ hr)
    rfl
  | @some l r us vs p ps hl h hs hr =>
    have hfirst : ∀ ts, (us ++ ts).head?.map (·.kind) ≠ some .rightParen := by
      intro ts
      cases h with
      | _ ht => simp [ht]
    rw [List.cons_append, List.append_assoc, List.append_assoc]
    apply bind_ok (accept_of_kind hl)
    apply bind_ok (a := (us ++ (vs ++ ([r] ++ rest))).head?.map (·.kind)) rfl
    rw [if_neg (hfirst _)]
    apply bind_ok (param_of_spells _ h)
    apply bind_ok (nextParams_of_spells hs (by simp [hr]))
    apply bind_ok (expect_of_kind _ hr)
    rfl

theorem attribute?_of_spells {us : List Token} {a : Attribute} (rest : List Token)
    (h : SpellsAttribute us a) :
  attribute? (us ++ rest) = .ok (some a, rest)
  := by
  obtain ⟨hl, hname, h, hr⟩ := h
  rw [List.cons_append, List.cons_append, List.append_assoc]
  apply bind_ok (accept_of_kind hl)
  apply bind_ok (ident_of_kind _ hname)
  apply bind_ok (params_of_spells h (by simp [hr]))
  apply bind_ok (expect_of_kind _ hr)
  rfl

theorem attributes_of_spells {us rest : List Token} {as : List Attribute}
    (h : Many SpellsAttribute us as) (hrest : ∀ t ∈ rest.head?, t.kind ≠ .leftBracket) :
  many attribute? (us ++ rest) = .ok (as, rest)
  := by
  apply many_of_found _ _ h
  · apply bind_ok (accept_of_ne hrest)
    rfl
  · exact fun us a rest hus => attribute?_of_spells rest hus
  · rintro _ _ ⟨⟩
    simp

/-! ### Rules -/

/-- No postfix operator comes next. -/
def EndsSymbol (ts : List Token) : Prop :=
  ∀ t ∈ ts.head?, t.kind.operator? = none

theorem postfixed_of_endsSymbol (e : Expr) {ts : List Token} (h : EndsSymbol ts) :
  postfixed e ts = .ok (e, ts)
  := by
  cases ts with
  | nil => apply postfixed_nil
  | cons t ts => rw [postfixed_cons, h t rfl]

/-- Neither a postfix operator nor another symbol comes next. -/
def EndsConcat (ts : List Token) : Prop :=
  EndsSymbol ts ∧ startsSymbol (ts.head?.map (·.kind)) = false

/-- Nothing comes next that goes on with a rule. -/
def EndsChoice (ts : List Token) : Prop :=
  EndsConcat ts ∧ ∀ t ∈ ts.head?, t.kind ≠ .pipe

theorem StartsSymbol.endsSymbol {us : List Token} (h : StartsSymbol us) (rest : List Token) :
  EndsSymbol (us ++ rest)
  := by
  obtain ⟨t, vs, rfl, ht⟩ := h
  rintro _ ⟨⟩
  cases hk : t.kind <;> simp [hk, startsSymbol, Kind.operator?] at ht ⊢

theorem endsConcat_of_pipe {t : Token} (ht : t.kind = .pipe) (rest : List Token) :
  EndsConcat (t :: rest)
  := by simp [EndsConcat, EndsSymbol, ht, Kind.operator?, startsSymbol]

/-- Phrases of at most the given length. -/
def Within {α : Type} (n : Nat) (R : List Token → α → Prop) (us : List Token) (a : α) : Prop :=
  us.length ≤ n ∧ R us a

theorem Many.within {α : Type} {n : Nat} {R : List Token → α → Prop} {us : List Token} {as : List α}
    (h : Many R us as) (hn : us.length ≤ n) :
  Many (Within n R) us as
  := by
  induction h with
  | nil => apply Many.nil
  | cons h hs ih =>
    rw [List.length_append] at hn
    apply Many.cons ⟨by omega, h⟩ (ih (by omega))

theorem SpellsConcat.exists_ofList {us : List Token} {e : Expr} (h : SpellsConcat us e) :
  ∃ vs ws e' es, us = vs ++ ws ∧ e = .ofList .concat (e' :: es) ∧ SpellsSymbol vs e' ∧
    Many SpellsSymbol ws es
  := by
  cases h with
  | single h => exact ⟨us, [], e, [], by simp, rfl, h, .nil⟩
  | @several vs ws e' es h hs hes =>
    refine ⟨vs, ws, e', es, rfl, ?_, h, hs⟩
    obtain ⟨e'', es', rfl⟩ := List.exists_cons_of_ne_nil hes
    rfl

theorem SpellsChoice.exists_ofList {us : List Token} {e : Expr} (h : SpellsChoice us e) :
  ∃ vs ws e' es, us = vs ++ ws ∧ e = .ofList .choice (e' :: es) ∧ SpellsConcat vs e' ∧
    Many (After .pipe SpellsConcat) ws es
  := by
  cases h with
  | single h => exact ⟨us, [], e, [], by simp, rfl, h, .nil⟩
  | @several vs ws e' es h hs hes =>
    refine ⟨vs, ws, e', es, rfl, ?_, h, hs⟩
    obtain ⟨e'', es', rfl⟩ := List.exists_cons_of_ne_nil hes
    rfl

section

variable {n : Nat} {symbol : Parser Expr}

theorem finds_concatOf (h : Finds (Within n SpellsSymbol) EndsSymbol symbol) :
  Finds (Within n SpellsConcat) EndsConcat (concatOf symbol)
  := by
  constructor
  rintro us e rest ⟨hn, hus⟩ hrest
  obtain ⟨vs, ws, e', es, rfl, rfl, hvs, hws⟩ := hus.exists_ofList
  rw [List.length_append] at hn
  have hF : ∀ us e rest, Within n SpellsSymbol us e → EndsSymbol (us ++ rest) :=
    fun us e rest hus => hus.2.starts.endsSymbol rest
  replace hws := hws.within (n := n) (by omega)
  rw [List.append_assoc]
  apply bind_ok (h.ok_of vs e' _ ⟨by omega, hvs⟩ (hws.holds_append hF hrest.1))
  apply bind_ok (many_of_finds (F := EndsSymbol) _ _ hF hws hrest.1 _)
  · rfl
  · intro us e rest hus hrest
    obtain ⟨t, ts, rfl, ht⟩ := hus.2.starts
    apply bind_ok (a := some t.kind) rfl
    rw [if_pos ht]
    apply map_of_ok (h.ok_of _ e rest hus hrest)
  · intro us e hus
    obtain ⟨t, ts, rfl, ht⟩ := hus.2.starts
    simp
  · apply bind_ok (a := rest.head?.map (·.kind)) rfl
    rw [hrest.2]
    rfl

theorem finds_choiceOf (h : Finds (Within n SpellsSymbol) EndsSymbol symbol) :
  Finds (Within n SpellsChoice) EndsChoice (choiceOf symbol)
  := by
  constructor
  rintro us e rest ⟨hn, hus⟩ hrest
  obtain ⟨vs, ws, e', es, rfl, rfl, hvs, hws⟩ := hus.exists_ofList
  rw [List.length_append] at hn
  have hF : ∀ us e rest, Within n (After .pipe SpellsConcat) us e → EndsConcat (us ++ rest) := by
    rintro _ e rest ⟨-, ht, -⟩
    apply endsConcat_of_pipe ht
  replace hws := hws.within (n := n) (by omega)
  rw [List.append_assoc]
  apply bind_ok
    ((finds_concatOf h).ok_of vs e' _ ⟨by omega, hvs⟩ (hws.holds_append hF hrest.1))
  apply bind_ok (many_of_finds (F := EndsConcat) _ _ hF hws hrest.1 _)
  · rfl
  · rintro _ e rest ⟨hn, ht, hus⟩ hrest
    rw [List.length_cons] at hn
    apply bind_ok (accept_of_kind ht)
    apply map_of_ok ((finds_concatOf h).ok_of _ e rest ⟨by omega, hus⟩ hrest)
  · rintro _ _ ⟨-, ⟨⟩⟩
    simp
  · apply bind_ok (accept_of_ne hrest.2)
    rfl

end

/-- What stands before a postfix operator is read up to there, given that symbols in parentheses
are. -/
theorem symbol_of_primary {depth : Nat} {us : List Token} {e : Expr}
    (hdepth : Finds (Within depth SpellsSymbol) EndsSymbol (symbol depth))
    (hn : us.length ≤ depth + 1) (h : SpellsPrimary us e) (rest : List Token) :
  symbol (depth + 1) (us ++ rest) = postfixed e rest
  := by
  cases h with
  | @ident t ht =>
    unfold symbol
    rw [bind_of_ok (a := some t.kind) rfl, ht]
    apply bind_of_ok (ident_of_kind _ ht)
  | @literal t value ht =>
    unfold symbol
    rw [bind_of_ok (a := some t.kind) rfl, ht]
    apply bind_of_ok (string_of_kind _ ht)
  | @group l r us e hl h hr =>
    rw [List.length_cons, List.length_append] at hn
    have hr' : EndsChoice (r :: rest) := by
      simp [EndsChoice, EndsConcat, EndsSymbol, hr, Kind.operator?, startsSymbol]
    have hinner := (finds_choiceOf hdepth).ok_of us e (r :: rest) ⟨by omega, h⟩ hr'
    rw [List.cons_append, List.append_assoc, List.singleton_append]
    unfold symbol
    rw [bind_of_ok (a := some l.kind) rfl, hl]
    dsimp only
    rw [bind_of_ok (expect_of_kind _ hl), bind_of_ok hinner, bind_of_ok (expect_of_kind _ hr)]

theorem finds_symbol (depth : Nat) :
  Finds (Within depth SpellsSymbol) EndsSymbol (symbol depth)
  := by
  induction depth with
  | zero =>
    constructor
    rintro us e rest ⟨hn, hus⟩ hrest
    obtain ⟨t, vs, rfl, -⟩ := hus.starts
    simp at hn
  | succ depth ih =>
    constructor
    rintro us e rest ⟨hn, hus⟩ hrest
    cases hus with
    | plain h =>
      rw [symbol_of_primary ih hn h, postfixed_of_endsSymbol e hrest]
    | @postfixed t us e operator h ht =>
      rw [List.length_append] at hn
      rw [List.append_assoc, symbol_of_primary ih (by omega) h, List.singleton_append,
        postfixed_cons, ht]

theorem rule_of_spells {us : List Token} {e : Expr} {rest : List Token} (h : SpellsChoice us e)
    (hrest : EndsChoice rest) :
  rule (us ++ rest) = .ok (e, rest)
  := by
  apply (finds_choiceOf (finds_symbol _)).ok_of us e rest ⟨_, h⟩ hrest
  rw [List.length_append]
  omega

/-! ### Productions and items -/

theorem SpellsCode.code?_eq {us : List Token} {code : Option (Located String)}
    (h : SpellsCode us code) {semicolon : Token} (hs : semicolon.kind = .semicolon)
    (rest : List Token) :
  code? (us ++ semicolon :: rest) = .ok (code, semicolon :: rest)
  := by
  cases h with
  | absent =>
    rw [List.nil_append, code?, hs]
  | @present t body _ _ ht hopens hroom =>
    rw [List.singleton_append, code?, ht]
    dsimp only
    rw [hopens.codeOf_eq, if_pos hroom]
  | @crowded t body _ _ ht hopens hroom =>
    rw [List.singleton_append, code?, ht]
    dsimp only
    rw [hopens.codeOf_eq, if_neg (Nat.not_le_of_lt hroom)]

/-- Neither code nor a semicolon goes on with a rule. -/
theorem SpellsCode.endsChoice {us : List Token} {code : Option (Located String)}
    (h : SpellsCode us code) {semicolon : Token} (hs : semicolon.kind = .semicolon)
    (rest : List Token) :
  EndsChoice (us ++ semicolon :: rest)
  := by
  cases h with
  | absent => simp [EndsChoice, EndsConcat, EndsSymbol, hs, Kind.operator?, startsSymbol]
  | present ht | crowded ht =>
    simp [EndsChoice, EndsConcat, EndsSymbol, ht, Kind.operator?, startsSymbol]

/-- A rule does not go on after a string with a semicolon: the string alone is a rule already, and
what is read is determined. -/
theorem SpellsChoice.not_loneString {t u : Token} {us : List Token} {e : Expr} {value : String}
    (h : SpellsChoice (t :: u :: us) e) (ht : t.kind = .str value) :
  u.kind ≠ .semicolon
  := by
  intro hu
  have hend : EndsChoice [] := by simp [EndsChoice, EndsConcat, EndsSymbol, startsSymbol]
  have hlong := rule_of_spells h hend
  have hshort := rule_of_spells (.single (.single (.plain (.literal ht))))
    (SpellsCode.absent.endsChoice hu us)
  rw [List.append_nil] at hlong
  rw [List.nil_append, List.singleton_append, hlong] at hshort
  cases hshort

theorem rhs_of_spells {us vs : List Token} {e : Expr} {code : Option (Located String)}
    {semicolon : Token} (h : SpellsChoice us e) (hcode : SpellsCode vs code)
    (hlone : ∀ t value, us ++ vs = [t] → t.kind ≠ .str value)
    (hs : semicolon.kind = .semicolon) (rest : List Token) :
  rhs (us ++ (vs ++ semicolon :: rest)) = .ok (.rule e, vs ++ semicolon :: rest)
  := by
  rw [rhs_of_not_loneString]
  · apply map_of_ok (rule_of_spells h (hcode.endsChoice hs rest))
  · rintro ⟨t, u, value, ts, hts, ht, hu⟩
    obtain ⟨t, us, rfl, -⟩ := h.starts
    obtain ⟨rfl, hus⟩ := List.cons.inj hts
    cases us with
    | nil =>
      cases hcode with
      | absent => apply hlone _ value rfl ht
      | present hcode | crowded hcode =>
        obtain ⟨rfl, -⟩ := List.cons.inj hus
        rw [hu] at hcode
        cases hcode
    | cons u us =>
      obtain ⟨rfl, -⟩ := List.cons.inj hus
      apply h.not_loneString ht hu

theorem production_of_spells {us : List Token} {p : Production} (rest : List Token)
    (h : SpellsProduction us p) :
  production (us ++ rest) = .ok (p, rest)
  := by
  obtain ⟨hbefore, hname, hafter, harrow, h, hsemicolon⟩ := h
  simp only [List.append_assoc, List.cons_append, List.nil_append]
  apply bind_ok (attributes_of_spells hbefore (by simp [hname]))
  apply bind_ok (ident_of_kind _ hname)
  apply bind_ok (attributes_of_spells hafter (by simp [harrow]))
  apply bind_ok (expect_of_kind _ harrow)
  cases h with
  | pattern ht =>
    apply bind_ok (rhs_of_loneString ht hsemicolon)
    apply bind_ok (SpellsCode.absent.code?_eq hsemicolon rest)
    apply bind_ok (expect_of_kind _ hsemicolon)
    rfl
  | rule h hcode hlone =>
    rw [List.append_assoc]
    apply bind_ok (rhs_of_spells h hcode hlone hsemicolon rest)
    apply bind_ok (hcode.code?_eq hsemicolon rest)
    apply bind_ok (expect_of_kind _ hsemicolon)
    rfl

theorem directiveBlock_of_spells {name l r : Token} {us : List Token} {entries : List Entry}
    (hname : name.kind = .ident) (hl : l.kind = .leftBrace) (h : Many SpellsEntry us entries)
    (hr : r.kind = .rightBrace) (rest : List Token) :
  directiveBlock (name :: l :: (us ++ r :: rest)) = .ok (⟨⟨name.text, name.span⟩, entries⟩, rest)
  := by
  apply bind_ok (ident_of_kind _ hname)
  apply bind_ok (expect_of_kind _ hl)
  apply bind_ok (entries_of_spells rest h hr)
  rfl

/-- A production starts with its name or with an attribute. -/
theorem SpellsProduction.starts {us : List Token} {p : Production} (h : SpellsProduction us p) :
  ∃ t vs, us = t :: vs ∧ (t.kind = .ident ∨ t.kind = .leftBracket)
  := by
  obtain ⟨hbefore, hname, hafter, harrow, h, hsemicolon⟩ := h
  cases hbefore with
  | nil => exact ⟨_, _, rfl, .inl hname⟩
  | cons ha has =>
    obtain ⟨hl, -, -, -⟩ := ha
    exact ⟨_, _, rfl, .inr hl⟩

theorem item_of_spells {us : List Token} {i : Item} (rest : List Token) (h : SpellsItem us i) :
  item (us ++ rest) = .ok (i, rest)
  := by
  cases h with
  | @directive sign name l r us entries hsign hname hl h hr =>
    simp only [List.append_assoc, List.cons_append, List.nil_append]
    apply bind_ok (a := some sign.kind) rfl
    rw [hsign]
    apply bind_ok (expect_of_kind _ hsign)
    apply map_of_ok (directiveBlock_of_spells hname hl h hr rest)
  | @production us p h =>
    have hp := production_of_spells rest h
    obtain ⟨t, vs, rfl, ht | ht⟩ := h.starts
    · apply bind_ok (a := some t.kind) rfl
      rw [ht]
      apply map_of_ok hp
    · apply bind_ok (a := some t.kind) rfl
      rw [ht]
      apply map_of_ok hp

theorem readItems_of_spells (eof : Token) {ts : List Token} {items : List Item}
    (h : Many SpellsItem ts items) :
  readItems eof ts = (items, [])
  := by
  induction h with
  | nil => rw [readItems]
  | @cons us vs i items h hs ih =>
    have hi := item_of_spells vs h
    obtain ⟨t, us, rfl⟩ := List.exists_cons_of_ne_nil h.ne_nil
    rw [List.cons_append] at hi ⊢
    rw [readItems, hi]
    dsimp only
    rw [dif_pos (by rw [List.length_cons, List.length_append]; omega), ih]

/-- Reading a description finds exactly the items that its tokens spell.  Nothing is reported just
when the tokens spell some items, and then these are the items that are read, and no others are
spelled. -/
theorem readItems_iff (eof : Token) (ts : List Token) :
  ((readItems eof ts).2 = [] ↔ ∃ items, Many SpellsItem ts items) ∧
    ∀ items, Many SpellsItem ts items ↔ readItems eof ts = (items, [])
  := by
  have hread : (readItems eof ts).2 = [] → Many SpellsItem ts (readItems eof ts).1 :=
    spells_of_readItems eof ts
  constructor
  · constructor
    · intro h
      exact ⟨_, hread h⟩
    · rintro ⟨items, h⟩
      rw [readItems_of_spells eof h]
  · intro items
    constructor
    · apply readItems_of_spells eof
    · intro h
      rw [h] at hread
      apply hread rfl

end Descent.Description
