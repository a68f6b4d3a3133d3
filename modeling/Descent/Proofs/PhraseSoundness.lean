import Descent.Proofs.Phrases

/-!
# What is read is spelled

A parser reads only phrases of a kind (`Parser.Reads`) if the tokens that go away always spell what
it gives, and so do parsers that are put together from such.  If nothing is reported about a
description, then its tokens spell the items that were read (`spells_of_readItems`).
-/

namespace Descent.Description

namespace Parser

variable {α β : Type} {R S : List Token → α → Prop} {T : List Token → β → Prop} {p : Parser α}

/-! ### Steps of a parser -/

section

variable {f : α → Parser β} {ts rest : List Token} {a : α} {b : β}

theorem bind_of_ok (h : p ts = .ok (a, rest)) :
  (p >>= f) ts = f a rest
  := by
  change (p ts >>= fun r => f r.1 r.2) = _
  rw [h]
  rfl

theorem bind_of_error {failure : Failure} (h : p ts = .error failure) :
  (p >>= f) ts = .error failure
  := by
  change (p ts >>= fun r => f r.1 r.2) = _
  rw [h]
  rfl

theorem of_bind_ok (h : (p >>= f) ts = .ok (b, rest)) :
  ∃ a mid, p ts = .ok (a, mid) ∧ f a mid = .ok (b, rest)
  := by
  change (p ts >>= fun r => f r.1 r.2) = _ at h
  cases hr : p ts with
  | error e =>
    rw [hr] at h
    cases h
  | ok r =>
    rw [hr] at h
    exact ⟨r.1, r.2, rfl, h⟩

theorem map_of_ok {f : α → β} (h : p ts = .ok (a, rest)) :
  (f <$> p) ts = .ok (f a, rest)
  := by
  rw [map_eq_pure_bind, bind_of_ok h]
  rfl

end

/-! ### Reading only phrases -/

/-- The tokens that a parser reads spell what it gives. -/
structure Reads (R : List Token → α → Prop) (p : Parser α) : Prop where
  of_ok : ∀ ts a rest, p ts = .ok (a, rest) → ∃ us, ts = us ++ rest ∧ R us a

theorem Reads.imp (hp : Reads R p) (h : ∀ us a, R us a → S us a) :
  Reads S p
  := by
  constructor
  intro ts a rest hr
  obtain ⟨us, hts, hus⟩ := hp.of_ok ts a rest hr
  exact ⟨us, hts, h us a hus⟩

theorem reads_pure {a : α} (h : R [] a) :
  Reads R (pure a)
  := by
  constructor
  rintro ts _ rest ⟨⟩
  exact ⟨[], rfl, h⟩

theorem reads_fail (expected : Expected) :
  Reads R (fail expected)
  := by
  constructor
  rintro ts a rest ⟨⟩

/-- What is read first comes before what is read next. -/
theorem Reads.bind {f : α → Parser β} (hp : Reads R p)
    (hf : ∀ us a, R us a → Reads (fun vs b => T (us ++ vs) b) (f a)) :
  Reads T (p >>= f)
  := by
  constructor
  intro ts b rest h
  obtain ⟨a, mid, ha, hb⟩ := of_bind_ok h
  obtain ⟨us, rfl, hus⟩ := hp.of_ok ts a mid ha
  obtain ⟨vs, rfl, hT⟩ := (hf us a hus).of_ok mid b rest hb
  exact ⟨us ++ vs, by rw [List.append_assoc], hT⟩

theorem Reads.map {f : α → β} (hp : Reads R p) (hf : ∀ us a, R us a → T us (f a)) :
  Reads T (f <$> p)
  := by
  rw [map_eq_pure_bind]
  apply hp.bind
  intro us a hus
  apply reads_pure
  rw [List.append_nil]
  apply hf us a hus

theorem reads_peek :
  Reads (fun us _ => us = []) peek
  := by
  constructor
  rintro ts _ rest ⟨⟩
  exact ⟨[], rfl, rfl⟩

theorem token_of_some {f : Token → Option α} {t : Token} {a : α} (expected : Expected)
    (ts : List Token) (h : f t = some a) :
  token expected f (t :: ts) = .ok (a, ts)
  := by rw [token, h]

theorem reads_token {f : Token → Option α} (expected : Expected)
    (h : ∀ t a, f t = some a → R [t] a) :
  Reads R (token expected f)
  := by
  constructor
  rintro (_ | ⟨t, ts⟩) a rest hr
  · cases hr
  · rw [token] at hr
    cases hf : f t with
    | none =>
      rw [hf] at hr
      cases hr
    | some b =>
      rw [hf] at hr
      obtain ⟨⟩ := hr
      exact ⟨[t], rfl, h t _ hf⟩

theorem reads_expect (kind : Kind) (expected : Expected) :
  Reads (fun us t => us = [t] ∧ t.kind = kind) (expect kind expected)
  := by
  apply reads_token
  intro t a h
  obtain ⟨hk, ⟨⟩⟩ := Option.ite_none_right_eq_some.mp h
  exact ⟨rfl, hk⟩

/-- A token of the given kind, or no token. -/
def Accepted (kind : Kind) (us : List Token) : Option Token → Prop
  | some t => us = [t] ∧ t.kind = kind
  | none => us = []

theorem reads_accept (kind : Kind) :
  Reads (Accepted kind) (accept kind)
  := by
  constructor
  rintro (_ | ⟨t, ts⟩) o rest hr
  · obtain ⟨⟩ := hr
    exact ⟨[], rfl, rfl⟩
  · change (if t.kind = kind then _ else _) = _ at hr
    split at hr
    · next hk =>
      obtain ⟨⟩ := hr
      exact ⟨[t], rfl, rfl, hk⟩
    · obtain ⟨⟩ := hr
      exact ⟨[], rfl, rfl⟩

/-- Something that is there, or what is read where it is not. -/
def OrEnd (R : List Token → α → Prop) (E : List Token → Prop) (us : List Token) : Option α → Prop
  | some a => us ≠ [] ∧ R us a
  | none => E us

theorem reads_many {E : List Token → Prop} {p : Parser (Option α)} (hp : Reads (OrEnd R E) p) :
  Reads (fun us as => ∃ vs ws, us = vs ++ ws ∧ Many R vs as ∧ E ws) (many p)
  := by
  constructor
  intro ts
  fun_induction Parser.many p ts with
  | case1 ts f hf =>
    rintro as rest ⟨⟩
  | case2 ts rest hr =>
    rintro as rest' ⟨⟩
    obtain ⟨us, hts, hE⟩ := hp.of_ok ts none rest hr
    exact ⟨us, hts, [], us, rfl, .nil, hE⟩
  | case3 ts a rest hr hlt f hf ih =>
    rintro as rest' ⟨⟩
  | case4 ts a rest hr hlt as rest' hm ih =>
    rintro bs rest'' ⟨⟩
    obtain ⟨us, rfl, -, hR⟩ := hp.of_ok ts (some a) rest hr
    obtain ⟨_, rfl, vs, ws, rfl, hvs, hE⟩ := ih as rest' hm
    exact ⟨us ++ (vs ++ ws), by simp, us ++ vs, ws, by simp, .cons hR hvs, hE⟩
  | case5 ts a rest hr hlt =>
    -- A phrase is not empty, so tokens have gone away.
    obtain ⟨us, rfl, hus, -⟩ := hp.of_ok ts (some a) rest hr
    simp [List.length_pos_iff.mpr hus] at hlt

end Parser

open Descent.Description.Parser

theorem reads_ident (expected : Expected) :
  Reads (fun us name => ∃ t, us = [t] ∧ t.kind = .ident ∧ name = ⟨t.text, t.span⟩) (ident expected)
  := by
  apply reads_token
  intro t name h
  obtain ⟨hk, ⟨⟩⟩ := Option.ite_none_right_eq_some.mp h
  exact ⟨t, rfl, hk, rfl⟩

theorem reads_string (expected : Expected) :
  Reads (fun us s => ∃ t value, us = [t] ∧ t.kind = .str value ∧ s = ⟨value, t.span⟩)
    (string expected)
  := by
  apply reads_token
  intro t s h
  split at h
  · next value hk =>
    obtain ⟨⟩ := h
    exact ⟨t, value, rfl, hk, rfl⟩
  · cases h

/-! ### Entries and attributes -/

theorem reads_entryOrEnd :
  Reads (OrEnd SpellsEntry fun us => ∃ t, us = [t] ∧ t.kind = .rightBrace) entryOrEnd
  := by
  apply (reads_accept _).bind
  rintro us (_ | r) h
  · subst h
    apply (reads_ident _).bind
    rintro _ _ ⟨key, rfl, hkey, rfl⟩
    apply (reads_expect _ _).bind
    rintro _ equals ⟨rfl, hequals⟩
    apply (reads_string _).bind
    rintro _ _ ⟨value, text, rfl, hvalue, rfl⟩
    apply (reads_expect _ _).bind
    rintro _ semicolon ⟨rfl, hsemicolon⟩
    apply reads_pure
    exact ⟨by simp, .mk hkey hequals hvalue hsemicolon⟩
  · obtain ⟨rfl, hr⟩ := h
    apply reads_pure
    exact ⟨r, rfl, hr⟩

theorem reads_param :
  Reads SpellsParam param
  := by
  apply reads_token
  intro t p h
  split at h
  · next hk =>
    obtain ⟨⟩ := h
    exact .integer hk
  · next hk =>
    obtain ⟨⟩ := h
    exact .hex hk
  · next hk =>
    obtain ⟨⟩ := h
    exact .double hk
  · next hk =>
    obtain ⟨⟩ := h
    exact .str hk
  · cases h

theorem reads_nextParam? :
  Reads (OrEnd (After .comma SpellsParam) (· = [])) nextParam?
  := by
  apply (reads_accept _).bind
  rintro us (_ | t) h
  · subst h
    apply reads_pure
    rfl
  · obtain ⟨rfl, ht⟩ := h
    apply reads_param.map
    intro us p h
    exact ⟨by simp, .mk ht h⟩

theorem reads_params :
  Reads SpellsParams params
  := by
  apply (reads_accept _).bind
  rintro us (_ | l) h
  · subst h
    apply reads_pure .absent
  · obtain ⟨rfl, hl⟩ := h
    apply reads_peek.bind
    rintro _ kind rfl
    split
    · apply (reads_expect _ _).bind
      rintro _ r ⟨rfl, hr⟩
      apply reads_pure (.empty hl hr)
    · apply reads_param.bind
      intro us p hp
      apply (reads_many reads_nextParam?).bind
      rintro _ ps ⟨vs, _, rfl, hps, rfl⟩
      apply (reads_expect _ _).bind
      rintro _ r ⟨rfl, hr⟩
      apply reads_pure
      rw [List.append_nil]
      exact .some hl hp hps hr

theorem reads_attribute? :
  Reads (OrEnd SpellsAttribute (· = [])) attribute?
  := by
  apply (reads_accept _).bind
  rintro us (_ | l) h
  · subst h
    apply reads_pure
    rfl
  · obtain ⟨rfl, hl⟩ := h
    apply (reads_ident _).bind
    rintro _ _ ⟨name, rfl, hname, rfl⟩
    apply reads_params.bind
    intro us ps hps
    apply (reads_expect _ _).bind
    rintro _ r ⟨rfl, hr⟩
    apply reads_pure
    exact ⟨by simp, .mk hl hname hps hr⟩

/-! ### Rules -/

theorem SpellsConcat.ofList {us vs : List Token} {e : Expr} {es : List Expr}
    (h : SpellsSymbol us e) (hs : Many SpellsSymbol vs es) :
  SpellsConcat (us ++ vs) (.ofList .concat (e :: es))
  := by
  cases hs with
  | nil =>
    rw [List.append_nil]
    apply SpellsConcat.single h
  | cons h' hs' => apply SpellsConcat.several h (.cons h' hs') (by simp)

theorem SpellsChoice.ofList {us vs : List Token} {e : Expr} {es : List Expr}
    (h : SpellsConcat us e) (hs : Many (After .pipe SpellsConcat) vs es) :
  SpellsChoice (us ++ vs) (.ofList .choice (e :: es))
  := by
  cases hs with
  | nil =>
    rw [List.append_nil]
    apply SpellsChoice.single h
  | cons h' hs' => apply SpellsChoice.several h (.cons h' hs') (by simp)

theorem reads_concatOf {symbol : Parser Expr} (h : Reads SpellsSymbol symbol) :
  Reads SpellsConcat (concatOf symbol)
  := by
  have hnext : Reads (OrEnd SpellsSymbol (· = []))
      (do if startsSymbol (← peek) then some <$> symbol else pure none) := by
    apply reads_peek.bind
    rintro _ kind rfl
    split
    · apply h.map
      intro us e hus
      obtain ⟨t, vs, rfl, -⟩ := hus.starts
      exact ⟨by simp, hus⟩
    · apply reads_pure
      rfl
  apply h.bind
  intro us e hus
  apply (reads_many hnext).bind
  rintro _ es ⟨vs, _, rfl, hvs, rfl⟩
  apply reads_pure
  rw [List.append_nil, List.append_nil]
  apply SpellsConcat.ofList hus hvs

theorem reads_choiceOf {symbol : Parser Expr} (h : Reads SpellsSymbol symbol) :
  Reads SpellsChoice (choiceOf symbol)
  := by
  have hnext : Reads (OrEnd (After .pipe SpellsConcat) (· = []))
      (do match ← accept .pipe with
        | some _ => some <$> concatOf symbol
        | none => pure none) := by
    apply (reads_accept _).bind
    rintro us (_ | t) ht
    · subst ht
      apply reads_pure
      rfl
    · obtain ⟨rfl, ht⟩ := ht
      apply (reads_concatOf h).map
      intro us e hus
      exact ⟨by simp, .mk ht hus⟩
  apply (reads_concatOf h).bind
  intro us e hus
  apply (reads_many hnext).bind
  rintro _ es ⟨vs, _, rfl, hvs, rfl⟩
  apply reads_pure
  rw [List.append_nil, List.append_nil]
  apply SpellsChoice.ofList hus hvs

theorem postfixed_nil (e : Expr) :
  postfixed e [] = .ok (e, [])
  := by rfl

theorem postfixed_cons (e : Expr) (t : Token) (ts : List Token) :
  postfixed e (t :: ts) =
    match t.kind.operator? with
    | some operator => .ok (operator e, ts)
    | none => .ok (e, t :: ts)
  := by
  obtain ⟨⟨kind, span, text⟩, skipped⟩ := t
  cases kind <;> rfl

theorem reads_postfixed {us : List Token} {e : Expr} (h : SpellsPrimary us e) :
  Reads (fun vs e' => SpellsSymbol (us ++ vs) e') (postfixed e)
  := by
  constructor
  rintro (_ | ⟨t, ts⟩) e' rest hr
  · rw [postfixed_nil] at hr
    obtain ⟨⟩ := hr
    exact ⟨[], rfl, by simpa using .plain h⟩
  · rw [postfixed_cons] at hr
    split at hr
    · next operator ht =>
      obtain ⟨⟩ := hr
      exact ⟨[t], rfl, .postfixed h ht⟩
    · obtain ⟨⟩ := hr
      exact ⟨[], rfl, by simpa using .plain h⟩

theorem reads_symbol (depth : Nat) :
  Reads SpellsSymbol (symbol depth)
  := by
  induction depth with
  | zero => apply reads_fail
  | succ depth ih =>
    apply reads_peek.bind
    rintro _ kind rfl
    split
    · apply (reads_ident _).bind
      rintro _ _ ⟨t, rfl, ht, rfl⟩
      apply reads_postfixed (.ident ht)
    · apply (reads_string _).bind
      rintro _ _ ⟨t, value, rfl, ht, rfl⟩
      apply reads_postfixed (.literal ht)
    · apply (reads_expect _ _).bind
      rintro _ l ⟨rfl, hl⟩
      apply (reads_choiceOf ih).bind
      intro us e hus
      apply (reads_expect _ _).bind
      rintro _ r ⟨rfl, hr⟩
      apply (reads_postfixed (.group hl hus hr)).imp
      intro vs e' h
      simpa using h
    · apply reads_fail

theorem reads_rule :
  Reads SpellsChoice rule
  := ⟨fun ts => (reads_choiceOf (reads_symbol (ts.length + 1))).of_ok ts⟩

/-! ### Productions and directives -/

/-- Every text opens in some way. -/
theorem exists_opens (text : List Char) :
  ∃ opening inside, Opens text opening inside
  := by
  cases text with
  | nil => exact ⟨[], [], .empty⟩
  | cons brace cs =>
    have hblanks : ∀ c ∈ cs.takeWhile Text.isBlank, Text.isBlank c = true :=
      List.all_eq_true.mp List.all_takeWhile
    have hinside : ∀ c ∈ (cs.dropWhile Text.isBlank).head?, Text.isBlank c = false := by
      intro c hc
      have hhead := List.head?_dropWhile_not Text.isBlank cs
      rwa [hc] at hhead
    have hopens := @Opens.mk brace _ _ hblanks hinside
    rw [List.takeWhile_append_dropWhile] at hopens
    exact ⟨_, _, hopens⟩

/-- The code that is read is the body, behind the opening if there is room for it. -/
theorem Opens.codeOf_eq {t : Token} {opening inside : List Char}
    (h : Opens t.text.toList opening inside) (body : String) :
  codeOf body t =
    if byteLength body.toList ≤ byteLength inside then ⟨body, t.span.within opening body.toList⟩
    else ⟨body, t.span⟩
  := by
  obtain ⟨hopening, htext⟩ := h.eq_append
  have hroom : byteLength opening + byteLength body.toList ≤ byteLength t.text.toList ↔
      byteLength body.toList ≤ byteLength inside := by
    rw [htext, byteLength_append, Nat.add_le_add_iff_left]
  rw [codeOf]
  simp only [← hopening, hroom]

theorem reads_code? :
  Reads SpellsCode code?
  := by
  constructor
  rintro (_ | ⟨t, ts⟩) code rest hr
  · obtain ⟨⟩ := hr
    exact ⟨[], rfl, .absent⟩
  · rw [code?] at hr
    split at hr
    · next body ht =>
      obtain ⟨⟩ := hr
      refine ⟨[t], rfl, ?_⟩
      obtain ⟨opening, inside, hopens⟩ := exists_opens t.text.toList
      rw [hopens.codeOf_eq]
      split
      case isTrue hroom => apply SpellsCode.present ht hopens hroom
      case isFalse hroom => apply SpellsCode.crowded ht hopens (Nat.lt_of_not_le hroom)
    · obtain ⟨⟩ := hr
      exact ⟨[], rfl, .absent⟩

/-- Tokens start with a string that has a semicolon right after it. -/
def LoneString (ts : List Token) : Prop :=
  ∃ t u value rest, ts = t :: u :: rest ∧ t.kind = .str value ∧ u.kind = .semicolon

theorem rhs_of_loneString {t u : Token} {value : String} {ts : List Token}
    (ht : t.kind = .str value) (hu : u.kind = .semicolon) :
  rhs (t :: u :: ts) = .ok (.pattern ⟨value, t.span⟩, u :: ts)
  := by
  have hs : t.kind.isStr := by rw [ht]; rfl
  change (if t.kind.isStr ∧ u.kind = .semicolon then _ else _) = _
  rw [if_pos ⟨hs, hu⟩]
  apply map_of_ok
  apply token_of_some
  rw [ht]

theorem rhs_of_not_loneString {ts : List Token} (h : ¬ LoneString ts) :
  rhs ts = (.rule <$> rule) ts
  := by
  unfold rhs
  split
  · next t u ts =>
    rw [if_neg]
    rintro ⟨ht, hu⟩
    cases hk : t.kind with
    | str value => exact h ⟨t, u, value, ts, rfl, hk, hu⟩
    | _ => simp [hk, Kind.isStr] at ht
  · rfl

/-- What a production ends with. -/
theorem reads_body {T : List Token → Production → Prop}
    {f : Rhs → Option (Located String) → Production}
    (hT : ∀ us rhs code semicolon, SpellsBody us rhs code → semicolon.kind = .semicolon →
      T (us ++ [semicolon]) (f rhs code)) :
  Reads T (rhs >>= fun rhs => code? >>= fun code => expect .semicolon .semicolon >>= fun _ =>
    pure (f rhs code))
  := by
  constructor
  intro ts p rest h
  obtain ⟨r, mid, hr, h⟩ := of_bind_ok h
  obtain ⟨code, mid', hcode, h⟩ := of_bind_ok h
  obtain ⟨semicolon, mid'', hsemicolon, ⟨⟩⟩ := of_bind_ok h
  obtain ⟨vs, rfl, hvs⟩ := reads_code?.of_ok mid code mid' hcode
  obtain ⟨_, rfl, rfl, hk⟩ := (reads_expect _ _).of_ok mid' semicolon rest hsemicolon
  by_cases hlone : LoneString ts
  · obtain ⟨t, u, value, ts, rfl, ht, hu⟩ := hlone
    rw [rhs_of_loneString ht hu] at hr
    obtain ⟨rfl, hrest⟩ := Prod.mk.inj (Except.ok.inj hr)
    cases hvs with
    | absent =>
      obtain ⟨rfl, rfl⟩ := List.cons.inj hrest
      exact ⟨[t, u], rfl, hT [t] _ _ u (.pattern ht) hu⟩
    | present hc | crowded hc =>
      obtain ⟨rfl, -⟩ := List.cons.inj hrest
      rw [hu] at hc
      cases hc
  · rw [rhs_of_not_loneString hlone, map_eq_pure_bind] at hr
    obtain ⟨e, mid, he, ⟨⟩⟩ := of_bind_ok hr
    obtain ⟨us, rfl, hus⟩ := reads_rule.of_ok ts e _ he
    refine ⟨us ++ vs ++ [semicolon], by simp, hT _ _ _ _ (.rule hus hvs ?_) hk⟩
    intro t value hone ht
    apply hlone
    exact ⟨t, semicolon, value, rest, by simp [← List.append_assoc, hone], ht, hk⟩

theorem reads_production :
  Reads SpellsProduction production
  := by
  apply (reads_many reads_attribute?).bind
  rintro _ before ⟨us, _, rfl, hus, rfl⟩
  apply (reads_ident _).bind
  rintro _ _ ⟨name, rfl, hname, rfl⟩
  apply (reads_many reads_attribute?).bind
  rintro _ after ⟨vs, _, rfl, hvs, rfl⟩
  apply (reads_expect _ _).bind
  rintro _ arrow ⟨rfl, harrow⟩
  apply reads_body
  intro ws rhs code semicolon hws hsemicolon
  rw [List.append_nil, List.append_nil]
  exact .mk hus hname hvs harrow hws hsemicolon

theorem reads_item :
  Reads SpellsItem item
  := by
  apply reads_peek.bind
  rintro _ kind rfl
  split
  · apply (reads_expect _ _).bind
    rintro _ sign ⟨rfl, hsign⟩
    apply Reads.map (R := fun us block => SpellsItem (sign :: us) (.directive block)) _
      fun _ _ h => h
    apply (reads_ident _).bind
    rintro _ _ ⟨name, rfl, hname, rfl⟩
    apply (reads_expect _ _).bind
    rintro _ l ⟨rfl, hl⟩
    apply (reads_many reads_entryOrEnd).bind
    rintro _ entries ⟨us, _, rfl, hus, r, rfl, hr⟩
    apply reads_pure
    rw [List.append_nil]
    exact .directive hsign hname hl hus hr
  · apply reads_production.map
    apply fun _ _ => SpellsItem.production
  · apply reads_production.map
    apply fun _ _ => SpellsItem.production
  · apply reads_fail

theorem SpellsItem.ne_nil {us : List Token} {i : Item} (h : SpellsItem us i) :
  us ≠ []
  := by
  cases h with
  | directive hsign hname hl h hr => simp
  | production h =>
    obtain ⟨hbefore, hname, hafter, harrow, h, hsemicolon⟩ := h
    simp

/-- If nothing is reported, then the tokens spell the items that were read. -/
theorem spells_of_readItems (eof : Token) (ts : List Token) (h : (readItems eof ts).2 = []) :
  Many SpellsItem ts (readItems eof ts).1
  := by
  fun_induction readItems eof ts with
  | case1 => apply Many.nil
  | case2 t ts i rest hr hlt is ds hrest ih =>
    obtain ⟨us, hts, hus⟩ := reads_item.of_ok _ i rest hr
    rw [hts]
    apply Many.cons hus
    rw [hrest] at ih
    apply ih h
  | case3 t ts i rest hr hlt =>
    -- An item is not empty, so tokens have gone away.
    obtain ⟨us, hts, hus⟩ := reads_item.of_ok _ i rest hr
    rw [hts] at hlt
    simp [List.length_pos_iff.mpr hus.ne_nil] at hlt
  | case4 => cases h
  | case5 => cases h

end Descent.Description
