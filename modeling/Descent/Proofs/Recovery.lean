import Descent.Proofs.PhraseCompleteness

/-!
# Recovery from errors is local

Before a semicolon, parsers do not care for what comes after it (`Parser.Agree`): they read up to
the same token, and give or miss the same thing, whatever follows.  So does the parser of a rule,
which allows for more parentheses the more tokens follow (`agreeOn_symbol`).  A production reads the
semicolon at its end or fails before it (`Parser.EndsOn`), and reading goes on after that semicolon
at the latest.  So what is read of tokens that end with a semicolon and start no directive is
independent of the tokens after them (`readItems_append`).
-/

namespace Descent.Description

namespace Parser

variable {α β : Type}

/-- What a parser that leaves the given tokens comes to: it reads something, or misses it. -/
def leaving (ts : List Token) : Except Expected α → Except Failure (α × List Token)
  | .ok a => .ok (a, ts)
  | .error expected => .error ⟨expected, ts⟩

/-- Two parsers do the same with tokens and a semicolon after them: whatever comes next, they leave
the semicolon and the same of the tokens before it. -/
def AgreeOn (us : List Token) (p q : Parser α) : Prop :=
  ∀ semicolon : Token, semicolon.kind = .semicolon → ∃ verdict vs, vs <:+ us ∧
    ∀ rest, p (us ++ semicolon :: rest) = leaving (vs ++ semicolon :: rest) verdict ∧
      q (us ++ semicolon :: rest) = leaving (vs ++ semicolon :: rest) verdict

/-- Two parsers do the same wherever they start among tokens before a semicolon. -/
def Agree (us : List Token) (p q : Parser α) : Prop := ∀ vs, vs <:+ us → AgreeOn vs p q

variable {us vs : List Token} {t : Token} {p q : Parser α}

theorem Agree.on (h : Agree us p q) :
  AgreeOn us p q
  := h us List.suffix_rfl

/-! ### Steps -/

theorem agree_pure (us : List Token) (a : α) :
  Agree us (pure a) (pure a)
  := fun vs _ _ _ => ⟨.ok a, vs, List.suffix_rfl, fun _ => ⟨rfl, rfl⟩⟩

theorem agree_peek (us : List Token) :
  Agree us peek peek
  := by
  intro vs _ semicolon _
  refine ⟨.ok ((vs ++ [semicolon]).head?.map (·.kind)), vs, List.suffix_rfl, fun rest => ?_⟩
  cases vs <;> exact ⟨rfl, rfl⟩

/-- Parsers that agree on the tokens after the first agree if they start with that one. -/
theorem AgreeOn.cons {p' q' : Parser α} (h : AgreeOn us p' q') (hp : ∀ ts, p (t :: ts) = p' ts)
    (hq : ∀ ts, q (t :: ts) = q' ts) :
  AgreeOn (t :: us) p q
  := by
  intro semicolon hs
  obtain ⟨verdict, vs, hvs, h⟩ := h semicolon hs
  refine ⟨verdict, vs, hvs.trans (List.suffix_cons t us), fun rest => ?_⟩
  rw [List.cons_append, hp, hq]
  apply h

/-- A parser that reads single tokens, but not a semicolon, agrees with itself. -/
theorem agree_of_single (us : List Token)
    (hnil : ∀ semicolon : Token, semicolon.kind = .semicolon → ∃ verdict, ∀ rest,
      p (semicolon :: rest) = leaving (semicolon :: rest) verdict)
    (hcons : ∀ t : Token, ∃ verdict : Except Expected α,
      (∀ rest, p (t :: rest) = leaving rest verdict) ∨
        ∀ rest, p (t :: rest) = leaving (t :: rest) verdict) :
  Agree us p p
  := by
  intro vs _ semicolon hs
  cases vs with
  | nil =>
    obtain ⟨verdict, h⟩ := hnil semicolon hs
    exact ⟨verdict, [], List.suffix_rfl, fun rest => ⟨h rest, h rest⟩⟩
  | cons t vs =>
    obtain ⟨verdict, h | h⟩ := hcons t
    · exact ⟨verdict, vs, List.suffix_cons t vs, fun rest => ⟨h _, h _⟩⟩
    · exact ⟨verdict, t :: vs, List.suffix_rfl, fun rest => ⟨h _, h _⟩⟩

theorem agree_token (us : List Token) (expected : Expected) {f : Token → Option α}
    (hf : ∀ t, t.kind = .semicolon → f t = none) :
  Agree us (token expected f) (token expected f)
  := by
  apply agree_of_single
  · intro semicolon hs
    refine ⟨.error expected, fun rest => ?_⟩
    rw [token, hf semicolon hs]
    rfl
  · intro t
    cases ht : f t with
    | none =>
      refine ⟨.error expected, .inr fun rest => ?_⟩
      rw [token, ht]
      rfl
    | some a => exact ⟨.ok a, .inl fun rest => token_of_some expected rest ht⟩

theorem agree_expect (us : List Token) {kind : Kind} (hk : kind ≠ .semicolon)
    (expected : Expected) :
  Agree us (expect kind expected) (expect kind expected)
  := by
  apply agree_token
  intro t ht
  apply if_neg
  rw [ht]
  apply hk.symm

theorem agree_accept (us : List Token) {kind : Kind} (hk : kind ≠ .semicolon) :
  Agree us (accept kind) (accept kind)
  := by
  apply agree_of_single
  · intro semicolon hs
    exact ⟨.ok none, fun rest => if_neg (hs ▸ hk.symm)⟩
  · intro t
    by_cases ht : t.kind = kind
    · exact ⟨.ok (some t), .inl fun rest => if_pos ht⟩
    · exact ⟨.ok none, .inr fun rest => if_neg ht⟩

theorem AgreeOn.bind {f g : α → Parser β} (hp : AgreeOn us p q)
    (hf : ∀ a vs, vs <:+ us → AgreeOn vs (f a) (g a)) :
  AgreeOn us (p >>= f) (q >>= g)
  := by
  intro semicolon hs
  obtain ⟨verdict, vs, hvs, hpq⟩ := hp semicolon hs
  cases verdict with
  | error expected =>
    refine ⟨.error expected, vs, hvs, fun rest => ?_⟩
    exact ⟨bind_of_error (hpq rest).1, bind_of_error (hpq rest).2⟩
  | ok a =>
    obtain ⟨verdict', ws, hws, hfg⟩ := hf a vs hvs semicolon hs
    refine ⟨verdict', ws, hws.trans hvs, fun rest => ?_⟩
    rw [bind_of_ok (hpq rest).1, bind_of_ok (hpq rest).2]
    apply hfg

theorem Agree.bind {f g : α → Parser β} (hp : Agree us p q) (hf : ∀ a, Agree us (f a) (g a)) :
  Agree us (p >>= f) (q >>= g)
  := fun vs hvs => (hp vs hvs).bind fun a ws hws => hf a ws (hws.trans hvs)

theorem Agree.map (hp : Agree us p q) (f : α → β) :
  Agree us (f <$> p) (f <$> q)
  := by
  rw [map_eq_pure_bind, map_eq_pure_bind]
  exact hp.bind fun a => agree_pure us (f a)

section

variable {p : Parser (Option α)} {ts mid rest : List Token} {a : α}

theorem many_of_error {failure : Failure} (h : p ts = .error failure) :
  many p ts = .error failure
  := by rw [many, h]

theorem many_of_none (h : p ts = .ok (none, rest)) :
  many p ts = .ok ([], rest)
  := by rw [many, h]

theorem many_of_some (h : p ts = .ok (some a, mid)) (hlt : mid.length < ts.length)
    {verdict : Except Expected (List α)} (hmany : many p mid = leaving rest verdict) :
  many p ts = leaving rest (verdict.map (a :: ·))
  := by
  rw [many, h]
  dsimp only
  rw [if_pos hlt, hmany]
  cases verdict <;> rfl

theorem many_of_stuck (h : p ts = .ok (some a, mid)) (hlt : ¬ mid.length < ts.length) :
  many p ts = .ok ([a], mid)
  := by
  rw [many, h]
  apply if_neg hlt

end

/-- Repetitions agree: tokens go away before the semicolon, or not at all. -/
theorem Agree.many {p q : Parser (Option α)} (h : Agree us p q) :
  Agree us (many p) (many q)
  := by
  intro vs hvs semicolon hs
  induction hn : vs.length using Nat.strongRecOn generalizing vs with
  | ind n ih =>
    obtain ⟨verdict, ws, hws, hpq⟩ := h vs hvs semicolon hs
    match verdict with
    | .error expected =>
      exact ⟨.error expected, ws, hws, fun rest =>
        ⟨many_of_error (hpq rest).1, many_of_error (hpq rest).2⟩⟩
    | .ok none =>
      exact ⟨.ok [], ws, hws, fun rest => ⟨many_of_none (hpq rest).1, many_of_none (hpq rest).2⟩⟩
    | .ok (some a) =>
      by_cases hlt : ws.length < vs.length
      · obtain ⟨verdict, ws', hws', hmany⟩ := ih ws.length (hn ▸ hlt) ws (hws.trans hvs) rfl
        refine ⟨verdict.map (a :: ·), ws', hws'.trans hws, fun rest => ?_⟩
        have hrest : (ws ++ semicolon :: rest).length < (vs ++ semicolon :: rest).length := by
          simpa using hlt
        exact ⟨many_of_some (hpq rest).1 hrest (hmany rest).1,
          many_of_some (hpq rest).2 hrest (hmany rest).2⟩
      · refine ⟨.ok [a], ws, hws, fun rest => ?_⟩
        have hrest : ¬ (ws ++ semicolon :: rest).length < (vs ++ semicolon :: rest).length := by
          simpa using hlt
        exact ⟨many_of_stuck (hpq rest).1 hrest, many_of_stuck (hpq rest).2 hrest⟩

end Parser

open Descent.Description.Parser

/-! ### Attributes and rules -/

section

variable (us : List Token)

theorem agree_ident (expected : Expected) :
  Agree us (ident expected) (ident expected)
  := by
  apply agree_token
  intro t ht
  apply if_neg (by simp [ht])

theorem agree_param :
  Agree us param param
  := by
  apply agree_token
  intro t ht
  rw [ht]

theorem agree_nextParam? :
  Agree us nextParam? nextParam?
  := by
  apply (agree_accept us (by simp)).bind
  rintro (_ | comma)
  · apply agree_pure
  · apply (agree_param us).map

theorem agree_params :
  Agree us params params
  := by
  apply (agree_accept us (by simp)).bind
  rintro (_ | left)
  · apply agree_pure
  · apply (agree_peek us).bind
    intro kind
    split
    · apply (agree_expect us (by simp) _).bind
      intro right
      apply agree_pure
    · apply (agree_param us).bind
      intro first
      apply (agree_nextParam? us).many.bind
      intro others
      apply (agree_expect us (by simp) _).bind
      intro right
      apply agree_pure

theorem agree_attribute? :
  Agree us attribute? attribute?
  := by
  apply (agree_accept us (by simp)).bind
  rintro (_ | left)
  · apply agree_pure
  · apply (agree_ident us _).bind
    intro name
    apply (agree_params us).bind
    intro params
    apply (agree_expect us (by simp) _).bind
    intro right
    apply agree_pure

theorem agree_postfixed (e : Expr) :
  Agree us (postfixed e) (postfixed e)
  := by
  apply agree_of_single
  · intro semicolon hs
    refine ⟨.ok e, fun rest => ?_⟩
    rw [postfixed_cons, hs]
    rfl
  · intro t
    cases ht : t.kind.operator? with
    | none =>
      refine ⟨.ok e, .inr fun rest => ?_⟩
      rw [postfixed_cons, ht]
      rfl
    | some operator =>
      refine ⟨.ok (operator e), .inl fun rest => ?_⟩
      rw [postfixed_cons, ht]
      rfl

variable {us} {symbol symbol' : Parser Expr}

theorem agree_concatOf (h : Agree us symbol symbol') :
  Agree us (concatOf symbol) (concatOf symbol')
  := by
  apply h.bind
  intro first
  apply Agree.bind
  · apply Agree.many
    apply (agree_peek us).bind
    intro kind
    split
    · apply h.map
    · apply agree_pure
  · intro others
    apply agree_pure

theorem agree_choiceOf (h : Agree us symbol symbol') :
  Agree us (choiceOf symbol) (choiceOf symbol')
  := by
  apply (agree_concatOf h).bind
  intro first
  apply Agree.bind
  · apply Agree.many
    apply (agree_accept us (by simp)).bind
    rintro (_ | bar)
    · apply agree_pure
    · apply (agree_concatOf h).map
  · intro others
    apply agree_pure

end

/-- The first token of a symbol says what is read after it. -/
theorem symbol_cons (depth : Nat) (t : Token) (ts : List Token) :
  symbol (depth + 1) (t :: ts) =
    match t.kind with
    | .ident => postfixed (.ident ⟨t.text, t.span⟩) ts
    | .str value => postfixed (.literal ⟨value, t.span⟩) ts
    | .leftParen =>
      (choiceOf (symbol depth) >>= fun inner =>
        expect .rightParen .rightParen >>= fun _ => postfixed inner) ts
    | _ => fail .symbol (t :: ts)
  := by
  obtain ⟨⟨kind, span, text⟩, skipped⟩ := t
  cases kind <;> rfl

/-- It does not matter for how many parentheses there is room, if there is room for as many as there
are tokens before the semicolon. -/
theorem agreeOn_symbol {depth depth' : Nat} {us : List Token} (h : us.length < depth)
    (h' : us.length < depth') :
  AgreeOn us (symbol depth) (symbol depth')
  := by
  induction depth generalizing depth' us with
  | zero => cases h
  | succ depth ih =>
    obtain ⟨depth', rfl⟩ := Nat.exists_eq_succ_of_ne_zero (Nat.ne_zero_of_lt h')
    cases us with
    | nil =>
      intro semicolon hs
      refine ⟨.error .symbol, [], List.suffix_rfl, fun rest => ?_⟩
      rw [List.nil_append, symbol_cons, symbol_cons, hs]
      exact ⟨rfl, rfl⟩
    | cons t us =>
      rw [List.length_cons] at h h'
      have hinner : Agree us (symbol depth) (symbol depth') := by
        intro vs hvs
        have := hvs.length_le
        apply ih <;> omega
      have hgroup := (agree_choiceOf hinner).bind fun inner =>
        (agree_expect us (by simp : Kind.rightParen ≠ .semicolon) .rightParen).bind fun _ =>
          agree_postfixed us inner
      cases ht : t.kind with
      | ident =>
        apply (agree_postfixed us (.ident ⟨t.text, t.span⟩)).on.cons <;> intro ts <;>
          rw [symbol_cons, ht]
      | str value =>
        apply (agree_postfixed us (.literal ⟨value, t.span⟩)).on.cons <;> intro ts <;>
          rw [symbol_cons, ht]
      | leftParen =>
        apply hgroup.on.cons <;> intro ts <;> rw [symbol_cons, ht]
      | _ =>
        intro semicolon hs
        refine ⟨.error .symbol, t :: us, List.suffix_rfl, fun rest => ?_⟩
        rw [List.cons_append, symbol_cons, symbol_cons, ht]
        exact ⟨rfl, rfl⟩

theorem agree_rule (us : List Token) :
  Agree us rule rule
  := by
  intro vs _ semicolon hs
  have hroom : ∀ depth, vs.length < depth →
      Agree vs (choiceOf (symbol depth)) (choiceOf (symbol (vs.length + 1))) := by
    intro depth hd
    apply agree_choiceOf
    intro ws hws
    have := hws.length_le
    apply agreeOn_symbol <;> omega
  obtain ⟨verdict, ws, hws, h⟩ := (hroom _ (Nat.lt_succ_self _)).on semicolon hs
  refine ⟨verdict, ws, hws, fun rest => ?_⟩
  -- The room depends on what comes after the semicolon, but not what is read.
  have hlt : vs.length < (vs ++ semicolon :: rest).length + 1 := by
    rw [List.length_append]
    omega
  obtain ⟨_, _, _, h'⟩ := (hroom _ hlt).on semicolon hs
  have hrule : rule (vs ++ semicolon :: rest) = leaving (ws ++ semicolon :: rest) verdict :=
    (h' rest).1.trans ((h' rest).2.symm.trans (h rest).1)
  exact ⟨hrule, hrule⟩

/-! ### Productions -/

theorem agree_code? (us : List Token) :
  Agree us code? code?
  := by
  apply agree_of_single
  · intro semicolon hs
    refine ⟨.ok none, fun rest => ?_⟩
    rw [code?, hs]
    rfl
  · intro t
    cases ht : t.kind with
    | code body =>
      refine ⟨.ok (some (codeOf body t)), .inl fun rest => ?_⟩
      rw [code?, ht]
      rfl
    | _ =>
      refine ⟨.ok none, .inr fun rest => ?_⟩
      rw [code?, ht]
      rfl

/-- If a string has a semicolon right after it, it is the only token before the semicolon. -/
theorem LoneString.eq_singleton {us rest : List Token} {semicolon : Token}
    (h : LoneString (us ++ semicolon :: rest)) (hs : semicolon.kind = .semicolon)
    (hus : ∀ t ∈ us, t.kind ≠ .semicolon) :
  ∃ t value, us = [t] ∧ t.kind = .str value
  := by
  obtain ⟨t, u, value, ts, hts, ht, hu⟩ := h
  rcases us with _ | ⟨v, _ | ⟨w, us⟩⟩
  · obtain ⟨rfl, -⟩ := List.cons.inj hts
    rw [hs] at ht
    cases ht
  · obtain ⟨rfl, -⟩ := List.cons.inj hts
    exact ⟨v, value, rfl, ht⟩
  · obtain ⟨-, hts⟩ := List.cons.inj hts
    obtain ⟨rfl, -⟩ := List.cons.inj hts
    exact absurd hu (hus w (by simp))

/-- A string before the semicolon is a pattern if it stands alone, and else what comes is a rule. -/
theorem agreeOn_rhs {us : List Token} (hus : ∀ t ∈ us, t.kind ≠ .semicolon) :
  AgreeOn us rhs rhs
  := by
  intro semicolon hs
  by_cases hlone : ∃ t value, us = [t] ∧ t.kind = .str value
  · obtain ⟨t, value, rfl, ht⟩ := hlone
    refine ⟨.ok (.pattern ⟨value, t.span⟩), [], List.nil_suffix, fun rest => ?_⟩
    exact ⟨rhs_of_loneString ht hs, rhs_of_loneString ht hs⟩
  · obtain ⟨verdict, vs, hvs, h⟩ := ((agree_rule us).map Rhs.rule).on semicolon hs
    refine ⟨verdict, vs, hvs, fun rest => ?_⟩
    rw [rhs_of_not_loneString fun h => hlone (h.eq_singleton hs hus)]
    apply h

/-- Whatever comes after tokens and a semicolon, a parser reads up to the semicolon, or fails before
it. -/
def Parser.EndsOn {α : Type} (us : List Token) (p : Parser α) : Prop :=
  ∀ semicolon : Token, semicolon.kind = .semicolon →
    (∃ a, ∀ rest, p (us ++ semicolon :: rest) = .ok (a, rest)) ∨
      ∃ expected vs, vs <:+ us ∧
        ∀ rest, p (us ++ semicolon :: rest) = .error ⟨expected, vs ++ semicolon :: rest⟩

theorem Parser.EndsOn.bind {α β : Type} {us : List Token} {p : Parser α} {f : α → Parser β}
    (hp : AgreeOn us p p) (hf : ∀ a vs, vs <:+ us → EndsOn vs (f a)) :
  EndsOn us (p >>= f)
  := by
  intro semicolon hs
  obtain ⟨verdict, vs, hvs, hp⟩ := hp semicolon hs
  cases verdict with
  | error expected => exact .inr ⟨expected, vs, hvs, fun rest => bind_of_error (hp rest).1⟩
  | ok a =>
    obtain ⟨b, h⟩ | ⟨expected, ws, hws, h⟩ := hf a vs hvs semicolon hs
    · refine .inl ⟨b, fun rest => ?_⟩
      rw [bind_of_ok (hp rest).1, h]
    · refine .inr ⟨expected, ws, hws.trans hvs, fun rest => ?_⟩
      rw [bind_of_ok (hp rest).1, h]

theorem endsOn_expect_semicolon {α : Type} {us : List Token}
    (hus : ∀ t ∈ us, t.kind ≠ .semicolon) (a : α) :
  EndsOn us (expect .semicolon .semicolon >>= fun _ => pure a)
  := by
  intro semicolon hs
  cases us with
  | nil =>
    refine .inl ⟨a, fun rest => ?_⟩
    rw [List.nil_append, bind_of_ok (expect_of_kind _ hs)]
    rfl
  | cons t us =>
    refine .inr ⟨.semicolon, t :: us, List.suffix_rfl, fun rest => bind_of_error ?_⟩
    rw [List.cons_append, expect, token, if_neg (hus t List.mem_cons_self)]

theorem endsOn_production {us : List Token} (hus : ∀ t ∈ us, t.kind ≠ .semicolon) :
  EndsOn us production
  := by
  have hattributes := (agree_attribute? us).many
  apply EndsOn.bind hattributes.on
  intro before vs hvs
  apply EndsOn.bind (agree_ident vs _).on
  intro name ws hws
  replace hws := hws.trans hvs
  apply EndsOn.bind (hattributes ws hws)
  intro after xs hxs
  apply EndsOn.bind (agree_expect xs (by simp) _).on
  intro arrow ys hys
  have hys := hys.trans (hxs.trans hws)
  apply EndsOn.bind (agreeOn_rhs fun t ht => hus t (hys.subset ht))
  intro rhs zs hzs
  apply EndsOn.bind (agree_code? zs).on
  intro code us' hus'
  apply endsOn_expect_semicolon
  exact fun t ht => hus t ((hus'.trans (hzs.trans hys)).subset ht)

/-! ### Items -/

theorem Parser.EndsOn.map {α β : Type} {us : List Token} {p : Parser α} (hp : EndsOn us p)
    (f : α → β) :
  EndsOn us (f <$> p)
  := by
  intro semicolon hs
  obtain ⟨a, h⟩ | ⟨expected, vs, hvs, h⟩ := hp semicolon hs
  · exact .inl ⟨f a, fun rest => map_of_ok (h rest)⟩
  · refine .inr ⟨expected, vs, hvs, fun rest => ?_⟩
    rw [map_eq_pure_bind]
    apply bind_of_error (h rest)

/-- The first token of an item that is no directive says whether it is a production. -/
theorem item_cons {t : Token} (ht : t.kind ≠ .atSign) :
  (∀ ts, item (t :: ts) = (Item.production <$> production) (t :: ts)) ∨
    ∀ ts, item (t :: ts) = .error ⟨.item, t :: ts⟩
  := by
  obtain ⟨⟨kind, span, text⟩, skipped⟩ := t
  cases kind with
  | atSign => exact absurd rfl ht
  | ident | leftBracket => exact .inl fun ts => rfl
  | _ => exact .inr fun ts => rfl

/-- An item that is no directive ends on the semicolon. -/
theorem endsOn_item {us : List Token} (hus : ∀ t ∈ us, t.kind ≠ .semicolon)
    (hat : ∀ t ∈ us, t.kind ≠ .atSign) :
  EndsOn us item
  := by
  intro semicolon hs
  cases us with
  | nil =>
    refine .inr ⟨.item, [], List.suffix_rfl, fun rest => ?_⟩
    rw [List.nil_append, item, bind_of_ok (a := some semicolon.kind) rfl, hs]
    rfl
  | cons t us =>
    obtain h | h := item_cons (hat t List.mem_cons_self)
    · have hp := (endsOn_production hus).map Item.production semicolon hs
      simpa only [List.cons_append, h] using hp
    · exact .inr ⟨.item, t :: us, List.suffix_rfl, fun rest => h _⟩

/-! ### Descriptions -/

/-- Reading goes on after the semicolon at the latest. -/
theorem recover_append (us : List Token) {semicolon : Token} (hs : semicolon.kind = .semicolon) :
  (∀ rest, recover (us ++ semicolon :: rest) = rest) ∨
    ∃ vs, vs <:+ us ∧ vs.length < us.length ∧
      ∀ rest, recover (us ++ semicolon :: rest) = vs ++ semicolon :: rest
  := by
  induction us with
  | nil =>
    left
    intro rest
    simp [recover, hs, Kind.synchronizes]
  | cons t us ih =>
    by_cases ht : t.kind.synchronizes
    · refine .inr ⟨us, List.suffix_cons t us, Nat.lt_succ_self _, fun rest => ?_⟩
      simp [recover, ht]
    · have hskip : ∀ ts, recover (t :: ts) = recover ts := by
        intro ts
        simp [recover, ht]
      obtain h | ⟨vs, hvs, hlt, h⟩ := ih
      · exact .inl fun rest => (hskip _).trans (h rest)
      · exact .inr ⟨vs, hvs.trans (List.suffix_cons t us), Nat.lt_succ_of_lt hlt,
          fun rest => (hskip _).trans (h rest)⟩

section

variable {ts rest : List Token} (eof : Token)

theorem readItems_of_ok {i : Item} (h : item ts = .ok (i, rest)) (hlt : rest.length < ts.length) :
  readItems eof ts = (i :: (readItems eof rest).1, (readItems eof rest).2)
  := by
  cases ts with
  | nil => cases hlt
  | cons t ts =>
    rw [readItems, h]
    apply dif_pos hlt

theorem readItems_of_error {f : Failure} (h : item ts = .error f) (hrest : recover f.rest = rest)
    (hlt : rest.length < ts.length) :
  readItems eof ts = ((readItems eof rest).1, f.diagnostic eof :: (readItems eof rest).2)
  := by
  cases ts with
  | nil => cases hlt
  | cons t ts =>
    subst hrest
    rw [readItems, h]
    apply dif_pos hlt

end

/-- What is reported before a semicolon does not depend on the tokens after it. -/
theorem diagnostic_append (expected : Expected) (us : List Token) (semicolon : Token)
    (rest : List Token) (eof : Token) :
  Failure.diagnostic ⟨expected, us ++ semicolon :: rest⟩ eof =
    Failure.diagnostic ⟨expected, us⟩ semicolon
  := by cases us <;> rfl

/-- What is read of some tokens, whatever comes after them. -/
def ReadsAs (us : List Token) (items : List Item) (diagnostics : List Diagnostic) : Prop :=
  ∀ eof rest, readItems eof (us ++ rest) =
    (items ++ (readItems eof rest).1, diagnostics ++ (readItems eof rest).2)

theorem readsAs_nil :
  ReadsAs [] [] []
  := fun _ _ => rfl

theorem ReadsAs.append {us vs : List Token} {is js : List Item} {ds es : List Diagnostic}
    (hu : ReadsAs us is ds) (hv : ReadsAs vs js es) :
  ReadsAs (us ++ vs) (is ++ js) (ds ++ es)
  := by
  intro eof rest
  rw [List.append_assoc, hu, hv, List.append_assoc, List.append_assoc]

theorem SpellsItem.readsAs {us : List Token} {i : Item} (h : SpellsItem us i) :
  ReadsAs us [i] []
  := by
  intro eof rest
  apply readItems_of_ok eof (item_of_spells rest h)
  have := List.length_pos_iff.mpr h.ne_nil
  rw [List.length_append]
  omega

/-- Tokens up to a semicolon, none of which starts a directive, are read independently of what comes
after them. -/
theorem exists_readsAs_of_semicolon {semicolon : Token} (hs : semicolon.kind = .semicolon)
    (us : List Token) (hus : ∀ t ∈ us, t.kind ≠ .semicolon) (hat : ∀ t ∈ us, t.kind ≠ .atSign) :
  ∃ items diagnostics, ReadsAs (us ++ [semicolon]) items diagnostics
  := by
  induction hn : us.length using Nat.strongRecOn generalizing us with
  | ind n ih =>
    have happend : ∀ rest, us ++ [semicolon] ++ rest = us ++ semicolon :: rest := by simp
    have hlt : ∀ vs rest : List Token, vs.length < us.length →
        (vs ++ semicolon :: rest).length < (us ++ semicolon :: rest).length := by simp
    have hlt' : ∀ rest : List Token, rest.length < (us ++ semicolon :: rest).length := by
      intro rest
      rw [List.length_append, List.length_cons]
      omega
    obtain ⟨i, h⟩ | ⟨expected, vs, hvs, h⟩ := endsOn_item hus hat semicolon hs
    · refine ⟨[i], [], fun eof rest => ?_⟩
      rw [happend]
      apply readItems_of_ok eof (h rest) (hlt' rest)
    obtain hrecover | ⟨ws, hws, hshort, hrecover⟩ := recover_append vs hs
    · refine ⟨[], [Failure.diagnostic ⟨expected, vs⟩ semicolon], fun eof rest => ?_⟩
      rw [happend, readItems_of_error eof (h rest) (hrecover rest) (hlt' rest), diagnostic_append]
      rfl
    · -- Reading goes on before the semicolon, after a closing brace.
      have hshort := Nat.lt_of_lt_of_le hshort hvs.length_le
      have hsub := (hws.trans hvs).subset
      obtain ⟨items, diagnostics, hread⟩ := ih ws.length (hn ▸ hshort) ws
        (fun t ht => hus t (hsub ht)) (fun t ht => hat t (hsub ht)) rfl
      refine ⟨items, Failure.diagnostic ⟨expected, vs⟩ semicolon :: diagnostics,
        fun eof rest => ?_⟩
      specialize hread eof rest
      rw [List.append_assoc, List.singleton_append] at hread
      rw [happend, readItems_of_error eof (h rest) (hrecover rest) (hlt ws rest hshort),
        diagnostic_append, hread]
      rfl

/-- So are tokens that end with a semicolon, after tokens without one. -/
theorem exists_readsAs (us : List Token) :
    ∀ before : List Token, (∀ t ∈ before, t.kind ≠ .semicolon) →
    (∀ t ∈ before ++ us, t.kind ≠ .atSign) → (∀ t ∈ (before ++ us).getLast?, t.kind = .semicolon) →
  ∃ items diagnostics, ReadsAs (before ++ us) items diagnostics
  := by
  induction us with
  | nil =>
    intro before hbefore _ hlast
    rw [List.append_nil] at hlast ⊢
    obtain rfl | ⟨ts, t, rfl⟩ := List.eq_nil_or_concat before
    · exact ⟨[], [], readsAs_nil⟩
    · exact absurd (hlast t (by simp)) (hbefore t (by simp))
  | cons t us ih =>
    intro before hbefore hat hlast
    rw [List.append_cons] at hat hlast ⊢
    by_cases ht : t.kind = .semicolon
    · obtain ⟨is, ds, h⟩ := exists_readsAs_of_semicolon ht before hbefore
        fun u hu => hat u (by simp [hu])
      obtain ⟨js, es, h'⟩ := ih [] (by simp) (fun u hu => hat u (by simp_all)) fun u hu =>
        hlast u (by simp_all [List.getLast?_cons])
      exact ⟨_, _, h.append h'⟩
    · apply ih _ _ hat hlast
      intro u hu
      obtain hu | hu := List.mem_append.mp hu
      · apply hbefore u hu
      · rwa [List.mem_singleton.mp hu]

/-- Recovery from errors is local.  Of tokens that end with a semicolon, and none of which starts a
directive, the same items are read and the same is reported whatever comes after them, and what
comes after them is read as if they were not there.  So an item that is spelled after them is
read. -/
theorem readItems_append {us : List Token} (hat : ∀ t ∈ us, t.kind ≠ .atSign)
    (hlast : ∀ t ∈ us.getLast?, t.kind = .semicolon) (eof eof' : Token) (vs : List Token) :
  readItems eof (us ++ vs) =
      ((readItems eof' us).1 ++ (readItems eof vs).1, (readItems eof' us).2 ++ (readItems eof vs).2) ∧
    ∀ ws i, SpellsItem ws i →
      readItems eof (us ++ (ws ++ vs)) =
        ((readItems eof' us).1 ++ i :: (readItems eof vs).1,
          (readItems eof' us).2 ++ (readItems eof vs).2)
  := by
  obtain ⟨items, diagnostics, h⟩ := exists_readsAs us [] (by simp) hat hlast
  rw [List.nil_append] at h
  have hus : readItems eof' us = (items, diagnostics) := by
    have h' := h eof' []
    rwa [List.append_nil, readItems, List.append_nil, List.append_nil] at h'
  rw [hus]
  constructor
  · apply h
  · intro ws i hi
    rw [h, hi.readsAs eof vs]
    rfl

/-- The tokens of a production that leaves a parenthesis open. -/
def openGroup : Tokens := .ofText "C -> ( y;" ""

/-- The tokens of a production that is complete. -/
def completeProduction : Tokens := .ofText "D -> z;" ""

/-- A parenthesis that is left open before a semicolon does not hide the production after it. -/
theorem readItems_openGroup :
  (∀ t ∈ openGroup.tokens, t.kind ≠ .atSign) ∧
    (∀ t ∈ openGroup.tokens.getLast?, t.kind = .semicolon) ∧
    ∃ i, SpellsItem completeProduction.tokens i ∧
      (readItems openGroup.eof (openGroup.tokens ++ (completeProduction.tokens ++ []))).1 = [i]
  := by
  have hat : ∀ t ∈ openGroup.tokens, t.kind ≠ .atSign := by decide +kernel
  have hlast : ∀ t ∈ openGroup.tokens.getLast?, t.kind = .semicolon := by decide +kernel
  have hnone : (readItems openGroup.eof openGroup.tokens).1.length = 0 := by decide +kernel
  have hread : ∃ i, item completeProduction.tokens = .ok (i, []) := by
    cases h : item completeProduction.tokens with
    | error f =>
      have hok : (item completeProduction.tokens).isOk := by decide +kernel
      rw [h] at hok
      cases hok
    | ok r =>
      have hrest : (item completeProduction.tokens).toOption.all (·.2.isEmpty) := by decide +kernel
      rw [h] at hrest
      exact ⟨r.1, by rw [← List.isEmpty_iff.mp hrest]⟩
  obtain ⟨i, hi⟩ := hread
  obtain ⟨us, hus, hspells⟩ := reads_item.of_ok _ i [] hi
  rw [List.append_nil] at hus
  rw [← hus] at hspells
  refine ⟨hat, hlast, i, hspells, ?_⟩
  rw [(readItems_append hat hlast openGroup.eof openGroup.eof []).2 _ i hspells,
    List.length_eq_zero_iff.mp hnone, readItems]
  rfl

end Descent.Description
