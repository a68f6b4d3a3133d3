import Descent.Description.Parsing

/-!
# The grammar of descriptions

Which tokens spell which item of a description, apart from how they are read.  A description is a
list of items, an item a directive or a production, and the right-hand side of a production a
pattern or a rule.  In a rule a postfix operator binds closer than what stands side by side, and
that closer than a bar; parentheses leave no trace, and a part that stands alone stands for itself.
-/

namespace Descent

/-- Characters of one sort are cut off where another character follows them. -/
theorem takeWhile_and_dropWhile_append {p : Char → Bool} {cs rest : List Char}
    (h : ∀ c ∈ cs, p c = true) (hrest : ∀ c ∈ rest.head?, p c = false) :
  (cs ++ rest).takeWhile p = cs ∧ (cs ++ rest).dropWhile p = rest
  := by
  rw [List.takeWhile_append_of_pos h, List.dropWhile_append_of_pos h]
  cases rest with
  | nil => simp
  | cons c rest => simp [hrest c rfl]

namespace Description

/-! ### Repetition -/

/-- Phrases of one kind, one after the other. -/
inductive Many {α : Type} (R : List Token → α → Prop) : List Token → List α → Prop
  | nil : Many R [] []
  | cons {us vs : List Token} {a : α} {as : List α} (h : R us a) (hs : Many R vs as) :
      Many R (us ++ vs) (a :: as)

/-- A phrase with a token of the given kind before it. -/
inductive After {α : Type} (kind : Kind) (R : List Token → α → Prop) : List Token → α → Prop
  | mk {t : Token} {us : List Token} {a : α} (ht : t.kind = kind) (h : R us a) :
      After kind R (t :: us) a

/-! ### Rules -/

/-- What a postfix operator makes of its operand. -/
def Kind.operator? : Kind → Option (Expr → Expr)
  | .question => some .option
  | .star => some .zeroOrMore
  | .plus => some .oneOrMore
  | _ => none

mutual

/-- Tokens that spell a name, a string or a group in parentheses. -/
inductive SpellsPrimary : List Token → Expr → Prop
  | ident {t : Token} (ht : t.kind = .ident) : SpellsPrimary [t] (.ident ⟨t.text, t.span⟩)
  | literal {t : Token} {value : String} (ht : t.kind = .str value) :
      SpellsPrimary [t] (.literal ⟨value, t.span⟩)
  | group {l r : Token} {us : List Token} {e : Expr} (hl : l.kind = .leftParen)
      (h : SpellsChoice us e) (hr : r.kind = .rightParen) : SpellsPrimary (l :: (us ++ [r])) e

/-- Tokens that spell a symbol, with a postfix operator or without. -/
inductive SpellsSymbol : List Token → Expr → Prop
  | plain {us : List Token} {e : Expr} (h : SpellsPrimary us e) : SpellsSymbol us e
  | postfixed {t : Token} {us : List Token} {e : Expr} {operator : Expr → Expr}
      (h : SpellsPrimary us e) (ht : t.kind.operator? = some operator) :
      SpellsSymbol (us ++ [t]) (operator e)

/-- Tokens that spell one or more symbols side by side. -/
inductive SpellsConcat : List Token → Expr → Prop
  | single {us : List Token} {e : Expr} (h : SpellsSymbol us e) : SpellsConcat us e
  | several {us vs : List Token} {e : Expr} {es : List Expr} (h : SpellsSymbol us e)
      (hs : Many SpellsSymbol vs es) (hes : es ≠ []) : SpellsConcat (us ++ vs) (.concat (e :: es))

/-- Tokens that spell one or more alternatives with bars between them. -/
inductive SpellsChoice : List Token → Expr → Prop
  | single {us : List Token} {e : Expr} (h : SpellsConcat us e) : SpellsChoice us e
  | several {us vs : List Token} {e : Expr} {es : List Expr} (h : SpellsConcat us e)
      (hs : Many (After .pipe SpellsConcat) vs es) (hes : es ≠ []) :
      SpellsChoice (us ++ vs) (.choice (e :: es))

end

/-- The first token of something is one that a symbol may start with. -/
def StartsSymbol (us : List Token) : Prop :=
  ∃ t vs, us = t :: vs ∧ startsSymbol (some t.kind)

theorem StartsSymbol.append {us : List Token} (h : StartsSymbol us) (vs : List Token) :
  StartsSymbol (us ++ vs)
  := by
  obtain ⟨t, ws, rfl, ht⟩ := h
  exact ⟨t, ws ++ vs, rfl, ht⟩

section

variable {us : List Token} {e : Expr}

theorem SpellsPrimary.starts (h : SpellsPrimary us e) :
  StartsSymbol us
  := by
  cases h with
  | ident ht => exact ⟨_, [], rfl, by simp [ht, startsSymbol]⟩
  | literal ht => exact ⟨_, [], rfl, by simp [ht, startsSymbol]⟩
  | group hl h hr => exact ⟨_, _, rfl, by simp [hl, startsSymbol]⟩

theorem SpellsSymbol.starts (h : SpellsSymbol us e) :
  StartsSymbol us
  := by
  cases h with
  | plain h => apply h.starts
  | postfixed h ht => apply h.starts.append

theorem SpellsConcat.starts (h : SpellsConcat us e) :
  StartsSymbol us
  := by
  cases h with
  | single h => apply h.starts
  | several h hs hes => apply h.starts.append

theorem SpellsChoice.starts (h : SpellsChoice us e) :
  StartsSymbol us
  := by
  cases h with
  | single h => apply h.starts
  | several h hs hes => apply h.starts.append

end

/-! ### Attributes -/

/-- Tokens that spell a parameter. -/
inductive SpellsParam : List Token → Located Param → Prop
  | integer {t : Token} (ht : t.kind = .integer) : SpellsParam [t] ⟨.integer t.text, t.span⟩
  | hex {t : Token} (ht : t.kind = .hex) : SpellsParam [t] ⟨.hex t.text, t.span⟩
  | double {t : Token} (ht : t.kind = .double) : SpellsParam [t] ⟨.double t.text, t.span⟩
  | str {t : Token} {value : String} (ht : t.kind = .str value) :
      SpellsParam [t] ⟨.str value, t.span⟩

/-- Tokens that spell parameters in parentheses, or none at all. -/
inductive SpellsParams : List Token → List (Located Param) → Prop
  | absent : SpellsParams [] []
  | empty {l r : Token} (hl : l.kind = .leftParen) (hr : r.kind = .rightParen) :
      SpellsParams [l, r] []
  | some {l r : Token} {us vs : List Token} {p : Located Param} {ps : List (Located Param)}
      (hl : l.kind = .leftParen) (h : SpellsParam us p) (hs : Many (After .comma SpellsParam) vs ps)
      (hr : r.kind = .rightParen) : SpellsParams (l :: (us ++ (vs ++ [r]))) (p :: ps)

/-- Tokens that spell an attribute. -/
inductive SpellsAttribute : List Token → Attribute → Prop
  | mk {l name r : Token} {us : List Token} {ps : List (Located Param)}
      (hl : l.kind = .leftBracket) (hname : name.kind = .ident) (h : SpellsParams us ps)
      (hr : r.kind = .rightBracket) :
      SpellsAttribute (l :: name :: (us ++ [r]))
        ⟨⟨name.text, name.span⟩, ps, l.span.widen r.span⟩

/-! ### Code blocks -/

/-- A block opens with its first character and the blanks behind it.  What is inside does not start
with a blank. -/
inductive Opens : (text opening inside : List Char) → Prop
  | empty : Opens [] [] []
  | mk {brace : Char} {blanks inside : List Char} (hblanks : ∀ c ∈ blanks, Text.isBlank c = true)
      (hinside : ∀ c ∈ inside.head?, Text.isBlank c = false) :
      Opens (brace :: (blanks ++ inside)) (brace :: blanks) inside

/-- How a text opens is determined, and what is inside comes behind the opening. -/
theorem Opens.eq_append {text opening inside : List Char} (h : Opens text opening inside) :
  opening = text.take 1 ++ (text.drop 1).takeWhile Text.isBlank ∧ text = opening ++ inside
  := by
  cases h with
  | empty => exact ⟨rfl, rfl⟩
  | @mk brace blanks _ hblanks hinside =>
    refine ⟨?_, rfl⟩
    change _ = brace :: (blanks ++ inside).takeWhile Text.isBlank
    rw [(takeWhile_and_dropWhile_append hblanks hinside).1]

/-- A token that spells a code block, or no token.  The code is the text of the block; it stands
behind the opening of the block, or if there is no room for it inside, where the block stands. -/
inductive SpellsCode : List Token → Option (Located String) → Prop
  | absent : SpellsCode [] none
  | present {t : Token} {body : String} {opening inside : List Char} (ht : t.kind = .code body)
      (hopens : Opens t.text.toList opening inside)
      (hroom : byteLength body.toList ≤ byteLength inside) :
      SpellsCode [t] (some ⟨body, t.span.within opening body.toList⟩)
  | crowded {t : Token} {body : String} {opening inside : List Char} (ht : t.kind = .code body)
      (hopens : Opens t.text.toList opening inside)
      (hroom : byteLength inside < byteLength body.toList) :
      SpellsCode [t] (some ⟨body, t.span⟩)

theorem SpellsCode.exists_kind {us : List Token} {code : Located String}
    (h : SpellsCode us (some code)) :
  ∃ t, us = [t] ∧ t.kind = .code code.value
  := by
  cases h with
  | present ht => exact ⟨_, rfl, ht⟩
  | crowded ht => exact ⟨_, rfl, ht⟩

/-! ### Items -/

/-- Tokens that spell an entry of a directive. -/
inductive SpellsEntry : List Token → Entry → Prop
  | mk {key equals value semicolon : Token} {text : String} (hkey : key.kind = .ident)
      (hequals : equals.kind = .equals) (hvalue : value.kind = .str text)
      (hsemicolon : semicolon.kind = .semicolon) :
      SpellsEntry [key, equals, value, semicolon] ⟨⟨key.text, key.span⟩, ⟨text, value.span⟩⟩

/-- Tokens that spell what a production derives, up to its semicolon.  A string that stands alone is
a pattern, and all else is a rule. -/
inductive SpellsBody : List Token → Rhs → Option (Located String) → Prop
  | pattern {t : Token} {value : String} (ht : t.kind = .str value) :
      SpellsBody [t] (.pattern ⟨value, t.span⟩) none
  | rule {us vs : List Token} {e : Expr} {code : Option (Located String)} (h : SpellsChoice us e)
      (hcode : SpellsCode vs code) (hlone : ∀ t value, us ++ vs = [t] → t.kind ≠ .str value) :
      SpellsBody (us ++ vs) (.rule e) code

/-- Tokens that spell a production, with attributes on both sides of its name. -/
inductive SpellsProduction : List Token → Production → Prop
  | mk {name arrow semicolon : Token} {us vs ws : List Token} {before after : List Attribute}
      {rhs : Rhs} {code : Option (Located String)} (hbefore : Many SpellsAttribute us before)
      (hname : name.kind = .ident) (hafter : Many SpellsAttribute vs after)
      (harrow : arrow.kind = .arrow) (h : SpellsBody ws rhs code)
      (hsemicolon : semicolon.kind = .semicolon) :
      SpellsProduction (us ++ (name :: (vs ++ (arrow :: (ws ++ [semicolon])))))
        ⟨⟨name.text, name.span⟩, before ++ after, rhs, code⟩

/-- Tokens that spell an item. -/
inductive SpellsItem : List Token → Item → Prop
  | directive {sign name l r : Token} {us : List Token} {entries : List Entry}
      (hsign : sign.kind = .atSign) (hname : name.kind = .ident) (hl : l.kind = .leftBrace)
      (h : Many SpellsEntry us entries) (hr : r.kind = .rightBrace) :
      SpellsItem (sign :: name :: l :: (us ++ [r])) (.directive ⟨⟨name.text, name.span⟩, entries⟩)
  | production {us : List Token} {p : Production} (h : SpellsProduction us p) :
      SpellsItem us (.production p)

end Description

end Descent
