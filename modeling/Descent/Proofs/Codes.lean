import Descent.Proofs.Names
import Descent.Proofs.Strings

/-!
# Action codes that are stored

The action code of a production is what its block has between the braces, without the blanks around
it.  A nonterminal stores one code, while each of its productions may have one.

* A block that is not left open ends with a brace of its own
  (`Description.Tokens.exists_block_of_terminates`).
* Every production with a code replaces the code that is stored, so that a nonterminal has the last
  of its codes (`Draft.StoresLast.foldl_defineProduction`).
* So the code of a nonterminal is the last of its name (`Compilation.exists_code_eq`).  A code is
  kept if that one has it as a part, and dropped otherwise (`Grammar.Keeps`).
-/

namespace Descent

namespace Description

/-! ### Code blocks -/

/-- What is in a block that is closed stands before a brace. -/
theorem codeBody_closed (depth : Nat) (cs : List Char) (h : (codeBody depth cs).closed) :
  ∃ rest, cs = (codeBody depth cs).text ++ '}' :: rest ∧
    (codeBody depth cs).length = (codeBody depth cs).text.length + 1
  := by
  have hprepend : ∀ (c : Char) (cs : List Char) (b : Body),
      (∃ rest, cs = b.text ++ '}' :: rest ∧ b.length = b.text.length + 1) →
      ∃ rest, c :: cs = (b.prepend 1 [c]).text ++ '}' :: rest ∧
        (b.prepend 1 [c]).length = (b.prepend 1 [c]).text.length + 1 := by
    rintro c cs b ⟨rest, hcs, hlength⟩
    exact ⟨rest, congrArg (c :: ·) hcs, by simp [Body.prepend, hlength, Nat.add_comm 1]⟩
  fun_induction codeBody depth cs with
  | case1 => cases h
  | case2 => exact ⟨_, rfl, rfl⟩
  | case3 cs d ih => exact hprepend '}' cs _ (ih h)
  | case4 depth cs _ ih => exact hprepend '{' cs _ (ih h)
  | case5 depth c cs _ _ ih => exact hprepend c cs _ (ih h)

theorem extent_of_kind_code {context : Context} {c : Char} {cs : List Char} {body : String}
    (h : (extent context c cs).kind = .code body) :
  c = '{' ∧ extent context c cs =
    ⟨.code (String.ofList (Text.trim (codeBody 0 cs).text)), (codeBody 0 cs).length,
      (codeBody 0 cs).left .codeBlock⟩
  := by
  revert h
  fun_cases extent context c cs with
  | case7 => exact fun _ => ⟨by assumption, rfl⟩
  | case9 => obtain h | h := kind_numberExtent cs <;> simp [h]
  | case11 => exact fun h => absurd h ((punctuation_ne c).2.2.1 body)
  | _ => rintro ⟨⟩

namespace Tokens

/-- A code block that is not left open has its code between braces, with blanks around it. -/
theorem exists_block_of_terminates {text file body : String} {t : Token}
    (ht : t ∈ (ofText text file).tokens) (hk : t.kind = .code body)
    (hterminates : (ofText text file).Terminates t) :
  ∃ block, t.text.toList = '{' :: (block ++ ['}']) ∧ body.toList = Text.trim block
  := by
  obtain ⟨context, c, cs, hkind, htext, hleft⟩ := reportsLeft_ofRest _ _ _ _ _ t ht
  obtain ⟨rfl, hextent⟩ := extent_of_kind_code (hkind.symm.trans hk)
  rw [hextent] at hkind htext hleft
  rw [hk, Kind.code.injEq] at hkind
  have hclosed : (codeBody 0 cs).closed := by
    by_contra hopen
    apply hterminates .codeBlock
    apply hleft
    rw [Body.left, if_neg hopen]
    apply Option.mem_some_self
  obtain ⟨rest, hcs, hlength⟩ := codeBody_closed 0 cs hclosed
  have htail : cs.take (codeBody 0 cs).length = (codeBody 0 cs).text ++ ['}'] := by
    nth_rewrite 2 [hcs]
    rw [hlength]
    apply List.take_length_add_append 1
  exact ⟨(codeBody 0 cs).text, by rw [htext, htail], by rw [hkind, String.toList_ofList]⟩

end Tokens

/-- Tokens of a text spell a production, and one of them is a block with the given text between its
braces. -/
def Production.HasBlock (p : Production) (text file : String) (block : List Char) : Prop :=
  ∃ us, us.Sublist (Tokens.ofText text file).tokens ∧ SpellsProduction us p ∧
    ∃ t ∈ us, t.text.toList = '{' :: (block ++ ['}'])

variable {text file : String} {p : Production}

/-- A production of a text is spelled by some of its tokens. -/
theorem exists_spells_of_mem (h : (parse text file).2 = [])
    (hp : p ∈ (parse text file).1.productions) :
  ∃ us, us.Sublist (Tokens.ofText text file).tokens ∧ SpellsProduction us p
  := by
  have hspells := spells_of_readItems _ _ (List.append_eq_nil_iff.mp h).2
  obtain ⟨us, hus, hi⟩ := hspells.exists_of_mem _ (mem_productions.mp hp)
  cases hi with
  | production hi => exact ⟨us, hus, hi⟩

/-- The code of a production is the text of its block, without blanks around it. -/
theorem exists_block_of_code (h : (parse text file).2 = [])
    (hp : p ∈ (parse text file).1.productions) {c : Located String} (hc : p.code = some c) :
  ∃ block, p.HasBlock text file block ∧ c.value.toList = Text.trim block
  := by
  obtain ⟨us, hus, hspells⟩ := exists_spells_of_mem h hp
  obtain ⟨t, ht, hk, -⟩ := hspells.exists_code hc
  have hterminates : (Tokens.ofText text file).Terminates t := by
    intro what
    rw [(List.append_eq_nil_iff.mp h).1]
    apply List.not_mem_nil
  obtain ⟨block, htext, hbody⟩ := Tokens.exists_block_of_terminates (hus.subset ht) hk hterminates
  exact ⟨block, ⟨us, hus, hspells, t, ht, htext⟩, hbody⟩

/-- Only productions with a rule have a code. -/
theorem rule?_of_code (h : (parse text file).2 = []) (hp : p ∈ (parse text file).1.productions)
    (hc : p.code.isSome) :
  p.rule?.isSome
  := by
  obtain ⟨us, -, hspells⟩ := exists_spells_of_mem h hp
  obtain ⟨-, -, -, -, hbody, -⟩ := hspells
  cases hbody with
  | pattern => cases hc
  | rule => rfl

/-! ### Codes of a name -/

/-- The codes of the productions of a name, in order. -/
def codesOf (ps : List Production) (name : String) : List String :=
  ps.filterMap fun p => if p.name.value = name then p.code.map (·.value) else none

theorem codesOf_append (ps qs : List Production) (name : String) :
  codesOf (ps ++ qs) name = codesOf ps name ++ codesOf qs name
  := List.filterMap_append

theorem codesOf_singleton (p : Production) (name : String) :
  codesOf [p] name = (if p.name.value = name then p.code.map (·.value) else none).toList
  := by
  rw [codesOf, List.filterMap_cons, List.filterMap_nil]
  split <;> rename_i h <;> rw [h] <;> rfl

/-- The last code of a name when one more production is there. -/
theorem getLast?_codesOf_concat (ps : List Production) (p : Production) (name : String) :
  (codesOf (ps ++ [p]) name).getLast? =
    (if p.name.value = name then p.code.map (·.value) else none).or (codesOf ps name).getLast?
  := by
  rw [codesOf_append, codesOf_singleton, List.getLast?_append]
  cases (if p.name.value = name then p.code.map (·.value) else none) <;> rfl

/-- The last code of the name of a production that has one, and others behind it. -/
theorem getLast?_codesOf_of_code (before after : List Production) {c : Located String}
    (hc : p.code = some c) :
  (codesOf (before ++ p :: after) p.name.value).getLast? =
    some ((codesOf after p.name.value).getLast?.getD c.value)
  := by
  rw [codesOf_append, ← List.singleton_append, codesOf_append, codesOf_singleton, if_pos rfl, hc,
    List.getLast?_append, List.getLast?_append, Option.map_some]
  cases (codesOf after p.name.value).getLast? <;> rfl

/-! ### Productions that clash with nothing -/

theorem clashes_append [Engine] (before ps qs : List Production) :
  clashes before (ps ++ qs) = clashes before ps ++ clashes (before ++ ps) qs
  := by
  induction ps generalizing before with
  | nil => rw [List.nil_append, List.append_nil, clashes, List.nil_append]
  | cons p ps ih =>
    rw [List.cons_append, clashes, clashes, ih]
    simp only [List.append_assoc, List.cons_append, List.nil_append]

/-- If no two productions clash, then one with a rule is declared by a production with a rule. -/
theorem exists_declarer?_of_clashes [Engine] {ps : List Production} (h : clashes [] ps = [])
    (hp : p ∈ ps) (hr : p.rule?.isSome) :
  ∃ q, declarer? ps p.name.value = some q ∧ q.terminal? = none
  := by
  obtain ⟨before, after, rfl⟩ := List.append_of_mem hp
  rw [clashes_append, List.nil_append, clashes] at h
  have hclash := (List.append_eq_nil_iff.mp (List.append_eq_nil_iff.mp h).2).1
  obtain ⟨e, he⟩ := Option.isSome_iff_exists.mp hr
  have hpattern := Production.terminal?_of_rule? he
  unfold Production.clash? at hclash
  unfold declarer? at hclash ⊢
  rw [List.find?_append]
  cases hq : before.find? fun q =>
      q.name.value = p.name.value ∧ (q.rule?.isSome ∨ q.terminal?.isSome) with
  | none => exact ⟨p, by rw [Option.none_or, List.find?_cons_of_pos (by simp [hr])], hpattern⟩
  | some q =>
    rw [hq, hpattern] at hclash
    simp [hr] at hclash
    exact ⟨q, by rw [Option.some_or], hclash⟩

end Description

/-- If no two productions clash, then one with a rule has a nonterminal. -/
theorem Grammar.Table.exists_nonterminal? [Engine] {desc : Description} {g : Grammar}
    (h : g.Table desc) (hclashes : Description.clashes [] desc.productions = [])
    {p : Description.Production} (hp : p ∈ desc.productions) (hr : p.rule?.isSome) :
  ∃ n, g.nonterminal? p.name.value = some n
  := by
  obtain ⟨q, hq, hpattern⟩ := Description.exists_declarer?_of_clashes hclashes hp hr
  obtain ⟨x, hx, hof⟩ := h.declared _ q hq
  cases x with
  | terminal t =>
    rw [IsOf, hpattern] at hof
    cases hof
  | nonterminal n => exact ⟨n, by rw [nonterminal?, hx]⟩

/-! ### While rules are added -/

namespace Draft

open Description (Production codesOf)

variable {d : Draft} {g : Grammar} {done : List Production} {p : Production}

/-- A code that is given replaces the one that is stored. -/
theorem code_define (d : Draft) {n : NonterminalId} (hn : d.grammar.Has (.nonterminal n))
    (e : Description.Expr) (code : Option (Located String)) (m : NonterminalId) :
  ((d.define n e code).grammar.nonterminal m).code =
    (if m = n then code.map (·.value) else none).or (d.grammar.nonterminal m).code
  := by
  rw [d.nonterminal_define hn]
  split
  case isTrue hm => rw [hm, Nonterminal.write]
  case isFalse => rw [Option.none_or]

/-- What holds of a draft while rules are added to the declared symbols of `g`: every nonterminal
has the last of the codes of its name in the productions so far. -/
structure StoresLast (g : Grammar) (done : List Production) (d : Draft) : Prop where
  same : d.grammar.SameSymbols g
  code : ∀ n, g.Has (.nonterminal n) →
    (d.grammar.nonterminal n).code = (codesOf done (g.nonterminal n).name).getLast?

/-- Adding the rule of a production to the nonterminal of its name. -/
theorem StoresLast.define (h : d.StoresLast g done)
    (hnames : ∀ name x, g.lookup? name = some x ↔ g.Has x ∧ g.nameOf x = name)
    {e : Description.Expr} {n : NonterminalId} (hn : d.grammar.nonterminal? p.name.value = some n) :
  (d.define n e p.code).StoresLast g (done ++ [p])
  := by
  have hl := Grammar.lookup?_of_nonterminal? hn
  rw [h.same.lookup?] at hl
  obtain ⟨hhas, -⟩ := (hnames _ _).mp hl
  have hhas' := (h.same.has _).mpr hhas
  constructor
  case same => exact (d.sameSymbols_define hhas' e p.code).trans h.same
  case code =>
    intro m hm
    have hmn : p.name.value = (g.nonterminal m).name ↔ m = n := by
      constructor
      · intro hname
        have hlm := (hnames p.name.value (.nonterminal m)).mpr ⟨hm, hname.symm⟩
        rw [hl] at hlm
        cases hlm
        rfl
      · rintro rfl
        exact ((hnames _ _).mp hl).2.symm
    rw [d.code_define hhas', h.code m hm, Description.getLast?_codesOf_concat]
    simp only [hmn]

/-- A production without a code, or without a nonterminal of its name, stores nothing. -/
theorem StoresLast.concat (h : d.StoresLast g done)
    (hp : ∀ n, g.Has (.nonterminal n) → p.code.isSome → p.name.value ≠ (g.nonterminal n).name) :
  d.StoresLast g (done ++ [p])
  := by
  refine ⟨h.same, fun n hn => ?_⟩
  have hnone : (if p.name.value = (g.nonterminal n).name then p.code.map (·.value) else none) =
      none := by
    split
    case isTrue hname =>
      rw [Option.map_eq_none_iff, ← Option.not_isSome_iff_eq_none]
      exact fun hc => hp n hn hc hname
    case isFalse => rfl
  rw [Description.getLast?_codesOf_concat, hnone, Option.none_or]
  exact h.code n hn

/-- After all productions, a nonterminal has the last code of its name. -/
theorem StoresLast.foldl_defineProduction (h : d.StoresLast g [])
    (hnames : ∀ name x, g.lookup? name = some x ↔ g.Has x ∧ g.nameOf x = name)
    (ps : List Production) (hps : ∀ p ∈ ps, p.code.isSome → p.rule?.isSome) :
  (ps.foldl defineProduction d).StoresLast g ps
  := by
  induction ps using List.reverseRecOn with
  | nil => exact h
  | append_singleton ps p ih =>
    have ih := ih fun q hq => hps q (List.mem_append_left _ hq)
    rw [List.foldl_append]
    change (defineProduction _ p).StoresLast g _
    obtain ⟨e, n, -, hn, heq⟩ | ⟨heq, hnone⟩ :=
      (ps.foldl defineProduction d).defineProduction_cases p
    · rw [heq]
      exact ih.define hnames hn
    · rw [heq]
      apply ih.concat
      intro n hn hc hname
      have hl := (hnames _ (.nonterminal n)).mpr ⟨hn, hname.symm⟩
      have hnone := hnone (hps p (by simp) hc)
      rw [Grammar.nonterminal?, ih.same.lookup?, hl] at hnone
      cases hnone

/-- Nothing is stored by declarations. -/
theorem storesLast_ofDeclarations [Engine] (o : Options) (fs : FileSystem) (desc : Description) :
  (ofDeclarations o fs desc).StoresLast (ofDeclarations o fs desc).grammar []
  := ⟨.refl _, fun n _ => (isBare_ofDeclarations o fs desc).code n⟩

end Draft

/-! ### Codes of a grammar -/

/-- Whether a text is the code of a nonterminal, or part of it. -/
def Grammar.Keeps (g : Grammar) (n : NonterminalId) (code : List Char) : Prop :=
  ∃ stored, (g.nonterminal n).code = some stored ∧ code <:+: stored.toList

namespace Compilation

variable {fs : FileSystem} {o : Options} {text file : String}

/-- A nonterminal of a text with which nothing is wrong has the last code of its name. -/
theorem exists_code_eq [Engine] (h : (ofText fs o text file).isOk) {p : Description.Production}
    (hp : p ∈ (Description.parse text file).1.productions) (hr : p.rule?.isSome) :
  ∃ g n, (ofText fs o text file).grammar? = some g ∧ g.nonterminal? p.name.value = some n ∧
    (g.nonterminal n).code =
      (Description.codesOf (Description.parse text file).1.productions p.name.value).getLast?
  := by
  obtain ⟨hg, hnil⟩ := grammar?_of_isOk h
  have hparse := parse_of_grammar? hg
  have htable := Grammar.table_ofDeclarations o fs (Description.parse text file).1
  have hstored := (Draft.storesLast_ofDeclarations o fs _).foldl_defineProduction htable.names
    (Description.parse text file).1.productions fun q hq => Description.rule?_of_code hparse hq
  have hclashes : Description.clashes [] (Description.parse text file).1.productions = [] := by
    rw [← ((Draft.filled_ofDeclarations o fs _).foldl_defineProduction htable.names _).clashes,
      hnil, List.filter_nil]
  obtain ⟨n, hn⟩ := htable.exists_nonterminal? hclashes hp hr
  obtain ⟨hhas, hname⟩ := (htable.names _ _).mp (Grammar.lookup?_of_nonterminal? hn)
  generalize List.foldl Draft.defineProduction _ _ = d at hg hstored
  refine ⟨_, n, hg, ?_, ?_⟩
  · rw [Grammar.nonterminal?, Grammar.lookup?, Grammar.names_prepare, ← Grammar.lookup?,
      hstored.same.lookup?, ← Grammar.nonterminal?, hn]
  · rw [Grammar.nonterminal_prepare, hstored.code n hhas, ← hname]
    rfl

/-- The code of a production, in a text with which nothing is wrong, is that of its block.  What the
nonterminal of the production has as its code is that of the last production of the name after it,
or its own if none of these has one.  So the code is kept if it is part of that one. -/
theorem keeps_iff [Engine] (h : (ofText fs o text file).isOk)
    {before after : List Description.Production} {p : Description.Production}
    (hp : (Description.parse text file).1.productions = before ++ p :: after) {c : Located String}
    (hc : p.code = some c) :
  let last := (Description.codesOf after p.name.value).getLast?.getD c.value
  ∃ g n block, (ofText fs o text file).grammar? = some g ∧
    g.nonterminal? p.name.value = some n ∧
    p.HasBlock text file block ∧ c.value.toList = Text.trim block ∧
    (g.nonterminal n).code = some last ∧
    (g.Keeps n (Text.trim block) ↔ Text.trim block <:+: last.toList)
  := by
  intro last
  have hparse := parse_of_grammar? (grammar?_of_isOk h).1
  have hmem : p ∈ (Description.parse text file).1.productions := by simp [hp]
  have hrule := Description.rule?_of_code hparse hmem (Option.isSome_of_eq_some hc)
  obtain ⟨g, n, hg, hn, hcode⟩ := exists_code_eq h hmem hrule
  obtain ⟨block, hblock, htrim⟩ := Description.exists_block_of_code hparse hmem hc
  rw [hp, Description.getLast?_codesOf_of_code before after hc] at hcode
  refine ⟨g, n, block, hg, hn, hblock, htrim, hcode, ?_⟩
  rw [Grammar.Keeps, hcode]
  simp only [Option.some_inj, exists_eq_left']
  rfl

/-- A text with two productions of a name, and what their blocks have between the braces. -/
def textOfCodes (first second : String) : String :=
  "Start -> 'a' \x7b" ++ first ++ "\x7d; Start -> 'b' \x7b" ++ second ++ "\x7d;"

/-- The text with the codes, compiled. -/
def ofCodes [Engine] (first second : String) : Compilation :=
  .ofText (.bare []) ⟨⟨"."⟩, ⟨"."⟩⟩ (textOfCodes first second) ""

/-- The first production of a text has a code, and those behind it have others. -/
theorem exists_productions_of_codes (text file code : String) (codes : List String)
    (h : ((Description.parse text file).1.productions.head?.bind (·.code)).map (·.value) =
      some code)
    (hcodes : Description.codesOf (Description.parse text file).1.productions.tail "Start" = codes)
    (hname : (Description.parse text file).1.productions.head?.map (·.name.value) = some "Start") :
  ∃ p after c, (Description.parse text file).1.productions = [] ++ p :: after ∧
    p.name.value = "Start" ∧ p.code = some c ∧ c.value = code ∧
    Description.codesOf after "Start" = codes
  := by
  cases hp : (Description.parse text file).1.productions with
  | nil =>
    rw [hp] at h
    cases h
  | cons p after =>
    rw [hp, List.head?_cons, Option.bind_some, Option.map_eq_some_iff] at h
    rw [hp, List.head?_cons, Option.map_some, Option.some_inj] at hname
    obtain ⟨c, hc, hvalue⟩ := h
    exact ⟨p, after, c, rfl, hname, hc, hvalue, by rwa [hp] at hcodes⟩

/-- A code that the next one begins with is kept. -/
theorem keeps_part :
  (ofCodes " f(); " "f(); g();").isOk ∧ ∃ g n, (ofCodes " f(); " "f(); g();").grammar? = some g ∧
    g.nonterminal? "Start" = some n ∧ (g.nonterminal n).code = some "f(); g();" ∧
    g.Keeps n "f();".toList
  := by
  have hok : (ofCodes " f(); " "f(); g();").isOk := by decide +kernel
  obtain ⟨p, after, c, hp, hname, hc, hvalue, hafter⟩ :=
    exists_productions_of_codes (textOfCodes " f(); " "f(); g();") "" "f();" ["f(); g();"]
      (by decide +kernel) (by decide +kernel) (by decide +kernel)
  obtain ⟨g, n, block, hg, hn, -, htrim, hcode, hkeeps⟩ := keeps_iff hok hp hc
  rw [hname, hafter] at hcode hkeeps
  rw [hname] at hn
  rw [← htrim, hvalue] at hkeeps
  exact ⟨hok, g, n, hg, hn, hcode, hkeeps.mpr (by decide +kernel)⟩

/-- With two codes that have nothing in common nothing is wrong, and the first one is dropped. -/
theorem not_keeps_first :
  (ofCodes "x" "y").isOk ∧ ∃ p ∈ (Description.parse (textOfCodes "x" "y") "").1.productions,
    ∃ block, p.HasBlock (textOfCodes "x" "y") "" block ∧ Text.trim block = ['x'] ∧
      ∃ g n, (ofCodes "x" "y").grammar? = some g ∧ g.nonterminal? p.name.value = some n ∧
        ¬ g.Keeps n (Text.trim block)
  := by
  obtain ⟨p, after, c, hp, hname, hc, hvalue, -⟩ :=
    exists_productions_of_codes (textOfCodes "x" "y") "" "x" ["y"]
      (by decide +kernel) (by decide +kernel) (by decide +kernel)
  have hmem : p ∈ (Description.parse (textOfCodes "x" "y") "").1.productions := by simp [hp]
  obtain ⟨block, hblock, htrim⟩ :=
    Description.exists_block_of_code (by decide +kernel) hmem hc
  rw [hvalue] at htrim
  have hstored : ((ofCodes "x" "y").grammar?.any fun g => (g.nonterminal? "Start").any fun n =>
      (g.nonterminal n).code = some "y") = true := by
    decide +kernel
  obtain ⟨g, hg, hstored⟩ := (Option.any_eq_true _ _).mp hstored
  obtain ⟨n, hn, hstored⟩ := (Option.any_eq_true _ _).mp hstored
  refine ⟨by decide +kernel, p, hmem, block, hblock, htrim.symm, g, n, hg, by rw [hname, hn], ?_⟩
  rintro ⟨stored, hcode, hkept⟩
  obtain rfl := Option.some_inj.mp ((of_decide_eq_true hstored).symm.trans hcode)
  rw [← htrim] at hkept
  exact absurd hkept (by decide)

end Compilation

end Descent
