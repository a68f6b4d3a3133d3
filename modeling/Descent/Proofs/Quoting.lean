import Mathlib.Data.List.Infix
import Descent.Emission.Artifacts
import Descent.Proofs.Names

/-!
# Quoted patterns

Emitted code has the patterns of terminals in quotes, from which they are read again.

* A raw string ends at the first quote with all of its hash signs behind it.  It has one hash sign
  more than there are in any run of them in the text, so that this is not a quote in the text
  (`Rust.readRaw?_rawString`).
* A verbatim string ends at the first quote that is not written twice
  (`Csharp.readVerbatim?_verbatim`).
* The tables of patterns in both languages are read row by row, and give the patterns that the
  scanner of the interpreter was made of (`patterns_exact`).
-/

namespace Descent

namespace Emission

/-! ### Raw strings -/

namespace Rust

/-- The content of a raw string, up to the first quote with a number of hash signs behind it, and
what follows them. -/
def rawContent? (hashes : Nat) : List Char → Option (List Char × List Char)
  | [] => none
  | c :: cs =>
    if c = '"' ∧ List.replicate hashes '#' <+: cs then some ([], cs.drop hashes)
    else (rawContent? hashes cs).map fun (content, rest) => (c :: content, rest)

/-- Reads a raw string: its content, and what follows the string. -/
def readRaw? : List Char → Option (List Char × List Char)
  | 'r' :: cs =>
    match cs.dropWhile (· = '#') with
    | '"' :: ds => rawContent? (cs.takeWhile (· = '#')).length ds
    | _ => none
  | _ => none

section

variable {cs : List Char} {run longest k : Nat}

theorem le_longestHashRun (run longest : Nat) (cs : List Char) :
  longest ≤ longestHashRun run longest cs
  := by
  induction cs generalizing run longest with
  | nil => apply Nat.le_refl
  | cons c cs ih =>
    rw [longestHashRun]
    split
    · exact Nat.le_trans (Nat.le_max_left _ _) (ih _ _)
    · exact ih _ _

/-- Hash signs at the front go on with the run before them. -/
theorem add_le_longestHashRun (h : List.replicate (k + 1) '#' <+: cs) :
  run + (k + 1) ≤ longestHashRun run longest cs
  := by
  induction cs generalizing run longest k with
  | nil => cases List.prefix_nil.mp h
  | cons c cs ih =>
    rw [List.replicate_succ, List.cons_prefix_cons] at h
    obtain ⟨rfl, h⟩ := h
    rw [longestHashRun, if_pos rfl]
    cases k with
    | zero => exact Nat.le_trans (Nat.le_max_right _ _) (le_longestHashRun _ _ _)
    | succ k =>
      have hrun : run + 1 + (k + 1) ≤ longestHashRun (run + 1) (max longest (run + 1)) cs := ih h
      omega

/-- No run of hash signs is longer. -/
theorem le_longestHashRun_of_infix (h : List.replicate k '#' <:+: cs) :
  k ≤ longestHashRun run longest cs
  := by
  obtain _ | k := k
  · apply Nat.zero_le
  induction cs generalizing run longest with
  | nil => cases List.infix_nil.mp h
  | cons c cs ih =>
    obtain h | h := List.infix_cons_iff.mp h
    · exact Nat.le_trans (Nat.le_add_left _ run) (add_le_longestHashRun h)
    · rw [longestHashRun]
      split
      · exact ih h
      · exact ih h

/-- There are too few hash signs behind each quote in a text. -/
theorem not_prefix_of_suffix {v : List Char} (h : '"' :: v <:+ cs) :
  ¬ List.replicate (hashCount cs) '#' <+: v
  := by
  intro hprefix
  have hinfix := hprefix.isInfix.trans ((List.suffix_cons '"' v).trans h).isInfix
  have hle : _ ≤ longestHashRun 0 0 cs := le_longestHashRun_of_infix hinfix
  rw [hashCount, if_pos (h.subset List.mem_cons_self)] at hle
  omega

/-- Hash signs do not go on beyond a quote. -/
theorem prefix_of_prefix_append_quote {rest : List Char}
    (h : List.replicate k '#' <+: cs ++ '"' :: rest) :
  List.replicate k '#' <+: cs
  := by
  obtain hprefix | ⟨m, hm⟩ := List.prefix_or_prefix_of_prefix h (List.prefix_append cs _)
  · exact hprefix
  · cases m with
    | nil => rw [← hm, List.append_nil]
    | cons c m =>
      rw [← hm, List.prefix_append_right_inj, List.cons_prefix_cons] at h
      obtain ⟨rfl, -⟩ := h
      have hquote : '"' ∈ List.replicate k '#' := by simp [← hm]
      cases List.eq_of_mem_replicate hquote

/-- The content of a raw string ends where no quote in it could end it. -/
theorem rawContent?_append (rest : List Char)
    (h : ∀ v, '"' :: v <:+ cs → ¬ List.replicate k '#' <+: v) :
  rawContent? k (cs ++ '"' :: (List.replicate k '#' ++ rest)) = some (cs, rest)
  := by
  induction cs with
  | nil =>
    rw [List.nil_append, rawContent?, if_pos ⟨rfl, List.prefix_append _ _⟩,
      List.drop_left' List.length_replicate]
  | cons c cs ih =>
    rw [List.cons_append, rawContent?, if_neg, ih fun v hv => h v (hv.trans (List.suffix_cons c cs))]
    · rfl
    · rintro ⟨rfl, hprefix⟩
      exact h cs (List.suffix_refl _) (prefix_of_prefix_append_quote hprefix)

end

theorem toList_rawString (s : String) :
  (rawString s).toList =
    'r' :: (List.replicate (hashCount s.toList) '#' ++
      '"' :: (s.toList ++ '"' :: List.replicate (hashCount s.toList) '#'))
  := by
  simp [rawString]

/-- A text is read again from its raw string. -/
theorem readRaw?_rawString (s : String) (rest : List Char) :
  readRaw? ((rawString s).toList ++ rest) = some (s.toList, rest)
  := by
  have hhashes : ∀ c ∈ List.replicate (hashCount s.toList) '#', decide (c = '#') = true :=
    fun c hc => decide_eq_true (List.eq_of_mem_replicate hc)
  have hquote : ∀ cs : List Char, ∀ c ∈ ('"' :: cs).head?, decide (c = '#') = false := by
    rintro cs c ⟨⟩
    rfl
  obtain ⟨htake, hdrop⟩ := takeWhile_and_dropWhile_append hhashes (hquote _)
  rw [toList_rawString, List.cons_append, List.append_assoc, List.cons_append, List.append_assoc,
    List.cons_append, readRaw?, hdrop, htake, List.length_replicate]
  exact rawContent?_append rest fun v hv => not_prefix_of_suffix hv

end Rust

/-! ### Verbatim strings -/

namespace Csharp

/-- The content of a verbatim string, up to the first quote that is not written twice, and what
follows that. -/
def verbatimContent? : List Char → Option (List Char × List Char)
  | [] => none
  | '"' :: '"' :: cs => (verbatimContent? cs).map fun (content, rest) => ('"' :: content, rest)
  | '"' :: cs => some ([], cs)
  | c :: cs => (verbatimContent? cs).map fun (content, rest) => (c :: content, rest)

/-- Reads a verbatim string: its content, and what follows the string. -/
def readVerbatim? : List Char → Option (List Char × List Char)
  | '@' :: '"' :: cs => verbatimContent? cs
  | _ => none

theorem verbatimContent?_flatMap {rest : List Char} (h : rest.head? ≠ some '"') (cs : List Char) :
  verbatimContent? (cs.flatMap verbatimChar ++ '"' :: rest) = some (cs, rest)
  := by
  induction cs with
  | nil =>
    rw [List.flatMap_nil, List.nil_append, verbatimContent?.eq_3]
    rintro ds rfl
    exact h rfl
  | cons c cs ih =>
    rw [List.flatMap_cons, List.append_assoc, verbatimChar]
    split
    case isTrue hc =>
      rw [hc, List.cons_append, List.singleton_append, verbatimContent?, ih]
      rfl
    case isFalse hc =>
      rw [List.singleton_append, verbatimContent?.eq_4 _ _ (fun _ h _ => hc h) hc, ih]
      rfl

/-- A text is read again from its verbatim string. -/
theorem readVerbatim?_verbatim (s : String) {rest : List Char} (h : rest.head? ≠ some '"') :
  readVerbatim? ((verbatim s).toList ++ rest) = some (s.toList, rest)
  := by
  have htext : (verbatim s).toList ++ rest =
      '@' :: '"' :: (s.toList.flatMap verbatimChar ++ '"' :: rest) := by
    simp [verbatim]
  rw [htext, readVerbatim?, verbatimContent?_flatMap h]

end Csharp

/-! ### Tables of patterns -/

/-- What a table of patterns says about a terminal. -/
structure Row where
  name : List Char
  pattern : List Char
  ignoreCase : Bool
  deriving DecidableEq, Repr

/-- The row of a terminal. -/
def Row.ofTerminal (t : Terminal) : Row := ⟨t.name.toList, t.pattern.toList, t.ignoreCase⟩

/-- Reads a given text: what follows it. -/
def skip? (s : String) (cs : List Char) : Option (List Char) := cs.dropPrefix? s.toList

/-- Reads a name up to a comma, and what follows from the comma on. -/
def readName (cs : List Char) : List Char × List Char :=
  (cs.takeWhile (· ≠ ','), cs.dropWhile (· ≠ ','))

/-- Reads one of two texts: whether it is the first, and what follows it. -/
def readFlag? (yes no : String) (cs : List Char) : Option (Bool × List Char) :=
  match skip? yes cs with
  | some rest => some (true, rest)
  | none => (skip? no cs).map fun rest => (false, rest)

/-- The rows that a text has, each read from where the one before it ends. -/
inductive Reads (readRow? : List Char → Option (Row × List Char)) : List Char → List Row → Prop
  | nil : Reads readRow? [] []
  | cons {cs rest : List Char} {row : Row} {rows : List Row} (h : readRow? cs = some (row, rest))
      (hs : Reads readRow? rest rows) : Reads readRow? cs (row :: rows)

theorem skip?_append (s : String) (cs : List Char) :
  skip? s (s.toList ++ cs) = some cs
  := List.dropPrefix?_append_of_beq cs BEq.rfl

theorem readName_append {name cs : List Char} (h : ',' ∉ name) (hcs : cs.head? = some ',') :
  readName (name ++ cs) = (name, cs)
  := by
  have hname : ∀ c ∈ name, decide (c ≠ ',') = true := by
    intro c hc
    apply decide_eq_true
    rintro rfl
    exact h hc
  have hcomma : ∀ c ∈ cs.head?, decide (c ≠ ',') = false := by
    rw [hcs]
    rintro c ⟨⟩
    rfl
  obtain ⟨htake, hdrop⟩ := takeWhile_and_dropWhile_append hname hcomma
  rw [readName, htake, hdrop]

/-- Either text is read if neither is the beginning of the other. -/
theorem readFlag?_append (yes no : String) (h : ¬ yes.toList <+: no.toList)
    (h' : ¬ no.toList <+: yes.toList) (flag : Bool) (cs : List Char) :
  readFlag? yes no ((if flag then yes else no).toList ++ cs) = some (flag, cs)
  := by
  unfold readFlag?
  cases flag with
  | true => rw [if_pos rfl, skip?_append]
  | false =>
    have hno : skip? yes (no.toList ++ cs) = none := by
      rw [Option.eq_none_iff_forall_ne_some]
      intro rest hrest
      obtain ⟨p, hp, hyes⟩ := List.dropPrefix?_eq_some_iff.mp hrest
      obtain rfl := eq_of_beq hyes
      obtain hprefix | hprefix :=
        List.prefix_or_prefix_of_prefix ⟨rest, hp.symm⟩ (List.prefix_append no.toList cs)
      · exact h hprefix
      · exact h' hprefix
    rw [if_neg Bool.false_ne_true, hno, skip?_append]
    rfl

/-- A table is read if each of its rows is, whatever follows. -/
theorem reads_flatMap {readRow? : List Char → Option (Row × List Char)} {write : Terminal → Lines}
    {ts : List Terminal}
    (h : ∀ t ∈ ts, ∀ rest,
      readRow? ((Lines.text (write t)).toList ++ rest) = some (.ofTerminal t, rest)) :
  Reads readRow? (Lines.text (ts.flatMap write)).toList (ts.map .ofTerminal)
  := by
  induction ts with
  | nil => exact .nil
  | cons t ts ih =>
    obtain ⟨ht, hts⟩ := List.forall_mem_cons.mp h
    have htext : (Lines.text ((t :: ts).flatMap write)).toList =
        (Lines.text (write t)).toList ++ (Lines.text (ts.flatMap write)).toList := by
      simp [Lines.text]
    rw [htext]
    exact .cons (ht _) (ih hts)

theorem toList_text (ls : Lines) :
  (Lines.text ls).toList = ls.flatMap fun l => l.toList ++ "\n".toList
  := by
  rw [Lines.text, String.toList_join, List.flatMap_map]
  simp only [String.toList_append]

/-- Reads a row of a table in Rust. -/
def Rust.readRow? (cs : List Char) : Option (Row × List Char) := do
  let cs ← skip? "            (" cs
  let cs ← skip? "TokenType::" cs
  let (name, cs) := readName cs
  let cs ← skip? ", " cs
  let (pattern, cs) ← readRaw? cs
  let cs ← skip? ", " cs
  let (ignoreCase, cs) ← readFlag? "true" "false" cs
  let cs ← skip? ")," cs
  let cs ← skip? "\n" cs
  pure (⟨name, pattern, ignoreCase⟩, cs)

theorem Rust.readRow?_patternLine {t : Terminal} (h : ',' ∉ t.name.toList) (rest : List Char) :
  readRow? ((Lines.text [patternLine t]).toList ++ rest) = some (.ofTerminal t, rest)
  := by
  have hname : ∀ cs, readName (t.name.toList ++ (", ".toList ++ cs)) =
      (t.name.toList, ", ".toList ++ cs) := fun cs => readName_append h (by simp)
  have hflag := readFlag?_append "true" "false" (by decide +kernel) (by decide +kernel)
  rw [toList_text]
  delta patternLine kindPath readRow?
  simp only [List.flatMap_cons, List.flatMap_nil, String.toList_append, List.append_assoc,
    List.append_nil]
  simp only [skip?_append, Option.bind_eq_bind, Option.bind_some, hname, readRaw?_rawString, hflag]
  rfl

/-- Reads a row of a table in C#. -/
def Csharp.readRow? (cs : List Char) : Option (Row × List Char) := do
  let cs ← skip? "            regex = new Regex(" cs
  let (pattern, cs) ← readVerbatim? cs
  let cs ← skip? ", " cs
  let (ignoreCase, cs) ← readFlag? ("RegexOptions.Compiled | RegexOptions.IgnoreCase" ++ ");")
    ("RegexOptions.Compiled" ++ ");") cs
  let cs ← skip? "\n" cs
  let cs ← skip? "            Patterns.Add(" cs
  let cs ← skip? "TokenType." cs
  let (name, cs) := readName cs
  let cs ← skip? ", regex);" cs
  let cs ← skip? "\n" cs
  let cs ← skip? "            Tokens.Add(" cs
  let cs ← skip? "TokenType." cs
  let cs ← skip? (String.ofList name) cs
  let cs ← skip? ");" cs
  let cs ← skip? "\n" cs
  let cs ← skip? "\n" cs
  pure (⟨name, pattern, ignoreCase⟩, cs)

theorem Csharp.readRow?_patternLines {t : Terminal} (h : ',' ∉ t.name.toList)
    (rest : List Char) :
  readRow? ((Lines.text (patternLines t)).toList ++ rest) = some (.ofTerminal t, rest)
  := by
  have hname : ∀ cs, readName (t.name.toList ++ (", regex);".toList ++ cs)) =
      (t.name.toList, ", regex);".toList ++ cs) := fun cs => readName_append h (by simp)
  have hpattern : ∀ cs, readVerbatim? ((verbatim t.pattern).toList ++ (", ".toList ++ cs)) =
      some (t.pattern.toList, ", ".toList ++ cs) :=
    fun cs => readVerbatim?_verbatim t.pattern (by simp)
  have hflag := readFlag?_append ("RegexOptions.Compiled | RegexOptions.IgnoreCase" ++ ");")
    ("RegexOptions.Compiled" ++ ");") (by decide +kernel) (by decide +kernel) t.ignoreCase
  have hoptions : (if t.ignoreCase then "RegexOptions.Compiled | RegexOptions.IgnoreCase" ++ ");"
      else "RegexOptions.Compiled" ++ ");") =
      (if t.ignoreCase then "RegexOptions.Compiled | RegexOptions.IgnoreCase"
        else "RegexOptions.Compiled") ++ ");" := by split <;> rfl
  rw [hoptions, String.toList_append] at hflag
  simp only [List.append_assoc] at hflag
  rw [toList_text]
  delta patternLines kindPath readRow?
  simp only [List.flatMap_cons, List.flatMap_nil, String.toList_append, List.append_assoc,
    List.append_nil]
  simp only [skip?_append, Option.bind_eq_bind, Option.bind_some, hname, hpattern, hflag,
    String.ofList_toList, String.toList_empty, List.nil_append]
  rfl

end Emission

/-! ### The patterns of a compilation -/

/-- The matcher of a terminal that a production declares was made of its pattern. -/
theorem Description.Production.compile_terminal? [Engine] {p : Production} {t : Terminal}
    (h : p.terminal? = some t) :
  Engine.anchored t.pattern t.ignoreCase = .ok t.matcher
  := by
  unfold terminal? at h
  split at h
  case h_2 => cases h
  case h_1 text _ =>
    cases hc : Engine.anchored text.value p.ignoresCase with
    | error e =>
      rw [hc] at h
      cases h
    | ok matcher =>
      rw [hc] at h
      cases h
      exact hc

/-- So was that of any terminal. -/
theorem Compilation.compile_terminal [Engine] {fs : FileSystem} {o : Options} {text file : String}
    {g : Grammar} (h : (ofText fs o text file).grammar? = some g) {t : TerminalId}
    (ht : g.Has (.terminal t)) :
  Engine.anchored (g.terminal t).pattern (g.terminal t).ignoreCase = .ok (g.terminal t).matcher
  := by
  obtain ⟨g₀, htable, -, hterminals, hhas, -⟩ := exists_table_of_grammar? h
  have hl := (htable.names _ (.terminal t)).mpr ⟨(hhas _).mp ht, rfl⟩
  rw [Grammar.terminal, hterminals, ← Grammar.terminal]
  change Engine.anchored (g₀.terminal t).core.pattern (g₀.terminal t).core.ignoreCase =
    .ok (g₀.terminal t).core.matcher
  cases hp : Description.declarer? (Description.parse text file).1.productions
      (g₀.nameOf (.terminal t)) with
  | some p =>
    obtain ⟨x, hx, hof⟩ := htable.declared _ p hp
    cases hl.symm.trans hx
    exact Description.Production.compile_terminal? hof
  | none =>
    obtain ⟨-, u, t', ⟨⟩, ht'⟩ := htable.undeclared _ _ hp hl
    obtain ⟨-, name, matcher, span, hc, hcore⟩ := htable.literals u t ht'
    rw [hcore]
    exact hc

namespace Emission

/-- A scanner has the patterns of a table, one for each row in their order. -/
def Row.Describes [Engine] (g : Grammar) (row : Row) (entry : SymbolKind × Matcher) : Prop :=
  g.kindName entry.1 = String.ofList row.name ∧
    Engine.anchored (String.ofList row.pattern) row.ignoreCase = .ok entry.2

theorem map_terminal_terminalIds (g : Grammar) :
  g.terminalIds.map g.terminal = g.terminals.toList
  := by
  apply List.ext_getElem
  · simp [Grammar.terminalIds]
  · intro k _ hk
    simp [Grammar.terminalIds, Grammar.terminal, Array.getElem?_eq_getElem hk]

theorem forall₂_describes [Engine] {g : Grammar}
    (h : ∀ t, g.Has (.terminal t) → Engine.anchored (g.terminal t).pattern
      (g.terminal t).ignoreCase = .ok (g.terminal t).matcher) :
  List.Forall₂ (Row.Describes g) (g.terminals.toList.map .ofTerminal) g.scanner.patterns
  := by
  rw [← map_terminal_terminalIds, Grammar.scanner, List.map_map, List.forall₂_map_left_iff,
    List.forall₂_map_right_iff, List.forall₂_same]
  intro t ht
  refine ⟨String.ofList_toList.symm, ?_⟩
  rw [Function.comp_apply, Row.ofTerminal, String.ofList_toList]
  exact h t (Grammar.mem_terminalIds.mp ht)

/-- A text is read again from its raw string and from its verbatim string, and no more than the
string is read.  The tables of patterns in both languages are read row by row, with the same rows
in both; and the scanner of the interpreter has a pattern for each row, of the same name, that was
made of the text and the flag in the row. -/
theorem patterns_exact [Engine] :
  (∀ (s : String) (rest : List Char),
    Rust.readRaw? ((Rust.rawString s).toList ++ rest) = some (s.toList, rest)) ∧
  (∀ (s : String) (rest : List Char), rest.head? ≠ some '"' →
    Csharp.readVerbatim? ((Csharp.verbatim s).toList ++ rest) = some (s.toList, rest)) ∧
  ∀ (fs : FileSystem) (o : Options) (text file : String) (p : Compilation.Product) (mode : Mode),
    (Compilation.ofText fs o text file).product? = some p →
    ∃ rows,
      Reads Rust.readRow? (slot .rust ⟨p.grammar, p.program, mode⟩ .patterns).toList rows ∧
      Reads Csharp.readRow? (slot .csharp ⟨p.grammar, p.program, mode⟩ .patterns).toList rows ∧
      List.Forall₂ (Row.Describes p.grammar) rows p.grammar.scanner.patterns
  := by
  refine ⟨Rust.readRaw?_rawString, fun s rest h => Csharp.readVerbatim?_verbatim s h, ?_⟩
  intro fs o text file p mode hp
  have hg : (Compilation.ofText fs o text file).grammar? = some p.grammar := by
    rw [Compilation.grammar?, hp]
    rfl
  have hname : ∀ t ∈ p.grammar.terminals.toList, ',' ∉ t.name.toList := by
    rw [← map_terminal_terminalIds, List.forall_mem_map]
    intro t ht
    apply (Compilation.isWord_nameOf hg (x := .terminal t) (Grammar.mem_terminalIds.mp ht)).not_mem
    decide
  refine ⟨_, ?_, ?_, forall₂_describes fun t ht => Compilation.compile_terminal hg ht⟩
  · have hrows := reads_flatMap fun t ht => Rust.readRow?_patternLine (hname t ht)
    rwa [← List.map_eq_flatMap] at hrows
  · exact reads_flatMap fun t ht => Csharp.readRow?_patternLines (hname t ht)

/-- Patterns with quotes and hash signs in them. -/
theorem patterns_exact_quotes :
  let c := Compilation.ofText (.bare []) ⟨⟨"."⟩, ⟨"."⟩⟩ "Start -> A B; A -> '\"#'; B -> '[\"]';" ""
  Rust.readRaw? ((Rust.rawString "\"#").toList ++ [',']) = some ("\"#".toList, [',']) ∧
    Csharp.readVerbatim? ((Csharp.verbatim "[\"]").toList ++ [',']) =
      some ("[\"]".toList, [',']) ∧
    ∃ p, c.product? = some p ∧ ∃ rows,
      Reads Rust.readRow? (slot .rust ⟨p.grammar, p.program, .release⟩ .patterns).toList rows ∧
      List.Forall₂ (Row.Describes p.grammar) rows p.grammar.scanner.patterns
  := by
  intro c
  obtain ⟨hraw, hverbatim, htables⟩ := patterns_exact
  have hproduct : c.product?.isSome := by decide +kernel
  obtain ⟨p, hp⟩ := Option.isSome_iff_exists.mp hproduct
  obtain ⟨rows, hrust, -, hdescribes⟩ := htables _ _ _ _ p .release hp
  exact ⟨hraw _ _, hverbatim _ _ (by decide), p, hp, rows, hrust, hdescribes⟩

end Emission

end Descent
