import Descent.Proofs.Markers
import Descent.Proofs.Quoting
import Descent.Template.Shipped

/-!
# Members of the enumeration of kinds

The kinds of tokens are an enumeration, in which two members belong to no symbol.  In Rust these
come with the template of the scanner, in C# they are emitted with the others.

* Members are read from the lines of a text, with the values that they are given (`readMembers?`).
  In both languages they are read in the order of their names, and in C# with the numbers from zero
  on as values (`Rust.exists_scanner_text`, `Csharp.readMembers?_kindLines`).
* The names of symbols are distinct (`nodup_symbolNames`).  Those of the members are unless a symbol
  has the name of one of the two others (`nodup_kindNames_iff`), which nothing rules out.
-/

namespace Descent

/-! ### The template of the scanner in Rust -/

namespace Template

/-- The lines of the template of the scanner in Rust before the enumeration of kinds. -/
def Rust.linesBeforeKinds : List String := [
  "// Generated by tinypg. Changes to this file are lost on regeneration.\n",
  "\n",
  "use tinypg_runtime::\x7bregex, Scanner, TokenKind\x7d;\n",
  "\n",
  "/// The kinds of tokens and parse tree nodes of the grammar.\n",
  "#[allow(non_camel_case_types)]\n",
  "#[derive(Debug, Clone, Copy, PartialEq, Eq, Hash)]\n"]

/-- The enumeration has two members before those of the slot. -/
theorem Rust.exists_render_scanner (value : Slot → String) (name : String) :
  ∃ after, (read name scanner).1.render value =
    String.join linesBeforeKinds ++ "pub enum TokenType \x7b\n" ++
      ("    _NONE_,\n" ++ "    _UNDETERMINED_,\n" ++ value .tokenType) ++ "\x7d\n" ++ after
  := by
  obtain ⟨lines, hlines⟩ : ∃ lines, scanner = String.join (linesBeforeKinds ++
      "pub enum TokenType \x7b\n" :: "    _NONE_,\n" :: "    _UNDETERMINED_,\n" ::
        "<%TokenType%>\x7d\n" :: lines) :=
    ⟨_, rfl⟩
  have hmarker : "<%TokenType%>\x7d\n" = Slot.tokenType.marker ++ "\x7d\n" := by decide +kernel
  have hbefore : '<' ∉ (String.join linesBeforeKinds).toList := by
    rw [String.toList_join, List.mem_flatMap]
    rintro ⟨l, hl, hmem⟩
    exact absurd hmem ((by decide +kernel : ∀ l ∈ linesBeforeKinds, '<' ∉ l.toList) l hl)
  refine ⟨(read name (String.join lines)).1.render value, ?_⟩
  rw [hlines, String.join_append, hmarker]
  simp only [String.join_cons, String.append_assoc]
  rw [render_read_append _ _ _ hbefore, render_read_append, render_read_append, render_read_append,
    render_read_marker_append, render_read_append]
  all_goals decide +kernel

end Template

namespace Emission

/-! ### Reading members -/

/-- A member of an enumeration, with the value that it is given, if any. -/
structure Member where
  name : List Char
  value? : Option Nat
  deriving DecidableEq, Repr

/-- Reads what stands behind the name of a member: a comma, perhaps with a value before it. -/
def readValue? : List Char → Option (Option Nat)
  | [','] => some none
  | '=' :: ' ' :: cs =>
    if cs.dropWhile Char.isDigit = [','] then
      some (some (Nat.ofDigitChars 10 (cs.takeWhile Char.isDigit) 0))
    else none
  | _ => none

/-- Leaves out the blanks at the front. -/
def dropBlanks (cs : List Char) : List Char := cs.dropWhile (· = ' ')

/-- Reads a line that declares a member. -/
def readMember? (line : List Char) : Option Member :=
  let cs := dropBlanks line
  (readValue? (dropBlanks (cs.dropWhile isWordChar))).map (⟨cs.takeWhile isWordChar, ·⟩)

/-- Whether a line has no code: it is empty or has a comment. -/
def isIdle (line : List Char) : Bool :=
  (dropBlanks line).isEmpty || ['/', '/'].isPrefixOf (dropBlanks line)

/-- Reads the members that lines declare, one in each line with code. -/
def readLines? (lines : List (List Char)) : Option (List Member) :=
  (lines.filter (!isIdle ·)).mapM readMember?

/-- Reads the members that a text declares. -/
def readMembers? (cs : List Char) : Option (List Member) := readLines? (cs.splitOn '\n')

section

variable {lines lines' : List (List Char)} {ms ms' : List Member}

theorem readLines?_append (h : readLines? lines = some ms) (h' : readLines? lines' = some ms') :
  readLines? (lines ++ lines') = some (ms ++ ms')
  := by
  unfold readLines? at h h' ⊢
  rw [List.filter_append, List.mapM_append, h, h']
  rfl

theorem readLines?_cons {line : List Char} {m : Member} (hidle : isIdle line = false)
    (hm : readMember? line = some m) (h : readLines? lines = some ms) :
  readLines? (line :: lines) = some (m :: ms)
  := by
  have hline : readLines? [line] = some [m] := by
    simp [readLines?, hidle, hm]
  exact readLines?_append hline h

/-- A text is read line by line. -/
theorem readMembers?_text {ls : Lines} (h : ∀ l ∈ ls, '\n' ∉ l.toList) :
  readMembers? (Lines.text ls).toList = readLines? (ls.map String.toList)
  := by
  have hsplit : (Lines.text ls).toList.splitOn '\n' = ls.map String.toList ++ [[]] := by
    rw [toList_text]
    induction ls with
    | nil => rfl
    | cons l ls ih =>
      obtain ⟨hl, hls⟩ := List.forall_mem_cons.mp h
      rw [List.flatMap_cons, List.append_assoc]
      exact (List.splitOn_append_cons_self_of_not_mem hl _).trans (congrArg _ (ih hls))
  rw [readMembers?, hsplit, readLines?, readLines?, List.filter_append]
  simp [isIdle, dropBlanks]

end

section

variable {cs rest : List Char}

theorem dropBlanks_append (n : Nat) (h : cs.head? ≠ some ' ') :
  dropBlanks (List.replicate n ' ' ++ cs) = cs
  := by
  have hblanks : ∀ c ∈ List.replicate n ' ', decide (c = ' ') = true :=
    fun c hc => decide_eq_true (List.eq_of_mem_replicate hc)
  have hhead : ∀ c ∈ cs.head?, decide (c = ' ') = false := by
    rintro c hc
    apply decide_eq_false
    rintro rfl
    exact h hc
  exact (takeWhile_and_dropWhile_append hblanks hhead).2

/-- A name is read at the front of a line, up to the first character that is in no name. -/
theorem readMember?_append (h : IsWord cs) (hrest : ∀ c ∈ rest.head?, isWordChar c = false)
    (indent : Nat) :
  isIdle (List.replicate indent ' ' ++ (cs ++ rest)) = false ∧
    readMember? (List.replicate indent ' ' ++ (cs ++ rest)) =
      (readValue? (dropBlanks rest)).map (⟨cs, ·⟩)
  := by
  obtain ⟨htake, hdrop⟩ := takeWhile_and_dropWhile_append h.chars hrest
  obtain ⟨c, ds, rfl⟩ := List.exists_cons_of_ne_nil h.ne_nil
  have hc : isWordChar c = true := h.chars c List.mem_cons_self
  have hblank : c ≠ ' ' := by
    rintro rfl
    exact absurd hc (by decide)
  have hslash : c ≠ '/' := by
    rintro rfl
    exact absurd hc (by decide)
  have hhead : (c :: ds ++ rest).head? ≠ some ' ' := by simpa using hblank
  have hblanks := dropBlanks_append indent hhead
  constructor
  · rw [isIdle, hblanks]
    simp [List.isPrefixOf, hslash.symm]
  · rw [readMember?, hblanks, htake, hdrop]

end

theorem readValue?_repr (n : Nat) :
  readValue? ('=' :: ' ' :: ((toString n).toList ++ [','])) = some (some n)
  := by
  have hdigits : ∀ c ∈ Nat.toDigits 10 n, c.isDigit = true :=
    fun c hc => Nat.isDigit_of_mem_toDigits (by decide) (by decide) hc
  have hcomma : ∀ c ∈ [','].head?, c.isDigit = false := by
    rintro c ⟨⟩
    rfl
  have htext : (toString n).toList = Nat.toDigits 10 n := Nat.toList_repr
  obtain ⟨htake, hdrop⟩ := takeWhile_and_dropWhile_append hdigits hcomma
  rw [readValue?, htext, htake, hdrop, if_pos rfl, Nat.ofDigitChars_ten_toDigits]

/-- A member with a value. -/
example : readMember? "    Start   = 2,".toList = some ⟨"Start".toList, some 2⟩
  := by decide +kernel

/-! ### Members in both languages -/

/-- The members of some names. -/
def membersOf (names : List String) : List Member := names.map fun name => ⟨name.toList, none⟩

/-- The members of some names that are numbered from a value on. -/
def numbered (value : Nat) (names : List String) : List Member :=
  (names.zipIdx value).map fun (name, n) => ⟨name.toList, some n⟩

theorem Rust.readLines?_map {names : List String} (h : ∀ name ∈ names, IsWord name.toList) :
  readLines? ((names.map fun name => "    " ++ name ++ ",").map String.toList) =
    some (membersOf names)
  := by
  induction names with
  | nil => rfl
  | cons name names ih =>
    obtain ⟨hname, hnames⟩ := List.forall_mem_cons.mp h
    have hline : ("    " ++ name ++ ",").toList =
        List.replicate 4 ' ' ++ (name.toList ++ [',']) := by simp
    have hcomma : ∀ c ∈ [','].head?, isWordChar c = false := by
      rintro c ⟨⟩
      decide
    obtain ⟨hidle, hmember⟩ := readMember?_append hname hcomma 4
    rw [← hline] at hidle hmember
    exact readLines?_cons hidle hmember (ih hnames)

theorem Csharp.readLines?_memberLines {names : List String}
    (h : ∀ name ∈ names, IsWord name.toList) (value : Nat) :
  readLines? ((memberLines value names).map String.toList) = some (numbered value names)
  := by
  induction names generalizing value with
  | nil => rfl
  | cons name names ih =>
    obtain ⟨hname, hnames⟩ := List.forall_mem_cons.mp h
    have hline : ("            " ++ padded name ++ "= " ++ toString value ++ ",").toList =
        List.replicate 12 ' ' ++ (name.toList ++ (List.replicate (20 - name.length) ' ' ++
          '=' :: ' ' :: ((toString value).toList ++ [',']))) := by
      simp [padded]
    have hrest : ∀ c ∈ (List.replicate (20 - name.length) ' ' ++
        '=' :: ' ' :: ((toString value).toList ++ [','])).head?, isWordChar c = false := by
      cases 20 - name.length with
      | zero => simp +decide
      | succ k => simp +decide [List.replicate_succ]
    obtain ⟨hidle, hmember⟩ := readMember?_append hname hrest 12
    rw [← hline] at hidle hmember
    rw [dropBlanks_append _ (by simp), readValue?_repr] at hmember
    exact readLines?_cons hidle hmember (ih hnames (value + 1))

theorem numbered_append (value : Nat) (names names' : List String) :
  numbered value (names ++ names') =
    numbered value names ++ numbered (value + names.length) names'
  := by
  rw [numbered, List.zipIdx_append, List.map_append]
  rfl

/-! ### Lines of members -/

theorem not_mem_toDigits (n : Nat) :
  '\n' ∉ Nat.toDigits 10 n
  := by
  intro hmem
  exact absurd (Nat.isDigit_of_mem_toDigits (by decide) (by decide) hmem) (by decide)

theorem Csharp.not_mem_memberLines {names : List String} (h : ∀ name ∈ names, IsWord name.toList)
    (value : Nat) :
  ∀ l ∈ memberLines value names, '\n' ∉ l.toList
  := by
  induction names generalizing value with
  | nil => exact List.forall_mem_nil _
  | cons name names ih =>
    obtain ⟨hname, hnames⟩ := List.forall_mem_cons.mp h
    rw [memberLines, List.forall_mem_cons]
    refine ⟨?_, ih hnames (value + 1)⟩
    have hword : '\n' ∉ name.toList := hname.not_mem (by decide)
    simp [padded, hword, not_mem_toDigits]

/-! ### The enumeration of a grammar -/

/-- The names that belong to no symbol. -/
def reservedNames : List String := ["_NONE_", "_UNDETERMINED_"]

/-- The names of the symbols of a grammar, nonterminals first. -/
def symbolNames (g : Grammar) : List String :=
  g.nonterminals.toList.map (·.name) ++ g.terminals.toList.map (·.name)

/-- The names of the kinds. -/
def kindNames (g : Grammar) : List String := reservedNames ++ symbolNames g

theorem isWord_reservedNames :
  ∀ name ∈ reservedNames, IsWord name.toList
  := by
  rw [reservedNames, List.forall_mem_cons, List.forall_mem_singleton]
  exact ⟨isWord_of_all (by decide), isWord_of_all (by decide)⟩

section

variable {c : Context}

/-- The members of the enumeration in C# are those of all names, numbered from zero on. -/
theorem Csharp.readMembers?_kindLines (h : ∀ name ∈ symbolNames c.grammar, IsWord name.toList) :
  readMembers? (Lines.text (kindLines c)).toList = some (numbered 0 (kindNames c.grammar))
  := by
  obtain ⟨hnonterminals, hterminals⟩ := List.forall_mem_append.mp h
  have hlines : ∀ l ∈ kindLines c, '\n' ∉ l.toList := by
    rw [kindLines]
    simp only [List.forall_mem_append]
    refine ⟨⟨⟨?_, not_mem_memberLines hnonterminals _⟩, ?_⟩, not_mem_memberLines hterminals _⟩
    all_goals decide +kernel
  have hreserved : readLines? ((["            //Non terminal tokens:",
      "            _NONE_  = 0,", "            _UNDETERMINED_= 1,"] : Lines).map String.toList) =
        some (numbered 0 reservedNames) := by
    decide +kernel
  have hidle : readLines? ((["", "            //Terminal tokens:"] : Lines).map String.toList) =
      some [] := by
    decide +kernel
  have hall := readLines?_append (readLines?_append (readLines?_append hreserved
    (readLines?_memberLines hnonterminals 2)) hidle)
    (readLines?_memberLines hterminals (2 + c.nonterminals.length))
  rw [readMembers?_text hlines, kindLines, kindNames, symbolNames, numbered_append,
    numbered_append, List.map_append, List.map_append, List.map_append, List.length_map]
  rw [List.append_nil] at hall
  exact hall.trans (congrArg some (List.append_assoc _ _ _))

/-- In Rust the members of the slot come behind the two of the template. -/
theorem Rust.readMembers?_memberNames (h : ∀ name ∈ symbolNames c.grammar, IsWord name.toList) :
  readMembers? ("    _NONE_,\n" ++ "    _UNDETERMINED_,\n" ++ slot c .tokenType).toList =
    some (membersOf (kindNames c.grammar))
  := by
  have hnames : ∀ name ∈ kindNames c.grammar, IsWord name.toList :=
    List.forall_mem_append.mpr ⟨isWord_reservedNames, h⟩
  have htext : "    _NONE_,\n" ++ "    _UNDETERMINED_,\n" ++ slot c .tokenType =
      Lines.text ((kindNames c.grammar).map fun name => "    " ++ name ++ ",") := by
    rw [kindNames, List.map_append, Lines.text, List.map_append, String.join_append]
    have hreserved : String.join ((reservedNames.map fun name => "    " ++ name ++ ",").map
        (· ++ "\n")) = "    _NONE_,\n" ++ "    _UNDETERMINED_,\n" := by
      decide +kernel
    rw [hreserved]
    rfl
  rw [htext, readMembers?_text, readLines?_map hnames]
  rw [List.forall_mem_map]
  intro name hname
  have hword : '\n' ∉ name.toList := (hnames name hname).not_mem (by decide)
  simp [hword]

/-- The scanner in Rust has the members of all names in its enumeration. -/
theorem Rust.exists_scanner_text (h : ∀ name ∈ symbolNames c.grammar, IsWord name.toList) :
  ∃ scanner before body after,
    (throughTemplate c .rust .scanner (Template.shipped .rust .scanner)).artifacts? =
      some [scanner] ∧
    scanner.text = before ++ "pub enum TokenType \x7b\n" ++ body ++ "\x7d\n" ++ after ∧
    readMembers? body.toList = some (membersOf (kindNames c.grammar))
  := by
  obtain ⟨after, htext⟩ := Template.Rust.exists_render_scanner (Emission.slot .rust c)
    (Artifact.Kind.scanner.templateFile .rust)
  exact ⟨_, _, _, after, rfl, htext, readMembers?_memberNames h⟩

end

/-! ### Names of symbols -/

theorem map_nonterminal_nonterminalIds (g : Grammar) :
  g.nonterminalIds.map g.nonterminal = g.nonterminals.toList
  := by
  apply List.ext_getElem
  · simp [Grammar.nonterminalIds]
  · intro k _ hk
    simp [Grammar.nonterminalIds, Grammar.nonterminal, Array.getElem?_eq_getElem hk]

/-- All symbols of a grammar, nonterminals first. -/
def symbolsOf (g : Grammar) : List Symbol :=
  g.nonterminalIds.map .nonterminal ++ g.terminalIds.map .terminal

variable {g : Grammar}

theorem mem_symbolsOf {x : Symbol} :
  x ∈ symbolsOf g ↔ g.Has x
  := by
  rw [symbolsOf, List.mem_append, List.mem_map, List.mem_map]
  constructor
  · rintro (⟨n, hn, rfl⟩ | ⟨t, ht, rfl⟩)
    · exact Grammar.mem_nonterminalIds.mp hn
    · exact Grammar.mem_terminalIds.mp ht
  · intro hx
    cases x with
    | terminal t => exact .inr ⟨t, Grammar.mem_terminalIds.mpr hx, rfl⟩
    | nonterminal n => exact .inl ⟨n, Grammar.mem_nonterminalIds.mpr hx, rfl⟩

theorem symbolNames_eq (g : Grammar) :
  symbolNames g = (symbolsOf g).map g.nameOf
  := by
  rw [symbolNames, ← map_terminal_terminalIds, ← map_nonterminal_nonterminalIds, symbolsOf]
  simp only [List.map_append, List.map_map]
  rfl

theorem nodup_symbolsOf (g : Grammar) :
  (symbolsOf g).Nodup
  := by
  rw [symbolsOf, Grammar.nonterminalIds, Grammar.terminalIds, List.map_map, List.map_map,
    List.nodup_append]
  refine ⟨List.nodup_range.map ?_, List.nodup_range.map ?_, ?_⟩
  · rintro a b ⟨⟩
    rfl
  · rintro a b ⟨⟩
    rfl
  · simp

variable {fs : FileSystem} {o : Options} {text file : String} {p : Compilation.Product}

/-- No two symbols have the same name. -/
theorem nodup_symbolNames [Engine] (h : (Compilation.ofText fs o text file).grammar? = some g) :
  (symbolNames g).Nodup
  := by
  obtain ⟨g₀, htable, -, -, hhas, hname⟩ := Compilation.exists_table_of_grammar? h
  rw [symbolNames_eq]
  refine (nodup_symbolsOf g).map_on fun x hx y hy hxy => ?_
  rw [hname] at hxy
  have hlookup := (htable.names _ x).mpr ⟨(hhas x).mp (mem_symbolsOf.mp hx), hxy⟩
  rw [(htable.names _ y).mpr ⟨(hhas y).mp (mem_symbolsOf.mp hy), rfl⟩] at hlookup
  exact (Option.some_inj.mp hlookup).symm

theorem isWord_symbolNames [Engine] (h : (Compilation.ofText fs o text file).grammar? = some g) :
  ∀ name ∈ symbolNames g, IsWord name.toList
  := by
  rw [symbolNames_eq, List.forall_mem_map]
  exact fun x hx => Compilation.isWord_nameOf h (mem_symbolsOf.mp hx)

/-- The names of the kinds are distinct if no symbol has one of the names that belong to none. -/
theorem nodup_kindNames_iff [Engine] (h : (Compilation.ofText fs o text file).grammar? = some g) :
  (kindNames g).Nodup ↔ ∀ x, g.Has x → g.nameOf x ∉ reservedNames
  := by
  have hreserved : reservedNames.Nodup := by decide
  rw [kindNames, List.nodup_append, symbolNames_eq]
  constructor
  · rintro ⟨-, -, hne⟩ x hx hmem
    exact hne _ hmem _ (List.mem_map_of_mem (mem_symbolsOf.mpr hx)) rfl
  · intro hsymbols
    refine ⟨hreserved, symbolNames_eq g ▸ nodup_symbolNames h, ?_⟩
    rintro name hname _ hmem rfl
    obtain ⟨x, hx, rfl⟩ := List.mem_map.mp hmem
    exact hsymbols x (mem_symbolsOf.mp hx) hname

theorem map_name_membersOf (names : List String) :
  (membersOf names).map Member.name = names.map String.toList
  := by
  rw [membersOf, List.map_map]
  rfl

theorem map_name_numbered (value : Nat) (names : List String) :
  (numbered value names).map Member.name = names.map String.toList
  := by
  have hfst := congrArg (List.map String.toList) (List.zipIdx_map_fst value names)
  rw [List.map_map] at hfst
  rw [numbered, List.map_map]
  exact hfst

theorem map_value_numbered (value : Nat) (names : List String) :
  (numbered value names).map Member.value? = (List.range' value names.length).map some
  := by
  rw [numbered, List.map_map, ← List.zipIdx_map_snd, List.map_map]
  rfl

/-- In both languages the members of the enumeration have the names of all kinds, and in C# they are
numbered from zero on.  The names are distinct if and only if no symbol has the name of a member
that belongs to none. -/
theorem members_exact [Engine] (h : (Compilation.ofText fs o text file).sound? = some p)
    (mode : Mode) :
  (∃ scanner before body after ms,
    (throughTemplate ⟨p.grammar, p.program, mode⟩ .rust .scanner
      (Template.shipped .rust .scanner)).artifacts? = some [scanner] ∧
    scanner.text = before ++ "pub enum TokenType \x7b\n" ++ body ++ "\x7d\n" ++ after ∧
    readMembers? body.toList = some ms ∧
    ms.map Member.name = (kindNames p.grammar).map String.toList ∧
    ((ms.map Member.name).Nodup ↔ ∀ x, p.grammar.Has x → p.grammar.nameOf x ∉ reservedNames)) ∧
  (∃ ms, readMembers? (slot .csharp ⟨p.grammar, p.program, mode⟩ .tokenType).toList = some ms ∧
    ms.map Member.name = (kindNames p.grammar).map String.toList ∧
    ms.map Member.value? = (List.range ms.length).map some ∧
    ((ms.map Member.name).Nodup ↔ ∀ x, p.grammar.Has x → p.grammar.nameOf x ∉ reservedNames))
  := by
  obtain ⟨hg, -⟩ := Compilation.program_of_sound? h
  have hwords := isWord_symbolNames hg
  have hnodup : ((kindNames p.grammar).map String.toList).Nodup ↔
      ∀ x, p.grammar.Has x → p.grammar.nameOf x ∉ reservedNames :=
    (List.nodup_map_iff fun _ _ => String.toList_inj.mp).trans (nodup_kindNames_iff hg)
  constructor
  · obtain ⟨scanner, before, body, after, hscanner, htext, hread⟩ :=
      Rust.exists_scanner_text (c := ⟨p.grammar, p.program, mode⟩) hwords
    refine ⟨scanner, before, body, after, _, hscanner, htext, hread, map_name_membersOf _, ?_⟩
    rw [map_name_membersOf]
    exact hnodup
  · refine ⟨_, Csharp.readMembers?_kindLines (c := ⟨p.grammar, p.program, mode⟩) hwords,
      map_name_numbered 0 _, ?_, ?_⟩
    · rw [map_value_numbered, List.range_eq_range', numbered, List.length_map, List.length_zipIdx]
    · rw [map_name_numbered]
      exact hnodup

/-- The compilation of a text with two literals. -/
def ofLiterals [Engine] (first second : String) : Compilation :=
  .ofText (.bare []) ⟨⟨"."⟩, ⟨"."⟩⟩ ("Start -> '" ++ first ++ "' '" ++ second ++ "';") ""

theorem exists_of_kindNames (c : Compilation) (names : List String)
    (h : (c.sound?.any fun p => kindNames p.grammar = names) = true) :
  ∃ p, c.sound? = some p ∧ kindNames p.grammar = names
  := by
  obtain ⟨p, hp, hnames⟩ := (Option.any_eq_true _ _).mp h
  exact ⟨p, hp, of_decide_eq_true hnames⟩

/-- The kinds of two letters are distinct. -/
theorem members_exact_letters :
  ∃ p ms, (ofLiterals "a" "b").sound? = some p ∧
    readMembers? (slot .csharp ⟨p.grammar, p.program, .release⟩ .tokenType).toList = some ms ∧
    ms.map Member.name =
      ["_NONE_", "_UNDETERMINED_", "Start", "A", "B"].map String.toList ∧
    ms.map Member.value? = [some 0, some 1, some 2, some 3, some 4] ∧
    (ms.map Member.name).Nodup ∧ ∀ x, p.grammar.Has x → p.grammar.nameOf x ∉ reservedNames
  := by
  obtain ⟨p, hp, hnames⟩ := exists_of_kindNames (ofLiterals "a" "b")
    ["_NONE_", "_UNDETERMINED_", "Start", "A", "B"] (by decide +kernel)
  obtain ⟨-, ms, hread, hms, hvalues, hnodup⟩ := members_exact hp .release
  rw [hnames] at hms
  have hlength : ms.length = 5 := by simpa using congrArg List.length hms
  have hdistinct : (ms.map Member.name).Nodup := by
    rw [hms]
    decide +kernel
  rw [hlength] at hvalues
  exact ⟨p, ms, hp, hread, hms, hvalues, hdistinct, hnodup.mp hdistinct⟩

/-- With a literal whose capitals are the name of another member nothing is wrong, and two members
have that name, in both languages. -/
theorem not_nodup_members :
  ∃ p, (ofLiterals "a" "_none_").sound? = some p ∧
    (∃ scanner before body after ms,
      (throughTemplate ⟨p.grammar, p.program, .release⟩ .rust .scanner
        (Template.shipped .rust .scanner)).artifacts? = some [scanner] ∧
      scanner.text = before ++ "pub enum TokenType \x7b\n" ++ body ++ "\x7d\n" ++ after ∧
      readMembers? body.toList = some ms ∧ ¬ (ms.map Member.name).Nodup) ∧
    ∃ ms, readMembers? (slot .csharp ⟨p.grammar, p.program, .release⟩ .tokenType).toList =
        some ms ∧
      ⟨"_NONE_".toList, some 0⟩ ∈ ms ∧ ⟨"_NONE_".toList, some 4⟩ ∈ ms
  := by
  obtain ⟨p, hp, hnames⟩ := exists_of_kindNames (ofLiterals "a" "_none_")
    ["_NONE_", "_UNDETERMINED_", "Start", "A", "_NONE_"] (by decide +kernel)
  have hwords := isWord_symbolNames (Compilation.program_of_sound? hp).1
  obtain ⟨scanner, before, body, after, hscanner, htext, hread⟩ :=
    Rust.exists_scanner_text (c := ⟨p.grammar, p.program, .release⟩) hwords
  have hmembers := Csharp.readMembers?_kindLines (c := ⟨p.grammar, p.program, .release⟩) hwords
  rw [hnames] at hread hmembers
  refine ⟨p, hp, ⟨scanner, before, body, after, _, hscanner, htext, hread, ?_⟩, _, hmembers, ?_, ?_⟩
  all_goals decide +kernel

end Emission

end Descent
