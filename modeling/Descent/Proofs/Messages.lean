import Descent.Proofs.Products
import Descent.Proofs.Quoting

/-!
# Messages in quotes

In C# a statement that records an error has its message in a regular string, with a backslash before
each quote and each backslash.

* Messages list names of terminals (`Program.lists_lower`), and so have the end of a line only if
  one of the names has (`Emission.any_isLineEnd_message`).
* Names of terminals are names of productions or literal texts (`Draft.speaks_ofDeclarations`).  The
  former are identifiers; the latter may go over several lines.
* A text is read again from its regular string, but for the end of a line, which must not stand in
  one and is written as it is (`Csharp.readRegular?_regular`).
* Every statement that records an error has a line that does (`Csharp.shows_stmtLines`), with the
  message as a regular string (`Csharp.recordError_eq`).
-/

namespace Descent

/-! ### Statements that record errors -/

namespace Stmt

mutual

/-- The statements in a statement, itself first. -/
def parts : Stmt → List Stmt
  | expect t expected => [expect t expected]
  | call n => [call n]
  | optional ts body => optional ts body :: partsSeq body
  | loop ts body atLeastOnce => loop ts body atLeastOnce :: partsSeq body
  | dispatch ts arms expected => dispatch ts arms expected :: partsArms arms

/-- The statements in several statements. -/
def partsSeq : List Stmt → List Stmt
  | [] => []
  | s :: ss => parts s ++ partsSeq ss

/-- The statements in an arm. -/
def partsArm : Arm → List Stmt
  | .mk _ body => partsSeq body

/-- The statements in several arms. -/
def partsArms : List Arm → List Stmt
  | [] => []
  | a :: arms => partsArm a ++ partsArms arms

end

theorem partsSeq_append (ss ss' : List Stmt) :
  partsSeq (ss ++ ss') = partsSeq ss ++ partsSeq ss'
  := by
  induction ss with
  | nil => rfl
  | cons s ss ih => rw [List.cons_append, partsSeq, partsSeq, ih, List.append_assoc]

/-- An error that a statement records when none of some terminals comes. -/
structure Complaint where
  terminals : List TerminalId
  code : String
  /-- What is said to be expected. -/
  message : String
  deriving DecidableEq, Repr

/-- The error that a statement records. -/
def complaint? : Stmt → Option Complaint
  | expect t expected => some ⟨[t], "0x1001", expected⟩
  | dispatch ts _ expected => some ⟨ts, "0x0002", expected ++ "."⟩
  | call _ | optional .. | loop .. => none

end Stmt

/-! ### Messages of lowered rules -/

namespace Program

open Stmt (partsSeq partsArm partsArms)

variable {g : Grammar} {fs : FirstSets}

/-- The message of a statement, if it records an error, lists the names of its terminals. -/
def Lists (g : Grammar) (s : Stmt) : Prop :=
  ∀ c ∈ s.complaint?, ∃ ending ∈ ["", "."],
    c.message = expectedList (c.terminals.map (niceName g)) ++ ending

theorem lists_of_none {s : Stmt} (h : s.complaint? = none) :
  Lists g s
  := by
  intro c hc
  rw [h] at hc
  cases hc

theorem lists_dispatchOf {claimed : List TerminalId} {arms : List Arm}
    (h : ∀ s ∈ partsArms arms, Lists g s) :
  ∀ s ∈ partsSeq (dispatchOf g claimed arms), Lists g s
  := by
  rw [dispatchOf]
  split
  · exact List.forall_mem_nil _
  · rw [partsSeq, Stmt.parts, partsSeq, List.append_nil, List.forall_mem_cons]
    refine ⟨?_, h⟩
    rintro c ⟨⟩
    exact ⟨".", by simp, rfl⟩

theorem lists_optionalOf {ts : List TerminalId} {ss : List Stmt}
    (h : ∀ s ∈ partsSeq ss, Lists g s) :
  ∀ s ∈ partsSeq (optionalOf ts ss), Lists g s
  := by
  rw [optionalOf]
  split
  · exact List.forall_mem_nil _
  · rw [partsSeq, Stmt.parts, partsSeq, List.append_nil, List.forall_mem_cons]
    exact ⟨lists_of_none rfl, h⟩

theorem lists_loopOf {ts : List TerminalId} {ss : List Stmt} {atLeastOnce : Bool}
    (h : ∀ s ∈ partsSeq ss, Lists g s) :
  ∀ s ∈ partsSeq (loopOf ts ss atLeastOnce), Lists g s
  := by
  rw [loopOf]
  split
  · rw [partsSeq, Stmt.parts, partsSeq, List.append_nil, List.forall_mem_cons]
    exact ⟨lists_of_none rfl, h⟩
  · split
    · exact h
    · exact List.forall_mem_nil _

mutual

/-- The messages of the statements of a rule list names of terminals. -/
theorem lists_lower : ∀ r : Rule, ∀ s ∈ partsSeq (lower g fs r), Lists g s
  | .terminal _ t => by
      rw [lower, partsSeq, Stmt.parts, partsSeq, List.append_nil, List.forall_mem_singleton]
      rintro c ⟨⟩
      exact ⟨"", by simp, (String.append_empty).symm⟩
  | .nonterminal _ n => by
      rw [lower, partsSeq, Stmt.parts, partsSeq, List.append_nil, List.forall_mem_singleton]
      exact lists_of_none rfl
  | .unresolved .. => List.forall_mem_nil _
  | .concat _ rs => lists_lowerSeq rs
  | .choice _ rs => lists_dispatchOf (lists_lowerArms rs [])
  | .option _ r => lists_optionalOf (lists_lower r)
  | .zeroOrMore _ r => lists_loopOf (lists_lower r)
  | .oneOrMore _ r => lists_loopOf (lists_lower r)

theorem lists_lowerSeq : ∀ rs : List Rule, ∀ s ∈ partsSeq (lowerSeq g fs rs), Lists g s
  | [] => List.forall_mem_nil _
  | r :: rs => by
      rw [lowerSeq_cons, Stmt.partsSeq_append, List.forall_mem_append]
      exact ⟨lists_lower r, lists_lowerSeq rs⟩

theorem lists_lowerArms : ∀ (rs : List Rule) (claimed : List TerminalId),
  ∀ s ∈ partsArms (lowerArms g fs claimed rs), Lists g s
  | [], _ => List.forall_mem_nil _
  | r :: rs, claimed => by
      have hrest := lists_lowerArms rs (claimed ++ unclaimed fs claimed r)
      rw [lowerArms_cons]
      split
      · exact hrest
      · exact List.forall_mem_append.mpr ⟨lists_lower r, hrest⟩

end

theorem lists_lowerAlternatives (rs : List Rule) :
  ∀ s ∈ partsSeq (lowerAlternatives g fs rs), Lists g s
  := by
  match rs with
  | [] => exact List.forall_mem_nil _
  | [r] => exact lists_lower r
  | r :: q :: rs => exact lists_dispatchOf (lists_lowerArms (r :: q :: rs) [])

/-- So do those of the statements of a program. -/
theorem lists_of_mem_routines {r : Routine} (hr : r ∈ g.program.routines) :
  ∀ s ∈ partsSeq r.body, Lists g s
  := by
  obtain ⟨n, -, rfl⟩ := List.mem_map.mp hr
  exact lists_lowerAlternatives _

end Program

/-! ### Regular strings -/

namespace Emission

namespace Csharp

/-- A character that ends a line of C#, and so may not stand in a regular string. -/
def isLineEnd (c : Char) : Bool := c ∈ ['\n', '\r', '\u0085', '\u2028', '\u2029']

/-- What a character stands for behind a backslash.  Characters that are given by number are left
out. -/
def escape? : Char → Option Char
  | '\'' => some '\''
  | '"' => some '"'
  | '\\' => some '\\'
  | '0' => some '\x00'
  | 'a' => some '\x07'
  | 'b' => some '\x08'
  | 'f' => some '\x0C'
  | 'n' => some '\n'
  | 'r' => some '\r'
  | 't' => some '\t'
  | 'v' => some '\x0B'
  | _ => none

/-- The content of a regular string, up to the first quote without a backslash before it, and what
follows that. -/
def regularContent? : List Char → Option (List Char × List Char)
  | [] => none
  | '"' :: cs => some ([], cs)
  | '\\' :: [] => none
  | '\\' :: c :: cs => do
    let d ← escape? c
    let (content, rest) ← regularContent? cs
    pure (d :: content, rest)
  | c :: cs =>
    if isLineEnd c then none
    else (regularContent? cs).map fun (content, rest) => (c :: content, rest)

/-- Reads a regular string: its content, and what follows the string. -/
def readRegular? : List Char → Option (List Char × List Char)
  | '"' :: cs => regularContent? cs
  | _ => none

/-- A text as a regular string. -/
def regular (s : String) : String := "\"" ++ escaped s ++ "\""

theorem regularContent?_flatMap (cs rest : List Char) :
  regularContent? (cs.flatMap escapedChar ++ '"' :: rest) =
    if cs.any isLineEnd then none else some (cs, rest)
  := by
  induction cs with
  | nil => rfl
  | cons c cs ih =>
    rw [List.flatMap_cons, List.append_assoc, escapedChar, List.any_cons]
    split
    case isTrue hc =>
      have hend : isLineEnd c = false := by obtain rfl | rfl := hc <;> rfl
      have hescape : escape? c = some c := by obtain rfl | rfl := hc <;> rfl
      rw [hend, Bool.false_or, List.cons_append, List.singleton_append, regularContent?, hescape,
        ih]
      split <;> rfl
    case isFalse hc =>
      rw [not_or] at hc
      rw [List.singleton_append, regularContent?.eq_5 _ _ hc.2 (fun h _ => hc.1 h)
        (fun _ _ h _ => hc.1 h), ih]
      cases isLineEnd c
      · rw [if_neg Bool.false_ne_true, Bool.false_or]
        split <;> rfl
      · rw [if_pos rfl, Bool.true_or, if_pos rfl]

/-- A text without the end of a line is read again from its regular string.  The string of any other
text is none. -/
theorem readRegular?_regular (s : String) (rest : List Char) :
  readRegular? ((regular s).toList ++ rest) =
    if s.toList.any isLineEnd then none else some (s.toList, rest)
  := by
  have htext : (regular s).toList ++ rest =
      '"' :: (s.toList.flatMap escapedChar ++ '"' :: rest) := by
    simp [regular, escaped]
  rw [htext, readRegular?, regularContent?_flatMap]

/-! ### Statements that record errors -/

/-- What comes before the message in a statement that records an error. -/
def beforeMessage : String :=
  "tree.Errors.Add(new ParseError(\"Unexpected token '\" + tok.Text.Replace(\"\\n\", \"\") + "

/-- The message of an error. -/
def messageOf (c : Stmt.Complaint) : String := "' found. Expected " ++ c.message

theorem escaped_append (s t : String) :
  escaped (s ++ t) = escaped s ++ escaped t
  := by
  rw [escaped, String.toList_append, List.flatMap_append, String.ofList_append, ← escaped,
    ← escaped]

/-- The statement that records an error has its message as a regular string. -/
theorem recordError_eq (c : Stmt.Complaint) :
  recordError c.code c.message =
    beforeMessage ++ regular (messageOf c) ++ ", " ++ c.code ++ ", tok));"
  := by
  have hplain : escaped "' found. Expected " = "' found. Expected " := by decide +kernel
  have hopened : "\"' found. Expected " = "\"" ++ "' found. Expected " := by decide +kernel
  have hclosed : "\", " = "\"" ++ ", " := by decide +kernel
  unfold regular messageOf recordError
  rw [escaped_append, hplain, hopened, hclosed, ← beforeMessage]
  simp only [String.append_assoc]

/-- One of the lines ends with a text. -/
def Shows (ls : Lines) (text : String) : Prop := ∃ before, before ++ text ∈ ls

section

variable {ls ls' : Lines} {text : String}

theorem Shows.mono (h : Shows ls text) (hls : ls ⊆ ls') :
  Shows ls' text
  := by
  obtain ⟨before, hbefore⟩ := h
  exact ⟨before, hls hbefore⟩

theorem Shows.within (h : Shows ls text) (before after : Lines) :
  Shows (before ++ ls ++ after) text
  := h.mono (List.subset_append_of_subset_left _ (List.subset_append_right _ _))

theorem Shows.indent (h : Shows ls text) :
  Shows (Lines.indent ls) text
  := by
  obtain ⟨before, hbefore⟩ := h
  exact ⟨Lines.pad ++ before, List.mem_map.mpr ⟨_, hbefore, String.append_assoc.symm⟩⟩

theorem Shows.indentBy (h : Shows ls text) (n : Nat) :
  Shows (Lines.indentBy n ls) text
  := by
  induction n with
  | zero => exact h
  | succ n ih => exact ih.indent

/-- A line of several stands between others in their text. -/
theorem Shows.exists_toList_eq (h : Shows ls text) :
  ∃ before after, (Lines.text ls).toList = before ++ (text.toList ++ after)
  := by
  obtain ⟨before, hbefore⟩ := h
  obtain ⟨ls₁, ls₂, rfl⟩ := List.append_of_mem hbefore
  refine ⟨(Lines.text ls₁).toList ++ before.toList, "\n".toList ++ (Lines.text ls₂).toList, ?_⟩
  simp only [toList_text, List.flatMap_append, List.flatMap_cons, String.toList_append,
    List.append_assoc]

end

/-- The line that records an error. -/
def errorLine (e : Stmt.Complaint) : String := recordError e.code e.message

variable (c : Context) {e : Stmt.Complaint}

mutual

/-- Every statement that records an error has a line that does. -/
theorem shows_stmtLines : ∀ s : Stmt, ∀ t ∈ s.parts, t.complaint? = some e →
  Shows (stmtLines c s) (errorLine e)
  | .expect t expected => by
      rw [Stmt.parts, List.forall_mem_singleton]
      rintro ⟨⟩
      exact ⟨"    ", by simp [stmtLines, errorLine]⟩
  | .call n => by
      rw [Stmt.parts, List.forall_mem_singleton]
      exact nofun
  | .optional ts body => by
      rw [Stmt.parts, List.forall_mem_cons, stmtLines]
      exact ⟨nofun, fun t ht he => (shows_stmtsLines body t ht he).indent.within _ _⟩
  | .loop ts body false => by
      rw [Stmt.parts, List.forall_mem_cons, stmtLines]
      exact ⟨nofun, fun t ht he => (shows_stmtsLines body t ht he).indent.within _ _⟩
  | .loop ts body true => by
      rw [Stmt.parts, List.forall_mem_cons, stmtLines]
      exact ⟨nofun, fun t ht he => ((shows_stmtsLines body t ht he).within [] _).indent.within _ _⟩
  | .dispatch ts arms expected => by
      rw [Stmt.parts, List.forall_mem_cons]
      constructor
      · rintro ⟨⟩
        exact ⟨"        ", by simp [stmtLines, errorLine]⟩
      · rw [stmtLines]
        exact fun t ht he => (shows_armsLines arms t ht he).indent.within _ _

theorem shows_stmtsLines : ∀ ss : List Stmt, ∀ t ∈ Stmt.partsSeq ss, t.complaint? = some e →
  Shows (stmtsLines c ss) (errorLine e)
  | [] => List.forall_mem_nil _
  | s :: ss => by
      rw [Stmt.partsSeq, List.forall_mem_append]
      constructor
      · exact fun t ht he => (shows_stmtLines s t ht he).mono (List.subset_append_left _ _)
      · exact fun t ht he => (shows_stmtsLines ss t ht he).mono (List.subset_append_right _ _)

theorem shows_armLines : ∀ a : Arm, ∀ t ∈ Stmt.partsArm a, t.complaint? = some e →
  Shows (armLines c a) (errorLine e)
  | .mk ts body => by
      intro t ht he
      have hbody := (shows_stmtsLines body t ht he).within [] ["break;"]
      exact hbody.indent.mono (List.subset_append_right _ _)

theorem shows_armsLines : ∀ as : List Arm, ∀ t ∈ Stmt.partsArms as, t.complaint? = some e →
  Shows (armsLines c as) (errorLine e)
  | [] => List.forall_mem_nil _
  | a :: as => by
      rw [Stmt.partsArms, List.forall_mem_append]
      constructor
      · exact fun t ht he => (shows_armLines a t ht he).mono (List.subset_append_left _ _)
      · exact fun t ht he => (shows_armsLines as t ht he).mono (List.subset_append_right _ _)

end

/-- The message of every statement of a program stands as a regular string in the code of its
routines. -/
theorem exists_regular_of_mem {r : Routine} (hr : r ∈ c.program.routines) {s : Stmt}
    (hs : s ∈ Stmt.partsSeq r.body) (he : s.complaint? = some e) :
  ∃ before after, (slot c .routines).toList =
    before ++ beforeMessage.toList ++ ((regular (messageOf e)).toList ++
      ((", " ++ e.code ++ ", tok));").toList ++ after))
  := by
  have hroutine : Shows (routineLines c r) (errorLine e) :=
    ((shows_stmtsLines c r.body s hs he).indentBy 3).within _ _
  have hshows : Shows (c.program.routines.flatMap (routineLines c)) (errorLine e) :=
    hroutine.mono fun l hl => List.mem_flatMap.mpr ⟨r, hr, hl⟩
  obtain ⟨before, after, htext⟩ := hshows.exists_toList_eq
  refine ⟨before, after, htext.trans ?_⟩
  rw [errorLine, recordError_eq]
  simp only [String.toList_append, List.append_assoc]

end Csharp

/-! ### Names of terminals -/

open Csharp (isLineEnd)

/-- A list of names has a character if one of the names has, but for those between the names. -/
theorem any_expectedList {p : Char → Bool} (hp : [',', ' ', 'o', 'r'].any p = false)
    (names : List String) :
  (Program.expectedList names).toList.any p = names.any (·.toList.any p)
  := by
  obtain ⟨hcomma, hblank, ho, hr⟩ :
      p ',' = false ∧ p ' ' = false ∧ p 'o' = false ∧ p 'r' = false := by
    simpa using hp
  unfold Program.expectedList
  split
  case h_1 => rfl
  case h_2 a => simp
  case h_3 a b => simp [hblank, ho, hr]
  case h_4 hnil _ _ =>
    obtain ⟨before, last, rfl⟩ := (List.eq_nil_or_concat names).resolve_left hnil
    simp [String.toList_join, List.any_flatMap, Function.comp_def, hcomma, hblank, ho, hr]

/-- A message has the end of a line if the name of one of its terminals has. -/
theorem any_isLineEnd_message {g : Grammar} {s : Stmt} {e : Stmt.Complaint}
    (h : Program.Lists g s) (he : s.complaint? = some e) :
  e.message.toList.any isLineEnd =
    e.terminals.any fun t => (g.terminal t).niceName.toList.any isLineEnd
  := by
  obtain ⟨ending, hending, heq⟩ := h e he
  have hend : ending.toList.any isLineEnd = false := by
    obtain rfl | rfl : ending = "" ∨ ending = "." := by simpa using hending
    all_goals decide +kernel
  rw [heq, String.toList_append, List.any_append, hend, Bool.or_false,
    any_expectedList (by decide +kernel), List.any_map]
  rfl

end Emission

theorem Description.Production.niceName_of_terminal? [Engine] {p : Production} {t : Terminal}
    (h : p.terminal? = some t) :
  t.niceName = p.name.value
  := by
  unfold terminal? at h
  split at h
  · obtain ⟨matcher, _, rfl⟩ := Option.map_eq_some_iff.mp h
    rfl
  · cases h

namespace Draft

/-- A terminal is shown by the name of a production or by a literal text, and what is no terminal by
nothing. -/
def Speaks (desc : Description) (d : Draft) : Prop :=
  ∀ t, (d.grammar.terminal t).niceName ∈
    "" :: (desc.productions.map (·.name.value) ++ (literalsOf desc).map (·.value))

variable {desc : Description} {d d' : Draft}

theorem Speaks.of_core (h : d.Speaks desc) (hcore : d'.grammar.core = d.grammar.core) :
  d'.Speaks desc
  := by
  intro t
  change (d'.grammar.terminal t).core.niceName ∈ _
  rw [Grammar.terminal_of_core hcore]
  exact h t

/-- Adding a terminal. -/
theorem Speaks.withTerminal (h : d.Speaks desc) {t : Terminal} {g : Grammar}
    (hg : g.terminals = (d.grammar.withTerminal t).terminals)
    (ht : t.niceName ∈ desc.productions.map (·.name.value) ++ (literalsOf desc).map (·.value)) :
  (d.update fun _ => g).Speaks desc
  := by
  intro u
  change (g.terminal u).niceName ∈ _
  rw [Grammar.terminal, hg, ← Grammar.terminal, Grammar.terminal_withTerminal]
  split
  · exact List.mem_cons_of_mem _ ht
  · exact h u

/-- Every terminal is declared by a production or belongs to a literal text. -/
theorem speaks_ofDeclarations [Engine] (o : Options) (fs : FileSystem) (desc : Description) :
  (ofDeclarations o fs desc).Speaks desc
  := by
  apply ofDeclarations_induction (P := fun d => d.Speaks desc)
  · intro t
    exact List.mem_cons_self
  · intro d d' text htext hd h
    cases hd with
    | known => exact h
    | invalid => exact h
    | added =>
      refine h.withTerminal (t := .ofLiteral _ text.value _ text.span) rfl ?_
      exact List.mem_append_right _ (List.mem_map_of_mem htext)
  · intro d d' i hi hd h
    cases hd with
    | directive ha => exact h.of_core ha.core
    | invalid => exact h
    | @terminal p t _ ht _ ha =>
      refine Speaks.of_core (h.withTerminal (t := t) rfl (List.mem_append_left _ ?_)) ha.core
      rw [Description.Production.niceName_of_terminal? ht]
      exact List.mem_map_of_mem (Description.mem_productions.mpr hi)
    | duplicate _ _ hg => exact h.of_core (congrArg Grammar.core hg)
    | @nonterminal p _ _ _ _ ha =>
      have h' : (d.update (·.withNonterminal (.bare p.name.value p.name.span))).Speaks desc := h
      exact h'.of_core ha.core
    | again _ _ ha => exact h.of_core ha.core
    | clash => exact h

end Draft

namespace Emission

open Csharp (isLineEnd)

/-- An identifier has no end of a line in it. -/
theorem any_isLineEnd_of_isIdentifier {cs : List Char} (h : Grammar.isIdentifier cs = true) :
  cs.any isLineEnd = false
  := by
  have hends : ['\n', '\r', '\u0085', '\u2028', '\u2029'].any Description.continuesIdent =
      false := by
    decide +kernel
  rw [List.any_eq_false]
  intro c hc hend
  have hcontinues := continuesIdent_of_isIdentifier h c hc
  exact List.any_eq_false.mp hends c (of_decide_eq_true hend) hcontinues

variable {fs : FileSystem} {o : Options} {text file : String} {p : Compilation.Product}

/-- The name that messages have of a terminal ends no line, if no literal text does. -/
theorem any_isLineEnd_niceName [Engine] (h : (Compilation.ofText fs o text file).isOk)
    (hp : (Compilation.ofText fs o text file).grammar? = some p.grammar)
    (hliterals : ∀ literal ∈ Draft.literalsOf (Description.parse text file).1,
      literal.value.toList.any isLineEnd = false) (t : TerminalId) :
  (p.grammar.terminal t).niceName.toList.any isLineEnd = false
  := by
  have hg := (Compilation.grammar?_of_isOk h).1
  rw [hp, Option.some_inj] at hg
  have hfilled := (Draft.filled_ofDeclarations o fs (Description.parse text file).1)
    |>.foldl_defineProduction (Grammar.table_ofDeclarations o fs _).names
      (Description.parse text file).1.productions
  have hspeaks := Draft.speaks_ofDeclarations o fs (Description.parse text file).1 t
  rw [Grammar.terminal, ← hfilled.same.terminals, ← Grammar.terminals_prepare _ o, ← hg,
    ← Grammar.terminal, List.mem_cons, List.mem_append] at hspeaks
  obtain hempty | hname | hliteral := hspeaks
  · rw [hempty]
    rfl
  · obtain ⟨q, hq, heq⟩ := List.mem_map.mp hname
    rw [← heq]
    exact any_isLineEnd_of_isIdentifier
      (Description.isIdentifier_of_parse (Compilation.parse_of_grammar? hp) hq)
  · obtain ⟨literal, hmem, heq⟩ := List.mem_map.mp hliteral
    rw [← heq]
    exact hliterals literal hmem

/-- The message of every statement of a program that records an error stands in a regular string,
from which it is read again, if it has no end of a line; otherwise the string is none.  It has one
if the name of one of its terminals has, and so it has none if no literal text of the description
does. -/
theorem messages_exact [Engine] (h : (Compilation.ofText fs o text file).sound? = some p)
    (hl : p.grammar.directives.targetLanguage = .csharp) (mode : Mode) {r : Routine}
    (hr : r ∈ p.program.routines) {s : Stmt} (hs : s ∈ Stmt.partsSeq r.body) {e : Stmt.Complaint}
    (he : s.complaint? = some e) :
  (∃ before literal after,
    (slot p.grammar.directives.targetLanguage ⟨p.grammar, p.program, mode⟩ .routines).toList =
        before ++ Csharp.beforeMessage.toList ++
          (literal ++ ((", " ++ e.code ++ ", tok));").toList ++ after)) ∧
      Csharp.readRegular? (literal ++ ((", " ++ e.code ++ ", tok));").toList ++ after)) =
        if e.message.toList.any isLineEnd then none
        else some ((Csharp.messageOf e).toList, (", " ++ e.code ++ ", tok));").toList ++ after)) ∧
  (e.message.toList.any isLineEnd ↔
    ∃ t ∈ e.terminals, (p.grammar.terminal t).niceName.toList.any isLineEnd) ∧
  ((∀ literal ∈ Draft.literalsOf (Description.parse text file).1,
    literal.value.toList.any isLineEnd = false) → e.message.toList.any isLineEnd = false)
  := by
  have hok : (Compilation.ofText fs o text file).isOk := by
    rw [Compilation.isOk, h]
    rfl
  obtain ⟨hg, hprogram⟩ := Compilation.program_of_sound? h
  obtain ⟨before, after, htext⟩ :=
    Csharp.exists_regular_of_mem ⟨p.grammar, p.program, mode⟩ hr hs he
  have hmessage : (Csharp.messageOf e).toList.any isLineEnd = e.message.toList.any isLineEnd := by
    have hprefix : "' found. Expected ".toList.any isLineEnd = false := by decide +kernel
    unfold Csharp.messageOf
    rw [String.toList_append, List.any_append, hprefix, Bool.false_or]
  have hlists := any_isLineEnd_message (Program.lists_of_mem_routines (hprogram ▸ hr) s hs) he
  refine ⟨⟨before, (Csharp.regular (Csharp.messageOf e)).toList, after, ?_, ?_⟩, ?_, ?_⟩
  · rw [hl]
    exact htext
  · rw [Csharp.readRegular?_regular, hmessage]
  · rw [hlists, List.any_eq_true]
  · intro hliterals
    rw [hlists, List.any_eq_false]
    intro t _
    rw [any_isLineEnd_niceName hok hg hliterals t]
    exact Bool.false_ne_true

/-- The compilation to C# of a text with a literal, as it is written between quotes. -/
def ofLiteral [Engine] (literal : String) : Compilation :=
  .ofText (.bare []) ⟨⟨"."⟩, ⟨"."⟩⟩
    ("@TinyPG \x7b Language = \"C#\"; \x7d Start -> '" ++ literal ++ "' 'c';") ""

theorem exists_complaint (c : Compilation) (message : String)
    (h : (c.sound?.any fun p => p.grammar.directives.targetLanguage = .csharp ∧
      p.program.routines.any fun r => (Stmt.partsSeq r.body).any fun s =>
        s.complaint?.any fun e => e.message = message) = true) :
  ∃ p r s e, c.sound? = some p ∧ p.grammar.directives.targetLanguage = .csharp ∧
    r ∈ p.program.routines ∧ s ∈ Stmt.partsSeq r.body ∧ s.complaint? = some e ∧
    e.message = message
  := by
  obtain ⟨p, hp, h⟩ := (Option.any_eq_true _ _).mp h
  obtain ⟨hl, h⟩ := of_decide_eq_true h
  obtain ⟨r, hr, h⟩ := List.any_eq_true.mp h
  obtain ⟨s, hs, h⟩ := List.any_eq_true.mp h
  obtain ⟨e, he, h⟩ := (Option.any_eq_true _ _).mp h
  exact ⟨p, r, s, e, hp, hl, hr, hs, he, of_decide_eq_true h⟩

/-- A literal of a quote and two backslashes is read again. -/
theorem messages_exact_quote :
  ∃ p r s e, (ofLiteral "\"\\\\").sound? = some p ∧
    p.grammar.directives.targetLanguage = .csharp ∧ r ∈ p.program.routines ∧
    s ∈ Stmt.partsSeq r.body ∧ s.complaint? = some e ∧ e.message = "\"\\\\" ∧
    ∃ before literal after, (slot .csharp ⟨p.grammar, p.program, .release⟩ .routines).toList =
        before ++ Csharp.beforeMessage.toList ++ (literal ++ after) ∧
      Csharp.readRegular? (literal ++ after) =
        some ("' found. Expected \"\\\\".toList, after)
  := by
  obtain ⟨p, r, s, e, hp, hl, hr, hs, he, hmessage⟩ :=
    exists_complaint (ofLiteral "\"\\\\") "\"\\\\" (by decide +kernel)
  obtain ⟨⟨before, literal, after, htext, hread⟩, -⟩ := messages_exact hp hl .release hr hs he
  have hend : ¬ "\"\\\\".toList.any Csharp.isLineEnd := by decide +kernel
  have hvalue : Csharp.messageOf e = "' found. Expected \"\\\\" := by
    unfold Csharp.messageOf
    rw [hmessage]
    decide +kernel
  rw [hl] at htext
  rw [hmessage, if_neg hend, hvalue] at hread
  exact ⟨p, r, s, e, hp, hl, hr, hs, he, hmessage, before, literal, _, htext, hread⟩

/-- With a literal of two lines nothing is wrong, and the end of the first line stands between the
quotes of the message. -/
theorem not_messages_exact_lines :
  ∃ p r s e, (ofLiteral "a\nb").sound? = some p ∧
    p.grammar.directives.targetLanguage = .csharp ∧ r ∈ p.program.routines ∧
    s ∈ Stmt.partsSeq r.body ∧ s.complaint? = some e ∧ e.message = "a\nb" ∧
    ∃ before after, (slot .csharp ⟨p.grammar, p.program, .release⟩ .routines).toList =
        before ++ Csharp.beforeMessage.toList ++
          ("\"' found. Expected a\nb\"".toList ++ after) ∧
      Csharp.readRegular? ("\"' found. Expected a\nb\"".toList ++ after) = none
  := by
  obtain ⟨p, r, s, e, hp, hl, hr, hs, he, hmessage⟩ :=
    exists_complaint (ofLiteral "a\nb") "a\nb" (by decide +kernel)
  obtain ⟨before, after, htext⟩ :=
    Csharp.exists_regular_of_mem ⟨p.grammar, p.program, .release⟩ hr hs he
  have hliteral : Csharp.regular (Csharp.messageOf e) = "\"' found. Expected a\nb\"" := by
    unfold Csharp.messageOf
    rw [hmessage]
    decide +kernel
  rw [hliteral] at htext
  refine ⟨p, r, s, e, hp, hl, hr, hs, he, hmessage, before, _, htext, ?_⟩
  have hend : (Csharp.messageOf e).toList.any Csharp.isLineEnd := by
    unfold Csharp.messageOf
    rw [hmessage]
    decide +kernel
  rw [← hliteral, Csharp.readRegular?_regular, if_pos hend]

end Emission

end Descent
