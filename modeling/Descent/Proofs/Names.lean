import Descent.Compilation
import Descent.Proofs.PhraseSoundness
import Descent.Proofs.Places
import Descent.Proofs.Products
import Descent.Proofs.Resolution
import Descent.Proofs.Symbols

/-!
# The form of names

The name of a symbol is that of a production or is made up from a literal text.  Either way it is a
word: it is not empty, and what it has in ASCII are letters, digits and low lines (`IsWord`).

* Capitals of a word make a word (`isWord_uppercase`), as the tables of capitals show, and so do the
  names that are made up (`isWord_underscored`).
* What is cut off as an identifier has the form of one (`Description.isIdentifier_of_isCut`).
* Declarations give no other names (`Draft.isNamed_ofDeclarations`), so that the names of a grammar
  are words (`Compilation.isWord_nameOf`).
-/

namespace Descent

/-! ### Words -/

/-- A character that is no other ASCII character than a letter, a digit or a low line. -/
def isWordChar (c : Char) : Bool := 0x80 ≤ c.toNat || ActionCode.isNameChar c

/-- A text of such characters, one at least. -/
structure IsWord (cs : List Char) : Prop where
  ne_nil : cs ≠ []
  chars : ∀ c ∈ cs, isWordChar c

theorem isWord_of_all {cs : List Char} (h : (!cs.isEmpty && cs.all isWordChar) = true) :
  IsWord cs
  := by
  rw [Bool.and_eq_true, Bool.not_eq_true', List.isEmpty_eq_false_iff, List.all_eq_true] at h
  exact ⟨h.1, h.2⟩

theorem IsWord.append {cs ds : List Char} (h : IsWord cs) (hd : ∀ c ∈ ds, isWordChar c) :
  IsWord (cs ++ ds)
  := ⟨List.append_ne_nil_of_left_ne_nil h.ne_nil ds, List.forall_mem_append.mpr ⟨h.chars, hd⟩⟩

theorem IsWord.not_mem {cs : List Char} (h : IsWord cs) {c : Char} (hc : isWordChar c = false) :
  c ∉ cs
  := by
  intro hmem
  rw [h.chars c hmem] at hc
  cases hc

/-- Only the characters of ASCII need to be looked at. -/
theorem isWordChar_of_ascii {p : Char → Bool}
    (h : ∀ n < 0x80, p (Char.ofNat n) = true → isWordChar (Char.ofNat n) = true) {c : Char}
    (hc : p c = true) :
  isWordChar c
  := by
  by_cases hascii : c.toNat < 0x80
  · have hword := h c.toNat hascii
    rw [Char.ofNat_toNat] at hword
    apply hword hc
  · rw [isWordChar, decide_eq_true (Nat.le_of_not_lt hascii), Bool.true_or]

/-- Letters and numbers of all scripts stand in words. -/
theorem isWordChar_of_continuesIdent {c : Char} (h : Description.continuesIdent c) :
  isWordChar c
  := isWordChar_of_ascii (by decide +kernel) h

/-- All characters of an identifier may go on with one. -/
theorem continuesIdent_of_isIdentifier {cs : List Char} (h : Grammar.isIdentifier cs = true) :
  ∀ c ∈ cs, Description.continuesIdent c = true
  := by
  cases cs with
  | nil => exact List.forall_mem_nil _
  | cons c cs =>
    rw [Grammar.isIdentifier, Bool.and_eq_true, List.all_eq_true] at h
    refine List.forall_mem_cons.mpr ⟨?_, h.2⟩
    unfold Description.continuesIdent Text.isAlphanumeric
    rw [Bool.or_right_comm, h.1, Bool.true_or]

theorem isWord_of_isIdentifier {cs : List Char} (h : Grammar.isIdentifier cs = true) :
  IsWord cs
  := by
  refine ⟨?_, fun c hc => isWordChar_of_continuesIdent (continuesIdent_of_isIdentifier h c hc)⟩
  rintro rfl
  cases h

/-! ### Capitals -/

theorem Text.Run.mem_images {r : Run} {c : Nat} (h : r.covers c = true) :
  r.image + (c - r.first) ∈ r.images
  := by
  simp only [covers, Bool.and_eq_true, decide_eq_true_eq, beq_iff_eq] at h
  obtain ⟨⟨hfirst, hlast⟩, hstep⟩ := h
  apply List.mem_map.mpr
  refine ⟨(c - r.first) / r.step, ?_, ?_⟩
  · rw [List.mem_range, Nat.lt_succ_iff]
    apply Nat.div_le_div_right
    omega
  · rw [Nat.div_mul_cancel (Nat.dvd_of_mod_eq_zero hstep)]

theorem mem_of_lookup {c : Nat} {ns : List Nat} {ps : List (Nat × List Nat)}
    (h : ps.lookup c = some ns) :
  (c, ns) ∈ ps
  := by
  obtain ⟨before, after, rfl, -⟩ := List.lookup_eq_some_iff.mp h
  simp

/-- The capital of a character in a word may stand in one. -/
theorem isWordChar_of_mem_capital {c d : Char} (hc : isWordChar c) (hd : d ∈ Text.capital c) :
  isWordChar d
  := by
  have hsequences : ∀ p ∈ Text.capitalSequences, ∀ n ∈ p.2, isWordChar (Char.ofNat n) = true := by
    decide +kernel
  have hruns : ∀ r ∈ Text.capitalRuns, ∀ n ∈ r.images, isWordChar (Char.ofNat n) = true := by
    decide +kernel
  unfold Text.capital at hd
  split at hd
  case h_1 ns hns =>
    obtain ⟨n, hn, rfl⟩ := List.mem_map.mp hd
    apply hsequences (c.toNat, ns) (mem_of_lookup hns) n hn
  case h_2 =>
    obtain rfl := List.mem_singleton.mp hd
    cases himage : Text.Run.image? Text.capitalRuns c.toNat with
    | none =>
      rw [Option.getD_none, Char.ofNat_toNat]
      exact hc
    | some n =>
      obtain ⟨r, hr, rfl⟩ := Option.map_eq_some_iff.mp himage
      exact hruns r (List.mem_of_find?_eq_some hr) _
        (Text.Run.mem_images (List.find?_some (p := fun r : Text.Run => r.covers c.toNat) hr))

theorem capital_ne_nil (c : Char) :
  Text.capital c ≠ []
  := by
  have hsequences : ∀ p ∈ Text.capitalSequences, p.2 ≠ [] := by decide +kernel
  unfold Text.capital
  split
  case h_1 ns hns => exact mt List.map_eq_nil_iff.mp (hsequences _ (mem_of_lookup hns))
  case h_2 => apply List.cons_ne_nil

theorem isWord_uppercase {s : String} (h : IsWord s.toList) :
  IsWord (Text.uppercase s).toList
  := by
  rw [Text.uppercase, String.toList_ofList]
  constructor
  · obtain ⟨c, hc⟩ := List.exists_mem_of_ne_nil _ h.ne_nil
    intro hnil
    exact capital_ne_nil c (List.flatMap_eq_nil_iff.mp hnil c hc)
  · intro d hd
    obtain ⟨c, hc, hd⟩ := List.mem_flatMap.mp hd
    apply isWordChar_of_mem_capital (h.chars c hc) hd

/-! ### Names of literals -/

namespace Grammar

theorem isWord_token (index : Nat) :
  IsWord s!"TOKEN{index}".toList
  := by
  have htoken : IsWord "TOKEN".toList := isWord_of_all (by decide)
  rw [String.toList_append]
  apply htoken.append
  intro c hc
  change c ∈ index.repr.toList at hc
  rw [Nat.toList_repr] at hc
  have hdigit := Nat.isDigit_of_mem_toDigits (by decide) (by decide) hc
  exact isWordChar_of_ascii (p := Char.isDigit) (by decide +kernel) hdigit

theorem isWord_of_punctuationName? {c : Char} {name : String} (h : punctuationName? c = some name) :
  IsWord name.toList
  := by
  unfold punctuationName? at h
  split at h <;> cases h
  all_goals exact isWord_of_all (by decide)

theorem isWord_literalName (text : String) (index : Nat) :
  IsWord (literalName text index).toList
  := by
  unfold literalName
  split
  case isTrue h => exact isWord_uppercase (isWord_of_isIdentifier h)
  case isFalse =>
    split
    · next c _ =>
      cases hc : punctuationName? c with
      | none => exact isWord_token index
      | some name => exact isWord_of_punctuationName? hc
    · exact isWord_token index

theorem isWord_underscored {name : String} (h : IsWord name.toList) (count : Nat) :
  IsWord (underscored name count).toList
  := by
  induction count with
  | zero => exact h
  | succ count ih =>
    rw [underscored, Function.iterate_succ_apply', String.toList_append]
    exact ih.append (List.all_eq_true.mp (by decide))

end Grammar

/-! ### Names of productions -/

namespace Description

theorem startsIdent_of_kind_extent {context : Context} {c : Char} {cs : List Char}
    (h : (extent context c cs).kind = .ident) :
  startsIdent c ∧ extent context c cs = .complete .ident (run continuesIdent cs)
  := by
  revert h
  fun_cases extent context c cs with
  | case9 => obtain h | h := kind_numberExtent cs <;> simp [h]
  | case10 _ _ _ _ _ _ _ _ hc => exact fun _ => ⟨hc, rfl⟩
  | case11 => exact fun h => absurd h (punctuation_ne c).2.1
  | _ => rintro ⟨⟩

/-- What is cut off as an identifier starts with a letter or a low line, and goes on with letters,
numbers and low lines. -/
theorem isIdentifier_of_isCut {l : Lexeme Kind} (h : IsCut l) (hk : l.kind = .ident) :
  Grammar.isIdentifier l.text.toList = true
  := by
  obtain ⟨context, c, cs, hkind, htext⟩ := h
  obtain ⟨hc, hextent⟩ := startsIdent_of_kind_extent (hkind.symm.trans hk)
  have htail : cs.take (run continuesIdent cs) = cs.takeWhile continuesIdent :=
    (List.prefix_iff_eq_take.mp (List.takeWhile_prefix continuesIdent)).symm
  rw [htext, hextent, Extent.complete, htail, Grammar.isIdentifier, Bool.and_eq_true]
  exact ⟨hc, List.all_takeWhile⟩

/-- The names of productions are identifiers. -/
theorem isIdentifier_of_parse {text file : String} (h : (parse text file).2 = []) {p : Production}
    (hp : p ∈ (parse text file).1.productions) :
  Grammar.isIdentifier p.name.value.toList = true
  := by
  have hspells := spells_of_readItems _ _ (List.append_eq_nil_iff.mp h).2
  obtain ⟨us, hus, hi⟩ := hspells.exists_of_mem _ (mem_productions.mp hp)
  cases hi with
  | production hi =>
    obtain ⟨-, hname, -⟩ := hi
    exact isIdentifier_of_isCut ((Tokens.placed_ofText text file).cut _ (hus.subset (by simp))) hname

end Description

/-! ### Names of a grammar -/

namespace Grammar

/-- A name of a production, or one that is made up from a literal text. -/
def IsNameOf (desc : Description) (name : String) : Prop :=
  name ∈ desc.productions.map (·.name.value) ∨
    ∃ text index count, name = underscored (literalName text index) count

/-- A grammar that has no other names. -/
def IsNamed (desc : Description) (g : Grammar) : Prop :=
  ∀ name x, g.lookup? name = some x → IsNameOf desc name

variable {desc : Description} {g g' : Grammar}

theorem IsNamed.of_core (h : IsNamed desc g) (hcore : g'.core = g.core) :
  IsNamed desc g'
  := by
  intro name x hx
  rw [lookup?_of_core hcore] at hx
  exact h name x hx

theorem IsNamed.insert (h : IsNamed desc g) {name : String} {x : Symbol}
    (hnames : g'.names = g.names.insert name x) (hname : IsNameOf desc name) :
  IsNamed desc g'
  := by
  intro k y hk
  rw [lookup?, hnames, lookup?_insert] at hk
  split at hk
  case isTrue heq => rwa [heq]
  case isFalse => exact h k y hk

end Grammar

namespace Draft

open Grammar (IsNamed IsNameOf)

variable {desc : Description} {d d' : Draft}

theorem isNamed_declareLiteral [Engine] (h : IsNamed desc d.grammar) (reserved : List String)
    (text : Located String) :
  IsNamed desc (d.declareLiteral reserved text).grammar
  := by
  rw [declareLiteral]
  cases hl : d.grammar.literal? text.value with
  | some t =>
    rw [Grammar.addLiteral, hl]
    exact h
  | none =>
    cases hc : Engine.anchored (Engine.escape text.value) false with
    | error e =>
      rw [Grammar.addLiteral, hl, hc]
      exact h
    | ok matcher =>
      rw [Grammar.addLiteral_eq hl hc]
      obtain ⟨count, hcount, -⟩ := d.grammar.isFirstFree_freeName text.value reserved
      exact h.insert rfl (.inr ⟨text.value, _, count, hcount⟩)

theorem Declares.isNamed [Engine] {i : Description.Item} (h : d.Declares i d') (hi : i ∈ desc.items)
    (hd : IsNamed desc d.grammar) :
  IsNamed desc d'.grammar
  := by
  have hdeclared : ∀ p, i = .production p → IsNameOf desc p.name.value := by
    rintro p rfl
    exact .inl (List.mem_map_of_mem (Description.mem_productions.mpr hi))
  cases h with
  | directive h => exact hd.of_core h.core
  | invalid => exact hd
  | @terminal p t _ ht hl h =>
    refine IsNamed.of_core (hd.insert rfl ?_) h.core
    rw [Description.Production.name_of_terminal? ht]
    exact hdeclared p rfl
  | duplicate ht hl hg h =>
    rw [← hg] at hd
    exact hd
  | @nonterminal p e _ hr hl h => exact IsNamed.of_core (hd.insert rfl (hdeclared p rfl)) h.core
  | again hr hl h => exact hd.of_core h.core
  | clash => exact hd

/-- Declarations give symbols the names of productions, and names that are made up. -/
theorem isNamed_ofDeclarations [Engine] (o : Options) (fs : FileSystem) (desc : Description) :
  IsNamed desc (ofDeclarations o fs desc).grammar
  := by
  rw [ofDeclarations, declareLiterals]
  refine List.foldlRecOn (motive := fun d : Draft => IsNamed desc d.grammar) _ _
    (List.foldlRecOn (motive := fun d : Draft => IsNamed desc d.grammar) _ _ ?_ ?_) ?_
  · rintro name x ⟨⟩
  · exact fun d hd text _ => isNamed_declareLiteral hd _ text
  · exact fun d hd i hi => (declares_declareItem d o fs i).isNamed hi hd

end Draft

namespace Compilation

variable {fs : FileSystem} {o : Options} {text file : String} {g : Grammar}

/-- Nothing is wrong with the form of a text that has a grammar. -/
theorem parse_of_grammar? [Engine] (h : (ofText fs o text file).grammar? = some g) :
  (Description.parse text file).2 = []
  := by
  unfold ofText at h
  split at h
  · cases h
  · next heq => rw [heq]

/-- The names of a grammar and what its symbols are go by its description. -/
theorem exists_table_of_grammar? [Engine] (h : (ofText fs o text file).grammar? = some g) :
  ∃ g₀, Grammar.Table (Description.parse text file).1 g₀ ∧
    Grammar.IsNamed (Description.parse text file).1 g₀ ∧
    g.terminals = g₀.terminals ∧ (∀ x, g.Has x ↔ g₀.Has x) ∧ g.nameOf = g₀.nameOf
  := by
  obtain ⟨g₁, ds, -, hg₁, rfl, -⟩ := exists_of_grammar? h
  have htable := Grammar.table_ofDeclarations o fs (Description.parse text file).1
  have hall := (Draft.filled_ofDeclarations o fs _).foldl_defineProduction htable.names
    (Description.parse text file).1.productions
  refine ⟨_, htable, Draft.isNamed_ofDeclarations o fs _, ?_⟩
  obtain ⟨-, heq⟩ | ⟨-, heq⟩ := Grammar.ofDescription_cases o fs (Description.parse text file).1
  · rw [heq] at hg₁
    cases hg₁
  · rw [heq] at hg₁
    cases hg₁
    refine ⟨?_, ?_, ?_⟩
    · rw [Grammar.terminals_prepare, hall.same.terminals]
    · intro x
      rw [Grammar.has_prepare, hall.same.has]
    · rw [Grammar.nameOf_prepare]
      funext x
      cases x with
      | terminal t => rw [Grammar.nameOf, Grammar.terminal, hall.same.terminals]; rfl
      | nonterminal n => exact hall.same.name n

/-- The names of a grammar are words. -/
theorem isWord_nameOf [Engine] (h : (ofText fs o text file).grammar? = some g) {x : Symbol}
    (hx : g.Has x) :
  IsWord (g.nameOf x).toList
  := by
  obtain ⟨g₀, htable, hnamed, -, hhas, hname⟩ := exists_table_of_grammar? h
  have hl := (htable.names _ x).mpr ⟨(hhas x).mp hx, rfl⟩
  rw [hname]
  obtain hp | ⟨t, index, count, heq⟩ := hnamed _ x hl
  · obtain ⟨p, hp, hpname⟩ := List.mem_map.mp hp
    rw [← hpname]
    exact isWord_of_isIdentifier (Description.isIdentifier_of_parse (parse_of_grammar? h) hp)
  · rw [heq]
    exact Grammar.isWord_underscored (Grammar.isWord_literalName t index) count

end Compilation

end Descent
