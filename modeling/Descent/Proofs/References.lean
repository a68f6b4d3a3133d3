import Descent.Proofs.Names

/-!
# References to the symbols of a production

Action code refers to a symbol by a dollar sign and its name.  Names are words of all scripts, but
only letters and digits of ASCII, and low lines, stand in the name of a reference.

* A word after a dollar sign is one reference, which ends with the first character that is not of
  ASCII, or none if the word starts with one (`ActionCode.pieces_dollar`,
  `ActionCode.references_dollar`).
* So the symbols of a production that can be referred to are those whose names are in ASCII
  (`Compilation.isReferable_iff`).
-/

namespace Descent

namespace ActionCode

variable {cs : List Char}

/-! ### A word after a dollar sign -/

theorem pieces_of_not_mem (h : '$' ∉ cs) :
  pieces cs = cs.map .char
  := by
  induction cs with
  | nil => rw [pieces, List.map_nil]
  | cons c cs ih =>
    obtain ⟨hc, hcs⟩ := List.ne_and_not_mem_of_not_mem_cons h
    rw [pieces, readPiece, if_neg (Ne.symm hc), Piece.text, List.length_singleton, List.drop_zero,
      ih hcs, List.map_cons]

theorem readIndex_of_head?_ne (h : cs.head? ≠ some '[') :
  readIndex cs = none
  := by
  unfold readIndex
  split
  case h_1 => exact absurd rfl h
  case h_2 => rfl

/-- The characters of a word that stand in the name of a reference to it. -/
def referred (cs : List Char) : List Char := cs.takeWhile isNameChar

/-- What a reference to a word leaves of it. -/
def unreferred (cs : List Char) : List Char := cs.dropWhile isNameChar

theorem drop_referred (cs : List Char) :
  cs.drop (referred cs).length = unreferred cs
  := by
  rw [referred, unreferred]
  nth_rewrite 2 [← List.takeWhile_append_dropWhile (p := isNameChar) (l := cs)]
  exact List.drop_left

theorem unreferred_subset (cs : List Char) :
  unreferred cs ⊆ cs
  := (List.dropWhile_sublist _).subset

theorem readReference_of_isWord (h : IsWord cs) :
  readReference cs = if referred cs = [] then none else some ⟨referred cs, none⟩
  := by
  have hindex : readIndex (unreferred cs) = none := by
    apply readIndex_of_head?_ne
    intro hhead
    exact h.not_mem (c := '[') (by decide) (unreferred_subset cs (List.mem_of_head? hhead))
  unfold readReference
  dsimp only
  rw [← referred, drop_referred, hindex]
  simp only [List.isEmpty_iff]

/-- A word after a dollar sign makes one reference at most, and no character behind it does. -/
theorem pieces_dollar (h : IsWord cs) :
  pieces ('$' :: cs) =
    (if referred cs = [] then .char '$' else .reference ⟨referred cs, none⟩) ::
      (unreferred cs).map .char
  := by
  have hrest : pieces (cs.drop (referred cs).length) = (unreferred cs).map .char := by
    rw [drop_referred]
    apply pieces_of_not_mem
    exact fun hmem => h.not_mem (by decide) (unreferred_subset cs hmem)
  rw [pieces, readPiece, if_pos rfl, readReference_of_isWord h, ← hrest]
  by_cases hnil : referred cs = []
  · rw [if_pos hnil, if_pos hnil, hnil]
    rfl
  · rw [if_neg hnil, if_neg hnil]
    dsimp only
    rw [Piece.text, Reference.text, indexText, List.append_nil, List.length_cons,
      Nat.add_sub_cancel]

theorem occurrences_map_char (offset : Nat) (cs : List Char) :
  occurrences offset (cs.map .char) = []
  := by
  induction cs generalizing offset with
  | nil => rfl
  | cons c cs ih => exact ih _

theorem namesAfter_map_char (before : List Char) (cs : List Char) :
  namesAfter before (cs.map .char) = []
  := by
  induction cs generalizing before with
  | nil => rfl
  | cons c cs ih => exact ih _

/-- The reference that a word after a dollar sign makes. -/
theorem references_dollar {name : String} (h : IsWord name.toList) :
  references ("$" ++ name) =
    if referred name.toList = [] then []
    else [⟨0, byteLength ('$' :: referred name.toList), ⟨referred name.toList, none⟩⟩]
  := by
  have htext : ("$" ++ name).toList = '$' :: name.toList := by simp
  rw [references, htext, pieces_dollar h]
  split
  · exact occurrences_map_char _ _
  · simp [occurrences, occurrences_map_char, Reference.text, indexText]

theorem namesAfter_dollar {name : String} (h : IsWord name.toList) :
  namesAfter [] (pieces ("$" ++ name).toList) =
    if referred name.toList = [] then [] else [(['$'], referred name.toList)]
  := by
  have htext : ("$" ++ name).toList = '$' :: name.toList := by simp
  rw [htext, pieces_dollar h]
  split
  · exact namesAfter_map_char _ _
  · simp [namesAfter, namesAfter_map_char]

theorem referred_eq_self_iff :
  referred cs = cs ↔ cs.all isNameChar
  := by
  rw [referred, List.takeWhile_eq_self_iff, List.all_eq_true]

end ActionCode

/-! ### Symbols of a production -/

/-- A symbol of a rule can be referred to by its name: in an action code that is a dollar sign and
the name nothing is unmatched, and there is one reference, to that name, which is all of the
code. -/
structure Grammar.IsReferable (g : Grammar) (r : Rule) (name : String) : Prop where
  matched : ∀ span, g.unmatched r ⟨"$" ++ name, span⟩ = []
  references : ActionCode.references ("$" ++ name) =
    [⟨0, byteLength ("$" ++ name).toList, ⟨name.toList, none⟩⟩]

/-- What is unmatched in a reference to a word. -/
theorem Grammar.unmatched_dollar (g : Grammar) (r : Rule) {name : String} (h : IsWord name.toList)
    (span : Span) :
  g.unmatched r ⟨"$" ++ name, span⟩ = [] ↔
    ActionCode.referred name.toList = [] ∨
      String.ofList (ActionCode.referred name.toList) ∈ r.symbols.map g.nameOf
  := by
  unfold Grammar.unmatched
  dsimp only
  rw [ActionCode.namesAfter_dollar h]
  by_cases hnil : ActionCode.referred name.toList = []
  · rw [if_pos hnil]
    simp [hnil]
  · rw [if_neg hnil, List.filterMap_cons, List.filterMap_nil]
    by_cases hmem : String.ofList (ActionCode.referred name.toList) ∈ r.symbols.map g.nameOf
    · rw [if_pos hmem]
      exact ⟨fun _ => .inr hmem, fun _ => rfl⟩
    · rw [if_neg hmem]
      exact ⟨nofun, fun hor => (hor.elim hnil hmem).elim⟩

namespace Compilation

variable {fs : FileSystem} {o : Options} {text file : String} {g : Grammar}

/-- The symbols of a production have words as names. -/
theorem isWord_of_mem_symbols [Engine] (h : (ofText fs o text file).grammar? = some g)
    {n : NonterminalId} {r : Rule} (hr : r ∈ (g.nonterminal n).alternatives) {x : Symbol}
    (hx : x ∈ r.symbols) :
  IsWord (g.nameOf x).toList
  := by
  obtain ⟨g₀, ds, hfull, hg₀, hg, -⟩ := exists_of_grammar? h
  apply isWord_nameOf h
  rw [hg, Grammar.has_prepare]
  apply (Grammar.closed_of_ofDescription hfull hg₀).rules n r _ x hx
  rw [← Grammar.productions_prepare g₀ o, ← hg]
  exact hr

/-- A symbol of a production can be referred to if its name is in ASCII.  Otherwise the reference is
to what the name begins with in ASCII, which is no symbol of the production or another one, or there
is none. -/
theorem isReferable_iff [Engine] (h : (ofText fs o text file).grammar? = some g) {n : NonterminalId}
    {r : Rule} (hr : r ∈ (g.nonterminal n).alternatives) {x : Symbol} (hx : x ∈ r.symbols) :
  let name := g.nameOf x
  let found := name.toList.takeWhile ActionCode.isNameChar
  (g.IsReferable r name ↔ name.toList.all ActionCode.isNameChar) ∧
  ActionCode.references ("$" ++ name) =
    (if found = [] then [] else [⟨0, byteLength ('$' :: found), ⟨found, none⟩⟩]) ∧
  ∀ span, g.unmatched r ⟨"$" ++ name, span⟩ = [] ↔
    found = [] ∨ String.ofList found ∈ r.symbols.map g.nameOf
  := by
  have hword := isWord_of_mem_symbols h hr hx
  have hreferences := ActionCode.references_dollar hword
  have hunmatched := fun span => g.unmatched_dollar r hword span
  refine ⟨?_, hreferences, hunmatched⟩
  rw [← ActionCode.referred_eq_self_iff]
  have hnil := hword.ne_nil
  constructor
  · intro hreferable
    have heq := hreferences.symm.trans hreferable.references
    split at heq
    · cases heq
    · exact (ActionCode.Reference.mk.inj (ActionCode.Occurrence.mk.inj (List.cons.inj heq).1).2.2).1
  · intro hall
    constructor
    · intro span
      rw [hunmatched, hall, String.ofList_toList]
      exact .inr (List.mem_map_of_mem hx)
    · rw [hreferences, hall, if_neg hnil]
      simp

/-- The compilation of a text whose production refers to a terminal, where `code` is the action code
behind it. -/
def ofItem [Engine] (name code : String) : Compilation :=
  .ofText (.bare []) ⟨⟨"."⟩, ⟨"."⟩⟩
    ("Start -> " ++ name ++ code ++ "; " ++ name ++ " -> \"x\";") ""

theorem exists_of_any (c : Compilation) (name : String)
    (h : (c.grammar?.any fun g => (g.nonterminal ⟨0⟩).alternatives.any fun r =>
      r.symbols.any fun x => g.nameOf x = name) = true) :
  ∃ g r x, c.grammar? = some g ∧ r ∈ (g.nonterminal ⟨0⟩).alternatives ∧ x ∈ r.symbols ∧
    g.nameOf x = name
  := by
  obtain ⟨g, hg, h⟩ := (Option.any_eq_true _ _).mp h
  obtain ⟨r, hr, h⟩ := List.any_eq_true.mp h
  obtain ⟨x, hx, h⟩ := List.any_eq_true.mp h
  exact ⟨g, r, x, hg, hr, hx, of_decide_eq_true h⟩

/-- A name in ASCII. -/
theorem isReferable_item :
  ∃ g r x, (ofItem "item_1" "").grammar? = some g ∧ r ∈ (g.nonterminal ⟨0⟩).alternatives ∧
    x ∈ r.symbols ∧ g.nameOf x = "item_1" ∧ g.IsReferable r "item_1"
  := by
  obtain ⟨g, r, x, hg, hr, hx, hname⟩ :=
    exists_of_any (ofItem "item_1" "") "item_1" (by decide +kernel)
  have hreferable := (isReferable_iff hg hr hx).1
  rw [hname] at hreferable
  exact ⟨g, r, x, hg, hr, hx, hname, hreferable.mpr (by decide +kernel)⟩

/-- A name with an accent: nothing is wrong with the text, but with a reference to the name in an
action code there is. -/
theorem not_isReferable_accented :
  (ofItem "aé" "").isOk ∧ (∃ g r x, (ofItem "aé" "").grammar? = some g ∧
    r ∈ (g.nonterminal ⟨0⟩).alternatives ∧ x ∈ r.symbols ∧ g.nameOf x = "aé" ∧
    ¬ g.IsReferable r (g.nameOf x)) ∧
  (ofItem "aé" " \x7b $aé \x7d").diagnostics.map (·.code) = [0x1016]
  := by
  obtain ⟨g, r, x, hg, hr, hx, hname⟩ :=
    exists_of_any (ofItem "aé" "") "aé" (by decide +kernel)
  refine ⟨by decide +kernel, ⟨g, r, x, hg, hr, hx, hname, ?_⟩, by decide +kernel⟩
  rw [hname]
  intro hreferable
  exact absurd hreferable.references (by decide +kernel)

end Compilation

end Descent
