import Mathlib.Algebra.Group.Nat.Even
import Mathlib.Data.List.DropRight
import Descent.Proofs.Lexing

/-!
# What strings stand for

A text is written between quotes by putting a backslash before each quote in it (`quoted`).  As a
backslash also stands for itself, and two of them for two, this can be read again only if the
backslashes before each quote, and those at the end, are even in number (`IsWritable`).

* The body of a string stands for such a text and for no other (`stringBody_escape`,
  `stringBody_closed`).
* A string that is cut off is one that closes its body, or what it leaves open is reported
  (`Tokens.reportsLeft_ofRest`).
* So the strings of descriptions are the writable texts between quotes (`Tokens.strings_exact`).
-/

namespace Descent.Description

/-! ### Writable texts -/

/-- How many backslashes stand at the end of a text. -/
def backslashesAtEnd (cs : List Char) : Nat := (cs.rtakeWhile (· = '\\')).length

/-- What comes before another character does not count. -/
theorem backslashesAtEnd_append_cons {c : Char} (hc : c ≠ '\\') (u v : List Char) :
  backslashesAtEnd (u ++ c :: v) = backslashesAtEnd v
  := by
  unfold backslashesAtEnd
  induction v using List.reverseRecOn with
  | nil => simp [hc]
  | append_singleton v d ih =>
    rw [← List.cons_append, ← List.append_assoc, List.rtakeWhile_concat, List.rtakeWhile_concat]
    split
    · rw [List.length_append, ih, List.length_append]
    · rfl

theorem even_backslashesAtEnd_pair (v : List Char) :
  Even (backslashesAtEnd ('\\' :: '\\' :: v)) ↔ Even (backslashesAtEnd v)
  := by
  unfold backslashesAtEnd
  induction v using List.reverseRecOn with
  | nil => decide
  | append_singleton v d ih =>
    rw [← List.cons_append, ← List.cons_append, List.rtakeWhile_concat, List.rtakeWhile_concat]
    split
    · simp only [List.length_append, List.length_singleton, Nat.even_add_one, ih]
    · rfl

/-- The texts that can be written between quotes: the backslashes before each quote, and those at
the end, are even in number. -/
def IsWritable (quote : Char) (cs : List Char) : Prop :=
  ∀ k ≤ cs.length, (k = cs.length ∨ cs[k]? = some quote) → Even (backslashesAtEnd (cs.take k))

instance decidableIsWritable (quote : Char) (cs : List Char) : Decidable (IsWritable quote cs) :=
  inferInstanceAs (Decidable (∀ k ≤ cs.length, _ → _))

section

variable {quote c : Char} {cs : List Char}

theorem isWritable_nil (quote : Char) :
  IsWritable quote []
  := by
  intro k _ _
  rw [List.take_nil]
  decide

theorem isWritable_cons (hc : c ≠ '\\') :
  IsWritable quote (c :: cs) ↔ IsWritable quote cs
  := by
  have htake : ∀ k, backslashesAtEnd ((c :: cs).take (k + 1)) = backslashesAtEnd (cs.take k) :=
    fun k => backslashesAtEnd_append_cons hc [] (cs.take k)
  constructor
  · intro h k hk hplace
    rw [← htake]
    apply h (k + 1) (Nat.succ_le_succ hk) (by simpa using hplace)
  · rintro h (_ | k) hk hplace
    · exact ⟨0, rfl⟩
    · rw [htake]
      apply h k (Nat.le_of_succ_le_succ hk) (by simpa using hplace)

/-- Two backslashes count for nothing. -/
theorem isWritable_pair (hq : quote ≠ '\\') :
  IsWritable quote ('\\' :: '\\' :: cs) ↔ IsWritable quote cs
  := by
  have htake : ∀ k, Even (backslashesAtEnd (('\\' :: '\\' :: cs).take (k + 2))) ↔
      Even (backslashesAtEnd (cs.take k)) :=
    fun k => even_backslashesAtEnd_pair (cs.take k)
  constructor
  · intro h k hk hplace
    rw [← htake]
    apply h (k + 2) (Nat.succ_le_succ (Nat.succ_le_succ hk)) (by simpa using hplace)
  · rintro h (_ | _ | k) hk hplace
    · exact ⟨0, rfl⟩
    · simp [hq.symm] at hplace
    · rw [htake]
      apply h k (Nat.le_of_succ_le_succ (Nat.le_of_succ_le_succ hk)) (by simpa using hplace)

/-- A backslash before what is neither a backslash nor a quote counts for nothing. -/
theorem isWritable_lone (hc : c ≠ '\\') (hcq : c ≠ quote) :
  IsWritable quote ('\\' :: c :: cs) ↔ IsWritable quote (c :: cs)
  := by
  have htake : ∀ k, backslashesAtEnd (('\\' :: c :: cs).take (k + 2)) =
      backslashesAtEnd (cs.take k) :=
    fun k => backslashesAtEnd_append_cons hc ['\\'] (cs.take k)
  rw [isWritable_cons hc]
  constructor
  · intro h k hk hplace
    rw [← htake]
    apply h (k + 2) (Nat.succ_le_succ (Nat.succ_le_succ hk)) (by simpa using hplace)
  · rintro h (_ | _ | k) hk hplace
    · exact ⟨0, rfl⟩
    · simp [hcq] at hplace
    · rw [htake]
      apply h k (Nat.le_of_succ_le_succ (Nat.le_of_succ_le_succ hk)) (by simpa using hplace)

/-- A single backslash stands neither at the end nor before a quote. -/
theorem not_isWritable_backslash (h : cs = [] ∨ cs.head? = some quote) :
  ¬ IsWritable quote ('\\' :: cs)
  := by
  intro hw
  have heven := hw 1 (by simp) (by cases cs <;> simp_all)
  rw [List.take_succ_cons, List.take_zero] at heven
  revert heven
  decide

end

/-! ### Bodies -/

/-- A text with a backslash before each quote in it. -/
def escape (quote : Char) (cs : List Char) : List Char :=
  cs.flatMap fun c => if c = quote then ['\\', c] else [c]

/-- A text between quotes. -/
def quoted (quote : Char) (cs : List Char) : List Char := quote :: (escape quote cs ++ [quote])

section

variable {quote c : Char}

theorem escape_cons_quote (quote : Char) (cs : List Char) :
  escape quote (quote :: cs) = '\\' :: quote :: escape quote cs
  := by simp [escape]

theorem escape_cons (hc : c ≠ quote) (cs : List Char) :
  escape quote (c :: cs) = c :: escape quote cs
  := by simp [escape, hc]

theorem stringBody_quote (quote : Char) (cs : List Char) :
  stringBody quote (quote :: cs) = ⟨1, [], true⟩
  := by
  rw [stringBody.eq_def]
  exact if_pos rfl

/-- What begins with another character than a backslash or a quote stands for itself. -/
theorem stringBody_cons (hc : c ≠ '\\') (hcq : c ≠ quote) (cs : List Char) :
  stringBody quote (c :: cs) = (stringBody quote cs).prepend 1 [c]
  := by
  rw [stringBody.eq_def]
  simp [hc, hcq]

theorem stringBody_escaped (hq : quote ≠ '\\') (cs : List Char) :
  stringBody quote ('\\' :: quote :: cs) = (stringBody quote cs).prepend 2 [quote]
  := by
  rw [stringBody.eq_def]
  simp [hq.symm]

theorem stringBody_pair (hq : quote ≠ '\\') (cs : List Char) :
  stringBody quote ('\\' :: '\\' :: cs) = (stringBody quote cs).prepend 2 ['\\', '\\']
  := by
  rw [stringBody.eq_def]
  simp [hq.symm]

theorem stringBody_lone (hc : c ≠ '\\') (hcq : c ≠ quote) (hq : quote ≠ '\\') (cs : List Char) :
  stringBody quote ('\\' :: c :: cs) = (stringBody quote (c :: cs)).prepend 1 ['\\']
  := by
  rw [stringBody.eq_def]
  simp [hc, hcq, hq.symm]

/-- A writable text is read again when it is written between quotes. -/
theorem stringBody_escape (hq : quote ≠ '\\') (rest : List Char) : ∀ cs, IsWritable quote cs →
  stringBody quote (escape quote cs ++ quote :: rest) = ⟨(escape quote cs).length + 1, cs, true⟩
  | [], _ => stringBody_quote quote rest
  | c :: cs, h => by
      by_cases hc : c = '\\'
      case neg =>
        have ih := stringBody_escape hq rest cs ((isWritable_cons hc).mp h)
        by_cases hcq : c = quote
        · rw [hcq, escape_cons_quote, List.cons_append, List.cons_append, stringBody_escaped hq, ih,
            Body.prepend, List.length_cons, List.length_cons, Nat.add_comm 2]
          rfl
        · rw [escape_cons hcq, List.cons_append, stringBody_cons hc hcq, ih, Body.prepend,
            List.length_cons, Nat.add_comm 1]
          rfl
      case pos =>
        subst hc
        rw [escape_cons hq.symm]
        match cs, h with
        | [], h => exact absurd h (not_isWritable_backslash (.inl rfl))
        | d :: ds, h =>
          by_cases hd : d = '\\'
          · have ih := stringBody_escape hq rest ds ((isWritable_pair hq).mp (hd ▸ h))
            rw [hd, escape_cons hq.symm, List.cons_append, List.cons_append, stringBody_pair hq, ih,
              Body.prepend, List.length_cons, List.length_cons, Nat.add_comm 2]
            rfl
          · have hdq : d ≠ quote := by
              rintro rfl
              exact not_isWritable_backslash (.inr rfl) h
            have ih := stringBody_escape hq rest (d :: ds) ((isWritable_lone hd hdq).mp h)
            rw [escape_cons hdq, List.cons_append] at ih
            rw [escape_cons hdq, List.cons_append, List.cons_append, stringBody_lone hd hdq hq, ih,
              Body.prepend, List.length_cons, Nat.add_comm 1]
            rfl

/-- A body stands for a writable text, which is written before a quote at the front of `cs`. -/
structure Body.IsOf (quote : Char) (cs : List Char) (b : Body) : Prop where
  writable : IsWritable quote b.text
  written : ∃ rest, cs = escape quote b.text ++ quote :: rest
  length : b.length = (escape quote b.text).length + 1

theorem Body.IsOf.prepend {quote : Char} {cs : List Char} {b : Body} (h : b.IsOf quote cs)
    (text : List Char) (hw : IsWritable quote (text ++ b.text)) :
  (b.prepend (escape quote text).length text).IsOf quote (escape quote text ++ cs)
  := by
  have happend : escape quote (text ++ b.text) = escape quote text ++ escape quote b.text :=
    List.flatMap_append
  obtain ⟨-, ⟨rest, rfl⟩, hlength⟩ := h
  constructor
  case writable => exact hw
  case written => exact ⟨rest, by rw [Body.prepend, happend, List.append_assoc]⟩
  case length => rw [Body.prepend, hlength, happend, List.length_append, Nat.add_assoc]

/-- A body that is closed is that of a writable text. -/
theorem stringBody_closed (hq : quote ≠ '\\') (cs : List Char)
    (h : (stringBody quote cs).closed) :
  (stringBody quote cs).IsOf quote cs
  := by
  have hbackslash : escape quote ['\\'] = ['\\'] := escape_cons hq.symm []
  induction cs using stringBody.induct quote with
  | case1 => cases h
  | case2 cs =>
    rw [stringBody_quote]
    exact ⟨isWritable_nil quote, ⟨cs, rfl⟩, rfl⟩
  | case3 =>
    rw [stringBody.eq_def] at h
    simp [hq.symm] at h
  | case4 cs _ ih =>
    rw [stringBody_escaped hq] at h ⊢
    have ih := ih h
    have := ih.prepend [quote] ((isWritable_cons hq).mpr ih.writable)
    rwa [escape_cons_quote] at this
  | case5 cs _ _ ih =>
    rw [stringBody_pair hq] at h ⊢
    have ih := ih h
    have := ih.prepend ['\\', '\\'] ((isWritable_pair hq).mpr ih.writable)
    rwa [escape_cons hq.symm, hbackslash] at this
  | case6 c cs hcq hc _ ih =>
    rw [stringBody_lone hc hcq hq] at h ⊢
    have ih := ih h
    rw [stringBody_cons hc hcq] at ih ⊢
    have := ih.prepend ['\\'] ((isWritable_lone hc hcq).mpr ih.writable)
    rwa [hbackslash] at this
  | case7 c cs hcq hc ih =>
    rw [stringBody_cons hc hcq] at h ⊢
    have ih := ih h
    have := ih.prepend [c] ((isWritable_cons hc).mpr ih.writable)
    rwa [escape_cons hcq] at this

end

/-! ### Strings that are cut off -/

/-- The characters between which strings stand. -/
def IsQuote (c : Char) : Prop := c = '"' ∨ c = '\''

theorem IsQuote.ne_backslash {quote : Char} (hq : IsQuote quote) :
  quote ≠ '\\'
  := by obtain rfl | rfl := hq <;> decide

/-- The lexeme that starts with a quote is a string. -/
theorem extent_quote (context : Context) {quote : Char} (hq : IsQuote quote) (cs : List Char) :
  extent context quote cs =
    ⟨.str (String.ofList (stringBody quote cs).text), (stringBody quote cs).length,
      (stringBody quote cs).left .string⟩
  := by obtain rfl | rfl := hq <;> rfl

/-- Only what starts with a quote is a string. -/
theorem isQuote_of_kind_extent {context : Context} {c : Char} {cs : List Char} {value : String}
    (h : (extent context c cs).kind = .str value) :
  IsQuote c
  := by
  revert h
  fun_cases extent context c cs with
  | case5 _ _ _ _ hc => exact fun _ => hc
  | case9 => obtain h | h := kind_numberExtent cs <;> simp [h]
  | case11 => exact fun h => absurd h ((punctuation_ne c).2.2.2 value)
  | _ => rintro ⟨⟩

namespace Tokens

/-- A string between quotes is cut off at the front of a text. -/
theorem ofRest_quoted {quote : Char} {cs : List Char} (hq : IsQuote quote)
    (hw : IsWritable quote cs) (file : String) (context : Context) (p : Position)
    (skipped : List (Lexeme Kind)) (rest : List Char) :
  let after := ofRest file .plain (p.advance (quoted quote cs)) [] rest
  ofRest file context p skipped (quoted quote cs ++ rest) =
    { after with
      tokens :=
        { kind := .str (String.ofList cs)
          span := .ofPosition file p (byteLength (quoted quote cs))
          text := String.ofList (quoted quote cs)
          skipped } :: after.tokens }
  := by
  intro after
  have hnext : context.next (.str (String.ofList cs)) = .plain := by cases context <;> rfl
  have hbody := stringBody_escape hq.ne_backslash rest cs hw
  have htake : (escape quote cs ++ quote :: rest).take ((escape quote cs).length + 1) =
      escape quote cs ++ [quote] := List.take_length_add_append 1
  have hdrop : (escape quote cs ++ quote :: rest).drop ((escape quote cs).length + 1) = rest :=
    List.drop_length_add_append 1
  rw [quoted, List.cons_append, List.append_assoc, List.singleton_append, ofRest]
  simp only [extent_quote context hq, hbody, htake, hdrop, hnext]
  rfl

/-- A token of which nothing is reported to be left open. -/
def Terminates (ts : Tokens) (t : Token) : Prop :=
  ∀ what, (Problem.unterminated what).located t.span ∉ ts.diagnostics

/-- Every token is cut off at the front of some text, and what it leaves open is reported. -/
def ReportsLeft (ts : Tokens) : Prop :=
  ∀ t ∈ ts.tokens, ∃ context c cs, t.kind = (extent context c cs).kind ∧
    t.text.toList = c :: cs.take (extent context c cs).tail ∧
    ∀ what ∈ (extent context c cs).unterminated,
      (Problem.unterminated what).located t.span ∈ ts.diagnostics

theorem reportsLeft_ofRest (file : String) (context : Context) (p : Position)
    (skipped : List (Lexeme Kind)) (cs : List Char) :
  (ofRest file context p skipped cs).ReportsLeft
  := by
  fun_induction ofRest file context p skipped cs with
  | case1 => exact List.forall_mem_nil _
  | case2 context p skipped c cs e text span lexeme left hk after ih =>
    intro t ht
    obtain ⟨context', d, ds, hkind, htext, hleft⟩ := ih t ht
    exact ⟨context', d, ds, hkind, htext, fun what hw => List.mem_append_right _ (hleft what hw)⟩
  | case3 context p skipped c cs e text span lexeme left hk after ih =>
    intro t ht
    obtain rfl | ht := List.mem_cons.mp ht
    · refine ⟨context, c, cs, rfl, String.toList_ofList, fun what hw => ?_⟩
      apply List.mem_append_left
      apply List.mem_map_of_mem (Option.mem_toList.mpr hw)
    · obtain ⟨context', d, ds, hkind, htext, hleft⟩ := ih t ht
      exact ⟨context', d, ds, hkind, htext, fun what hw => List.mem_append_right _ (hleft what hw)⟩

/-- A string that is not left open is a writable text between quotes. -/
theorem exists_quoted_of_terminates {text file value : String} {t : Token}
    (ht : t ∈ (ofText text file).tokens) (hk : t.kind = .str value)
    (hterminates : (ofText text file).Terminates t) :
  ∃ quote, IsQuote quote ∧ IsWritable quote value.toList ∧
    t.text.toList = quoted quote value.toList
  := by
  obtain ⟨context, quote, ds, hkind, htext, hleft⟩ := reportsLeft_ofRest _ _ _ _ _ t ht
  have hq := isQuote_of_kind_extent (hkind.symm.trans hk)
  rw [extent_quote context hq] at hkind htext hleft
  rw [hk, Kind.str.injEq] at hkind
  have hclosed : (stringBody quote ds).closed := by
    by_contra hopen
    apply hterminates .string
    apply hleft
    rw [Body.left, if_neg hopen]
    apply Option.mem_some_self
  obtain ⟨hw, ⟨rest, hds⟩, hlength⟩ := stringBody_closed hq.ne_backslash ds hclosed
  have hvalue : (stringBody quote ds).text = value.toList := by rw [hkind, String.toList_ofList]
  have htail : ds.take (stringBody quote ds).length = escape quote value.toList ++ [quote] := by
    rw [hvalue] at hds hlength
    rw [hlength, hds]
    apply List.take_length_add_append 1
  exact ⟨quote, hq, hvalue ▸ hw, by rw [htext, quoted, ← htail]⟩

/-- A string between quotes makes one token, which stands for it. -/
theorem ofText_quoted {quote : Char} {cs : List Char} (hq : IsQuote quote)
    (hw : IsWritable quote cs) (file : String) :
  ofText (String.ofList (quoted quote cs)) file =
    { tokens :=
        [{ kind := .str (String.ofList cs)
           span := .ofPosition file .start (byteLength (quoted quote cs))
           text := String.ofList (quoted quote cs)
           skipped := [] }]
      eof :=
        { kind := .eof
          span := .ofPosition file (Position.start.advance (quoted quote cs)) 0
          text := "EOF"
          skipped := [] }
      diagnostics := [] }
  := by
  have h := ofRest_quoted hq hw file .plain .start [] []
  rw [List.append_nil] at h
  rw [ofText, String.toList_ofList, h, ofRest]

/-- The strings of descriptions are the writable texts between quotes.  A writable text between
quotes makes one token, which stands for it and has nothing wrong with it; every string that is not
left open is of this kind, wherever it stands; and so what strings with a quote can stand for is
just what is writable with it. -/
theorem strings_exact :
  (∀ quote cs file, IsQuote quote → IsWritable quote cs →
    ofText (String.ofList (quoted quote cs)) file =
      { tokens :=
          [{ kind := .str (String.ofList cs)
             span := .ofPosition file .start (byteLength (quoted quote cs))
             text := String.ofList (quoted quote cs)
             skipped := [] }]
        eof :=
          { kind := .eof
            span := .ofPosition file (Position.start.advance (quoted quote cs)) 0
            text := "EOF"
            skipped := [] }
        diagnostics := [] }) ∧
    (∀ text file value, ∀ t ∈ (ofText text file).tokens, t.kind = .str value →
      (ofText text file).Terminates t → ∃ quote, IsQuote quote ∧
        IsWritable quote value.toList ∧ t.text.toList = quoted quote value.toList) ∧
    ∀ quote value, IsQuote quote → (IsWritable quote value.toList ↔
      ∃ text file, ∃ t ∈ (ofText text file).tokens, t.kind = .str value ∧
        (ofText text file).Terminates t ∧ t.text.toList.head? = some quote)
  := by
  refine ⟨fun quote cs file hq hw => ofText_quoted hq hw file,
    fun text file value t => exists_quoted_of_terminates, ?_⟩
  intro quote value hq
  constructor
  · intro hw
    have htext := ofText_quoted hq hw ""
    refine ⟨_, "", _, by rw [htext]; apply List.mem_singleton_self, ?_, ?_, ?_⟩
    · rw [String.ofList_toList]
    · rw [Terminates, htext]
      exact fun _ => List.not_mem_nil
    · rw [String.toList_ofList]
      rfl
  · rintro ⟨text, file, t, ht, hk, hterminates, hhead⟩
    obtain ⟨quote', -, hw, htext⟩ := exists_quoted_of_terminates ht hk hterminates
    rw [htext, quoted, List.head?_cons, Option.some_inj] at hhead
    rwa [← hhead]

/-- A backslash before a letter, two before a quote: the text is written between quotes and read
again, and a string elsewhere stands for a writable text. -/
theorem strings_exact_backslashes :
  let cs := "\\d\\\\'".toList
  let elsewhere := ofText "A -> \"\\s\\\"\";" ""
  (IsQuote '\'' ∧ IsWritable '\'' cs ∧ quoted '\'' cs = "'\\d\\\\\\''".toList ∧
      (ofText (String.ofList (quoted '\'' cs)) "").tokens.map (·.kind) = [.str (String.ofList cs)]) ∧
    ¬ IsWritable '\'' "\\'".toList ∧
    ∃ t ∈ elsewhere.tokens, t.kind = .str "\\s\"" ∧ elsewhere.Terminates t ∧
      ∃ quote, IsQuote quote ∧ IsWritable quote "\\s\"".toList ∧
        t.text.toList = quoted quote "\\s\"".toList
  := by
  intro cs elsewhere
  have hq : IsQuote '\'' := .inr rfl
  have hw : IsWritable '\'' cs := by decide
  refine ⟨⟨hq, hw, by decide, ?_⟩, by decide, ?_⟩
  · rw [strings_exact.1 '\'' cs "" hq hw]
    rfl
  · let t : Token := ⟨⟨.str "\\s\"", ⟨"", 5, 11, 1, 6⟩, "\"\\s\\\"\""⟩,
      [⟨.whitespace, ⟨"", 4, 5, 1, 5⟩, " "⟩]⟩
    have ht : t ∈ elsewhere.tokens := by decide +kernel
    have hdiagnostics : elsewhere.diagnostics = [] := by decide +kernel
    have hterminates : elsewhere.Terminates t := by
      intro what
      rw [hdiagnostics]
      apply List.not_mem_nil
    exact ⟨t, ht, rfl, hterminates, strings_exact.2.1 _ _ _ t ht rfl hterminates⟩

end Tokens

end Descent.Description
