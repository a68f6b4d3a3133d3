import Descent.Proofs.Agreement
import Descent.Proofs.Yield
import Mathlib.Data.List.Infix

/-!
# Parses end

A run ends on erroneous inputs, too, if no terminal matches the empty text, by induction on how much
of the input is left.

* A statement has a way to its end (`Interpreter.Ends`) along which nothing is selected, and no call
  is made forever.  The derivation of a word of terminals gives such a way.
* Whatever a look ahead selects consumes the token that selected it (`Interpreter.Guarded`), so that
  less of the input is left after it.
* So there is a run of all statements from every state (`Interpreter.IsProductive.exists_runs`), and
  with enough fuel every parse gives a tree (`Interpreter.parse?_terminates`).
-/

namespace Descent

/-! ### Tokens use up the text -/

/-- No pattern finds an empty match anywhere in a text. -/
def Scanner.Consumes {κ : Type} (s : Scanner κ) (input : List Char) : Prop :=
  ∀ p ∈ s.patterns, ∀ rest, rest <:+ input → p.2.find rest ≠ some 0

namespace Scanner

variable {κ : Type} [DecidableEq κ] [TokenKind κ] {s : Scanner κ} {input : List Char}
  {expected : List κ} {c : Cursor} {st : State κ}

/-- Where the text goes on after a token: if it is determined, some of the text was used up. -/
structure UsesUp (c : Cursor) (p : Token κ × Cursor) : Prop where
  suffix : p.2.rest <:+ c.rest
  lt : p.1.kind ≠ TokenKind.undetermined → p.2.rest.length < c.rest.length

omit [TokenKind κ] in
theorem pos_of_select_of_consumes (hs : s.Consumes input) (hc : c.rest <:+ input) {kind : κ}
    {count : Nat} (h : s.select expected c.rest = some (kind, count)) :
  0 < count
  := by
  obtain ⟨p, hp, -, hm⟩ := exists_of_select h
  apply Nat.pos_of_ne_zero
  rintro rfl
  apply hs p hp c.rest hc (find_of_match? hm)

theorem usesUp_next (hs : s.Consumes input) (expected : List κ) (c : Cursor)
    (hc : c.rest <:+ input) :
  UsesUp c (s.next expected c)
  := by
  fun_induction next s expected c with
  | case1 c _ => exact ⟨List.suffix_rfl, fun h => absurd rfl h⟩
  | case2 c kind count hsel hk token after hn ih =>
    have hrest := rest_afterSkipped s c kind count
    obtain ⟨ha, hlt⟩ := ih (hrest ▸ (List.drop_suffix count c.rest).trans hc)
    rw [hn, hrest] at ha hlt
    rw [List.length_drop] at hlt
    refine ⟨ha.trans (List.drop_suffix count c.rest), ?_⟩
    intro hdet
    have hlt : after.rest.length < c.rest.length - count := hlt hdet
    apply Nat.lt_of_lt_of_le hlt (Nat.sub_le _ _)
  | case3 c kind count hsel hk =>
    refine ⟨List.drop_suffix count c.rest, fun _ => ?_⟩
    have hpos := pos_of_select_of_consumes hs hc hsel
    have hle := le_of_select hsel
    rw [Cursor.rest_advance, List.length_drop]
    omega

/-- A state within a text, in which what was seen ahead uses up some of it if it is determined. -/
structure State.Within (input : List Char) (st : State κ) : Prop where
  rest : st.cursor.rest <:+ input
  ahead : ∀ p ∈ st.ahead, UsesUp st.cursor p

theorem State.Within.upcoming (h : State.Within input st) (hs : s.Consumes input)
    (expected : List κ) :
  UsesUp st.cursor (s.upcoming st expected)
  := by
  obtain hu | ⟨p, hp, _, hu⟩ := s.upcoming_cases st expected
  · rw [hu]
    apply usesUp_next hs expected _ h.rest
  · rw [hu]
    apply h.ahead p hp

end Scanner

namespace Interpreter

open Program

variable {i : Interpreter} {input : List Char} {s s' there : State} {node place : NodeId}
  {ss body rest : List Stmt} {x : Stmt} {t : TerminalId}

/-! ### Runs use up the text -/

/-- How much of the text is left. -/
def State.remaining (s : State) : Nat := s.scanner.cursor.rest.length

/-- A later state within a text. -/
structure State.Precedes (input : List Char) (s s' : State) : Prop where
  within : s'.scanner.Within input
  le : s'.remaining ≤ s.remaining

/-- A state that precedes others whenever it is within a text precedes them after another one. -/
theorem State.Precedes.trans (h : s.Precedes input s')
    (h' : s'.scanner.Within input → s'.Precedes input there) :
  s.Precedes input there
  := ⟨(h' h.within).within, (h' h.within).le.trans h.le⟩

/-- Only the scanner matters. -/
theorem State.precedes_of_eq (hw : s.scanner.Within input) (h : s'.scanner = s.scanner) :
  s.Precedes input s'
  := ⟨h ▸ hw, by rw [remaining, remaining, h]⟩

theorem State.precedes_leave (hw : s.scanner.Within input) (node child : NodeId) (ok : Bool) :
  s.Precedes input (if ok then s.leave node child else s)
  := by cases ok <;> exact precedes_of_eq hw rfl

section

variable (hs : i.grammar.scanner.Consumes input)
include hs

theorem State.precedes_lookAhead (hw : s.scanner.Within input) (ts : List TerminalId) :
  s.Precedes input (s.lookAhead i ts).2
  := by
  refine ⟨⟨hw.rest, ?_⟩, Nat.le_refl _⟩
  rintro _ ⟨⟩
  apply hw.upcoming hs

theorem State.precedes_consume (hw : s.scanner.Within input) (node : NodeId) (t : TerminalId) :
  s.Precedes input (s.consume i node t).2
  := by
  have hup := hw.upcoming hs [.terminal t]
  refine ⟨⟨hup.suffix.trans hw.rest, ?_⟩, hup.suffix.length_le⟩
  rintro _ ⟨⟩

/-- A token that was expected uses up some of the text. -/
theorem State.remaining_consume_lt (hw : s.scanner.Within input) (node : NodeId)
    (hk : (s.consume i node t).1.kind = .terminal t) :
  (s.consume i node t).2.remaining < s.remaining
  := by
  apply (hw.upcoming hs [.terminal t]).lt
  change (s.consume i node t).1.kind ≠ _
  rw [hk]
  rintro ⟨⟩

theorem Runs.precedes {r : Result} (h : Runs i ss node s r) (hw : s.scanner.Within input) :
  s.Precedes input r.2
  := by
  induction h with
  | done node s => exact State.precedes_of_eq hw rfl
  | expect _ _ ih => apply (State.precedes_consume hs hw _ _).trans ih
  | @reject t _ _ node s _ =>
    apply (State.precedes_consume hs hw node t).trans
    exact fun hw => State.precedes_of_eq hw rfl
  | skip _ _ ih => apply ih hw
  | @call _ _ node s _ _ routine ok _ _ _ ihbody ih =>
    have henter : s.Precedes input (s.enter node routine).2 := State.precedes_of_eq hw rfl
    apply henter.trans
    intro hw
    apply (ihbody hw).trans
    intro hw
    apply (State.precedes_leave hw node _ ok).trans ih
  | take _ _ ih => apply (State.precedes_lookAhead hs hw _).trans ih
  | pass _ _ ih => apply (State.precedes_lookAhead hs hw _).trans ih
  | once _ ih => apply ih hw
  | again _ _ ih => apply (State.precedes_lookAhead hs hw _).trans ih
  | stop _ _ ih => apply (State.precedes_lookAhead hs hw _).trans ih
  | select _ _ ih => apply (State.precedes_lookAhead hs hw _).trans ih
  | noArm _ =>
    apply (State.precedes_lookAhead hs hw _).trans
    exact fun hw => State.precedes_of_eq hw rfl

end

/-! ### Statements with a way to their end -/

/-- A statement that ends as long as no token selects one of its bodies: the calls that are made
without looking ahead end after finitely many others. -/
inductive Ends (i : Interpreter) : Stmt → Prop
  | expect (t : TerminalId) (expected : String) : Ends i (.expect t expected)
  | skip {n : NonterminalId} (hn : i.program.routine? n = none) : Ends i (.call n)
  | call {n : NonterminalId} {routine : Routine} (hn : i.program.routine? n = some routine)
      (h : ∀ x ∈ routine.body, Ends i x) : Ends i (.call n)
  | optional (ts : List TerminalId) (body : List Stmt) : Ends i (.optional ts body)
  | loop (ts : List TerminalId) {body : List Stmt} {atLeastOnce : Bool}
      (h : atLeastOnce → ∀ x ∈ body, Ends i x) : Ends i (.loop ts body atLeastOnce)
  | dispatch (ts : List TerminalId) (arms : List Arm) (expected : String) :
      Ends i (.dispatch ts arms expected)

/-- A statement in which every token that selects a body is taken by it. -/
inductive Guarded (i : Interpreter) : Stmt → Prop
  | expect (t : TerminalId) (expected : String) : Guarded i (.expect t expected)
  | call (n : NonterminalId) : Guarded i (.call n)
  | optional {ts : List TerminalId} {body : List Stmt} (ht : ∀ t ∈ ts, i.Takes t body)
      (h : ∀ x ∈ body, Guarded i x) : Guarded i (.optional ts body)
  | loop {ts : List TerminalId} {body : List Stmt} (atLeastOnce : Bool)
      (ht : ∀ t ∈ ts, i.Takes t body) (h : ∀ x ∈ body, Guarded i x) :
      Guarded i (.loop ts body atLeastOnce)
  | dispatch (ts : List TerminalId) {arms : List Arm} (expected : String)
      (ht : ∀ a ∈ arms, ∀ t ∈ a.terminals, i.Takes t a.body)
      (h : ∀ a ∈ arms, ∀ x ∈ a.body, Guarded i x) : Guarded i (.dispatch ts arms expected)

/-- What a look ahead selects is guarded, together with what comes after it. -/
theorem guarded_append {a b : List Stmt} (ha : ∀ x ∈ a, i.Guarded x) (hb : ∀ x ∈ b, i.Guarded x) :
  ∀ x ∈ a ++ b, i.Guarded x
  := List.forall_mem_append.mpr ⟨ha, hb⟩

theorem Guarded.body_of_optional {ts : List TerminalId} (h : i.Guarded (.optional ts body)) :
  ∀ x ∈ body, i.Guarded x
  := by
  cases h with
  | optional _ h => apply h

/-- The body of a repetition is guarded, and so are its further rounds. -/
theorem Guarded.rounds {ts : List TerminalId} {atLeastOnce : Bool}
    (h : i.Guarded (.loop ts body atLeastOnce)) (hrest : ∀ x ∈ rest, i.Guarded x) :
  ∀ x ∈ body ++ .loop ts body false :: rest, i.Guarded x
  := by
  cases h with
  | loop _ ht h => exact guarded_append h (List.forall_mem_cons.mpr ⟨.loop false ht h, hrest⟩)

theorem Guarded.body_of_dispatch {ts : List TerminalId} {arms : List Arm} {expected : String}
    {a : Arm} (h : i.Guarded (.dispatch ts arms expected)) (ha : a ∈ arms) :
  ∀ x ∈ a.body, i.Guarded x
  := by
  cases h with
  | dispatch _ _ _ h => apply h a ha

/-- Routines in which all statements have a way to their end, and every token that selects a body is
taken by it. -/
structure IsProductive (i : Interpreter) : Prop where
  ends : ∀ x, i.Ends x
  guarded : ∀ {n routine}, i.program.routine? n = some routine → ∀ x ∈ routine.body, i.Guarded x

/-! ### Runs end -/

/-- From all states with at most so much of the text left there are runs. -/
def Halts (i : Interpreter) (input : List Char) (n : Nat) (ss : List Stmt) : Prop :=
  ∀ (node : NodeId) (s : State), s.scanner.Within input → s.remaining ≤ n → ∃ r, Runs i ss node s r

/-- From all states with less of the text left there are runs of guarded statements. -/
def HaltsBelow (i : Interpreter) (input : List Char) (n : Nat) : Prop :=
  ∀ (ss : List Stmt) (node : NodeId) (s : State), (∀ x ∈ ss, i.Guarded x) →
    s.scanner.Within input → s.remaining < n → ∃ r, Runs i ss node s r

section

variable {n : Nat} (hs : i.grammar.scanner.Consumes input) (hn : i.HaltsBelow input n)
include hs hn

theorem exists_runs_expect (expected : String)
    (hk : (s.consume i node t).1.kind = .terminal t) (hg : ∀ x ∈ rest, i.Guarded x)
    (hw : s.scanner.Within input) (hle : s.remaining ≤ n) :
  ∃ r, Runs i (.expect t expected :: rest) node s r ∧ r.2.remaining < n
  := by
  have hlt := State.remaining_consume_lt hs hw node hk
  have hw := (State.precedes_consume hs hw node t).within
  obtain ⟨r, hr⟩ := hn rest node _ hg hw (by omega)
  have hle := (hr.precedes hs hw).le
  exact ⟨r, .expect hk hr, by omega⟩

/-- Guarded statements that come to a place where a token is consumed have a run if there are runs
from where on less of the text is left. -/
theorem ComesTo.exists_runs_lt (hi : i.IsProductive) (h : ComesTo i t place there ss node s)
    (hk : (there.consume i place t).1.kind = .terminal t) (hg : ∀ x ∈ ss, i.Guarded x)
    (hw : s.scanner.Within input) (hle : s.remaining ≤ n) :
  ∃ r, Runs i ss node s r ∧ r.2.remaining < n
  := by
  induction h with
  | here => apply exists_runs_expect hs hn _ hk (List.forall_mem_cons.mp hg).2 hw hle
  | expect hk' _ _ => apply exists_runs_expect hs hn _ hk' (List.forall_mem_cons.mp hg).2 hw hle
  | skip hc _ ih =>
    obtain ⟨r, hr, hlt⟩ := ih (List.forall_mem_cons.mp hg).2 hw hle
    exact ⟨r, .skip hc hr, hlt⟩
  | @enter _ rest node s routine hc _ ih =>
    have hwe : (s.enter node routine).2.scanner.Within input := hw
    obtain ⟨⟨ok, s₁⟩, hbody, hlt⟩ := ih (hi.guarded hc) hwe hle
    -- The token was consumed in the body, so what comes after the call starts with less left.
    have hleave := State.precedes_leave (hbody.precedes hs hwe).within node
      (s.enter node routine).1 ok
    have hlt₁ := hleave.le.trans_lt hlt
    obtain ⟨r, hr⟩ := hn rest node _ (List.forall_mem_cons.mp hg).2 hleave.within hlt₁
    exact ⟨r, .call hc hbody hr, (hr.precedes hs hleave.within).le.trans_lt hlt₁⟩
  | @leave _ rest node s s₁ routine ok hc hbody _ ih =>
    have hwe : (s.enter node routine).2.scanner.Within input := hw
    have h₁ := hbody.precedes hs hwe
    have hleave := State.precedes_leave h₁.within node (s.enter node routine).1 ok
    obtain ⟨r, hr, hlt⟩ := ih (List.forall_mem_cons.mp hg).2 hleave.within
      (hleave.le.trans (h₁.le.trans hle))
    exact ⟨r, .call hc hbody hr, hlt⟩
  | @take ts _ _ _ _ hc _ ih =>
    obtain ⟨hx, hrest⟩ := List.forall_mem_cons.mp hg
    have hp := State.precedes_lookAhead hs hw ts
    obtain ⟨r, hr, hlt⟩ := ih (guarded_append hx.body_of_optional hrest) hp.within
      (hp.le.trans hle)
    exact ⟨r, .take hc hr, hlt⟩
  | @pass ts _ _ _ _ hc _ ih =>
    have hp := State.precedes_lookAhead hs hw ts
    obtain ⟨r, hr, hlt⟩ := ih (List.forall_mem_cons.mp hg).2 hp.within (hp.le.trans hle)
    exact ⟨r, .pass hc hr, hlt⟩
  | once _ ih =>
    obtain ⟨hx, hrest⟩ := List.forall_mem_cons.mp hg
    obtain ⟨r, hr, hlt⟩ := ih (hx.rounds hrest) hw hle
    exact ⟨r, .once hr, hlt⟩
  | @again ts _ _ _ _ hc _ ih =>
    obtain ⟨hx, hrest⟩ := List.forall_mem_cons.mp hg
    have hp := State.precedes_lookAhead hs hw ts
    obtain ⟨r, hr, hlt⟩ := ih (hx.rounds hrest) hp.within (hp.le.trans hle)
    exact ⟨r, .again hc hr, hlt⟩
  | @stop ts _ _ _ _ hc _ ih =>
    have hp := State.precedes_lookAhead hs hw ts
    obtain ⟨r, hr, hlt⟩ := ih (List.forall_mem_cons.mp hg).2 hp.within (hp.le.trans hle)
    exact ⟨r, .stop hc hr, hlt⟩
  | @select ts _ _ _ _ _ a hc _ ih =>
    obtain ⟨hx, hrest⟩ := List.forall_mem_cons.mp hg
    have hp := State.precedes_lookAhead hs hw ts
    have hbody := hx.body_of_dispatch (List.mem_of_find?_eq_some hc)
    obtain ⟨r, hr, hlt⟩ := ih (guarded_append hbody hrest) hp.within (hp.le.trans hle)
    exact ⟨r, .select hc hr, hlt⟩

/-- A body that a token selects has a run, together with what comes after it. -/
theorem exists_runs_of_isOneOf (hi : i.IsProductive) {ts us : List TerminalId}
    (hk : isOneOf (s.lookAhead i us).1 ts) (ht : ∀ t ∈ ts, i.Takes t body)
    (hg : ∀ x ∈ body ++ rest, i.Guarded x) (hw : s.scanner.Within input) (hle : s.remaining ≤ n)
    (node : NodeId) :
  ∃ r, Runs i (body ++ rest) node (s.lookAhead i us).2 r
  := by
  obtain ⟨t, htm, hkind⟩ : ∃ t ∈ ts, (s.lookAhead i us).1.kind = .terminal t := by
    unfold isOneOf at hk
    split at hk
    · next t hkind => exact ⟨t, of_decide_eq_true hk, hkind⟩
    · cases hk
  have hahead : i.grammar.scanner.upcoming s.scanner (us.map .terminal) ∈
      (s.lookAhead i us).2.scanner.ahead := rfl
  obtain ⟨place, there, hc, hkeeps⟩ := ht t htm node _ ⟨_, hahead, hkind⟩
  rw [← hkeeps.scanner] at hahead
  have hconsume : (there.consume i place t).1.kind = .terminal t := by
    rw [State.consume_of_ahead hahead hkind]
    apply hkind
  have hp := State.precedes_lookAhead hs hw us
  obtain ⟨r, hr, -⟩ := (hc.append rest).exists_runs_lt hs hn hi hconsume hg hp.within
    (hp.le.trans hle)
  exact ⟨r, hr⟩

theorem halts_expect (expected : String) (hg : ∀ x ∈ rest, i.Guarded x) :
  i.Halts input n (.expect t expected :: rest)
  := by
  intro node s hw hle
  by_cases hk : (s.consume i node t).1.kind = .terminal t
  · obtain ⟨r, hr, -⟩ := exists_runs_expect hs hn expected hk hg hw hle
    exact ⟨r, hr⟩
  · exact ⟨_, .reject hk⟩

theorem halts_optional (hi : i.IsProductive) {ts : List TerminalId}
    (hx : i.Guarded (.optional ts body)) (hg : ∀ x ∈ rest, i.Guarded x)
    (hrest : i.Halts input n rest) :
  i.Halts input n (.optional ts body :: rest)
  := by
  intro node s hw hle
  have hp := State.precedes_lookAhead hs hw ts
  by_cases hk : isOneOf (s.lookAhead i ts).1 ts
  · cases hx with
    | optional ht hb =>
      obtain ⟨r, hr⟩ := exists_runs_of_isOneOf hs hn hi hk ht (guarded_append hb hg) hw hle node
      exact ⟨r, .take hk hr⟩
  · obtain ⟨r, hr⟩ := hrest node _ hp.within (hp.le.trans hle)
    exact ⟨r, .pass hk hr⟩

theorem halts_further_rounds (hi : i.IsProductive) {ts : List TerminalId}
    (hx : i.Guarded (.loop ts body false)) (hg : ∀ x ∈ rest, i.Guarded x)
    (hrest : i.Halts input n rest) :
  i.Halts input n (.loop ts body false :: rest)
  := by
  intro node s hw hle
  have hp := State.precedes_lookAhead hs hw ts
  by_cases hk : isOneOf (s.lookAhead i ts).1 ts
  · have hg := hx.rounds hg
    cases hx with
    | loop _ ht _ =>
      obtain ⟨r, hr⟩ := exists_runs_of_isOneOf hs hn hi hk ht hg hw hle node
      exact ⟨r, .again hk hr⟩
  · obtain ⟨r, hr⟩ := hrest node _ hp.within (hp.le.trans hle)
    exact ⟨r, .stop hk hr⟩

theorem halts_dispatch (hi : i.IsProductive) {ts : List TerminalId} {arms : List Arm}
    {expected : String} (hx : i.Guarded (.dispatch ts arms expected))
    (hg : ∀ x ∈ rest, i.Guarded x) :
  i.Halts input n (.dispatch ts arms expected :: rest)
  := by
  intro node s hw hle
  cases ha : arms.find? (fun a => isOneOf (s.lookAhead i ts).1 a.terminals) with
  | none => exact ⟨_, .noArm ha⟩
  | some a =>
    have ham := List.mem_of_find?_eq_some ha
    cases hx with
    | dispatch _ _ ht hb =>
      obtain ⟨r, hr⟩ := exists_runs_of_isOneOf hs hn hi (List.find?_some ha :) (ht a ham)
        (guarded_append (hb a ham) hg) hw hle node
      exact ⟨r, .select ha hr⟩

end

/-- A call halts if the routine does and what comes after the call. -/
theorem Halts.call {n : Nat} {m : NonterminalId} {routine : Routine}
    (hs : i.grammar.scanner.Consumes input) (hc : i.program.routine? m = some routine)
    (hbody : i.Halts input n routine.body) (hrest : i.Halts input n rest) :
  i.Halts input n (.call m :: rest)
  := by
  intro node s hw hle
  have hwe : (s.enter node routine).2.scanner.Within input := hw
  obtain ⟨⟨ok, s₁⟩, hr₁⟩ := hbody (s.enter node routine).1 _ hwe hle
  have h₁ := hr₁.precedes hs hwe
  have hleave := State.precedes_leave h₁.within node (s.enter node routine).1 ok
  obtain ⟨r, hr⟩ := hrest node _ hleave.within (hleave.le.trans (h₁.le.trans hle))
  exact ⟨r, .call hc hr₁ hr⟩

/-- Statements halt together with what comes after them if each of them does. -/
theorem halts_append {n : Nat} (h : ∀ x ∈ ss, ∀ {rest : List Stmt}, (∀ x ∈ rest, i.Guarded x) →
      i.Halts input n rest → i.Halts input n (x :: rest))
    (hss : ∀ x ∈ ss, i.Guarded x) (hg : ∀ x ∈ rest, i.Guarded x) (hrest : i.Halts input n rest) :
  i.Halts input n (ss ++ rest)
  := by
  induction ss with
  | nil => apply hrest
  | cons x ss ih =>
    obtain ⟨hx, hxs⟩ := List.forall_mem_cons.mp h
    obtain ⟨_, hss⟩ := List.forall_mem_cons.mp hss
    apply hx (guarded_append hss hg) (ih hxs hss)

/-- In particular they halt with nothing after them. -/
theorem halts_of_each {n : Nat} (h : ∀ x ∈ ss, ∀ {rest : List Stmt}, (∀ x ∈ rest, i.Guarded x) →
      i.Halts input n rest → i.Halts input n (x :: rest))
    (hss : ∀ x ∈ ss, i.Guarded x) :
  i.Halts input n ss
  := by
  rw [← List.append_nil ss]
  apply halts_append h hss (List.forall_mem_nil _)
  exact fun node s _ _ => ⟨_, .done node s⟩

section

variable {n : Nat} (hs : i.grammar.scanner.Consumes input) (hn : i.HaltsBelow input n)
include hs hn

/-- A guarded statement halts before statements that do: it ends, or a token is consumed. -/
theorem Ends.halts (hi : i.IsProductive) (h : i.Ends x) (hx : i.Guarded x) :
    ∀ {rest : List Stmt}, (∀ x ∈ rest, i.Guarded x) → i.Halts input n rest →
  i.Halts input n (x :: rest)
  := by
  induction h with
  | expect t expected =>
    intro rest hg _
    apply halts_expect hs hn expected hg
  | skip hc =>
    intro rest _ hrest node s hw hle
    obtain ⟨r, hr⟩ := hrest node s hw hle
    exact ⟨r, .skip hc hr⟩
  | call hc _ ih =>
    intro rest _ hrest
    have hbody := hi.guarded hc
    apply Halts.call hs hc (halts_of_each (fun x hx => ih x hx (hbody x hx)) hbody) hrest
  | optional ts body =>
    intro rest hg hrest
    apply halts_optional hs hn hi hx hg hrest
  | @loop ts body atLeastOnce _ ih =>
    intro rest hg hrest
    cases hx with
    | loop _ ht hb =>
      -- Only the round that is not selected needs the induction; all others consume a token.
      have hfurther := halts_further_rounds hs hn hi (.loop false ht hb) hg hrest
      cases atLeastOnce with
      | false => apply hfurther
      | true =>
        have hg' := List.forall_mem_cons.mpr ⟨Guarded.loop false ht hb, hg⟩
        have hrounds := halts_append (fun x hx => ih rfl x hx (hb x hx)) hb hg' hfurther
        intro node s hw hle
        obtain ⟨r, hr⟩ := hrounds node s hw hle
        exact ⟨r, .once hr⟩
  | dispatch ts arms expected =>
    intro rest hg _
    apply halts_dispatch hs hn hi hx hg

end

/-- Guarded statements have a run from every state within a text. -/
theorem IsProductive.exists_runs (hi : i.IsProductive) (hs : i.grammar.scanner.Consumes input)
    (hg : ∀ x ∈ ss, i.Guarded x) (hw : s.scanner.Within input) (node : NodeId) :
  ∃ r, Runs i ss node s r
  := by
  induction hm : s.remaining using Nat.strong_induction_on generalizing ss node s with
  | h m ih =>
    have hn : i.HaltsBelow input m := fun ss node s hg hw hlt => ih _ hlt hg hw node rfl
    have hhalts : i.Halts input m ss :=
      halts_of_each (fun x hx => (hi.ends x).halts hs hn hi (hg x hx)) hg
    apply hhalts node s hw (Nat.le_of_eq hm)

/-! ### Ways to the end -/

section

variable {ts : List TerminalId}

theorem ends_optionalOf :
  ∀ x ∈ optionalOf ts body, i.Ends x
  := by
  rw [optionalOf]
  split
  · simp
  · exact List.forall_mem_singleton.mpr (.optional ts body)

theorem ends_loopOf {atLeastOnce : Bool} (h : atLeastOnce → ∀ x ∈ body, i.Ends x) :
  ∀ x ∈ loopOf ts body atLeastOnce, i.Ends x
  := by
  rw [loopOf]
  split
  · exact List.forall_mem_singleton.mpr (.loop ts h)
  · split
    · next hb => apply h hb
    · simp

theorem ends_dispatchOf (g : Grammar) (claimed : List TerminalId) (arms : List Arm) :
  ∀ x ∈ dispatchOf g claimed arms, i.Ends x
  := by
  rw [dispatchOf]
  split
  · simp
  · exact List.forall_mem_singleton.mpr (.dispatch _ arms _)

end

variable {r : Rule} {rs : List Rule} {w : List TerminalId}

/-- A call ends if the only alternative does; several are dispatched on. -/
theorem ends_call (hi : i.Compiled) {n : NonterminalId} (hr : r ∈ i.grammar.productions n)
    (h : ∀ x ∈ lower i.grammar i.grammar.firstSets r, i.Ends x) :
  i.Ends (.call n)
  := by
  apply Ends.call (hi.routine? (Grammar.lt_size_of_mem_productions hr))
  change ∀ x ∈ lowerAlternatives _ _ (i.grammar.productions n), i.Ends x
  unfold lowerAlternatives
  split
  · simp
  · next q hq =>
    rw [hq] at hr
    rwa [← List.mem_singleton.mp hr]
  · apply ends_dispatchOf

/-- Rules that yield a word are lowered to statements with a way to their end: the calls that are
made without looking ahead are those of the derivation of the word. -/
theorem ends_of_yields (hi : i.Compiled) (h : i.grammar.productions.Yields rs w) :
  ∀ x ∈ lowerSeq i.grammar i.grammar.firstSets rs, i.Ends x
  := by
  induction h with
  | nil => simp [lowerSeq]
  | terminal id t _ ih => exact List.forall_mem_cons.mpr ⟨.expect t _, ih⟩
  | nonterminal id hr _ _ ihv ih =>
    rw [lowerSeq_singleton] at ihv
    exact List.forall_mem_cons.mpr ⟨ends_call hi hr ihv, ih⟩
  | concat id _ _ ihv ih => exact List.forall_mem_append.mpr ⟨ihv, ih⟩
  | choice id _ _ _ _ ih => exact List.forall_mem_append.mpr ⟨ends_dispatchOf _ _ _, ih⟩
  | pass id r _ ih => exact List.forall_mem_append.mpr ⟨ends_optionalOf, ih⟩
  | take id _ _ _ _ ih => exact List.forall_mem_append.mpr ⟨ends_optionalOf, ih⟩
  | stop id r _ ih => exact List.forall_mem_append.mpr ⟨ends_loopOf (by simp), ih⟩
  | again id _ _ _ _ ih => apply ih
  | once id _ _ ihv ih =>
    rw [lowerSeq_singleton] at ihv
    exact List.forall_mem_append.mpr ⟨ends_loopOf fun _ => ihv, (List.forall_mem_append.mp ih).2⟩

/-- All statements have a way to their end if all calls do. -/
theorem ends_of_calls (hc : ∀ n, i.Ends (.call n)) : ∀ x : Stmt, i.Ends x
  | .expect t expected => .expect t expected
  | .call n => hc n
  | .optional ts body => .optional ts body
  | .loop ts _ _ => .loop ts fun _ x _ => ends_of_calls hc x
  | .dispatch ts arms expected => .dispatch ts arms expected
termination_by x => sizeOf x
decreasing_by
  have hlt := List.sizeOf_lt_of_mem ‹x ∈ _›
  simp only [Stmt.loop.sizeOf_spec]
  omega

/-! ### Guarded statements of rules -/

section

variable {ts : List TerminalId} (ht : ∀ t ∈ ts, i.Takes t body) (h : ∀ x ∈ body, i.Guarded x)
include ht h

theorem guarded_optionalOf :
  ∀ x ∈ optionalOf ts body, i.Guarded x
  := by
  rw [optionalOf]
  split
  · simp
  · exact List.forall_mem_singleton.mpr (.optional ht h)

theorem guarded_loopOf (atLeastOnce : Bool) :
  ∀ x ∈ loopOf ts body atLeastOnce, i.Guarded x
  := by
  rw [loopOf]
  split
  · exact List.forall_mem_singleton.mpr (.loop atLeastOnce ht h)
  · split
    · apply h
    · simp

end

theorem guarded_dispatchOf {g : Grammar} {fs : FirstSets} {claimed : List TerminalId}
    (ht : ∀ r ∈ rs, ∀ t ∈ lookahead fs r, i.Takes t (lower g fs r))
    (h : ∀ r ∈ rs, ∀ x ∈ lower g fs r, i.Guarded x) :
  ∀ x ∈ dispatchOf g claimed (lowerArms g fs [] rs), i.Guarded x
  := by
  rw [dispatchOf]
  split
  · simp
  · rw [List.forall_mem_singleton]
    apply Guarded.dispatch
    · intro a ha t hta
      obtain ⟨r, hr, hbody, hsub⟩ := mem_lowerArms ha
      rw [hbody]
      apply ht r hr t (hsub t hta)
    · intro a ha
      obtain ⟨r, hr, hbody, -⟩ := mem_lowerArms ha
      rw [hbody]
      apply h r hr

/-- What a rule begins with selects it, and is taken. -/
theorem takes_of_mem_lookahead (hi : i.Compiled) (hg : i.grammar.IsSelective)
    (hs : i.grammar.productions.Selective r) :
  ∀ t ∈ lookahead i.grammar.firstSets r, i.Takes t (lower i.grammar i.grammar.firstSets r)
  := fun _ ht => (agrees hi hg hs).takes (hi.mem_lookahead.mp ht)

mutual

/-- The statements of a selective rule are guarded, since they agree with it. -/
theorem guarded_lower (hi : i.Compiled) (hg : i.grammar.IsSelective) : ∀ {r : Rule},
    i.grammar.productions.Selective r →
  ∀ x ∈ lower i.grammar i.grammar.firstSets r, i.Guarded x
  | .terminal _ t, _ => List.forall_mem_singleton.mpr (.expect t _)
  | .nonterminal _ n, _ => List.forall_mem_singleton.mpr (.call n)
  | .unresolved .., _ => List.forall_mem_nil _
  | .concat _ rs, hs => guarded_lowerSeq hi hg fun r (hr : r ∈ rs) => hs.child hr
  | .choice _ rs, hs =>
      guarded_dispatchOf (fun r hr => takes_of_mem_lookahead hi hg (hs.child hr))
        (guarded_of_mem hi hg fun r hr => hs.child hr)
  | .option _ r, hs => by
      have hr := hs.child List.mem_cons_self
      apply guarded_optionalOf (takes_of_mem_lookahead hi hg hr) (guarded_lower hi hg hr)
  | .zeroOrMore _ r, hs => by
      have hr := hs.child List.mem_cons_self
      apply guarded_loopOf (takes_of_mem_lookahead hi hg hr) (guarded_lower hi hg hr)
  | .oneOrMore _ r, hs => by
      have hr := hs.child List.mem_cons_self
      apply guarded_loopOf (takes_of_mem_lookahead hi hg hr) (guarded_lower hi hg hr)

theorem guarded_lowerSeq (hi : i.Compiled) (hg : i.grammar.IsSelective) : ∀ {rs : List Rule},
    (∀ r ∈ rs, i.grammar.productions.Selective r) →
  ∀ x ∈ lowerSeq i.grammar i.grammar.firstSets rs, i.Guarded x
  | [], _ => List.forall_mem_nil _
  | r :: rs, hs => by
      obtain ⟨hr, hrs⟩ := List.forall_mem_cons.mp hs
      exact guarded_append (guarded_lower hi hg hr) (guarded_lowerSeq hi hg hrs)

theorem guarded_of_mem (hi : i.Compiled) (hg : i.grammar.IsSelective) : ∀ {rs : List Rule},
    (∀ r ∈ rs, i.grammar.productions.Selective r) →
  ∀ r ∈ rs, ∀ x ∈ lower i.grammar i.grammar.firstSets r, i.Guarded x
  | [], _ => fun _ hr => absurd hr List.not_mem_nil
  | q :: rs, hs => by
      obtain ⟨hq, hrs⟩ := List.forall_mem_cons.mp hs
      exact List.forall_mem_cons.mpr ⟨guarded_lower hi hg hq, guarded_of_mem hi hg hrs⟩

end

theorem guarded_lowerAlternatives (hi : i.Compiled) (hg : i.grammar.IsSelective)
    (hs : ∀ r ∈ rs, i.grammar.productions.Selective r) :
  ∀ x ∈ lowerAlternatives i.grammar i.grammar.firstSets rs, i.Guarded x
  := by
  unfold lowerAlternatives
  split
  · simp
  · apply guarded_lower hi hg (hs _ List.mem_cons_self)
  · exact guarded_dispatchOf (fun r hr => takes_of_mem_lookahead hi hg (hs r hr))
      (guarded_of_mem hi hg hs)

/-! ### Parsing -/

/-- The program of a selective grammar in which every nonterminal derives a word is productive. -/
theorem Compiled.isProductive (hi : i.Compiled) (hg : i.grammar.IsSelective)
    (hd : ∀ n ∈ i.grammar.nonterminalIds, ∃ w : List TerminalId,
      i.grammar.productions.Derives [.nonterminal n] (w.map .terminal)) :
  i.IsProductive
  := by
  constructor
  · apply ends_of_calls
    intro n
    by_cases hn : i.grammar.Has (.nonterminal n)
    · obtain ⟨w, hw⟩ := hd n (Grammar.mem_nonterminalIds.mpr hn)
      obtain ⟨r, hr, hv⟩ := Productions.exists_yields_of_derives hw
      apply ends_call hi hr
      rw [← lowerSeq_singleton]
      apply ends_of_yields hi hv
    · apply Ends.skip
      apply Option.eq_none_iff_forall_ne_some.mpr
      intro routine hr
      rw [hi.program] at hr
      apply hn (Grammar.of_routine?_program hr).1
  · intro n routine hr
    rw [hi.program] at hr
    obtain ⟨-, rfl⟩ := Grammar.of_routine?_program hr
    apply guarded_lowerAlternatives hi hg
    intro r hr
    apply hg.selective hi.wellFormed (Rule.mem_nodesAll.mpr ⟨r, hr, Rule.mem_nodes_self r⟩)

/-- Every parse ends, whether or not the input is derived: if every nonterminal derives a word of
terminals, a token selects every alternative, and no terminal matches the empty text anywhere in the
input, then with all fuel that is enough there is the same tree. -/
theorem parse?_terminates [Engine] {fs : FileSystem} {o : Options} {text file : String}
    (hi : (Compilation.ofText fs o text file).interpreter? = some i)
    (hd : ∀ n ∈ i.grammar.nonterminalIds, ∃ w : List TerminalId,
      i.grammar.productions.Derives [.nonterminal n] (w.map .terminal))
    (hg : i.grammar.IsSelective) {input : String}
    (hm : ∀ t ∈ i.grammar.terminalIds, ∀ rest, rest <:+ input.toList →
      (i.grammar.terminal t).matcher.find rest ≠ some 0) (name : String) :
  ∃ t, ∃ enough, ∀ fuel, enough ≤ fuel → i.parse? fuel input name = some t
  := by
  have hp := (Compilation.compiled_of_interpreter? hi).isProductive hg hd
  have hs : i.grammar.scanner.Consumes input.toList := by
    intro p hp
    obtain ⟨t, ht, rfl⟩ := List.mem_map.mp hp
    apply hm t ht
  unfold parse?
  cases hn : i.grammar.start? with
  | none => exact ⟨_, 0, fun _ _ => rfl⟩
  | some n =>
    have hw : Scanner.State.Within input.toList (.start input name : Scanner.State SymbolKind) := by
      refine ⟨List.suffix_rfl, ?_⟩
      rintro _ ⟨⟩
    obtain ⟨r, hr⟩ := hp.exists_runs hs (List.forall_mem_singleton.mpr (.call n))
      (s := ⟨.start input name, .single⟩) hw ParseTree.root
    obtain ⟨enough, hexec⟩ := exec_of_runs_of_le hr
    refine ⟨r.2.tree, enough, ?_⟩
    intro fuel hfuel
    dsimp only
    rw [hexec fuel hfuel, Option.map_some]

end Interpreter

/-- The terminal that is the first choice in the only alternative. -/
def Rule.firstChoice? : List Rule → Option TerminalId
  | [.choice _ (.terminal _ t :: _)] => some t
  | _ => none

theorem Productions.derives_of_firstChoice? {ps : Productions} {n : NonterminalId} {t : TerminalId}
    (h : Rule.firstChoice? (ps n) = some t) :
  ps.Derives [.nonterminal n] [.terminal t]
  := by
  unfold Rule.firstChoice? at h
  split at h
  · next id id' t' rs hr =>
    cases h
    apply Derives.of_alternative (r := .choice id (.terminal id' t :: rs)) _ _ .refl
    · rw [hr]
      exact List.mem_cons_self
    · apply Rule.denotes_choice.mpr
      exact ⟨_, List.mem_cons_self, Rule.denotes_terminal.mpr rfl⟩
  · cases h

/-- A parse of a text that is not derived ends. -/
theorem Interpreter.parse?_bx_terminates :
  ∃ i, Compilation.bThenA.interpreter? = some i ∧
    ∃ t, ∃ enough, ∀ fuel, enough ≤ fuel → i.parse? fuel "bx" "" = some t
  := by
  have h : Compilation.bThenA.interpreter?.any fun i => decide
      (i.grammar.LooksSelective ∧
      (∀ n ∈ i.grammar.nonterminalIds, (Rule.firstChoice? (i.grammar.productions n)).isSome) ∧
      ∀ t ∈ i.grammar.terminalIds, ∀ rest ∈ "bx".toList.tails,
        (i.grammar.terminal t).matcher.find rest ≠ some 0) := by
    decide +kernel
  obtain ⟨i, hi, h⟩ := (Option.any_eq_true _ _).mp h
  obtain ⟨hg, hd, hm⟩ := of_decide_eq_true h
  have hg := (Compilation.compiled_of_interpreter? hi).isSelective_iff.mpr hg
  refine ⟨i, hi, parse?_terminates hi ?_ hg ?_ ""⟩
  · intro n hn
    obtain ⟨t, ht⟩ := Option.isSome_iff_exists.mp (hd n hn)
    exact ⟨[t], Productions.derives_of_firstChoice? ht⟩
  · intro t ht rest hrest
    apply hm t ht rest ((List.mem_tails _ _).mpr hrest)

end Descent
