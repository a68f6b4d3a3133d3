import Descent.Pattern.Compiled
import Descent.Proofs.Calls
import Descent.Proofs.Segments

/-!
# Looking ahead

Looking ahead changes nothing that can be told from the tokens that a scanner returns.

* Two states agree on some expectations if they are at the same place and the same token comes next
  whenever one of these is expected (`Scanner.State.Agree`).  A state agrees with the one after a
  look ahead that found nothing determined, whatever is expected (`Scanner.agree_of_undetermined`),
  and on what was expected by the look (`Scanner.upcoming_lookAhead`).
* From states that agree the same is returned (`Scanner.State.Agree.transcript_eq`), also when
  the calls that look ahead are left out (`Scanner.State.Agree.filter_transcript`).
* A determined token waits until it is scanned or another text is given to the scanner
  (`Scanner.after_of_ahead`).
-/

namespace Descent

namespace Scanner

variable {κ : Type} [DecidableEq κ] [TokenKind κ] {s : Scanner κ} {st st' : State κ}
  {expected expected' : List κ}

/-! ### The token that comes next -/

omit [TokenKind κ] in
/-- What is selected depends on the expected kinds, not on their order. -/
theorem select_congr (h : ∀ k, k ∈ expected ↔ k ∈ expected') :
  s.select expected = s.select expected'
  := by
  have he : expected.isEmpty = expected'.isEmpty := by
    rw [Bool.eq_iff_iff, List.isEmpty_iff, List.isEmpty_iff, List.eq_nil_iff_forall_not_mem,
      List.eq_nil_iff_forall_not_mem]
    simp only [h]
  have ht : s.isTried expected = s.isTried expected' := by
    funext kind
    simp only [isTried, he, h]
  funext rest
  simp only [select, match?, ht]

theorem next_of_select_eq_skipped {c : Cursor} {kind : κ} {n : Nat}
    (h : s.select expected c.rest = some (kind, n)) (hs : kind ∈ s.skip) :
  s.next expected c =
    ({ (s.next expected (s.afterSkipped c kind n)).1 with
        skipped := c.lexeme kind n :: (s.next expected (s.afterSkipped c kind n)).1.skipped },
      (s.next expected (s.afterSkipped c kind n)).2)
  := by
  conv_lhs => rw [next]
  split
  · next hk =>
    rw [h] at hk
    cases hk
  · next hk =>
    rw [h] at hk
    cases hk
    rw [dif_pos hs]

theorem next_congr (h : ∀ k, k ∈ expected ↔ k ∈ expected') (c : Cursor) :
  s.next expected c = s.next expected' c
  := by
  have hselect := select_congr (s := s) h
  fun_induction next s expected c with
  | case1 c hs =>
    rw [hselect] at hs
    rw [next_of_select_eq_none hs]
  | case2 c kind count hs hk token after hn ih =>
    rw [hselect] at hs
    rw [next_of_select_eq_skipped hs hk, ← ih, hn]
  | case3 c kind count hs hk =>
    rw [hselect] at hs
    rw [next_of_select_eq_some hs hk]

/-- Nothing was seen ahead, or only a token of an undetermined kind. -/
def State.IsBlind (st : State κ) : Prop := ∀ p ∈ st.ahead, p.1.kind = TokenKind.undetermined

theorem upcoming_of_isBlind (h : st.IsBlind) (expected : List κ) :
  s.upcoming st expected = s.next expected st.cursor
  := by
  obtain hu | ⟨p, hp, hk, _⟩ := s.upcoming_cases st expected
  · apply hu
  · exact absurd (h p hp) hk

theorem upcoming_of_ahead {p : Token κ × Cursor} (hp : st.ahead = some p)
    (hk : p.1.kind ≠ TokenKind.undetermined) (expected : List κ) :
  s.upcoming st expected = p
  := by
  rw [upcoming, hp]
  apply if_neg hk

/-- A token of an undetermined kind was not seen before. -/
theorem isBlind_of_undetermined
    (h : (s.upcoming st expected).1.kind = TokenKind.undetermined) :
  st.IsBlind
  := by
  intro p hp
  by_contra hk
  rw [upcoming_of_ahead hp hk] at h
  exact hk h

/-- The token that comes next depends on the expected kinds, not on their order. -/
theorem upcoming_congr (h : ∀ k, k ∈ expected ↔ k ∈ expected') :
  s.upcoming st expected = s.upcoming st expected'
  := by simp only [upcoming, next_congr h]

/-- After a look ahead the same token comes next as before, if the same is expected. -/
theorem upcoming_lookAhead (h : ∀ k, k ∈ expected ↔ k ∈ expected') :
  s.upcoming (s.lookAhead st expected).2 expected' = s.upcoming st expected'
  := by
  have hs : s.upcoming st expected = s.upcoming st expected' := upcoming_congr h
  by_cases hk : (s.upcoming st expected).1.kind = TokenKind.undetermined
  · have hb := isBlind_of_undetermined hk
    rw [upcoming_of_isBlind hb]
    apply upcoming_of_isBlind
    rintro _ ⟨⟩
    apply hk
  · rw [← hs]
    exact upcoming_of_ahead rfl hk expected'

/-! ### States that agree -/

/-- Two states at the same place in which the same token comes next when the kinds of an expectation
that `P` holds of are expected. -/
structure State.Agree (s : Scanner κ) (P : List κ → Prop) (st st' : State κ) : Prop where
  cursor : st.cursor = st'.cursor
  upcoming : ∀ expected, P expected → s.upcoming st expected = s.upcoming st' expected

/-- A look ahead that finds nothing determined leaves a state that agrees on everything. -/
theorem agree_of_undetermined
    (h : (s.lookAhead st expected).1.kind = TokenKind.undetermined) :
  State.Agree s (fun _ => True) (s.lookAhead st expected).2 st
  := by
  have hb : st.IsBlind := isBlind_of_undetermined h
  have hb' : (s.lookAhead st expected).2.IsBlind := by
    rintro _ ⟨⟩
    apply h
  refine ⟨rfl, fun expected' _ => ?_⟩
  rw [upcoming_of_isBlind hb, upcoming_of_isBlind hb']
  rfl

/-- From states that agree on everything, calls return the same. -/
theorem State.Agree.transcript_eq (h : State.Agree s (fun _ => True) st st') (cs : List (Call κ)) :
  s.transcript st cs = s.transcript st' cs
  := by
  induction cs generalizing st st' with
  | nil => rfl
  | cons c cs ih =>
    have hu := fun expected => h.upcoming expected trivial
    rw [transcript_cons, transcript_cons]
    match c with
    | .start text file => rfl
    | .lookAhead expected => rw [call, call, lookAhead, lookAhead, hu, h.cursor]
    | .scan expected => rw [call, call, scan, scan, hu]
    | .here kind => rw [call, call, State.here, State.here, h.cursor, ih h]

/-! ### Leaving looks out -/

/-- The kinds that are expected when calls scan for the first time. -/
def nextScan? : List (Call κ) → Option (List κ)
  | [] => none
  | .scan expected :: _ => some expected
  | _ :: cs => nextScan? cs

/-- Calls that look ahead only for the kinds that are expected when they scan next. -/
def Foresighted : List (Call κ) → Prop
  | [] => True
  | .lookAhead expected :: cs =>
    (∀ expected', nextScan? cs = some expected' → ∀ k, k ∈ expected ↔ k ∈ expected') ∧
      Foresighted cs
  | _ :: cs => Foresighted cs

/-- Calls that look ahead only for what they scan next return the same if the looks are left out. -/
theorem State.Agree.filter_transcript {cs : List (Call κ)} (hcs : Foresighted cs)
    (h : State.Agree s (fun expected => nextScan? cs = some expected) st st') :
  (s.transcript st cs).filter (!·.1.isLookAhead) =
    s.transcript st' (cs.filter (!·.isLookAhead))
  := by
  induction cs generalizing st st' with
  | nil => rfl
  | cons c cs ih =>
    match c with
    | .start text file =>
      apply congrArg (_ :: ·)
      apply ih hcs ⟨rfl, fun _ _ => rfl⟩
    | .lookAhead expected =>
      obtain ⟨hsame, hcs⟩ := hcs
      apply ih hcs
      refine ⟨h.cursor, fun expected' he => ?_⟩
      exact (upcoming_lookAhead (hsame expected' he)).trans (h.upcoming expected' he)
    | .scan expected =>
      have hs : s.scan st expected = s.scan st' expected := by
        rw [scan, scan, h.upcoming expected rfl]
      have hc : s.call st (.scan expected) = s.call st' (.scan expected) := by rw [call, call, hs]
      rw [List.filter_cons_of_pos rfl, transcript_cons, transcript_cons, hc,
        List.filter_cons_of_pos rfl]
      apply congrArg (_ :: ·)
      apply ih hcs ⟨rfl, fun _ _ => rfl⟩
    | .here kind =>
      have hh : st.here kind = st'.here kind := by rw [State.here, State.here, h.cursor]
      rw [List.filter_cons_of_pos rfl, transcript_cons, transcript_cons, call, call, hh,
        List.filter_cons_of_pos rfl]
      apply congrArg (_ :: ·)
      apply ih hcs h

/-! ### Tokens that wait -/

/-- As long as nothing is scanned and no text is given to the scanner, what was seen ahead is seen
again, and the state stays as it is. -/
theorem after_of_ahead {p : Token κ × Cursor} (hp : st.ahead = some p)
    (hk : p.1.kind ≠ TokenKind.undetermined) {cs : List (Call κ)}
    (hcs : ∀ c ∈ cs, ¬ c.isStart ∧ ¬ c.isScan) :
  s.after st cs = st ∧ ∀ expected r, (.lookAhead expected, r) ∈ s.transcript st cs → r = some p.1
  := by
  induction cs with
  | nil => simp
  | cons c cs ih =>
    obtain ⟨hc, hcs⟩ := List.forall_mem_cons.mp hcs
    obtain ⟨ha, hr⟩ := ih hcs
    rw [after_cons, transcript_cons]
    match c with
    | .start text file => exact absurd rfl hc.1
    | .scan expected => exact absurd rfl hc.2
    | .here kind =>
      refine ⟨ha, fun expected r hm => ?_⟩
      obtain hm | hm := List.mem_cons.mp hm
      · cases hm
      · apply hr expected r hm
    | .lookAhead expected =>
      have hl : s.lookAhead st expected = (p.1, st) := by
        rw [lookAhead, upcoming_of_ahead hp hk, ← hp]
      rw [call, hl]
      refine ⟨ha, fun expected' r hm => ?_⟩
      obtain hm | hm := List.mem_cons.mp hm
      · cases hm
        rfl
      · apply hr expected' r hm

/-! ### Peeking -/

/-- A look that finds nothing determined can be left out: the other calls return the same. -/
theorem transcript_eraseIdx {token : Token κ} : ∀ (cs : List (Call κ)) (k : Nat) {st : State κ},
    (s.transcript st cs)[k]? = some (.lookAhead expected, some token) →
    token.kind = TokenKind.undetermined →
  s.transcript st (cs.eraseIdx k) = (s.transcript st cs).eraseIdx k
  | [], _, _, h, _ => by cases h
  | c :: cs, 0, st, h, hk => by
      rw [transcript_cons, List.getElem?_cons_zero, Option.some_inj, Prod.mk.injEq] at h
      obtain ⟨rfl, h⟩ := h
      rw [call, Option.some_inj] at h
      rw [← h] at hk
      apply ((agree_of_undetermined hk).transcript_eq cs).symm
  | c :: cs, k + 1, st, h, hk => congrArg (_ :: ·) (transcript_eraseIdx cs k h hk)

/-- Looking ahead is a pure peek, in every state of a scanner.

A look that finds nothing determined can be left out, and all other calls return the same.  A
determined token that a look finds is what every further look and the next scan return, whatever
they expect, unless another text is given to the scanner before; and that scan leaves the state that
a scan in place of the look would have left.  So if calls look ahead only for what they scan next,
all looks can be left out. -/
theorem lookAhead_isPeek (s : Scanner κ) (st : State κ) :
  (∀ (cs : List (Call κ)) (k : Nat) (expected : List κ) (token : Token κ),
      (s.transcript st cs)[k]? = some (.lookAhead expected, some token) →
      token.kind = TokenKind.undetermined →
      s.transcript st (cs.eraseIdx k) = (s.transcript st cs).eraseIdx k) ∧
    (∀ (expected : List κ) (token : Token κ) (seen : State κ),
      s.lookAhead st expected = (token, seen) → token.kind ≠ TokenKind.undetermined →
      ∀ cs : List (Call κ), (∀ c ∈ cs, ¬ c.isStart ∧ ¬ c.isScan) →
        (∀ expected' r, (.lookAhead expected', r) ∈ s.transcript seen cs → r = some token) ∧
        ∀ expected', s.scan (s.after seen cs) expected' = (token, (s.scan st expected).2)) ∧
    ∀ cs : List (Call κ), Foresighted cs →
      (s.transcript st cs).filter (!·.1.isLookAhead) = s.transcript st (cs.filter (!·.isLookAhead))
  := by
  refine ⟨fun cs k _ _ => transcript_eraseIdx cs k, ?_, fun _ hcs =>
    State.Agree.filter_transcript hcs ⟨rfl, fun _ _ => rfl⟩⟩
  intro expected token seen hl hk cs hcs
  obtain rfl : (s.lookAhead st expected).1 = token := by rw [hl]
  obtain rfl : (s.lookAhead st expected).2 = seen := by rw [hl]
  have hp : (s.lookAhead st expected).2.ahead = some (s.upcoming st expected) := rfl
  obtain ⟨ha, hr⟩ := after_of_ahead hp hk hcs
  refine ⟨hr, fun expected' => ?_⟩
  rw [ha, scan, upcoming_of_ahead hp hk]
  rfl

/-- A scanner of letters and digits with blanks between them. -/
def lettersAndDigits : Scanner SymbolKind := ofPatterns ["[a-z]", "[0-9]", " +"] [⟨2⟩]

/-- A look for a digit before a letter, a look for a letter that is scanned with others in between,
and a look for what is scanned next. -/
theorem lookAhead_isPeek_lettersAndDigits :
  let s := lettersAndDigits
  let st : State SymbolKind := .start " a1" ""
  let letter : SymbolKind := .terminal ⟨0⟩
  let digit : SymbolKind := .terminal ⟨1⟩
  (∃ token, (s.transcript st [.lookAhead [digit], .scan []])[0]? =
      some (.lookAhead [digit], some token) ∧ token.kind = .undetermined ∧
      s.transcript st [.scan []] = (s.transcript st [.lookAhead [digit], .scan []]).eraseIdx 0) ∧
    (∃ token seen, s.lookAhead st [letter] = (token, seen) ∧ token.kind ≠ .undetermined ∧
      s.scan (s.after seen [.lookAhead [digit], .here digit]) [digit] =
        (token, (s.scan st [letter]).2)) ∧
    Foresighted [.lookAhead [letter], .here digit, .scan [letter]] ∧
      s.transcript st [.here digit, .scan [letter]] =
        (s.transcript st [.lookAhead [letter], .here digit, .scan [letter]]).filter
          (!·.1.isLookAhead)
  := by
  intro s st letter digit
  obtain ⟨hundetermined, hdetermined, hforesighted⟩ := lookAhead_isPeek s st
  have hu : (s.lookAhead st [digit]).1.kind = .undetermined := by decide +kernel
  have hd : (s.lookAhead st [letter]).1.kind ≠ .undetermined := by decide +kernel
  have hf : Foresighted [.lookAhead [letter], .here digit, .scan [letter]] := by
    simp [Foresighted, nextScan?]
  refine ⟨⟨_, rfl, hu, hundetermined [.lookAhead [digit], .scan []] 0 [digit] _ rfl hu⟩,
    ⟨_, _, rfl, hd, (hdetermined [letter] _ _ rfl hd _ ?_).2 [digit]⟩, hf,
    (hforesighted _ hf).symm⟩
  simp [Call.isStart, Call.isScan]

/-- A token that was seen ahead does not outlast its text: if another text is given to the scanner
before it is scanned, the scan returns another token. -/
theorem lookAhead_lost_at_start :
  let s := lettersAndDigits
  let st : State SymbolKind := .start "a" ""
  let between : List (Call SymbolKind) := [.start "b" ""]
  (∀ p ∈ s.patterns, p.1 ≠ .undetermined) ∧ st.IsBlind ∧ (∀ c ∈ between, ¬ c.isScan) ∧
    (s.lookAhead st []).1.kind ≠ .undetermined ∧
    (s.scan (s.after (s.lookAhead st []).2 between) []).1 ≠ (s.lookAhead st []).1
  := by
  intro s st between
  have hblind : st.IsBlind := by rintro _ ⟨⟩
  exact ⟨by decide +kernel, hblind, by decide, by decide +kernel, by decide +kernel⟩

end Scanner

end Descent
