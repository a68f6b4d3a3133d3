import Mathlib.Data.List.Induction
import Descent.Proofs.LookAhead

/-!
# The longest match, and the first of the longest

At the front of a text the patterns of the kinds that are tried compete by their matches
(`Scanner.Competes`).  The one that wins has a match that no other one exceeds, and comes before all
others with a match as long (`Scanner.Wins`).

* A fold over the patterns in order finds the one that wins (`Scanner.wins_of_select`).
* What is skipped before a token won at its place, one lexeme after the other
  (`Scanner.Skips`), and there are no more of them than characters (`Scanner.Skips.length_le`).
* So did the token that comes next, unless no pattern competes at its place
  (`Scanner.isFirstLongest_of_isBlind`).
-/

namespace Descent

namespace Scanner

variable {κ : Type} [DecidableEq κ] {s : Scanner κ} {expected : List κ} {rest : List Char}
  {p q : κ × Matcher} {ps : List (κ × Matcher)} {i m n : Nat}

/-! ### Competition -/

/-- A pattern competes with a match at the front of a text: its kind is expected, as every kind is
if none is named, or it is skipped, and then the match is not empty. -/
structure Competes (s : Scanner κ) (expected : List κ) (rest : List Char) (p : κ × Matcher)
    (n : Nat) : Prop where
  tried : expected = [] ∨ p.1 ∈ s.skip ∨ p.1 ∈ expected
  found : p.2.find rest = some n
  pos : p.1 ∈ s.skip → 0 < n

/-- A pattern wins among patterns in order by a match: no match is longer, and no earlier pattern
has one as long. -/
structure Wins (s : Scanner κ) (expected : List κ) (rest : List Char) (ps : List (κ × Matcher))
    (i : Nat) (p : κ × Matcher) (n : Nat) : Prop where
  pattern : ps[i]? = some p
  competes : s.Competes expected rest p n
  longest : ∀ q ∈ ps, ∀ m, s.Competes expected rest q m → m ≤ n
  first : ∀ j q, ps[j]? = some q → s.Competes expected rest q n → i ≤ j

/-- The matches that count are those that compete. -/
theorem match?_eq_some_iff :
  s.match? expected rest p = some n ↔ s.Competes expected rest p n
  := by
  constructor
  · intro h
    have hpos := pos_of_match? h
    have hfound := find_of_match? h
    unfold match? at h
    split at h
    case isTrue ht =>
      refine ⟨?_, hfound, hpos⟩
      simpa [isTried, or_assoc] using ht
    case isFalse => cases h
  · rintro ⟨htried, hfound, hpos⟩
    have ht : s.isTried expected p.1 := by simpa [isTried, or_assoc] using htried
    rw [match?, if_pos ht, hfound]
    simp only [Option.filter_some, Bool.not_eq_true', Bool.and_eq_false_iff,
      decide_eq_false_iff_not, beq_eq_false_iff_ne, ite_eq_left_iff, reduceCtorEq, imp_false,
      Decidable.not_not]
    by_cases hs : p.1 ∈ s.skip
    · exact .inr (Nat.ne_of_gt (hpos hs))
    · exact .inl hs

omit [DecidableEq κ] in
/-- A pattern competes with one match only. -/
theorem Competes.unique (h : s.Competes expected rest p n) (h' : s.Competes expected rest p m) :
  m = n
  := Option.some_inj.mp (h'.found.symm.trans h.found)

omit [DecidableEq κ] in
/-- A pattern that wins still wins when one with a match that is not longer comes after the
others. -/
theorem Wins.concat (h : s.Wins expected rest ps i p n)
    (hq : ∀ m, s.Competes expected rest q m → m ≤ n) :
  s.Wins expected rest (ps ++ [q]) i p n
  := by
  have hi : i < ps.length := (List.getElem?_eq_some_iff.mp h.pattern).1
  constructor
  · rw [List.getElem?_append_left hi, h.pattern]
  · exact h.competes
  · intro r hr
    obtain hr | hr := List.mem_append.mp hr
    · apply h.longest r hr
    · rw [List.mem_singleton.mp hr]
      apply hq
  · intro j r hj hr
    by_cases hlt : j < ps.length
    · rw [List.getElem?_append_left hlt] at hj
      apply h.first j r hj hr
    · exact Nat.le_trans (Nat.le_of_lt hi) (Nat.le_of_not_lt hlt)

omit [DecidableEq κ] in
/-- A pattern that comes after others wins if its match is longer than theirs. -/
theorem wins_concat (h : s.Competes expected rest p n)
    (hps : ∀ q ∈ ps, ∀ m, s.Competes expected rest q m → m < n) :
  s.Wins expected rest (ps ++ [p]) ps.length p n
  := by
  constructor
  · apply List.getElem?_concat_length
  · exact h
  · intro q hq m hm
    obtain hq | hq := List.mem_append.mp hq
    · exact Nat.le_of_lt (hps q hq m hm)
    · rw [List.mem_singleton.mp hq] at hm
      exact Nat.le_of_eq (h.unique hm)
  · intro j q hj hq
    by_contra hlt
    rw [List.getElem?_append_left (Nat.lt_of_not_le hlt)] at hj
    exact Nat.lt_irrefl n (hps q (List.mem_of_getElem? hj) n hq)

/-- The fold over patterns in order finds the one that wins. -/
theorem wins_of_foldl_better (ps : List (κ × Matcher)) : ∀ {k : κ} {n : Nat},
    ps.foldl (fun best p => better best ((s.match? expected rest p).map fun n => (p.1, n))) none =
      some (k, n) →
  ∃ i p, p.1 = k ∧ s.Wins expected rest ps i p n
  := by
  induction ps using List.reverseRecOn with
  | nil => rintro _ _ ⟨⟩
  | append_singleton ps p ih =>
    intro k n h
    rw [List.foldl_append, List.foldl_cons, List.foldl_nil] at h
    cases hbest : ps.foldl (fun best p => better best ((s.match? expected rest p).map fun n =>
        (p.1, n))) none with
    | none =>
      rw [hbest, better] at h
      obtain ⟨_, hn, heq⟩ := Option.map_eq_some_iff.mp h
      obtain ⟨rfl, rfl⟩ := Prod.mk.inj heq
      refine ⟨_, p, rfl, wins_concat (match?_eq_some_iff.mp hn) ?_⟩
      intro q hq m hm
      have hnone := (foldl_better_eq_none ps hbest).2 q hq
      rw [match?_eq_some_iff.mpr hm] at hnone
      cases hnone
    | some b =>
      obtain ⟨i, r, hr, hwins⟩ := ih hbest
      cases hp : s.match? expected rest p with
      | none =>
        rw [hbest, hp] at h
        cases h
        refine ⟨i, r, hr, hwins.concat ?_⟩
        intro m hm
        rw [match?_eq_some_iff.mpr hm] at hp
        cases hp
      | some m =>
        have hm := match?_eq_some_iff.mp hp
        rw [hbest, hp, Option.map_some, better] at h
        split at h
        case isTrue hlt =>
          cases h
          refine ⟨_, p, rfl, wins_concat hm ?_⟩
          intro q hq m' hm'
          exact Nat.lt_of_le_of_lt (hwins.longest q hq m' hm') hlt
        case isFalse hge =>
          cases h
          refine ⟨i, r, hr, hwins.concat ?_⟩
          intro m' hm'
          rw [hm.unique hm']
          apply Nat.le_of_not_lt hge

/-- What is selected wins. -/
theorem wins_of_select {k : κ} (h : s.select expected rest = some (k, n)) :
  ∃ i p, p.1 = k ∧ s.Wins expected rest s.patterns i p n
  := wins_of_foldl_better s.patterns h

/-- Nothing is selected only where no pattern competes. -/
theorem not_competes_of_select (h : s.select expected rest = none) :
  ∀ p ∈ s.patterns, ∀ n, ¬ s.Competes expected rest p n
  := by
  intro p hp n hn
  have hnone := match?_of_select_eq_none h p hp
  rw [match?_eq_some_iff.mpr hn] at hnone
  cases hnone

/-! ### What is skipped -/

/-- Lexemes that are skipped from one place to another: at the place of each of them its pattern
wins, and is one to skip. -/
inductive Skips (s : Scanner κ) (expected : List κ) : Cursor → List (Lexeme κ) → Cursor → Prop
  | nil (c : Cursor) : Skips s expected c [] c
  | cons {c c' : Cursor} {ls : List (Lexeme κ)} {i n : Nat} {p : κ × Matcher}
      (h : s.Wins expected c.rest s.patterns i p n) (hskip : p.1 ∈ s.skip)
      (hls : Skips s expected (s.afterSkipped c p.1 n) ls c') :
      Skips s expected c (c.lexeme p.1 n :: ls) c'

variable {c c' : Cursor} {ls : List (Lexeme κ)}

/-- Every lexeme that is skipped takes a character of the text. -/
theorem Skips.length_le (h : s.Skips expected c ls c') :
  ls.length + c'.rest.length ≤ c.rest.length
  := by
  induction h with
  | nil => simp
  | cons hwins hskip _ ih =>
    have hpos := hwins.competes.pos hskip
    have hle := Matcher.find_le _ hwins.competes.found
    rw [rest_afterSkipped, List.length_drop] at ih
    rw [List.length_cons]
    omega

/-- Skipping stays in the input. -/
theorem Skips.at (h : s.Skips expected c ls c') {input : List Char} (hc : c.At input) :
  c'.At input
  := by
  induction h with
  | nil => exact hc
  | cons _ _ _ ih => exact ih (at_afterSkipped hc _ _)

/-! ### The token that comes next -/

variable [TokenKind κ]

/-- A token that comes next from a place: after what is skipped, at another place, its pattern wins,
or no pattern competes there and its kind is undetermined. -/
structure IsFirstLongest (s : Scanner κ) (expected : List κ) (c place : Cursor) (t : Token κ) :
    Prop where
  skipped : s.Skips expected c t.skipped place
  /-- The token starts where what is skipped ends. -/
  start : t.span.start = place.position.offset
  wins : t.kind ≠ TokenKind.undetermined → ∃ i p n, s.Wins expected place.rest s.patterns i p n ∧
    t.toLexeme = place.lexeme p.1 n
  /-- No token of a pattern is one to skip. -/
  undetermined_of_skip : t.kind ∈ s.skip → t.kind = TokenKind.undetermined
  undetermined_iff : t.kind = TokenKind.undetermined ↔
    ∀ p ∈ s.patterns, ∀ n, ¬ s.Competes expected place.rest p n
  /-- The text of a token of an undetermined kind is the next character. -/
  text : t.kind = TokenKind.undetermined → ∀ d ds, place.rest = d :: ds →
    t.text = String.singleton d
  /-- It is `EOF` where the text ends, and only there. -/
  atEnd : t.kind = TokenKind.undetermined → (t.text = "EOF" ↔ place.rest = [])

theorem isFirstLongest_undeterminedAt (h : s.select expected c.rest = none) :
  s.IsFirstLongest expected c c (undeterminedAt c)
  := by
  constructor
  · exact .nil c
  · rfl
  · exact fun hk => absurd rfl hk
  · exact fun _ => rfl
  · exact ⟨fun _ => not_competes_of_select h, fun _ => rfl⟩
  · intro _ d ds hrest
    rw [undeterminedAt, hrest]
  · intro _
    rw [undeterminedAt]
    cases c.rest with
    | nil => simp
    | cons d ds =>
      have hne : String.singleton d ≠ "EOF" := by
        intro heq
        have hlength := congrArg String.length heq
        rw [String.length_singleton] at hlength
        exact absurd hlength (by decide)
      simp [hne]

theorem isFirstLongest_lexeme (hpatterns : ∀ p ∈ s.patterns, p.1 ≠ TokenKind.undetermined)
    (h : s.Wins expected c.rest s.patterns i p n) (hskip : p.1 ∉ s.skip) :
  s.IsFirstLongest expected c c { c.lexeme p.1 n with skipped := [] }
  := by
  have hmem : p ∈ s.patterns := List.mem_of_getElem? h.pattern
  have hkind : p.1 ≠ TokenKind.undetermined := hpatterns p hmem
  constructor
  · exact .nil c
  · rfl
  · exact fun _ => ⟨i, p, n, h, rfl⟩
  · exact fun hk => absurd hk hskip
  · exact ⟨fun hk => absurd hk hkind, fun hnone => absurd h.competes (hnone p hmem n)⟩
  · exact fun hk => absurd hk hkind
  · exact fun hk => absurd hk hkind

/-- A token that comes next after a lexeme to skip comes next before it, too. -/
theorem IsFirstLongest.cons {t : Token κ} (h : s.Wins expected c.rest s.patterns i p n)
    (hskip : p.1 ∈ s.skip) (ht : s.IsFirstLongest expected (s.afterSkipped c p.1 n) c' t) :
  s.IsFirstLongest expected c c' { t with skipped := c.lexeme p.1 n :: t.skipped }
  := { ht with skipped := .cons h hskip ht.skipped }

/-- The token that comes next is that of the first longest match at its place. -/
theorem isFirstLongest_next (hpatterns : ∀ p ∈ s.patterns, p.1 ≠ TokenKind.undetermined)
    (expected : List κ) (c : Cursor) :
  ∃ place, s.IsFirstLongest expected c place (s.next expected c).1
  := by
  fun_induction next s expected c with
  | case1 c hs => exact ⟨c, isFirstLongest_undeterminedAt hs⟩
  | case2 c kind count hs hk token after hn ih =>
    obtain ⟨i, p, rfl, hwins⟩ := wins_of_select hs
    obtain ⟨place, hplace⟩ := ih
    rw [hn] at hplace
    exact ⟨place, hplace.cons hwins hk⟩
  | case3 c kind count hs hk =>
    obtain ⟨i, p, rfl, hwins⟩ := wins_of_select hs
    exact ⟨c, isFirstLongest_lexeme hpatterns hwins hk⟩

/-- A scanner that saw nothing determined ahead scans the first longest match, after what is
skipped, and looks ahead at the same token. -/
theorem isFirstLongest_of_isBlind (s : Scanner κ)
    (hpatterns : ∀ p ∈ s.patterns, p.1 ≠ TokenKind.undetermined) {st : State κ} (hst : st.IsBlind)
    (expected : List κ) :
  ∃ token place, (s.scan st expected).1 = token ∧ (s.lookAhead st expected).1 = token ∧
    token.skipped.length + place.rest.length ≤ st.cursor.rest.length ∧
    (∀ input, st.cursor.At input → place.At input) ∧
    s.IsFirstLongest expected st.cursor place token
  := by
  obtain ⟨place, hplace⟩ := isFirstLongest_next hpatterns expected st.cursor
  rw [← upcoming_of_isBlind hst] at hplace
  refine ⟨_, place, rfl, rfl, hplace.skipped.length_le, fun _ => hplace.skipped.at, hplace⟩

/-- A word that is also a number, after a blank. -/
theorem isFirstLongest_of_overlap :
  let s := ofPatterns ["[0-9]", "[a-z0-9]+", "[0-9]+", " +"] [⟨3⟩]
  let st : State SymbolKind := .start " 12;" ""
  (∀ p ∈ s.patterns, p.1 ≠ .undetermined) ∧ st.IsBlind ∧ (s.scan st []).1.text = "12" ∧
    (s.scan st []).1.kind = .terminal ⟨1⟩ ∧
    ∃ place, s.IsFirstLongest [] st.cursor place (s.scan st []).1
  := by
  intro s st
  have hpatterns : ∀ p ∈ s.patterns, p.1 ≠ TokenKind.undetermined := by decide +kernel
  have hblind : st.IsBlind := by rintro _ ⟨⟩
  obtain ⟨token, place, rfl, _, _, _, hplace⟩ := isFirstLongest_of_isBlind s hpatterns hblind []
  exact ⟨hpatterns, hblind, by decide +kernel, by decide +kernel, place, hplace⟩

/-- Where no pattern competes, the token is returned even if tokens of an undetermined kind are to
be skipped. -/
theorem undetermined_not_skipped :
  let s : Scanner SymbolKind := { ofPatterns ["b"] [] with skip := [.undetermined] }
  let st : State SymbolKind := .start "ab" ""
  (∀ p ∈ s.patterns, p.1 ≠ .undetermined) ∧ st.IsBlind ∧ (s.scan st []).1.kind ∈ s.skip
  := by
  intro s st
  have hblind : st.IsBlind := by rintro _ ⟨⟩
  exact ⟨by decide +kernel, hblind, by decide +kernel⟩

end Scanner

end Descent
