import Descent.Grammar.Survey
import Descent.Proofs.LeftCorner

/-!
# What a survey finds

A walk over the rules of a grammar keeps a survey valid (`Survey.Valid`): what is finished never
claims too much, what is reported is left recursive, and as long as nothing is reported what is
finished is apply and has only finished left corners.

* Sets are put together from those of the parts of a rule (`FirstSet.Fits`), and so are the outcomes
  of walks (`Survey.Outcome`, `Survey.outcome_walk`).
* Entering a nonterminal keeps a survey valid (`Survey.valid_explore`): the entered nonterminals are
  a chain of left corners, so that one that is met again is left recursive.
* Exploring never goes deeper than there are nonterminals, whatever were to happen then
  (`Survey.run_exploreOr`).
-/

namespace Descent

/-! ### Sets that fit -/

/-- A set claims no more than that something may be empty if `e` and begins with the terminals of
`T`; on the condition `c` it claims no less. -/
structure FirstSet.Fits (c e : Prop) (T : TerminalId → Prop) (f : FirstSet) : Prop where
  empty : f.empty → e
  terminals : ∀ t ∈ f.terminals, T t
  of_empty : c → e → f.empty
  of_terminals : c → ∀ t, T t → t ∈ f.terminals

namespace FirstSet.Fits

variable {c c' e e' : Prop} {T T' : TerminalId → Prop} {f : FirstSet}

theorem imp (hf : f.Fits c e T) (hc : c' → c) :
  f.Fits c' e T
  := ⟨hf.empty, hf.terminals, fun h => hf.of_empty (hc h), fun h => hf.of_terminals (hc h)⟩

theorem congr (hf : f.Fits c e T) (he : e' ↔ e) (hT : ∀ t, T' t ↔ T t) :
  f.Fits c e' T'
  := by
  obtain ⟨h₁, h₂, h₃, h₄⟩ := hf
  constructor <;> simpa only [he, hT]

theorem mem_iff (hf : f.Fits c e T) (hc : c) (t : TerminalId) :
  t ∈ f.terminals ↔ T t
  := ⟨hf.terminals t, hf.of_terminals hc t⟩

theorem empty_iff (hf : f.Fits c e T) (hc : c) :
  f.empty ↔ e
  := ⟨hf.empty, hf.of_empty hc⟩

theorem optional (hf : f.Fits c e T) :
  f.optional.Fits c True T
  := ⟨fun _ => trivial, hf.terminals, fun _ _ => rfl, hf.of_terminals⟩

theorem either {g : FirstSet} (hf : f.Fits c e T) (hg : g.Fits c e' T') :
  (f.either g).Fits c (e ∨ e') fun t => T t ∨ T' t
  := by
  constructor
  · intro h
    apply (Bool.or_eq_true_iff.mp h).imp hf.empty hg.empty
  · intro t ht
    apply (mem_join.mp ht).imp (hf.terminals t) (hg.terminals t)
  · intro hc h
    apply Bool.or_eq_true_iff.mpr (h.imp (hf.of_empty hc) (hg.of_empty hc))
  · intro hc t ht
    apply mem_join.mpr (ht.imp (hf.of_terminals hc t) (hg.of_terminals hc t))

end FirstSet.Fits

namespace Productions

variable {ps : Productions} {c : Prop}

/-- A set fits a rule. -/
def Fits (ps : Productions) (c : Prop) (r : Rule) : FirstSet → Prop :=
  FirstSet.Fits c (ps.Nullable r) (ps.Begins r)

/-- A set fits a sequence, which may be empty without parts only if it begins after others. -/
def SeqFits (ps : Productions) (c : Prop) (passed : Bool) (rs : List Rule) : FirstSet → Prop :=
  FirstSet.Fits c ((passed ∨ rs ≠ []) ∧ ∀ r ∈ rs, ps.Nullable r) (ps.SeqBegins rs)

/-- A set fits a choice. -/
def ChoiceFits (ps : Productions) (c : Prop) (rs : List Rule) : FirstSet → Prop :=
  FirstSet.Fits c (∃ r ∈ rs, ps.Nullable r) fun t => ∃ r ∈ rs, ps.Begins r t

/-- A set fits a nonterminal. -/
def NonterminalFits (ps : Productions) (c : Prop) (n : NonterminalId) : FirstSet → Prop :=
  ps.ChoiceFits c (ps n)

variable {id : RuleId} {r : Rule} {rs : List Rule} {f h : FirstSet} {passed : Bool}

theorem fits_terminal {t : TerminalId} :
  ps.Fits c (.terminal id t) ⟨[t], false⟩
  := by constructor <;> simp

theorem fits_unresolved {name : String} :
  ps.Fits c (.unresolved id name) ⟨[], true⟩
  := by constructor <;> simp

theorem NonterminalFits.fits {n : NonterminalId} (hf : ps.NonterminalFits c n f) :
  ps.Fits c (.nonterminal id n) f
  := hf.congr nullable_nonterminal fun _ => begins_nonterminal

theorem SeqFits.concat (hf : ps.SeqFits c false rs f) :
  ps.Fits c (.concat id rs) f
  := hf.congr (by simp) fun _ => begins_concat

theorem ChoiceFits.choice (hf : ps.ChoiceFits c rs f) :
  ps.Fits c (.choice id rs) f
  := hf.congr nullable_choice fun _ => begins_choice

theorem Fits.option (hf : ps.Fits c r f) :
  ps.Fits c (.option id r) f.optional
  := hf.optional.congr (by simp) fun _ => begins_option

theorem Fits.zeroOrMore (hf : ps.Fits c r f) :
  ps.Fits c (.zeroOrMore id r) f.optional
  := hf.optional.congr (by simp) fun _ => begins_zeroOrMore

theorem Fits.oneOrMore (hf : ps.Fits c r f) :
  ps.Fits c (.oneOrMore id r) f
  := hf.congr nullable_oneOrMore fun _ => begins_oneOrMore

theorem seqFits_nil :
  ps.SeqFits c passed [] ⟨[], passed⟩
  := by constructor <;> simp

/-- Beyond a part that may be empty a sequence goes on. -/
theorem Fits.andThen (hf : ps.Fits c r f) (he : f.empty) (hh : ps.SeqFits c true rs h) :
  ps.SeqFits c passed (r :: rs) (f.andThen h)
  := by
  have hr := hf.empty he
  constructor
  · intro hhe
    simpa [hr] using (hh.empty hhe).2
  · intro t ht
    obtain ht | ht := FirstSet.mem_join.mp ht
    · apply seqBegins_cons.mpr (.inl (hf.terminals t ht))
    · apply seqBegins_cons.mpr (.inr ⟨hr, hh.terminals t ht⟩)
  · intro hc hrs
    apply hh.of_empty hc ⟨.inl rfl, fun q hq => hrs.2 q (List.mem_cons_of_mem r hq)⟩
  · intro hc t ht
    apply FirstSet.mem_join.mpr
    obtain ht | ⟨_, ht⟩ := seqBegins_cons.mp ht
    · exact .inl (hf.of_terminals hc t ht)
    · exact .inr (hh.of_terminals hc t ht)

/-- A sequence is as its first part if that cannot be empty. -/
theorem Fits.stop (hf : ps.Fits c r f) (he : ¬ f.empty) :
  ps.SeqFits c passed (r :: rs) f
  := by
  constructor
  · intro h
    exact absurd h he
  · intro t ht
    apply seqBegins_cons.mpr (.inl (hf.terminals t ht))
  · intro hc hrs
    apply hf.of_empty hc (hrs.2 r List.mem_cons_self)
  · intro hc t ht
    obtain ht | ⟨hr, _⟩ := seqBegins_cons.mp ht
    · apply hf.of_terminals hc t ht
    · exact absurd (hf.of_empty hc hr) he

theorem choiceFits_nil :
  ps.ChoiceFits c [] .none
  := by constructor <;> simp [FirstSet.none]

theorem Fits.either (hf : ps.Fits c r f) (hh : ps.ChoiceFits c rs h) :
  ps.ChoiceFits c (r :: rs) (f.either h)
  := (FirstSet.Fits.either hf hh).congr (List.exists_mem_cons_iff ps.Nullable r rs)
    fun t => List.exists_mem_cons_iff (ps.Begins · t) r rs

/-! ### The set of a rule -/

section

variable {sets : NonterminalId → FirstSet}

mutual

/-- If the sets of the nonterminals fit, so does the set of a rule. -/
theorem fits_first (hsets : ∀ n, ps.NonterminalFits c n (sets n)) : ∀ r : Rule,
  ps.Fits c r (r.first sets)
  | .terminal .. => fits_terminal
  | .nonterminal _ n => (hsets n).fits
  | .unresolved .. => fits_unresolved
  | .concat _ rs => (seqFits_first hsets false rs).concat
  | .choice _ rs => (choiceFits_first hsets rs).choice
  | .option _ r => (fits_first hsets r).option
  | .zeroOrMore _ r => (fits_first hsets r).zeroOrMore
  | .oneOrMore _ r => (fits_first hsets r).oneOrMore

theorem seqFits_first (hsets : ∀ n, ps.NonterminalFits c n (sets n)) :
    ∀ (passed : Bool) (rs : List Rule),
  ps.SeqFits c passed rs (Rule.firstSeq sets passed rs)
  | _, [] => seqFits_nil
  | _, r :: rs => by
      rw [Rule.firstSeq]
      split
      case isTrue h => apply (fits_first hsets r).andThen h (seqFits_first hsets true rs)
      case isFalse h => apply (fits_first hsets r).stop h

theorem choiceFits_first (hsets : ∀ n, ps.NonterminalFits c n (sets n)) : ∀ rs : List Rule,
  ps.ChoiceFits c rs (Rule.firstChoice sets rs)
  | [] => choiceFits_nil
  | r :: rs => (fits_first hsets r).either (choiceFits_first hsets rs)

end

end

/-! ### Grounded nonterminals -/

/-- A nonterminal from which every path of left corners ends. -/
def Grounded (ps : Productions) : NonterminalId → Prop := Acc fun m n => ps.LeftCorner n m

theorem Grounded.not_leftRecursive {n : NonterminalId} (h : ps.Grounded n) :
  ¬ ps.LeftRecursive n
  := by
  induction h with
  | intro n _ ih =>
    intro hn
    obtain ⟨m, hm, hn'⟩ := Relation.TransGen.head'_iff.mp hn
    apply ih m hm
    apply Relation.TransGen.tail' hn' hm

end Productions

/-! ### Valid surveys -/

namespace Survey

/-- Nothing is reported. -/
def IsClean (s : Survey) : Prop := s.leftRecursive = []

/-- What holds of a survey at any time. -/
structure Valid (ps : Productions) (s : Survey) : Prop where
  nodup_entered : s.entered.Nodup
  not_finished : ∀ n ∈ s.entered, s.find? n = none
  /-- What is entered last is reached from all that is entered. -/
  chain : ∀ n ∈ s.entered, ∀ m ∈ s.entered.head?, Relation.ReflTransGen ps.LeftCorner n m
  fits : ∀ n f, s.find? n = some f → ps.NonterminalFits s.IsClean n f
  grounded : s.IsClean → ∀ n, (s.find? n).isSome → ps.Grounded n
  nodup_leftRecursive : s.leftRecursive.Nodup
  leftRecursive : ∀ n ∈ s.leftRecursive, ps.LeftRecursive n

/-- A later survey with the same nonterminals entered. -/
structure Extends (s s' : Survey) : Prop where
  entered : s'.entered = s.entered
  found : ∀ n, (s.find? n).isSome → s'.find? n = s.find? n
  leftRecursive : s.leftRecursive <+: s'.leftRecursive

variable {ps : Productions} {s s' s'' : Survey}

theorem Extends.refl (s : Survey) :
  s.Extends s
  := ⟨rfl, fun _ _ => rfl, List.prefix_rfl⟩

theorem Extends.trans (h : s.Extends s') (h' : s'.Extends s'') :
  s.Extends s''
  := by
  constructor
  · rw [h'.entered, h.entered]
  · intro n hn
    rw [h'.found n (by rwa [h.found n hn]), h.found n hn]
  · apply h.leftRecursive.trans h'.leftRecursive

theorem Extends.isClean (h : s.Extends s') (hs : s'.IsClean) :
  s.IsClean
  := by
  have h := h.leftRecursive
  rwa [hs, List.prefix_nil] at h

theorem Extends.isSome (h : s.Extends s') {n : NonterminalId} (hn : (s.find? n).isSome) :
  (s'.find? n).isSome
  := by rwa [h.found n hn]

theorem valid_start :
  Valid ps start
  := by
  constructor <;> simp [start, find?]

theorem Valid.require (h : s.Valid ps) (id : RuleId) (ts : List TerminalId) :
  (s.require id ts).Valid ps
  := ⟨h.1, h.2, h.3, h.4, h.5, h.6, h.7⟩

/-- What a finished nonterminal contributes fits it; what one that is not finished contributes does
if something is reported. -/
theorem Valid.known (h : s.Valid ps) {n : NonterminalId} (hn : s.IsClean → (s.find? n).isSome) :
  ps.NonterminalFits s.IsClean n (s.known n)
  := by
  rw [Survey.known]
  cases hf : s.find? n with
  | some f => apply h.fits n f hf
  | none =>
    rw [hf] at hn
    constructor
    · simp [FirstSet.none]
    · simp [FirstSet.none]
    · intro hc
      cases hn hc
    · intro hc
      cases hn hc

/-! ### Walks -/

/-- The outcome of a walk from a survey: a later survey, and a set that fits.  As long as nothing is
reported the nonterminals of `K` are finished. -/
structure Outcome (ps : Productions) (fits : Prop → FirstSet → Prop) (K : NonterminalId → Prop)
    (s : Survey) (p : FirstSet × Survey) : Prop where
  valid : p.2.Valid ps
  later : s.Extends p.2
  fits : fits p.2.IsClean p.1
  finished : p.2.IsClean → ∀ n, K n → (p.2.find? n).isSome

section

variable {visit visit' : NonterminalId → StateM Survey Unit} {entered : List NonterminalId}
  {target : NonterminalId → Prop}

/-- The outcome of a visit: a later survey, in which the nonterminal is finished unless something is
reported. -/
structure Visited (ps : Productions) (n : NonterminalId) (s s' : Survey) : Prop where
  valid : s'.Valid ps
  later : s.Extends s'
  finished : s'.IsClean → (s'.find? n).isSome

/-- Visiting a target has the outcome of a visit. -/
def Visits (ps : Productions) (visit : NonterminalId → StateM Survey Unit)
    (entered : List NonterminalId) (target : NonterminalId → Prop) : Prop :=
  ∀ s n, s.Valid ps → s.entered = entered → target n → Visited ps n s ((visit n).run s).2

theorem run_walk_nonterminal (id : RuleId) (n : NonterminalId) (s : Survey) :
  (walk visit (.nonterminal id n)).run s =
    (((visit n).run s).2.known n, ((visit n).run s).2)
  := rfl

theorem run_walk_concat (id : RuleId) (rs : List Rule) (s : Survey) :
  (walk visit (.concat id rs)).run s =
    (((walkSeq visit false rs).run s).1,
      ((walkSeq visit false rs).run s).2.require id ((walkSeq visit false rs).run s).1.terminals)
  := rfl

theorem run_walk_option (id : RuleId) (r : Rule) (s : Survey) :
  (walk visit (.option id r)).run s =
    (((walk visit r).run s).1.optional, ((walk visit r).run s).2)
  := rfl

theorem run_walk_zeroOrMore (id : RuleId) (r : Rule) (s : Survey) :
  (walk visit (.zeroOrMore id r)).run s =
    (((walk visit r).run s).1.optional, ((walk visit r).run s).2)
  := rfl

theorem run_walkChoice_cons (r : Rule) (rs : List Rule) (s : Survey) :
  (walkChoice visit (r :: rs)).run s =
    (((walk visit r).run s).1.either ((walkChoice visit rs).run ((walk visit r).run s).2).1,
      ((walkChoice visit rs).run ((walk visit r).run s).2).2)
  := rfl

theorem run_walkSeq_of_empty {r : Rule} {s : Survey} (h : ((walk visit r).run s).1.empty)
    (passed : Bool) (rs : List Rule) :
  (walkSeq visit passed (r :: rs)).run s =
    (((walk visit r).run s).1.andThen ((walkSeq visit true rs).run ((walk visit r).run s).2).1,
      ((walkSeq visit true rs).run ((walk visit r).run s).2).2)
  := by
  rw [walkSeq, StateT.run_bind]
  simp only [bind, h]
  rfl

theorem run_walkSeq_of_not_empty {r : Rule} {s : Survey} (h : ¬ ((walk visit r).run s).1.empty)
    (passed : Bool) (rs : List Rule) :
  (walkSeq visit passed (r :: rs)).run s = (walk visit r).run s
  := by
  rw [walkSeq, StateT.run_bind]
  simp only [bind, h]
  rfl

mutual

/-- Walking over a rule whose left corners are targets. -/
theorem outcome_walk (hvisit : Visits ps visit entered target) : ∀ (r : Rule) {s : Survey},
    s.Valid ps → s.entered = entered → (∀ n, ps.Corner r (.nonterminal n) → target n) →
  Outcome ps (ps.Fits · r) (fun n => ps.Corner r (.nonterminal n)) s ((walk visit r).run s)
  | .terminal .., s, hs, _, _ => ⟨hs, .refl s, Productions.fits_terminal, by simp⟩
  | .nonterminal _ n, s, hs, he, ht => by
      have h := hvisit s n hs he (ht n (.nonterminal _ n))
      refine ⟨h.valid, h.later, (h.valid.known h.finished).fits, ?_⟩
      intro hc m hm
      cases Productions.corner_nonterminal.mp hm
      apply h.finished hc
  | .unresolved .., s, hs, _, _ => ⟨hs, .refl s, Productions.fits_unresolved, by simp⟩
  | .concat id rs, s, hs, he, ht => by
      have h := outcome_walkSeq hvisit false rs hs he fun n hn =>
        ht n (Productions.corner_concat.mpr hn)
      refine ⟨h.valid.require id _, ?_, h.fits.concat, ?_⟩
      · exact ⟨h.later.entered, h.later.found, h.later.leftRecursive⟩
      · intro hc n hn
        apply h.finished hc n (Productions.corner_concat.mp hn)
  | .choice _ rs, s, hs, he, ht => by
      have h := outcome_walkChoice hvisit rs hs he fun n r hr hn =>
        ht n (Productions.corner_choice.mpr ⟨r, hr, hn⟩)
      refine ⟨h.valid, h.later, h.fits.choice, ?_⟩
      intro hc n hn
      apply h.finished hc n (Productions.corner_choice.mp hn)
  | .option _ r, s, hs, he, ht => by
      have h := outcome_walk hvisit r hs he fun n hn => ht n (.option _ hn)
      refine ⟨h.valid, h.later, h.fits.option, ?_⟩
      intro hc n hn
      apply h.finished hc n (Productions.corner_option.mp hn)
  | .zeroOrMore _ r, s, hs, he, ht => by
      have h := outcome_walk hvisit r hs he fun n hn => ht n (.zeroOrMore _ hn)
      refine ⟨h.valid, h.later, h.fits.zeroOrMore, ?_⟩
      intro hc n hn
      apply h.finished hc n (Productions.corner_zeroOrMore.mp hn)
  | .oneOrMore _ r, s, hs, he, ht => by
      have h := outcome_walk hvisit r hs he fun n hn => ht n (.oneOrMore _ hn)
      refine ⟨h.valid, h.later, h.fits.oneOrMore, ?_⟩
      intro hc n hn
      apply h.finished hc n (Productions.corner_oneOrMore.mp hn)

/-- Walking over a sequence whose left corners are targets. -/
theorem outcome_walkSeq (hvisit : Visits ps visit entered target) :
    ∀ (passed : Bool) (rs : List Rule) {s : Survey}, s.Valid ps → s.entered = entered →
    (∀ n, ps.SeqCorner rs (.nonterminal n) → target n) →
  Outcome ps (ps.SeqFits · passed rs) (fun n => ps.SeqCorner rs (.nonterminal n)) s
    ((walkSeq visit passed rs).run s)
  | _, [], s, hs, _, _ => ⟨hs, .refl s, Productions.seqFits_nil, fun _ _ h => h.elim⟩
  | passed, r :: rs, s, hs, he, ht => by
      have h := outcome_walk hvisit r hs he fun n hn => ht n (.inl hn)
      by_cases hf : ((walk visit r).run s).1.empty
      · have hr := h.fits.empty hf
        have h' := outcome_walkSeq hvisit true rs h.valid (h.later.entered.trans he) fun n hn =>
          ht n (.inr ⟨hr, hn⟩)
        rw [run_walkSeq_of_empty hf]
        refine ⟨h'.valid, h.later.trans h'.later, ?_, ?_⟩
        · apply Productions.Fits.andThen _ hf h'.fits
          apply h.fits.imp h'.later.isClean
        · rintro hc n (hn | ⟨_, hn⟩)
          · apply h'.later.isSome (h.finished (h'.later.isClean hc) n hn)
          · apply h'.finished hc n hn
      · rw [run_walkSeq_of_not_empty hf]
        refine ⟨h.valid, h.later, h.fits.stop hf, ?_⟩
        rintro hc n (hn | ⟨hr, _⟩)
        · apply h.finished hc n hn
        · exact absurd (h.fits.of_empty hc hr) hf

/-- Walking over alternatives whose left corners are targets. -/
theorem outcome_walkChoice (hvisit : Visits ps visit entered target) :
    ∀ (rs : List Rule) {s : Survey},
    s.Valid ps → s.entered = entered → (∀ n, ∀ r ∈ rs, ps.Corner r (.nonterminal n) → target n) →
  Outcome ps (ps.ChoiceFits · rs) (fun n => ∃ r ∈ rs, ps.Corner r (.nonterminal n)) s
    ((walkChoice visit rs).run s)
  | [], s, hs, _, _ => ⟨hs, .refl s, Productions.choiceFits_nil, by simp⟩
  | r :: rs, s, hs, he, ht => by
      have h := outcome_walk hvisit r hs he fun n hn => ht n r List.mem_cons_self hn
      have h' := outcome_walkChoice hvisit rs h.valid (h.later.entered.trans he) fun n q hq hn =>
        ht n q (List.mem_cons_of_mem r hq) hn
      refine ⟨h'.valid, h.later.trans h'.later, ?_, ?_⟩
      · apply Productions.Fits.either _ h'.fits
        apply h.fits.imp h'.later.isClean
      · rintro hc n ⟨q, hq, hn⟩
        obtain rfl | hq := List.mem_cons.mp hq
        · apply h'.later.isSome (h.finished (h'.later.isClean hc) n hn)
        · apply h'.finished hc n ⟨q, hq, hn⟩

end

/-- Visits that do the same wherever they are made. -/
def SameVisits (ps : Productions) (visit visit' : NonterminalId → StateM Survey Unit)
    (entered : List NonterminalId) (target : NonterminalId → Prop) : Prop :=
  ∀ s n, s.Valid ps → s.entered = entered → target n → (visit' n).run s = (visit n).run s

mutual

/-- With visits that do the same, so do walks. -/
theorem run_walk_congr (hvisit : Visits ps visit entered target)
    (hsame : SameVisits ps visit visit' entered target) : ∀ (r : Rule) {s : Survey},
    s.Valid ps → s.entered = entered → (∀ n, ps.Corner r (.nonterminal n) → target n) →
  (walk visit' r).run s = (walk visit r).run s
  | .terminal .., _, _, _, _ => rfl
  | .nonterminal _ n, s, hs, he, ht => by
      have h := hsame s n hs he (ht n (.nonterminal _ n))
      rw [run_walk_nonterminal, run_walk_nonterminal, h]
  | .unresolved .., _, _, _, _ => rfl
  | .concat id rs, s, hs, he, ht => by
      have h := run_walkSeq_congr hvisit hsame false rs hs he fun n hn =>
        ht n (Productions.corner_concat.mpr hn)
      rw [run_walk_concat, run_walk_concat, h]
  | .choice _ rs, s, hs, he, ht =>
      run_walkChoice_congr hvisit hsame rs hs he fun n r hr hn =>
        ht n (Productions.corner_choice.mpr ⟨r, hr, hn⟩)
  | .option _ r, s, hs, he, ht => by
      have h := run_walk_congr hvisit hsame r hs he fun n hn => ht n (.option _ hn)
      rw [run_walk_option, run_walk_option, h]
  | .zeroOrMore _ r, s, hs, he, ht => by
      have h := run_walk_congr hvisit hsame r hs he fun n hn => ht n (.zeroOrMore _ hn)
      rw [run_walk_zeroOrMore, run_walk_zeroOrMore, h]
  | .oneOrMore _ r, s, hs, he, ht =>
      run_walk_congr hvisit hsame r hs he fun n hn => ht n (.oneOrMore _ hn)

theorem run_walkSeq_congr (hvisit : Visits ps visit entered target)
    (hsame : SameVisits ps visit visit' entered target) :
    ∀ (passed : Bool) (rs : List Rule) {s : Survey}, s.Valid ps → s.entered = entered →
    (∀ n, ps.SeqCorner rs (.nonterminal n) → target n) →
  (walkSeq visit' passed rs).run s = (walkSeq visit passed rs).run s
  | _, [], _, _, _, _ => rfl
  | passed, r :: rs, s, hs, he, ht => by
      have hr := run_walk_congr hvisit hsame r hs he fun n hn => ht n (.inl hn)
      have h := outcome_walk hvisit r hs he fun n hn => ht n (.inl hn)
      by_cases hf : ((walk visit r).run s).1.empty
      · have h' := run_walkSeq_congr hvisit hsame true rs h.valid (h.later.entered.trans he)
          fun n hn => ht n (.inr ⟨h.fits.empty hf, hn⟩)
        rw [run_walkSeq_of_empty hf, run_walkSeq_of_empty (by rwa [hr]), hr, h']
      · rw [run_walkSeq_of_not_empty hf, run_walkSeq_of_not_empty (by rwa [hr]), hr]

theorem run_walkChoice_congr (hvisit : Visits ps visit entered target)
    (hsame : SameVisits ps visit visit' entered target) : ∀ (rs : List Rule) {s : Survey},
    s.Valid ps → s.entered = entered → (∀ n, ∀ r ∈ rs, ps.Corner r (.nonterminal n) → target n) →
  (walkChoice visit' rs).run s = (walkChoice visit rs).run s
  | [], _, _, _, _ => rfl
  | r :: rs, s, hs, he, ht => by
      have hr := run_walk_congr hvisit hsame r hs he fun n hn => ht n r List.mem_cons_self hn
      have h := outcome_walk hvisit r hs he fun n hn => ht n r List.mem_cons_self hn
      have h' := run_walkChoice_congr hvisit hsame rs h.valid (h.later.entered.trans he)
        fun n q hq hn => ht n q (List.mem_cons_of_mem r hq) hn
      rw [run_walkChoice_cons, run_walkChoice_cons, hr, h']

end

end

/-! ### Exploring -/

/-- Exploring, with something else done when the depth runs out. -/
def exploreOr (stop : NonterminalId → StateM Survey Unit) (g : Grammar) :
    (depth : Nat) → NonterminalId → StateM Survey Unit
  | 0, n => stop n
  | depth + 1, n => do
    let s ← get
    if (s.find? n).isSome then return
    else if n ∈ s.entered then set (s.noteLeftRecursion n)
    else
      set (s.enter n)
      let f ← walkChoice (exploreOr stop g depth) (g.nonterminal n).alternatives
      modify (·.finish n f)

/-- The survey after the walk over all rules of a grammar, with something else done when the depth
runs out. -/
def ofGrammarOr (stop : NonterminalId → StateM Survey Unit) (g : Grammar) : Survey :=
  ((g.nonterminalIds.forM (exploreOr stop g (g.nonterminals.size + 1))).run start).2

theorem explore_eq (g : Grammar) (depth : Nat) :
  explore g depth = exploreOr (fun _ => pure ()) g depth
  := by
  induction depth with
  | zero => rfl
  | succ depth ih =>
    funext n
    rw [explore, exploreOr, ih]

section

variable {stop : NonterminalId → StateM Survey Unit} {g : Grammar} {depth : Nat} {n : NonterminalId}

theorem run_exploreOr_of_finished (h : (s.find? n).isSome) :
  (exploreOr stop g (depth + 1) n).run s = ((), s)
  := by
  simp [exploreOr, h]
  rfl

theorem run_exploreOr_of_entered (h : s.find? n = none) (he : n ∈ s.entered) :
  (exploreOr stop g (depth + 1) n).run s = ((), s.noteLeftRecursion n)
  := by
  simp [exploreOr, h, he]
  rfl

theorem run_exploreOr_of_new (h : s.find? n = none) (he : n ∉ s.entered) :
  (exploreOr stop g (depth + 1) n).run s =
    let p := (walkChoice (exploreOr stop g depth) (g.productions n)).run (s.enter n)
    ((), p.2.finish n p.1)
  := by
  simp [exploreOr, h, he]
  rfl

/-- There is room to explore: all that is entered has an index, and with the depth that is left
there is more than enough for all nonterminals. -/
structure Room (g : Grammar) (depth : Nat) (s : Survey) : Prop where
  lt_size : ∀ n ∈ s.entered, n.index < g.nonterminals.size
  size_lt : g.nonterminals.size < depth + s.entered.length

theorem Room.depth_ne_zero (h : s.Room g 0) (hs : s.Valid ps) :
  False
  := by
  have hd : (s.entered.map NonterminalId.index).Nodup := by
    apply hs.nodup_entered.map
    rintro ⟨m⟩ ⟨n⟩ rfl
    rfl
  have hr : s.entered.map NonterminalId.index ⊆ List.range g.nonterminals.size := by
    intro i hi
    obtain ⟨n, hn, rfl⟩ := List.mem_map.mp hi
    apply List.mem_range.mpr (h.lt_size n hn)
  have hl := (hd.subperm hr).length_le
  rw [List.length_map, List.length_range] at hl
  have := h.size_lt
  omega

theorem Valid.noteLeftRecursion (h : s.Valid ps) (hn : ps.LeftRecursive n) :
  (s.noteLeftRecursion n).Valid ps
  := by
  rw [Survey.noteLeftRecursion]
  split
  case isTrue => apply h
  case isFalse hnew =>
    have hc : ¬ { s with leftRecursive := s.leftRecursive ++ [n] }.IsClean := by simp [IsClean]
    constructor
    case nodup_entered => apply h.nodup_entered
    case not_finished => apply h.not_finished
    case chain => apply h.chain
    case fits =>
      intro m f hf
      apply (h.fits m f hf).imp fun h => absurd h hc
    case grounded =>
      intro h
      exact absurd h hc
    case nodup_leftRecursive =>
      apply List.nodup_append.mpr ⟨h.nodup_leftRecursive, by simp, by grind⟩
    case leftRecursive =>
      intro m hm
      obtain hm | hm := List.mem_append.mp hm
      · apply h.leftRecursive m hm
      · rwa [List.mem_singleton.mp hm]

theorem extends_noteLeftRecursion :
  s.Extends (s.noteLeftRecursion n)
  := by
  rw [Survey.noteLeftRecursion]
  split
  · apply Extends.refl
  · exact ⟨rfl, fun _ _ => rfl, List.prefix_append _ _⟩

theorem not_isClean_noteLeftRecursion :
  ¬ (s.noteLeftRecursion n).IsClean
  := by
  rw [Survey.noteLeftRecursion]
  split
  case isTrue h => apply List.ne_nil_of_mem h
  case isFalse => simp [IsClean]

/-- What is met while it is entered is left recursive. -/
theorem Valid.leftRecursive_of_entered (h : s.Valid ps) (hn : n ∈ s.entered)
    (ht : ∀ m ∈ s.entered.head?, ps.LeftCorner m n) :
  ps.LeftRecursive n
  := by
  obtain ⟨m, hm⟩ := Option.isSome_iff_exists.mp (List.isSome_head?.mpr (List.ne_nil_of_mem hn))
  apply Relation.TransGen.tail' (h.chain n hn m hm) (ht m hm)

theorem Valid.enter (h : s.Valid ps) (hf : s.find? n = none) (he : n ∉ s.entered)
    (ht : ∀ m ∈ s.entered.head?, ps.LeftCorner m n) :
  (s.enter n).Valid ps
  := by
  constructor
  case nodup_entered => apply List.nodup_cons.mpr ⟨he, h.nodup_entered⟩
  case not_finished => exact List.forall_mem_cons.mpr ⟨hf, h.not_finished⟩
  case chain =>
    rintro k hk _ ⟨⟩
    obtain rfl | hk := List.mem_cons.mp hk
    · apply Relation.ReflTransGen.refl
    · obtain ⟨m, hm⟩ := Option.isSome_iff_exists.mp
        (List.isSome_head?.mpr (List.ne_nil_of_mem hk))
      apply (h.chain k hk m hm).tail (ht m hm)
  case fits => apply h.fits
  case grounded => apply h.grounded
  case nodup_leftRecursive => apply h.nodup_leftRecursive
  case leftRecursive => apply h.leftRecursive

theorem find?_finish (f : FirstSet) (m : NonterminalId) :
  (s.finish n f).find? m = if m = n then some f else s.find? m
  := by
  by_cases hm : m = n
  · simp [finish, find?, hm]
  · simp [finish, find?, hm, Ne.symm hm]

/-- Finishing the nonterminal entered last, with a set that fits it, when its left corners are
finished unless something is reported. -/
theorem Valid.finish {entered : List NonterminalId} {f : FirstSet} (h : s.Valid ps)
    (he : s.entered = n :: entered)
    (hchain : ∀ k ∈ entered, ∀ m ∈ entered.head?, Relation.ReflTransGen ps.LeftCorner k m)
    (hf : ps.NonterminalFits s.IsClean n f)
    (hg : s.IsClean → ∀ m, ps.LeftCorner n m → (s.find? m).isSome) :
  (s.finish n f).Valid ps
  := by
  have hn := h.nodup_entered
  rw [he, List.nodup_cons] at hn
  have he' : (s.finish n f).entered = entered := by simp [Survey.finish, he]
  constructor
  case nodup_entered =>
    rw [he']
    apply hn.2
  case not_finished =>
    rw [he']
    intro m hm
    rw [find?_finish, if_neg (ne_of_mem_of_not_mem hm hn.1)]
    apply h.not_finished
    rw [he]
    apply List.mem_cons_of_mem n hm
  case chain =>
    rw [he']
    apply hchain
  case fits =>
    intro m f' hf'
    rw [find?_finish] at hf'
    split at hf'
    case isTrue hm =>
      cases hf'
      cases hm
      apply hf
    case isFalse => apply h.fits m f' hf'
  case grounded =>
    intro hc m hm
    rw [find?_finish] at hm
    split at hm
    case isTrue hmn =>
      rw [hmn]
      constructor
      intro k hk
      apply h.grounded hc k (hg hc k hk)
    case isFalse => apply h.grounded hc m hm
  case nodup_leftRecursive => apply h.nodup_leftRecursive
  case leftRecursive => apply h.leftRecursive

theorem Extends.finish {f : FirstSet} (h : (s.enter n).Extends s') (hf : s.find? n = none) :
  s.Extends (s'.finish n f)
  := by
  constructor
  · rw [Survey.finish, h.entered]
    apply List.erase_cons_head n s.entered
  · intro m hm
    have hmn : m ≠ n := by
      rintro rfl
      rw [hf] at hm
      cases hm
    rw [find?_finish, if_neg hmn]
    apply h.found m hm
  · apply h.leftRecursive

/-- The walk over the alternatives of a nonterminal that is entered visits left corners of it. -/
theorem Room.enter (h : s.Room g (depth + 1)) {m : NonterminalId}
    (hm : g.productions.LeftCorner n m)
    {s' : Survey} (he : s'.entered = n :: s.entered) :
  s'.Room g depth
  := by
  obtain ⟨r, hr, _⟩ := hm
  constructor
  · rw [he]
    exact List.forall_mem_cons.mpr ⟨Grammar.lt_size_of_mem_productions hr, h.lt_size⟩
  · have := h.size_lt
    rw [he, List.length_cons]
    omega

theorem leftCorner_of_head? {entered : List NonterminalId} {m : NonterminalId}
    (he : s.entered = n :: entered) (hm : ps.LeftCorner n m) :
  ∀ k ∈ s.entered.head?, ps.LeftCorner k m
  := by
  rw [he]
  rintro _ ⟨⟩
  apply hm

/-- Exploring is a visit to a left corner of what was entered last, or to any nonterminal when
nothing is entered. -/
theorem visited_exploreOr (stop : NonterminalId → StateM Survey Unit) (g : Grammar) (depth : Nat) :
    ∀ {s : Survey} {n : NonterminalId}, s.Valid g.productions → s.Room g depth →
    (∀ m ∈ s.entered.head?, g.productions.LeftCorner m n) →
  Visited g.productions n s ((exploreOr stop g depth n).run s).2
  := by
  induction depth with
  | zero =>
    intro s n hs hroom _
    apply (hroom.depth_ne_zero hs).elim
  | succ depth ih =>
    intro s n hs hroom ht
    by_cases hf : (s.find? n).isSome
    · rw [run_exploreOr_of_finished hf]
      exact ⟨hs, .refl s, fun _ => hf⟩
    · rw [Option.not_isSome_iff_eq_none] at hf
      by_cases he : n ∈ s.entered
      · rw [run_exploreOr_of_entered hf he]
        have hn := hs.leftRecursive_of_entered he ht
        exact ⟨hs.noteLeftRecursion hn, extends_noteLeftRecursion,
          fun hc => absurd hc not_isClean_noteLeftRecursion⟩
      · rw [run_exploreOr_of_new hf he]
        have hvisit : Visits g.productions (exploreOr stop g depth) (n :: s.entered)
            (g.productions.LeftCorner n) := by
          intro s' m hs' he' hm
          apply ih hs' (hroom.enter hm he') (leftCorner_of_head? he' hm)
        have h := outcome_walkChoice hvisit (g.productions n) (hs.enter hf he ht) rfl
          fun m r hr hm => ⟨r, hr, hm⟩
        constructor
        · apply h.valid.finish h.later.entered hs.chain h.fits h.finished
        · apply h.later.finish hf
        · intro _
          simp [find?_finish]

/-- Exploring never goes so deep that it would matter what is done then. -/
theorem run_exploreOr (stop stop' : NonterminalId → StateM Survey Unit) (g : Grammar)
    (depth : Nat) :
    ∀ {s : Survey} {n : NonterminalId}, s.Valid g.productions → s.Room g depth →
    (∀ m ∈ s.entered.head?, g.productions.LeftCorner m n) →
  (exploreOr stop' g depth n).run s = (exploreOr stop g depth n).run s
  := by
  induction depth with
  | zero =>
    intro s n hs hroom _
    apply (hroom.depth_ne_zero hs).elim
  | succ depth ih =>
    intro s n hs hroom ht
    by_cases hf : (s.find? n).isSome
    · rw [run_exploreOr_of_finished hf, run_exploreOr_of_finished hf]
    · rw [Option.not_isSome_iff_eq_none] at hf
      by_cases he : n ∈ s.entered
      · rw [run_exploreOr_of_entered hf he, run_exploreOr_of_entered hf he]
      · have hvisit : Visits g.productions (exploreOr stop g depth) (n :: s.entered)
            (g.productions.LeftCorner n) := by
          intro s' m hs' he' hm
          apply visited_exploreOr stop g depth hs' (hroom.enter hm he') (leftCorner_of_head? he' hm)
        have hsame : SameVisits g.productions (exploreOr stop g depth) (exploreOr stop' g depth)
            (n :: s.entered) (g.productions.LeftCorner n) := by
          intro s' m hs' he' hm
          apply ih hs' (hroom.enter hm he') (leftCorner_of_head? he' hm)
        have h := run_walkChoice_congr hvisit hsame (g.productions n) (hs.enter hf he ht) rfl
          fun m r hr hm => ⟨r, hr, hm⟩
        rw [run_exploreOr_of_new hf he, run_exploreOr_of_new hf he, h]

end

/-! ### The survey of a grammar -/

theorem run_forM_cons (visit : NonterminalId → StateM Survey Unit) (n : NonterminalId)
    (ns : List NonterminalId) (s : Survey) :
  ((n :: ns).forM visit).run s = (ns.forM visit).run ((visit n).run s).2
  := rfl

/-- Exploring one nonterminal after the other. -/
theorem visited_forM (stop : NonterminalId → StateM Survey Unit) (g : Grammar)
    (ns : List NonterminalId) : ∀ {s : Survey}, s.Valid g.productions → s.entered = [] →
  let s' := ((ns.forM (exploreOr stop g (g.nonterminals.size + 1))).run s).2
  s'.Valid g.productions ∧ s.Extends s' ∧ (s'.IsClean → ∀ n ∈ ns, (s'.find? n).isSome)
  := by
  induction ns with
  | nil =>
    intro s hs _
    exact ⟨hs, .refl s, by simp⟩
  | cons n ns ih =>
    intro s hs he
    have h := visited_exploreOr stop g (g.nonterminals.size + 1) (n := n) hs
      ⟨by simp [he], by simp [he]⟩ (by simp [he])
    obtain ⟨hv, hx, hn⟩ := ih h.valid (h.later.entered.trans he)
    refine ⟨hv, h.later.trans hx, ?_⟩
    intro hc m hm
    obtain rfl | hm := List.mem_cons.mp hm
    · apply hx.isSome (h.finished (hx.isClean hc))
    · apply hn hc m hm

theorem run_forM_exploreOr (stop stop' : NonterminalId → StateM Survey Unit) (g : Grammar)
    (ns : List NonterminalId) : ∀ {s : Survey}, s.Valid g.productions → s.entered = [] →
  (ns.forM (exploreOr stop' g (g.nonterminals.size + 1))).run s =
    (ns.forM (exploreOr stop g (g.nonterminals.size + 1))).run s
  := by
  induction ns with
  | nil =>
    intro s _ _
    rfl
  | cons n ns ih =>
    intro s hs he
    have hroom : s.Room g (g.nonterminals.size + 1) := ⟨by simp [he], by simp [he]⟩
    have hr := run_exploreOr stop stop' g (g.nonterminals.size + 1) (n := n) hs hroom (by simp [he])
    have h := visited_exploreOr stop g (g.nonterminals.size + 1) (n := n) hs hroom (by simp [he])
    have h' := ih h.valid (h.later.entered.trans he)
    rw [run_forM_cons, run_forM_cons, hr, h']

/-- The survey of a grammar is the same whatever is done when the depth runs out: it never does. -/
theorem ofGrammarOr_eq (stop : NonterminalId → StateM Survey Unit) (g : Grammar) :
  ofGrammarOr stop g = ofGrammar g
  := by
  rw [ofGrammarOr, ofGrammar]
  rw [explore_eq, run_forM_exploreOr (fun _ => pure ()) stop g g.nonterminalIds valid_start rfl]

variable (g : Grammar)

theorem valid_ofGrammar :
  (ofGrammar g).Valid g.productions
  := by
  rw [← ofGrammarOr_eq fun _ => pure ()]
  apply (visited_forM _ g g.nonterminalIds valid_start rfl).1

/-- If nothing is reported, all nonterminals are finished. -/
theorem finished_ofGrammar (hc : (ofGrammar g).IsClean) {n : NonterminalId}
    (hn : n ∈ g.nonterminalIds) :
  ((ofGrammar g).find? n).isSome
  := by
  rw [← ofGrammarOr_eq fun _ => pure ()] at hc ⊢
  apply (visited_forM _ g g.nonterminalIds valid_start rfl).2.2 hc n hn

/-- A nonterminal is reported if one is left recursive, and only then. -/
theorem isClean_ofGrammar_iff :
  (ofGrammar g).IsClean ↔ ∀ n, ¬ g.productions.LeftRecursive n
  := by
  constructor
  · intro hc n hn
    obtain ⟨m, ⟨r, hr, _⟩, _⟩ := Relation.TransGen.head'_iff.mp hn
    have hmem := Grammar.mem_nonterminalIds.mpr (Grammar.lt_size_of_mem_productions hr)
    have hf := finished_ofGrammar g hc hmem
    apply ((valid_ofGrammar g).grounded hc n hf).not_leftRecursive hn
  · intro h
    apply List.eq_nil_iff_forall_not_mem.mpr
    intro n hn
    apply h n ((valid_ofGrammar g).leftRecursive n hn)

end Survey

end Descent
