import Descent.Proofs.Assembly
import Descent.Proofs.FirstSets

/-!
# Where terminals are required

A walk over the rules of a grammar notes for terminals the sequence that last required them, while
the sets of nonterminals are still partial.  What it notes is right when all sets are known, and as
no id is used twice the sequence is found by its id (`Grammar.Assembles.origin?_requires`).

* Sets only grow from one rule to the next: a partial set is within the set that is known in the end
  (`FirstSet.Within`, `Survey.Within`).
* So a terminal that a sequence requires at some time is in the set that the sequence has in the end
  (`Survey.Sound`), and the sequences that a nonterminal without left recursion may choose from have
  noted all their terminals when it is finished (`Survey.Thorough`).
* Both are kept by walks and visits (`Survey.Keeps`, `Survey.gathers_walk`,
  `Survey.keeps_exploreOr`).
-/

namespace Descent

/-! ### Sets within sets -/

/-- A set that claims no more than another one. -/
structure FirstSet.Within (f h : FirstSet) : Prop where
  empty : f.empty → h.empty
  terminals : ∀ t ∈ f.terminals, t ∈ h.terminals

namespace FirstSet

variable {f f' h h' : FirstSet}

theorem Within.refl (f : FirstSet) :
  f.Within f
  := ⟨id, fun _ => id⟩

theorem within_none :
  FirstSet.none.Within h
  := ⟨nofun, nofun⟩

theorem Within.optional (hf : f.Within h) :
  f.optional.Within h.optional
  := ⟨id, hf.terminals⟩

theorem Within.either (hf : f.Within h) (hf' : f'.Within h') :
  (f.either f').Within (h.either h')
  := by
  constructor
  · intro he
    exact Bool.or_eq_true_iff.mpr ((Bool.or_eq_true_iff.mp he).imp hf.empty hf'.empty)
  · intro t ht
    exact mem_join.mpr ((mem_join.mp ht).imp (hf.terminals t) (hf'.terminals t))

theorem Within.andThen (hf : f.Within h) (hf' : f'.Within h') :
  (f.andThen f').Within (h.andThen h')
  := by
  refine ⟨hf'.empty, ?_⟩
  intro t ht
  exact mem_join.mpr ((mem_join.mp ht).imp (hf.terminals t) (hf'.terminals t))

end FirstSet

namespace Survey

variable {g : Grammar} {sets : NonterminalId → FirstSet} {s s' s'' : Survey}

/-- What is known claims no more than `sets`. -/
def Within (s : Survey) (sets : NonterminalId → FirstSet) : Prop :=
  ∀ n, (s.known n).Within (sets n)

/-- Earlier on less is known. -/
theorem Extends.within (h : s.Extends s') (hs : s'.Within sets) :
  s.Within sets
  := by
  intro n
  by_cases hn : (s.find? n).isSome
  case pos =>
    have hknown := hs n
    rwa [known, h.found n hn] at hknown
  case neg =>
    rw [known, Option.not_isSome_iff_eq_none.mp hn]
    exact FirstSet.within_none

/-! ### Noting terminals -/

theorem get?_require (s : Survey) (id : RuleId) (ts : List TerminalId) (t : TerminalId) :
  (s.require id ts).origins.get? t = if t ∈ ts then some id else s.origins.get? t
  := by
  rw [require]
  generalize s.origins = m
  induction ts generalizing m with
  | nil => rfl
  | cons u ts ih =>
    rw [List.foldl_cons, ih]
    by_cases hu : t = u
    case pos => simp [hu]
    case neg => simp [hu, OrderedMap.get?_insert_ne m hu]

/-- Terminals are noted for sequences of the grammar whose sets have them. -/
def Sound (g : Grammar) (sets : NonterminalId → FirstSet) (s : Survey) : Prop :=
  ∀ t id, s.origins.get? t = some id →
    ∃ rs, .concat id rs ∈ g.nodes ∧ t ∈ ((Rule.concat id rs).first sets).terminals

/-- As long as nothing is reported, what the sequences that a finished nonterminal may choose from
begin with is noted. -/
def Thorough (g : Grammar) (s : Survey) : Prop :=
  s.IsClean → ∀ n, (s.find? n).isSome → ∀ id rs, .concat id rs ∈ g.productions n →
    ∀ t, g.productions.SeqBegins rs t → (s.origins.get? t).isSome

/-- What is noted stays as it should be from one survey to a later one. -/
structure Keeps (g : Grammar) (sets : NonterminalId → FirstSet) (s s' : Survey) : Prop where
  later : s.Extends s'
  noted : ∀ t, (s.origins.get? t).isSome → (s'.origins.get? t).isSome
  sound : s'.Within sets → s.Sound g sets → s'.Sound g sets
  thorough : s.Thorough g → s'.Thorough g

theorem Keeps.refl (s : Survey) :
  Keeps g sets s s
  := ⟨.refl s, fun _ => id, fun _ => id, id⟩

theorem Keeps.trans (h : Keeps g sets s s') (h' : Keeps g sets s' s'') :
  Keeps g sets s s''
  := by
  constructor
  case later => exact h.later.trans h'.later
  case noted => exact fun t ht => h'.noted t (h.noted t ht)
  case sound => exact fun hs hsound => h'.sound hs (h.sound (h'.later.within hs) hsound)
  case thorough => exact fun ht => h'.thorough (h.thorough ht)

/-- A sequence of the grammar notes its terminals. -/
theorem Keeps.require {id : RuleId} {rs : List Rule} {f : FirstSet} (h : Keeps g sets s s')
    (hnode : .concat id rs ∈ g.nodes)
    (hf : s'.Within sets → f.Within ((Rule.concat id rs).first sets)) :
  Keeps g sets s (s'.require id f.terminals)
  := by
  have hnoted : ∀ t, (s'.origins.get? t).isSome →
      ((s'.require id f.terminals).origins.get? t).isSome := by
    intro t ht
    rw [get?_require]
    split
    · rfl
    · exact ht
  constructor
  case later => exact ⟨h.later.entered, h.later.found, h.later.leftRecursive⟩
  case noted => exact fun t ht => hnoted t (h.noted t ht)
  case sound =>
    intro hs hsound t id' hid
    rw [get?_require] at hid
    split at hid
    case isTrue ht =>
      cases hid
      exact ⟨rs, hnode, (hf hs).terminals t ht⟩
    case isFalse => exact h.sound hs hsound t id' hid
  case thorough =>
    exact fun ht hc n hn id rs hrs t hbegins => hnoted t (h.thorough ht hc n hn id rs hrs t hbegins)

/-! ### Walks -/

/-- The outcome of a walk over rules whose set in the end is `bound`. -/
structure Gathers (g : Grammar) (sets : NonterminalId → FirstSet) (bound : FirstSet) (s : Survey)
    (p : FirstSet × Survey) : Prop where
  keeps : Keeps g sets s p.2
  within : p.2.Within sets → p.1.Within bound

section

variable {visit : NonterminalId → StateM Survey Unit} {entered : List NonterminalId}
  {target : NonterminalId → Prop}

/-- Visiting a target keeps what is noted as it should be. -/
def Preserves (g : Grammar) (sets : NonterminalId → FirstSet)
    (visit : NonterminalId → StateM Survey Unit) (entered : List NonterminalId)
    (target : NonterminalId → Prop) : Prop :=
  ∀ s n, s.Valid g.productions → s.entered = entered → target n →
    Keeps g sets s ((visit n).run s).2

mutual

/-- Walking over a rule of the grammar whose left corners are targets. -/
theorem gathers_walk (hvisit : Visits g.productions visit entered target)
    (hkeeps : Preserves g sets visit entered target) :
    ∀ (r : Rule) {s : Survey}, r.nodes ⊆ g.nodes → s.Valid g.productions → s.entered = entered →
    (∀ n, g.productions.Corner r (.nonterminal n) → target n) →
  Gathers g sets (r.first sets) s ((walk visit r).run s)
  | .terminal .., s, _, _, _, _ => ⟨.refl s, fun _ => .refl _⟩
  | .nonterminal _ n, s, _, hs, he, ht =>
      ⟨hkeeps s n hs he (ht n (.nonterminal _ n)), fun hsets => hsets n⟩
  | .unresolved .., s, _, _, _, _ => ⟨.refl s, fun _ => .refl _⟩
  | .concat id rs, s, hnodes, hs, he, ht => by
      obtain ⟨hnode, hnodes⟩ := List.cons_subset.mp hnodes
      have h := gathers_walkSeq hvisit hkeeps false rs hnodes hs he fun n hn =>
        ht n (Productions.corner_concat.mpr hn)
      exact ⟨h.keeps.require hnode h.within, h.within⟩
  | .choice _ rs, s, hnodes, hs, he, ht => by
      have h := gathers_walkChoice hvisit hkeeps rs (List.cons_subset.mp hnodes).2 hs he
        fun n r hr hn => ht n (Productions.corner_choice.mpr ⟨r, hr, hn⟩)
      exact ⟨h.keeps, h.within⟩
  | .option _ r, s, hnodes, hs, he, ht => by
      have h := gathers_walk hvisit hkeeps r (List.cons_subset.mp hnodes).2 hs he fun n hn =>
        ht n (.option _ hn)
      exact ⟨h.keeps, fun hsets => (h.within hsets).optional⟩
  | .zeroOrMore _ r, s, hnodes, hs, he, ht => by
      have h := gathers_walk hvisit hkeeps r (List.cons_subset.mp hnodes).2 hs he fun n hn =>
        ht n (.zeroOrMore _ hn)
      exact ⟨h.keeps, fun hsets => (h.within hsets).optional⟩
  | .oneOrMore _ r, s, hnodes, hs, he, ht => by
      have h := gathers_walk hvisit hkeeps r (List.cons_subset.mp hnodes).2 hs he fun n hn =>
        ht n (.oneOrMore _ hn)
      exact ⟨h.keeps, h.within⟩

/-- Walking over a sequence of rules of the grammar.  A part that may be empty by now may be so in
the end; beyond one that may not be empty yet the set in the end may go on. -/
theorem gathers_walkSeq (hvisit : Visits g.productions visit entered target)
    (hkeeps : Preserves g sets visit entered target) :
    ∀ (passed : Bool) (rs : List Rule) {s : Survey},
    Rule.nodesAll rs ⊆ g.nodes → s.Valid g.productions → s.entered = entered →
    (∀ n, g.productions.SeqCorner rs (.nonterminal n) → target n) →
  Gathers g sets (Rule.firstSeq sets passed rs) s ((walkSeq visit passed rs).run s)
  | _, [], s, _, _, _, _ => ⟨.refl s, fun _ => .refl _⟩
  | passed, r :: rs, s, hnodes, hs, he, ht => by
      obtain ⟨hr, hrs⟩ := List.append_subset.mp hnodes
      have hcorner : ∀ n, g.productions.Corner r (.nonterminal n) → target n :=
        fun n hn => ht n (.inl hn)
      have ho := outcome_walk hvisit r hs he hcorner
      have h := gathers_walk hvisit hkeeps r hr hs he hcorner
      rw [Rule.firstSeq]
      by_cases hf : ((walk visit r).run s).1.empty
      case pos =>
        have h' := gathers_walkSeq hvisit hkeeps true rs hrs ho.valid (ho.later.entered.trans he)
          fun n hn => ht n (.inr ⟨ho.fits.empty hf, hn⟩)
        rw [run_walkSeq_of_empty hf]
        refine ⟨h.keeps.trans h'.keeps, ?_⟩
        intro hsets
        have hwithin := h.within (h'.keeps.later.within hsets)
        rw [if_pos (hwithin.empty hf)]
        exact hwithin.andThen (h'.within hsets)
      case neg =>
        rw [run_walkSeq_of_not_empty hf]
        refine ⟨h.keeps, ?_⟩
        intro hsets
        have hwithin := h.within hsets
        split
        · exact ⟨fun he => absurd he hf,
            fun t ht => FirstSet.mem_join.mpr (.inl (hwithin.terminals t ht))⟩
        · exact hwithin

/-- Walking over alternatives of the grammar. -/
theorem gathers_walkChoice (hvisit : Visits g.productions visit entered target)
    (hkeeps : Preserves g sets visit entered target) :
    ∀ (rs : List Rule) {s : Survey},
    Rule.nodesAll rs ⊆ g.nodes → s.Valid g.productions → s.entered = entered →
    (∀ n, ∀ r ∈ rs, g.productions.Corner r (.nonterminal n) → target n) →
  Gathers g sets (Rule.firstChoice sets rs) s ((walkChoice visit rs).run s)
  | [], s, _, _, _, _ => ⟨.refl s, fun _ => .refl _⟩
  | r :: rs, s, hnodes, hs, he, ht => by
      obtain ⟨hr, hrs⟩ := List.append_subset.mp hnodes
      have hcorner : ∀ n, g.productions.Corner r (.nonterminal n) → target n :=
        fun n hn => ht n r List.mem_cons_self hn
      have ho := outcome_walk hvisit r hs he hcorner
      have h := gathers_walk hvisit hkeeps r hr hs he hcorner
      have h' := gathers_walkChoice hvisit hkeeps rs hrs ho.valid (ho.later.entered.trans he)
        fun n q hq hn => ht n q (List.mem_cons_of_mem r hq) hn
      rw [run_walkChoice_cons]
      exact ⟨h.keeps.trans h'.keeps,
        fun hsets => (h.within (h'.keeps.later.within hsets)).either (h'.within hsets)⟩

end

/-- As long as nothing is reported, sequences among the alternatives note what they begin with. -/
theorem isSome_walkChoice (hvisit : Visits g.productions visit entered target)
    (hkeeps : Preserves g sets visit entered target)
    {id : RuleId} {qs : List Rule} {t : TerminalId}
    (ht : g.productions.SeqBegins qs t) : ∀ (rs : List Rule) {s : Survey},
    Rule.nodesAll rs ⊆ g.nodes → s.Valid g.productions → s.entered = entered →
    (∀ n, ∀ r ∈ rs, g.productions.Corner r (.nonterminal n) → target n) →
    .concat id qs ∈ rs → ((walkChoice visit rs).run s).2.IsClean →
  (((walkChoice visit rs).run s).2.origins.get? t).isSome
  := by
  intro rs
  induction rs with
  | nil => nofun
  | cons r rs ih =>
    intro s hnodes hs he htarget hmem hclean
    obtain ⟨hr, hrs⟩ := List.append_subset.mp hnodes
    have ho := outcome_walk hvisit r hs he fun n hn => htarget n r List.mem_cons_self hn
    have he' := ho.later.entered.trans he
    have htarget' : ∀ n, ∀ q ∈ rs, g.productions.Corner q (.nonterminal n) → target n :=
      fun n q hq hn => htarget n q (List.mem_cons_of_mem r hq) hn
    rw [run_walkChoice_cons] at hclean ⊢
    obtain rfl | hmem := List.mem_cons.mp hmem
    · have h' := (gathers_walkChoice hvisit hkeeps rs hrs ho.valid he' htarget').keeps
      apply h'.noted t
      have hterminals := ho.fits.of_terminals (h'.later.isClean hclean) t
        (Productions.begins_concat.mpr ht)
      rw [run_walk_concat] at hterminals ⊢
      rw [get?_require, if_pos hterminals]
      rfl
    · exact ih hrs ho.valid he' htarget' hmem hclean

end

/-! ### Exploring -/

theorem nodesAll_productions_subset (n : NonterminalId) :
  Rule.nodesAll (g.productions n) ⊆ g.nodes
  := fun _ hq =>
    have ⟨r, hr, hnode⟩ := Rule.mem_nodesAll.mp hq
    Grammar.mem_nodes.mpr ⟨n, r, hr, hnode⟩

theorem keeps_noteLeftRecursion {n : NonterminalId} :
  Keeps g sets s (s.noteLeftRecursion n)
  := by
  have horigins : (s.noteLeftRecursion n).origins = s.origins := by
    rw [noteLeftRecursion]
    split <;> rfl
  constructor
  case later => exact extends_noteLeftRecursion
  case noted => simp only [horigins, imp_self, implies_true]
  case sound => simp only [Sound, horigins, imp_self, implies_true]
  case thorough => exact fun _ hc => absurd hc not_isClean_noteLeftRecursion

/-- Finishing a nonterminal whose sequences have noted what they begin with. -/
theorem Keeps.finish {n : NonterminalId} {f : FirstSet} (h : Keeps g sets (s.enter n) s')
    (hs : s.find? n = none) (hs' : s'.find? n = none)
    (hnoted : s'.IsClean → ∀ id rs, .concat id rs ∈ g.productions n →
      ∀ t, g.productions.SeqBegins rs t → (s'.origins.get? t).isSome) :
  Keeps g sets s (s'.finish n f)
  := by
  constructor
  case later => exact h.later.finish hs
  case noted => exact h.noted
  case sound =>
    intro hsets
    -- What is not finished contributes nothing yet.
    have hsets' : s'.Within sets := by
      intro m
      by_cases hm : m = n
      case pos =>
        rw [known, hm, hs']
        exact FirstSet.within_none
      case neg =>
        have hknown := hsets m
        rwa [known, find?_finish, if_neg hm] at hknown
    exact h.sound hsets'
  case thorough =>
    intro ht hc m hm
    rw [find?_finish] at hm
    split at hm
    case isTrue hmn =>
      rw [hmn]
      exact hnoted hc
    case isFalse => exact h.thorough ht hc m hm

/-- Exploring keeps what is noted as it should be. -/
theorem keeps_exploreOr (stop : NonterminalId → StateM Survey Unit) (g : Grammar)
    (sets : NonterminalId → FirstSet) (depth : Nat) :
    ∀ {s : Survey} {n : NonterminalId}, s.Valid g.productions → s.Room g depth →
    (∀ m ∈ s.entered.head?, g.productions.LeftCorner m n) →
  Keeps g sets s ((exploreOr stop g depth n).run s).2
  := by
  induction depth with
  | zero =>
    intro s n hs hroom _
    exact (hroom.depth_ne_zero hs).elim
  | succ depth ih =>
    intro s n hs hroom ht
    by_cases hf : (s.find? n).isSome
    · rw [run_exploreOr_of_finished hf]
      exact .refl s
    · rw [Option.not_isSome_iff_eq_none] at hf
      by_cases he : n ∈ s.entered
      · rw [run_exploreOr_of_entered hf he]
        exact keeps_noteLeftRecursion
      · rw [run_exploreOr_of_new hf he]
        have hvisit : Visits g.productions (exploreOr stop g depth) (n :: s.entered)
            (g.productions.LeftCorner n) := by
          intro s' m hs' he' hm
          exact visited_exploreOr stop g depth hs' (hroom.enter hm he') (leftCorner_of_head? he' hm)
        have hkeeps : Preserves g sets (exploreOr stop g depth) (n :: s.entered)
            (g.productions.LeftCorner n) := by
          intro s' m hs' he' hm
          exact ih hs' (hroom.enter hm he') (leftCorner_of_head? he' hm)
        have htarget : ∀ m, ∀ r ∈ g.productions n, g.productions.Corner r (.nonterminal m) →
            g.productions.LeftCorner n m := fun m r hr hm => ⟨r, hr, hm⟩
        have hnodes := nodesAll_productions_subset (g := g) n
        have hs' := hs.enter hf he ht
        have ho := outcome_walkChoice hvisit (g.productions n) hs' rfl htarget
        have h := gathers_walkChoice hvisit hkeeps (g.productions n) hnodes hs' rfl htarget
        apply h.keeps.finish hf
        · apply ho.valid.not_finished
          rw [ho.later.entered]
          exact List.mem_cons_self
        · intro hc id rs hrs t hbegins
          exact isSome_walkChoice hvisit hkeeps hbegins (g.productions n) hnodes hs' rfl htarget
            hrs hc

theorem keeps_forM (stop : NonterminalId → StateM Survey Unit) (g : Grammar)
    (sets : NonterminalId → FirstSet) (ns : List NonterminalId) :
    ∀ {s : Survey}, s.Valid g.productions → s.entered = [] →
  Keeps g sets s ((ns.forM (exploreOr stop g (g.nonterminals.size + 1))).run s).2
  := by
  induction ns with
  | nil =>
    intro s _ _
    exact .refl s
  | cons n ns ih =>
    intro s hs he
    have hroom : s.Room g (g.nonterminals.size + 1) := ⟨by simp [he], by simp [he]⟩
    have h := visited_exploreOr stop g (g.nonterminals.size + 1) (n := n) hs hroom (by simp [he])
    exact (keeps_exploreOr stop g sets _ hs hroom (by simp [he])).trans
      (ih h.valid (h.later.entered.trans he))

theorem keeps_ofGrammar (g : Grammar) (sets : NonterminalId → FirstSet) :
  Keeps g sets start (ofGrammar g)
  := by
  rw [← ofGrammarOr_eq fun _ => pure ()]
  exact keeps_forM _ g sets g.nonterminalIds valid_start rfl

theorem within_of (g : Grammar) :
  (ofGrammar g).Within (FirstSets.ofGrammar g).of
  := by
  intro n
  by_cases hn : n ∈ g.nonterminalIds
  case pos =>
    rw [FirstSets.of_ofGrammar g hn]
    exact .refl _
  case neg =>
    rw [FirstSets.of_ofGrammar_of_notMem g hn, known]
    cases hf : (ofGrammar g).find? n with
    | none => exact .refl _
    | some f =>
      have hfits := (valid_ofGrammar g).fits n f hf
      rw [Productions.NonterminalFits, Grammar.productions_eq_nil hn] at hfits
      refine ⟨fun he => ?_, fun t ht => ?_⟩
      · simpa using hfits.empty he
      · simpa using hfits.terminals t ht

end Survey

/-! ### Origins -/

namespace Grammar

variable {g : Grammar} {loose : List Rule}

theorem Assembles.nodup_nodes [Engine] (h : g.Assembles loose) :
  (g.nodes.map Rule.id).Nodup
  := by
  have hids := h.unshared.nodup
  rw [Rule.ids_append, Rule.ids, nodesAll_rules] at hids
  exact hids.of_append_left

/-- A sequence that is noted for a terminal is found by its id, is the only node with that id, and
has the terminal in its set.  If nothing is left recursive, a terminal that is in the set of a
sequence that a nonterminal may choose has a sequence noted for it. -/
theorem Assembles.origin?_requires [Engine] (h : g.Assembles loose) :
  (∀ t id, g.firstSets.origin? t = some id →
      ∃ n rs, g.findRule? id = some (n, .concat id rs) ∧
        (g.nodes.filter fun q => q.id = id) = [.concat id rs] ∧
        t ∈ (g.firstSets.ofRule (.concat id rs)).terminals) ∧
    (g.firstSets.diagnostics = [] →
      ∀ n id rs t, .concat id rs ∈ (g.nonterminal n).alternatives →
        t ∈ (g.firstSets.ofRule (.concat id rs)).terminals → (g.firstSets.origin? t).isSome)
  := by
  rw [h.unshared.fresh.firstSets_eq]
  have hkeeps := Survey.keeps_ofGrammar g (FirstSets.ofGrammar g).of
  constructor
  · intro t id horigin
    have hsound := hkeeps.sound (Survey.within_of g) nofun
    obtain ⟨rs, hnode, ht⟩ := hsound t id horigin
    obtain ⟨n, hfound⟩ := exists_findRule?_eq h.nodup_nodes hnode
    exact ⟨n, rs, hfound, filter_nodes_eq h.nodup_nodes hnode, ht⟩
  · intro hdiagnostics n id rs t hrs ht
    have hclean := (FirstSets.diagnostics_ofGrammar_iff g).mp hdiagnostics
    have hthorough := hkeeps.thorough fun _ _ => nofun
    have hn := mem_nonterminalIds.mpr (lt_size_of_mem_productions hrs)
    have hbegins := (FirstSets.fits_ofRule g (.concat id rs)).terminals t ht
    exact hthorough hclean n (Survey.finished_ofGrammar g hclean hn) id rs hrs t
      (Productions.begins_concat.mp hbegins)

/-- The sequence `'a'? 'b'`. -/
def innerSequence : Rule := .concat ⟨3⟩ [.option ⟨1⟩ (.terminal ⟨0⟩ ⟨0⟩), .terminal ⟨2⟩ ⟨1⟩]

/-- The sequence `A 'd'`. -/
def outerSequence : Rule := .concat ⟨6⟩ [.nonterminal ⟨4⟩ ⟨1⟩, .terminal ⟨5⟩ ⟨2⟩]

/-- The grammar `Start -> A 'd'; A -> 'a'? 'b';`, with its nodes made one after the other. -/
def outerLast : Grammar :=
  build [
    .addNonterminal (.bare "Start" .nowhere),
    .addNonterminal (.bare "A" .nowhere),
    .makeRule (.terminal · ⟨0⟩),
    .makeRule (.option · (.terminal ⟨0⟩ ⟨0⟩)),
    .makeRule (.terminal · ⟨1⟩),
    .makeRule (.concat · innerSequence.children),
    .addAlternative ⟨1⟩ innerSequence,
    .makeRule (.nonterminal · ⟨1⟩),
    .makeRule (.terminal · ⟨2⟩),
    .makeRule (.concat · outerSequence.children),
    .addAlternative ⟨0⟩ outerSequence]

theorem assembles_outerLast :
  outerLast.Assembles []
  := by
  have h := Assembles.empty.perform (.addNonterminal (.bare "Start" .nowhere)) [] nofun
    (by decide +kernel)
  have h := h.perform (.addNonterminal (.bare "A" .nowhere)) [] nofun (by decide +kernel)
  have h := h.make (.terminal · ⟨0⟩) [] rfl (by decide +kernel)
  have h := h.make (.option · (.terminal ⟨0⟩ ⟨0⟩)) [] rfl (by decide +kernel)
  have h := h.make (.terminal · ⟨1⟩) [.option ⟨1⟩ (.terminal ⟨0⟩ ⟨0⟩)] rfl (by decide +kernel)
  have h := h.make (.concat · innerSequence.children) [] rfl (by decide +kernel)
  have h := Assembles.addAlternative h ⟨1⟩
  have h := h.make (.nonterminal · ⟨1⟩) [] rfl (by decide +kernel)
  have h := h.make (.terminal · ⟨2⟩) [.nonterminal ⟨4⟩ ⟨1⟩] rfl (by decide +kernel)
  have h := h.make (.concat · outerSequence.children) [] rfl (by decide +kernel)
  exact Assembles.addAlternative h ⟨0⟩

/-- The outer sequence is noted for what the inner one begins with, as it comes last. -/
theorem origin?_requires_outerLast :
  outerLast.firstSets.origin? ⟨1⟩ = some ⟨6⟩ ∧
    (∃ n rs, outerLast.findRule? ⟨6⟩ = some (n, .concat ⟨6⟩ rs) ∧
      (outerLast.nodes.filter fun q => q.id = ⟨6⟩) = [.concat ⟨6⟩ rs] ∧
      ⟨1⟩ ∈ (outerLast.firstSets.ofRule (.concat ⟨6⟩ rs)).terminals) ∧
    (outerLast.firstSets.origin? ⟨0⟩).isSome
  := by
  have horigin : outerLast.firstSets.origin? ⟨1⟩ = some ⟨6⟩ := by decide +kernel
  obtain ⟨hsound, hthorough⟩ := assembles_outerLast.origin?_requires
  refine ⟨horigin, hsound ⟨1⟩ ⟨6⟩ horigin, ?_⟩
  have hinner : innerSequence ∈ (outerLast.nonterminal ⟨1⟩).alternatives := .head []
  exact hthorough (by decide +kernel) ⟨1⟩ ⟨3⟩ _ ⟨0⟩ hinner (by decide +kernel)

end Grammar

end Descent
