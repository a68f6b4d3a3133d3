import Descent.Proofs.Derivation

/-!
# Yields

Rules that stand one after the other yield words of terminals (`Productions.Yields`), each rule a
stretch of the word.  Options that are taken and further rounds of repetitions yield something, so
that the next terminal can tell that they are.  What rules yield is what the words that they denote
derive (`Productions.Yields.derives`, `Productions.yields_of_derives`).
-/

namespace Descent

/-- A rule that refers to a symbol and is nothing else. -/
def Symbol.rule : Symbol → Rule
  | .terminal t => .terminal default t
  | .nonterminal n => .nonterminal default n

namespace Productions

variable {ps : Productions}

/-- A word of terminals that rules yield, one after the other. -/
inductive Yields (ps : Productions) : List Rule → List TerminalId → Prop
  | nil : Yields ps [] []
  | terminal (id : RuleId) (t : TerminalId) {rs : List Rule} {w : List TerminalId}
      (h : Yields ps rs w) : Yields ps (.terminal id t :: rs) (t :: w)
  | nonterminal (id : RuleId) {n : NonterminalId} {r : Rule} {rs : List Rule}
      {v w : List TerminalId} (hr : r ∈ ps n) (hv : Yields ps [r] v) (h : Yields ps rs w) :
      Yields ps (.nonterminal id n :: rs) (v ++ w)
  | concat (id : RuleId) {qs rs : List Rule} {v w : List TerminalId} (hv : Yields ps qs v)
      (h : Yields ps rs w) : Yields ps (.concat id qs :: rs) (v ++ w)
  | choice (id : RuleId) {r : Rule} {qs rs : List Rule} {v w : List TerminalId} (hr : r ∈ qs)
      (hv : Yields ps [r] v) (h : Yields ps rs w) : Yields ps (.choice id qs :: rs) (v ++ w)
  | pass (id : RuleId) (r : Rule) {rs : List Rule} {w : List TerminalId} (h : Yields ps rs w) :
      Yields ps (.option id r :: rs) w
  | take (id : RuleId) {r : Rule} {rs : List Rule} {v w : List TerminalId} (hne : v ≠ [])
      (hv : Yields ps [r] v) (h : Yields ps rs w) : Yields ps (.option id r :: rs) (v ++ w)
  | stop (id : RuleId) (r : Rule) {rs : List Rule} {w : List TerminalId} (h : Yields ps rs w) :
      Yields ps (.zeroOrMore id r :: rs) w
  | again (id : RuleId) {r : Rule} {rs : List Rule} {v w : List TerminalId} (hne : v ≠ [])
      (hv : Yields ps [r] v) (h : Yields ps (.zeroOrMore id r :: rs) w) :
      Yields ps (.zeroOrMore id r :: rs) (v ++ w)
  | once (id : RuleId) {r : Rule} {rs : List Rule} {v w : List TerminalId}
      (hv : Yields ps [r] v) (h : Yields ps (.zeroOrMore id r :: rs) w) :
      Yields ps (.oneOrMore id r :: rs) (v ++ w)

variable {id : RuleId} {r : Rule} {qs rs : List Rule} {w : List TerminalId}

/-! ### Stretches of a word -/

@[simp]
theorem yields_nil :
  ps.Yields [] w ↔ w = []
  := by
  constructor
  · rintro ⟨⟩
    rfl
  · rintro rfl
    exact .nil

/-- What a rule and those after it yield is a word of the rule and one of the others. -/
theorem Yields.exists_of_cons (h : ps.Yields (r :: rs) w) :
  ∃ u v, ps.Yields [r] u ∧ ps.Yields rs v ∧ u ++ v = w
  := by
  generalize hl : r :: rs = l at h
  induction h generalizing r rs with
  | nil => cases hl
  | terminal id t h =>
    cases hl
    exact ⟨[t], _, .terminal id t .nil, h, rfl⟩
  | nonterminal id hr hv h =>
    cases hl
    exact ⟨_, _, .nonterminal id hr hv .nil, h, by rw [List.append_nil]⟩
  | concat id hv h =>
    cases hl
    exact ⟨_, _, .concat id hv .nil, h, by rw [List.append_nil]⟩
  | choice id hr hv h =>
    cases hl
    exact ⟨_, _, .choice id hr hv .nil, h, by rw [List.append_nil]⟩
  | pass id r h =>
    cases hl
    exact ⟨[], _, .pass id r .nil, h, rfl⟩
  | take id hne hv h =>
    cases hl
    exact ⟨_, _, .take id hne hv .nil, h, by rw [List.append_nil]⟩
  | stop id r h =>
    cases hl
    exact ⟨[], _, .stop id r .nil, h, rfl⟩
  | again id hne hv _ _ ih =>
    cases hl
    obtain ⟨u, v, hu, h, rfl⟩ := ih rfl
    exact ⟨_, v, .again id hne hv hu, h, List.append_assoc _ u v⟩
  | once id hv _ _ ih =>
    cases hl
    obtain ⟨u, v, hu, h, rfl⟩ := ih rfl
    exact ⟨_, v, .once id hv hu, h, List.append_assoc _ u v⟩

/-- A word of a rule and one of the rules after it make up a word of them all. -/
theorem Yields.cons {u v : List TerminalId} (hu : ps.Yields [r] u) (h : ps.Yields rs v) :
  ps.Yields (r :: rs) (u ++ v)
  := by
  generalize hl : [r] = l at hu
  induction hu generalizing r with
  | nil => cases hl
  | terminal id t hnil =>
    cases hl
    obtain rfl := yields_nil.mp hnil
    exact .terminal id t h
  | nonterminal id hr hv hnil =>
    cases hl
    obtain rfl := yields_nil.mp hnil
    rw [List.append_nil]
    exact .nonterminal id hr hv h
  | concat id hv hnil =>
    cases hl
    obtain rfl := yields_nil.mp hnil
    rw [List.append_nil]
    exact .concat id hv h
  | choice id hr hv hnil =>
    cases hl
    obtain rfl := yields_nil.mp hnil
    rw [List.append_nil]
    exact .choice id hr hv h
  | pass id r hnil =>
    cases hl
    obtain rfl := yields_nil.mp hnil
    exact .pass id r h
  | take id hne hv hnil =>
    cases hl
    obtain rfl := yields_nil.mp hnil
    rw [List.append_nil]
    exact .take id hne hv h
  | stop id r hnil =>
    cases hl
    obtain rfl := yields_nil.mp hnil
    exact .stop id r h
  | again id hne hv _ _ ih =>
    cases hl
    rw [List.append_assoc]
    exact .again id hne hv (ih rfl)
  | once id hv _ _ ih =>
    cases hl
    rw [List.append_assoc]
    exact .once id hv (ih rfl)

theorem yields_cons :
  ps.Yields (r :: rs) w ↔ ∃ u, ps.Yields [r] u ∧ ∃ v, ps.Yields rs v ∧ u ++ v = w
  := by
  constructor
  · intro h
    obtain ⟨u, v, hu, hv, hw⟩ := h.exists_of_cons
    exact ⟨u, hu, v, hv, hw⟩
  · rintro ⟨u, hu, v, hv, rfl⟩
    apply hu.cons hv

theorem yields_append :
  ps.Yields (qs ++ rs) w ↔ ∃ u, ps.Yields qs u ∧ ∃ v, ps.Yields rs v ∧ u ++ v = w
  := by
  induction qs generalizing w with
  | nil => simp
  | cons q qs ih =>
    rw [List.cons_append, yields_cons]
    simp only [ih, @yields_cons ps q qs]
    constructor
    · rintro ⟨u, hu, _, ⟨v, hv, v', hv', rfl⟩, rfl⟩
      exact ⟨u ++ v, ⟨u, hu, v, hv, rfl⟩, v', hv', List.append_assoc u v v'⟩
    · rintro ⟨_, ⟨u, hu, v, hv, rfl⟩, v', hv', rfl⟩
      exact ⟨u, hu, v ++ v', ⟨v, hv, v', hv', rfl⟩, (List.append_assoc u v v').symm⟩

/-! ### The terminals of a word -/

/-- Rules mention a terminal if they refer to it or some alternative does. -/
def Mentions (ps : Productions) (rs : List Rule) (t : TerminalId) : Prop :=
  .terminal t ∈ Rule.symbolsAll rs ∨ ∃ n, .terminal t ∈ Rule.symbolsAll (ps n)

variable {t : TerminalId}

theorem Mentions.mono (h : ps.Mentions qs t)
    (hqs : ∀ x ∈ Rule.symbolsAll qs, x ∈ Rule.symbolsAll rs) :
  ps.Mentions rs t
  := h.imp_left (hqs _)

theorem Mentions.tail (h : ps.Mentions rs t) :
  ps.Mentions (r :: rs) t
  := h.mono fun _ => List.mem_append_right _

/-- The first of several rules mentions what rules do whose symbols it has. -/
theorem Mentions.head (h : ps.Mentions qs t) (hqs : ∀ x ∈ Rule.symbolsAll qs, x ∈ r.symbols) :
  ps.Mentions (r :: rs) t
  := h.mono fun x hx => List.mem_append_left _ (hqs x hx)

theorem Mentions.operand (h : ps.Mentions [r] t) {q : Rule} (hq : q.symbols = r.symbols) :
  ps.Mentions (q :: rs) t
  := h.head fun x hx => by rwa [hq, ← Rule.symbolsAll_singleton]

/-- Rules mention the terminals of the words that they yield. -/
theorem Yields.mentions (h : ps.Yields rs w) :
  ∀ t ∈ w, ps.Mentions rs t
  := by
  induction h with
  | nil => simp
  | terminal id t _ ih =>
    rw [List.forall_mem_cons]
    exact ⟨.inl List.mem_cons_self, fun u hu => (ih u hu).tail⟩
  | nonterminal id hr _ _ ihv ih =>
    rw [List.forall_mem_append]
    refine ⟨fun u hu => .inr ?_, fun u hu => (ih u hu).tail⟩
    obtain h | h := ihv u hu
    · rw [Rule.symbolsAll_singleton] at h
      exact ⟨_, Rule.mem_symbolsAll.mpr ⟨_, hr, h⟩⟩
    · apply h
  | concat id _ _ ihv ih =>
    rw [List.forall_mem_append]
    exact ⟨fun u hu => (ihv u hu).head fun _ h => h, fun u hu => (ih u hu).tail⟩
  | choice id hr _ _ ihv ih =>
    rw [List.forall_mem_append]
    refine ⟨fun u hu => (ihv u hu).head ?_, fun u hu => (ih u hu).tail⟩
    intro x hx
    rw [Rule.symbolsAll_singleton] at hx
    apply Rule.mem_symbolsAll.mpr ⟨_, hr, hx⟩
  | pass id r _ ih => exact fun u hu => (ih u hu).tail
  | take id _ _ _ ihv ih =>
    rw [List.forall_mem_append]
    exact ⟨fun u hu => (ihv u hu).operand rfl, fun u hu => (ih u hu).tail⟩
  | stop id r _ ih => exact fun u hu => (ih u hu).tail
  | again id _ _ _ ihv ih =>
    rw [List.forall_mem_append]
    exact ⟨fun u hu => (ihv u hu).operand rfl, ih⟩
  | once id _ _ ihv ih =>
    rw [List.forall_mem_append]
    exact ⟨fun u hu => (ihv u hu).operand rfl, ih⟩

/-! ### What is yielded is derived -/

/-- Rules, one after the other, derive the words that what they denote derives. -/
def SeqDerives (ps : Productions) (rs : List Rule) (w : List Symbol) : Prop :=
  ∃ v, Rule.SeqDenotes rs v ∧ ps.Derives v w

theorem seqDerives_singleton {w : List Symbol} :
  ps.SeqDerives [r] w ↔ ∃ v, r.Denotes v ∧ ps.Derives v w
  := by simp [SeqDerives, Rule.seqDenotes_cons]

theorem SeqDerives.cons {v w : List Symbol} (hv : ps.SeqDerives [r] v) (h : ps.SeqDerives rs w) :
  ps.SeqDerives (r :: rs) (v ++ w)
  := by
  obtain ⟨x, hx, hv⟩ := seqDerives_singleton.mp hv
  obtain ⟨y, hy, h⟩ := h
  exact ⟨x ++ y, Rule.seqDenotes_cons.mpr ⟨x, hx, y, hy, rfl⟩, hv.append h⟩

/-- One more round of a repetition. -/
theorem SeqDerives.again {v w : List Symbol} (hv : ps.SeqDerives [r] v)
    (h : ps.SeqDerives (.zeroOrMore id r :: rs) w) :
  ∃ x y z, r.Denotes x ∧ (Rule.zeroOrMore id r).Denotes y ∧ Rule.SeqDenotes rs z ∧
    ps.Derives (x ++ y ++ z) (v ++ w)
  := by
  obtain ⟨x, hx, hv⟩ := seqDerives_singleton.mp hv
  obtain ⟨_, hyz, h⟩ := h
  obtain ⟨y, hy, z, hz, rfl⟩ := Rule.seqDenotes_cons.mp hyz
  refine ⟨x, y, z, hx, hy, hz, ?_⟩
  rw [List.append_assoc]
  apply hv.append h

/-- What rules yield they derive. -/
theorem Yields.derives (h : ps.Yields rs w) :
  ps.SeqDerives rs (w.map .terminal)
  := by
  induction h with
  | nil => exact ⟨[], Rule.seqDenotes_nil.mpr rfl, .refl⟩
  | terminal id t _ ih =>
    apply SeqDerives.cons (v := [.terminal t]) _ ih
    apply seqDerives_singleton.mpr ⟨_, Rule.denotes_terminal.mpr rfl, .refl⟩
  | nonterminal id hr _ _ ihv ih =>
    obtain ⟨x, hx, hv⟩ := seqDerives_singleton.mp ihv
    rw [List.map_append]
    apply SeqDerives.cons _ ih
    apply seqDerives_singleton.mpr ⟨_, Rule.denotes_nonterminal.mpr rfl, .of_alternative hr hx hv⟩
  | concat id _ _ ihv ih =>
    obtain ⟨x, hx, hv⟩ := ihv
    rw [List.map_append]
    apply SeqDerives.cons _ ih
    apply seqDerives_singleton.mpr ⟨x, Rule.denotes_concat.mpr hx, hv⟩
  | choice id hr _ _ ihv ih =>
    obtain ⟨x, hx, hv⟩ := seqDerives_singleton.mp ihv
    rw [List.map_append]
    apply SeqDerives.cons _ ih
    apply seqDerives_singleton.mpr ⟨x, Rule.denotes_choice.mpr ⟨_, hr, hx⟩, hv⟩
  | pass id r _ ih =>
    apply SeqDerives.cons (v := []) _ ih
    apply seqDerives_singleton.mpr ⟨[], Rule.denotes_option.mpr (.inl rfl), .refl⟩
  | take id _ _ _ ihv ih =>
    obtain ⟨x, hx, hv⟩ := seqDerives_singleton.mp ihv
    rw [List.map_append]
    apply SeqDerives.cons _ ih
    apply seqDerives_singleton.mpr ⟨x, Rule.denotes_option.mpr (.inr hx), hv⟩
  | stop id r _ ih =>
    apply SeqDerives.cons (v := []) _ ih
    apply seqDerives_singleton.mpr ⟨[], Rule.zeroOrMore_denotes_nil, .refl⟩
  | again id _ _ _ ihv ih =>
    obtain ⟨x, y, z, hx, hy, hz, h⟩ := ihv.again ih
    rw [List.map_append]
    exact ⟨_, Rule.seqDenotes_cons.mpr ⟨_, hx.again hy, z, hz, rfl⟩, h⟩
  | once id _ _ ihv ih =>
    obtain ⟨x, y, z, hx, hy, hz, h⟩ := ihv.again ih
    rw [List.map_append]
    have hxy := Rule.denotes_oneOrMore.mpr ⟨x, hx, y, hy, rfl⟩
    exact ⟨_, Rule.seqDenotes_cons.mpr ⟨_, hxy, z, hz, rfl⟩, h⟩

/-! ### What is derived is yielded -/

/-- A repetition yields what further rounds of it yield, also if some of them yield nothing. -/
theorem yields_zeroOrMore_append {u v : List TerminalId} (hu : ps.Yields [r] u)
    (h : ps.Yields [.zeroOrMore id r] v) :
  ps.Yields [.zeroOrMore id r] (u ++ v)
  := by
  by_cases hne : u = []
  · rwa [hne]
  · exact .again id hne hu h

/-- A repetition yields what its operand yields, again and again. -/
theorem yields_zeroOrMore {f : Rule} (hf : ∀ {v : List Symbol} {w : List TerminalId}, f.Denotes v →
      ps.Yields (v.map Symbol.rule) w → ps.Yields [f] w) {vs : List (List Symbol)}
    (hvs : ∀ v ∈ vs, f.Denotes v) (h : ps.Yields (vs.flatten.map Symbol.rule) w) :
  ps.Yields [.zeroOrMore id f] w
  := by
  induction vs generalizing w with
  | nil =>
    rw [List.flatten_nil, List.map_nil, yields_nil] at h
    rw [h]
    exact .stop id f .nil
  | cons v vs ih =>
    obtain ⟨hv, hvs⟩ := List.forall_mem_cons.mp hvs
    rw [List.flatten_cons, List.map_append] at h
    obtain ⟨u, hu, u', hu', rfl⟩ := yields_append.mp h
    apply yields_zeroOrMore_append (hf hv hu) (ih hvs hu')

mutual

/-- A rule yields what the symbols of a word that it denotes yield. -/
theorem yields_of_denotes : ∀ {r : Rule} {v : List Symbol} {w : List TerminalId}, r.Denotes v →
    ps.Yields (v.map Symbol.rule) w →
  ps.Yields [r] w
  | .terminal id t, v, w, hv, h => by
      rw [Rule.denotes_terminal.mp hv] at h
      cases h with
      | terminal _ _ h => exact .terminal id t h
  | .nonterminal id n, v, w, hv, h => by
      rw [Rule.denotes_nonterminal.mp hv] at h
      cases h with
      | nonterminal _ hr hv h => exact .nonterminal id hr hv h
  | .unresolved .., v, w, hv, _ => absurd hv Rule.not_denotes_unresolved
  | .concat id rs, v, w, hv, h => by
      have h := seqYields_of_denotes (Rule.denotes_concat.mp hv) h
      have h := Yields.concat id h .nil
      rwa [List.append_nil] at h
  | .choice id rs, v, w, hv, h => by
      obtain ⟨q, hq, hv⟩ := Rule.denotes_choice.mp hv
      have h := Yields.choice id hq (yields_of_mem rs q hq hv h) .nil
      rwa [List.append_nil] at h
  | .option id r, v, w, hv, h => by
      obtain rfl | hv := Rule.denotes_option.mp hv
      · exact .pass id r h
      · have h := yields_of_denotes hv h
        by_cases hne : w = []
        · rw [hne]
          exact .pass id r .nil
        · have h := Yields.take id hne h .nil
          rwa [List.append_nil] at h
  | .zeroOrMore id r, v, w, hv, h => by
      obtain ⟨vs, rfl, hvs⟩ := Rule.denotes_zeroOrMore.mp hv
      apply yields_zeroOrMore (fun hv h => yields_of_denotes hv h) hvs h
  | .oneOrMore id r, v, w, hv, h => by
      obtain ⟨x, hx, y, hy, rfl⟩ := Rule.denotes_oneOrMore.mp hv
      obtain ⟨vs, rfl, hvs⟩ := Rule.denotes_zeroOrMore.mp hy
      rw [List.map_append] at h
      obtain ⟨u, hu, u', hu', rfl⟩ := yields_append.mp h
      exact .once id (yields_of_denotes hx hu)
        (yields_zeroOrMore (fun hv h => yields_of_denotes hv h) hvs hu')

theorem seqYields_of_denotes : ∀ {rs : List Rule} {v : List Symbol} {w : List TerminalId},
    Rule.SeqDenotes rs v → ps.Yields (v.map Symbol.rule) w →
  ps.Yields rs w
  | [], v, w, hv, h => by rwa [Rule.seqDenotes_nil.mp hv] at h
  | r :: rs, v, w, hv, h => by
      obtain ⟨x, hx, y, hy, rfl⟩ := Rule.seqDenotes_cons.mp hv
      rw [List.map_append] at h
      obtain ⟨u, hu, u', hu', rfl⟩ := yields_append.mp h
      apply (yields_of_denotes hx hu).cons (seqYields_of_denotes hy hu')

theorem yields_of_mem : ∀ (rs : List Rule) {v : List Symbol} {w : List TerminalId},
  ∀ r ∈ rs, r.Denotes v → ps.Yields (v.map Symbol.rule) w → ps.Yields [r] w
  | [], _, _ => fun _ hq => absurd hq List.not_mem_nil
  | r :: rs, v, w => by
      intro q hq hv h
      obtain hqr | hq := List.mem_cons.mp hq
      · rw [hqr] at hv ⊢
        apply yields_of_denotes hv h
      · apply yields_of_mem rs q hq hv h

end

/-- The symbols of a word yield what the symbols of a word to which it is rewritten yield. -/
theorem Rewrites.yields {v v' : List Symbol} (h : ps.Rewrites v v')
    (hw : ps.Yields (v'.map Symbol.rule) w) :
  ps.Yields (v.map Symbol.rule) w
  := by
  obtain ⟨a, b, hr, hd⟩ := h
  simp only [List.map_append, yields_append] at hw
  obtain ⟨u, hu, _, ⟨x, hx, y, hy, rfl⟩, rfl⟩ := hw
  rw [List.map_append]
  refine yields_append.mpr ⟨u, hu, x ++ y, ?_, rfl⟩
  exact .nonterminal default hr (yields_of_denotes hd hx) hy

theorem yields_map_terminal (w : List TerminalId) :
  ps.Yields ((w.map .terminal).map Symbol.rule) w
  := by
  induction w with
  | nil => exact .nil
  | cons t w ih => exact .terminal default t ih

/-- What a nonterminal derives one of its alternatives yields. -/
theorem exists_yields_of_derives {n : NonterminalId}
    (h : ps.Derives [.nonterminal n] (w.map .terminal)) :
  ∃ r ∈ ps n, ps.Yields [r] w
  := by
  suffices hw : ∀ v, ps.Derives v (w.map .terminal) → ps.Yields (v.map Symbol.rule) w by
    cases hw _ h with
    | nonterminal _ hr hv hnil =>
      rw [yields_nil.mp hnil, List.append_nil]
      exact ⟨_, hr, hv⟩
  intro v h
  induction h using Relation.ReflTransGen.head_induction_on with
  | refl => apply yields_map_terminal
  | head h _ ih => apply h.yields ih

end Productions

end Descent
