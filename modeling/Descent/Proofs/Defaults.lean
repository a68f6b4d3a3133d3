import Mathlib.Logic.Function.Basic
import Descent.Proofs.Caching
import Descent.Proofs.Templates

/-!
# Defaults fill gaps

Completing a grammar adds what its directives lack, and nothing is left to add after it.

* Defaults of a directive come behind its values (`Directive.foldl_setDefault`).
* Directives that are added and defaults that are set leave the other directives where they are
  (`Directives.FillsGaps`, `Directives.FillsGaps.ensureAt`, `Directives.FillsGaps.setDefaults`), so
  that all defaults together fill the gaps (`Directives.fillsGaps_withDefaults`).
* Then directives are complete (`Directives.isComplete_withDefaults`), and defaults change nothing
  in complete ones (`Directives.IsComplete.withDefaults_eq`).
* Completing a grammar does this with its directives, and keeps its FIRST sets
  (`Grammar.prepare_fillsGaps`).
-/

namespace Descent

/-! ### Defaults of a directive -/

namespace Directive

variable {d : Directive} {key : String} {values : List (String × String)}

/-- The directive with the given values behind its own, but for those whose keys have one. -/
def withMissing (values : List (String × String)) (d : Directive) : Directive :=
  { d with values := ⟨d.values.entries ++ values.filter fun e => !d.values.contains e.1⟩ }

@[simp]
theorem withMissing_nil (d : Directive) :
  d.withMissing [] = d
  := by simp [withMissing]

theorem setDefault_of_contains (h : d.values.contains key) (value : String) :
  d.setDefault key value = d
  := by rw [setDefault, OrderedMap.insertNew, if_pos h]

theorem foldl_setDefault_of_contains (h : ∀ e ∈ values, d.values.contains e.1) :
  values.foldl (fun d (key, value) => d.setDefault key value) d = d
  := by
  induction values with
  | nil => rfl
  | cons e values ih =>
    rw [List.forall_mem_cons] at h
    rw [List.foldl_cons]
    dsimp only
    rw [setDefault_of_contains h.1, ih h.2]

theorem contains_setDefault (key' value : String) :
  (d.setDefault key value).values.contains key' = (d.values.contains key' || key = key')
  := by
  rw [setDefault, OrderedMap.insertNew]
  split
  case isTrue h =>
    by_cases hkey : key = key'
    · simp [← hkey, h]
    · simp [hkey]
  case isFalse => simp [OrderedMap.contains]

/-- Values that are set one after the other, unless their keys have one, come behind. -/
theorem foldl_setDefault (hkeys : (values.map Prod.fst).Nodup) (d : Directive) :
  values.foldl (fun d (key, value) => d.setDefault key value) d = d.withMissing values
  := by
  induction values generalizing d with
  | nil => exact d.withMissing_nil.symm
  | cons e values ih =>
    obtain ⟨key, value⟩ := e
    rw [List.map_cons, List.nodup_cons] at hkeys
    rw [List.foldl_cons, ih hkeys.2]
    dsimp only at hkeys ⊢
    by_cases h : d.values.contains key
    · rw [setDefault_of_contains h, withMissing, withMissing, List.filter_cons_of_neg (by simp [h])]
    · have hrest : values.filter (fun e => !(d.setDefault key value).values.contains e.1) =
          values.filter fun e => !d.values.contains e.1 := by
        apply List.filter_congr
        intro e he
        have hne : e.1 ≠ key := ne_of_mem_of_not_mem (List.mem_map_of_mem he) hkeys.1
        simp [contains_setDefault, Ne.symm hne]
      rw [withMissing, hrest, withMissing, List.filter_cons_of_pos (by simpa using h), setDefault,
        OrderedMap.insertNew, if_neg h, List.append_assoc]
      rfl

theorem contains_withMissing {e : String × String} (he : e ∈ values) (d : Directive) :
  (d.withMissing values).values.contains e.1
  := by
  by_cases h : d.values.contains e.1
  · simp_all [withMissing, OrderedMap.contains]
  · have hmem : e ∈ values.filter fun e => !d.values.contains e.1 := by simp [he, h]
    simp only [withMissing, OrderedMap.contains, List.any_append, Bool.or_eq_true]
    exact .inr (List.any_eq_true.mpr ⟨e, hmem, by simp⟩)

end Directive

namespace Directives

variable {ds ds' : Directives} {kind kind' : Directive.Kind} {values : List (String × String)}
variable {added : Directive.Kind → List (String × String)} {o : Options} {l : Language}

/-- The kinds of the directives, in order. -/
def kinds (ds : Directives) : List Directive.Kind := ds.toList.map (·.kind)

/-- The defaults of a directive: the keys that are given values, and the values, for the language to
emit. -/
def defaultsOf (o : Options) : Language → Directive.Kind → List (String × String)
  | .rust, .overall =>
    [("Namespace", "crate"), ("OutputPath", "./"), ("Language", "Rust"),
      ("TemplatePath", ((o.appDirectory.join ⟨"templates"⟩).join ⟨"rust"⟩).text)]
  | .csharp, .overall =>
    [("Namespace", "TinyPG"), ("OutputPath", "./"), ("Language", "C#"),
      ("TemplatePath", ((o.appDirectory.join ⟨"templates"⟩).join ⟨"csharp"⟩).text)]
  | _, .parser | _, .scanner | _, .parseTree => [("Generate", "True")]
  | _, .textHighlighter => [("Generate", "False")]

theorem overallDefaults_eq (o : Options) (l : Language) :
  overallDefaults o l = defaultsOf o l .overall
  := by cases l <;> rfl

theorem setGenerate_eq (hkind : kind ≠ .overall) (o : Options) (l : Language) (ds : Directives) :
  ds.setGenerate kind = ds.setDefaults kind (defaultsOf o l kind)
  := by
  cases kind with
  | overall => exact absurd rfl hkind
  | _ => cases l <;> rfl

/-- Which keys have defaults depends on the directive only. -/
theorem keys_defaultsOf (o o' : Options) (l l' : Language) (kind : Directive.Kind) :
  (defaultsOf o l kind).map Prod.fst = (defaultsOf o' l' kind).map Prod.fst
  := by cases l <;> cases l' <;> cases kind <;> rfl

theorem nodup_keys_defaultsOf (o : Options) (l : Language) (kind : Directive.Kind) :
  ((defaultsOf o l kind).map Prod.fst).Nodup
  := by cases l <;> cases kind <;> simp [defaultsOf]

theorem mem_kinds_iff :
  kind ∈ ds.kinds ↔ (ds.find? kind).isSome
  := by simp [kinds, find?]

theorem isSome_find?_ensureAt_iff (kind : Directive.Kind) (index : Nat) (ds : Directives) :
  ((ds.ensureAt kind index).find? kind').isSome ↔ (ds.find? kind').isSome ∨ kind' = kind
  := by
  unfold ensureAt
  split
  case isTrue h =>
    constructor
    · exact .inl
    · rintro (h' | rfl)
      · exact h'
      · exact h
  case isFalse h =>
    rw [find?_insert_bare (Option.not_isSome_iff_eq_none.mp h)]
    split
    case isTrue hk => simp [hk]
    case isFalse hk => simp [hk]

theorem isSome_find?_setDefaults (kind : Directive.Kind) (values : List (String × String))
    (ds : Directives) :
  ((ds.setDefaults kind values).find? kind').isSome = (ds.find? kind').isSome
  := by
  rw [setDefaults, find?_update (Directive.kind_foldl_setDefault values)]
  split
  · apply Option.isSome_map
  · rfl

/-! ### Filling gaps -/

/-- Directives come from others by adding directives without values, and then defaults where
there are no values: those that were there are in the same order. -/
structure FillsGaps (ds ds' : Directives) (added : Directive.Kind → List (String × String)) :
    Prop where
  nodup : ds'.kinds.Nodup
  kept : ds'.toList.filter (fun d => (ds.find? d.kind).isSome) =
    ds.toList.map fun d => d.withMissing (added d.kind)
  new : ∀ d ∈ ds'.toList, ds.find? d.kind = none →
    d = (Directive.bare d.kind .nowhere).withMissing (added d.kind)

theorem fillsGaps_refl (h : ds.kinds.Nodup) :
  ds.FillsGaps ds fun _ => []
  := by
  have hfound : ∀ d ∈ ds.toList, (ds.find? d.kind).isSome := by
    intro d hd
    exact mem_kinds_iff.mp (List.mem_map_of_mem hd)
  constructor
  case nodup => exact h
  case kept => simpa using hfound
  case new =>
    intro d hd hnone
    have hsome := hfound d hd
    rw [hnone] at hsome
    cases hsome

theorem FillsGaps.congr {added' : Directive.Kind → List (String × String)}
    (h : ds.FillsGaps ds' added) (hadded : ∀ kind, added kind = added' kind) :
  ds.FillsGaps ds' added'
  := funext hadded ▸ h

/-- What was there is still there. -/
theorem FillsGaps.isSome_find? (h : ds.FillsGaps ds' added) (hkind : (ds.find? kind).isSome) :
  (ds'.find? kind).isSome
  := by
  obtain ⟨d, hd, rfl⟩ := List.mem_map.mp (mem_kinds_iff.mpr hkind)
  have hmem : d.withMissing (added d.kind) ∈
      ds.toList.map fun d => d.withMissing (added d.kind) := List.mem_map_of_mem hd
  rw [← h.kept] at hmem
  exact mem_kinds_iff.mp (List.mem_map.mpr ⟨_, (List.mem_filter.mp hmem).1, rfl⟩)

/-- Adding a directive that is not there. -/
theorem FillsGaps.ensureAt (h : ds.FillsGaps ds' added) (kind : Directive.Kind)
    (hadded : added kind = []) (index : Nat) :
  ds.FillsGaps (ds'.ensureAt kind index) added
  := by
  unfold Directives.ensureAt
  split
  case isTrue => exact h
  case isFalse hkind =>
    have hnone : ds.find? kind = none := by
      by_contra hne
      exact hkind (h.isSome_find? (Option.isSome_iff_ne_none.mpr hne))
    constructor
    case nodup =>
      have hperm : (ds'.insert index (.bare kind .nowhere)).kinds.Perm (kind :: ds'.kinds) := by
        have hinsert : (ds'.insert index (.bare kind .nowhere)).toList.Perm
            (.bare kind .nowhere :: (ds'.toList.take index ++ ds'.toList.drop index)) :=
          List.perm_middle
        rw [List.take_append_drop] at hinsert
        exact hinsert.map (·.kind)
      rw [hperm.nodup_iff, List.nodup_cons, mem_kinds_iff]
      exact ⟨hkind, h.nodup⟩
    case kept =>
      rw [insert, List.filter_append, List.filter_cons_of_neg (by simp [Directive.bare, hnone]),
        ← List.filter_append, List.take_append_drop]
      exact h.kept
    case new =>
      intro d hd hd'
      rw [insert, List.mem_append, List.mem_cons, or_left_comm, ← List.mem_append,
        List.take_append_drop] at hd
      obtain rfl | hd := hd
      · rw [Directive.bare, hadded, Directive.withMissing_nil]
        rfl
      · exact h.new d hd hd'

theorem FillsGaps.ensure (h : ds.FillsGaps ds' added) (kind : Directive.Kind)
    (hadded : added kind = []) :
  ds.FillsGaps (ds'.ensure kind) added
  := h.ensureAt kind hadded _

/-- Changing the directive of a kind changes no other one. -/
theorem toList_update (h : ds.kinds.Nodup) (f : Directive → Directive) :
  (ds.update kind f).toList = ds.toList.map fun d => if d.kind = kind then f d else d
  := by
  obtain ⟨ds⟩ := ds
  rw [update]
  dsimp only [kinds] at h ⊢
  induction ds with
  | nil => rfl
  | cons d ds ih =>
    rw [List.map_cons, List.nodup_cons] at h
    rw [updateFirst, List.map_cons]
    split
    case isFalse => rw [ih h.2]
    case isTrue hd =>
      have hrest : ∀ d' ∈ ds, (if d'.kind = kind then f d' else d') = id d' := by
        intro d' hd'
        have hne := ne_of_mem_of_not_mem (List.mem_map_of_mem hd') h.1
        exact if_neg (hd ▸ hne)
      rw [List.map_congr_left hrest, List.map_id]

/-- Setting the defaults of a directive that has none yet. -/
theorem FillsGaps.setDefaults (h : ds.FillsGaps ds' added) (kind : Directive.Kind)
    (hadded : added kind = []) (hkeys : (values.map Prod.fst).Nodup) :
  ds.FillsGaps (ds'.setDefaults kind values) (Function.update added kind values)
  := by
  have htoList : (ds'.setDefaults kind values).toList =
      ds'.toList.map fun d => if d.kind = kind then d.withMissing values else d := by
    rw [Directives.setDefaults, toList_update h.nodup]
    simp only [Directive.foldl_setDefault hkeys]
  have hmap : ∀ d : Directive, (if d.kind = kind then d.withMissing values else d).kind = d.kind := by
    intro d
    split <;> rfl
  have hupdate : ∀ d : Directive, (if d.kind = kind then
      (d.withMissing (added d.kind)).withMissing values else d.withMissing (added d.kind)) =
        d.withMissing (Function.update added kind values d.kind) := by
    intro d
    split
    case isTrue hd => rw [hd, hadded, Directive.withMissing_nil, Function.update_self]
    case isFalse hd => rw [Function.update_of_ne hd]
  constructor
  case nodup =>
    have hnodup := h.nodup
    rw [kinds] at hnodup
    rw [kinds, htoList, List.map_map]
    simpa only [Function.comp_def, hmap] using hnodup
  case kept =>
    rw [htoList, List.filter_map]
    simp only [Function.comp_def, hmap]
    rw [h.kept, List.map_map]
    apply List.map_congr_left
    intro d _
    exact hupdate d
  case new =>
    intro d hd hd'
    rw [htoList] at hd
    obtain ⟨d₀, hd₀, rfl⟩ := List.mem_map.mp hd
    rw [hmap] at hd' ⊢
    have hnew := h.new d₀ hd₀ hd'
    generalize d₀.kind = k at hnew ⊢
    rw [hnew]
    exact hupdate (.bare k .nowhere)

theorem FillsGaps.setGenerate (h : ds.FillsGaps ds' added) (kind : Directive.Kind)
    (hkind : kind ≠ .overall) (hadded : added kind = []) (o : Options) (l : Language) :
  ds.FillsGaps (ds'.setGenerate kind) (Function.update added kind (defaultsOf o l kind))
  := by
  rw [setGenerate_eq hkind o l]
  exact h.setDefaults kind hadded (nodup_keys_defaultsOf o l kind)

/-! ### All defaults -/

/-- All defaults together add nothing but what is missing. -/
theorem fillsGaps_withDefaults (h : ds.kinds.Nodup) (o : Options) :
  ds.FillsGaps (ds.withDefaults o) (defaultsOf o ds.targetLanguage)
  := by
  have hlanguage : (ds.ensureAt .overall 0).targetLanguage = ds.targetLanguage := by
    rw [targetLanguage, language?, value?_ensureAt, targetLanguage, language?]
  have hoverall := ((fillsGaps_refl h).ensureAt .overall rfl 0).setDefaults .overall rfl
    (nodup_keys_defaultsOf o ds.targetLanguage .overall)
  have hparts := (hoverall.ensureAt .parser rfl 1).ensureAt .scanner rfl 1
  have hall := (hparts.ensure .parseTree rfl).ensure .textHighlighter rfl
  have hscanner := hall.setGenerate .scanner (by decide) rfl o ds.targetLanguage
  have hparser := hscanner.setGenerate .parser (by decide) rfl o ds.targetLanguage
  have hparseTree := hparser.setGenerate .parseTree (by decide) rfl o ds.targetLanguage
  have hgenerate := hparseTree.setGenerate .textHighlighter (by decide) rfl o ds.targetLanguage
  rw [withDefaults, hlanguage, overallDefaults_eq]
  apply hgenerate.congr
  intro kind
  cases kind <;> rfl

/-- There is a directive of each kind that has a value for each key with a default. -/
def IsComplete (ds : Directives) : Prop :=
  ∀ kind, ∃ d, ds.find? kind = some d ∧
    ∀ o l, ∀ e ∈ defaultsOf o l kind, d.values.contains e.1

theorem isSome_find?_withDefaults (o : Options) (ds : Directives) (kind : Directive.Kind) :
  ((ds.withDefaults o).find? kind).isSome
  := by
  simp only [withDefaults, setGenerate, ensure, isSome_find?_setDefaults, isSome_find?_ensureAt_iff]
  cases kind <;> simp

theorem isComplete_withDefaults (h : ds.kinds.Nodup) (o : Options) :
  (ds.withDefaults o).IsComplete
  := by
  intro kind
  have hfills := fillsGaps_withDefaults h o
  obtain ⟨d, hd⟩ := Option.isSome_iff_exists.mp (isSome_find?_withDefaults o ds kind)
  have hmem := List.mem_of_find?_eq_some hd
  have hkind : d.kind = kind := by simpa using List.find?_some hd
  obtain ⟨d', rfl⟩ : ∃ d', d = Directive.withMissing (defaultsOf o ds.targetLanguage kind) d' := by
    cases hfound : ds.find? d.kind with
    | none => exact ⟨_, hkind ▸ hfills.new d hmem hfound⟩
    | some _ =>
      have hkept : d ∈ (ds.withDefaults o).toList.filter fun d => (ds.find? d.kind).isSome :=
        List.mem_filter.mpr ⟨hmem, by rw [hfound]; rfl⟩
      rw [hfills.kept] at hkept
      obtain ⟨d', -, rfl⟩ := List.mem_map.mp hkept
      exact ⟨d', hkind ▸ rfl⟩
  refine ⟨_, hd, ?_⟩
  intro o' l e he
  have hkey := List.mem_map_of_mem (f := Prod.fst) he
  rw [keys_defaultsOf o' o l ds.targetLanguage] at hkey
  obtain ⟨e', he', hkey⟩ := List.mem_map.mp hkey
  rw [← hkey]
  exact Directive.contains_withMissing he' d'

theorem ensureAt_of_isSome (h : (ds.find? kind).isSome) (index : Nat) :
  ds.ensureAt kind index = ds
  := if_pos h

theorem update_eq_self {f : Directive → Directive} (h : ∀ d, ds.find? kind = some d → f d = d) :
  ds.update kind f = ds
  := by
  obtain ⟨ds⟩ := ds
  rw [update]
  congr 1
  dsimp only [find?] at h ⊢
  induction ds with
  | nil => rfl
  | cons d ds ih =>
    rw [updateFirst]
    split
    case isTrue hd => rw [h d (List.find?_cons_of_pos (by simpa using hd))]
    case isFalse hd =>
      rw [ih]
      intro d' hd'
      apply h
      rw [List.find?_cons_of_neg (by simpa using hd), hd']

theorem IsComplete.setDefaults_eq (h : ds.IsComplete) (o : Options) (l : Language)
    (kind : Directive.Kind) :
  ds.setDefaults kind (defaultsOf o l kind) = ds
  := by
  apply update_eq_self
  intro d hd
  obtain ⟨d', hd', hvalues⟩ := h kind
  rw [hd, Option.some_inj] at hd'
  subst hd'
  exact Directive.foldl_setDefault_of_contains (hvalues o l)

/-- Defaults change nothing if nothing is missing. -/
theorem IsComplete.withDefaults_eq (h : ds.IsComplete) (o : Options) :
  ds.withDefaults o = ds
  := by
  have hfound : ∀ kind, (ds.find? kind).isSome := by
    intro kind
    obtain ⟨d, hd, -⟩ := h kind
    rw [hd]
    rfl
  have hset := h.setDefaults_eq o ds.targetLanguage
  have hoverall : ds.setDefaults .overall (overallDefaults o ds.targetLanguage) = ds := by
    rw [overallDefaults_eq, hset]
  have hgenerate : ∀ kind ≠ .overall, ds.setGenerate kind = ds := by
    intro kind hkind
    rw [setGenerate_eq hkind o ds.targetLanguage, hset]
  simp only [withDefaults, ensure, ensureAt_of_isSome (hfound _), hoverall,
    hgenerate .scanner (by decide), hgenerate .parser (by decide),
    hgenerate .parseTree (by decide), hgenerate .textHighlighter (by decide)]

/-- There is one directive of each kind. -/
theorem perm_kinds_withDefaults (h : ds.kinds.Nodup) (o : Options) :
  (ds.withDefaults o).kinds.Perm Directive.Kind.all
  := by
  apply (List.perm_ext_iff_of_nodup (fillsGaps_withDefaults h o).nodup (by decide)).mpr
  intro kind
  rw [mem_kinds_iff]
  simp only [isSome_find?_withDefaults, true_iff]
  cases kind <;> decide

end Directives

/-! ### Completing a grammar -/

namespace Grammar

theorem prepare_eq (g : Grammar) (o : Options) :
  g.prepare o = { g with
    directives := g.directives.withDefaults o
    cached := some g.firstSets }
  := by
  have hnonterminals : ∀ f, (g.updateDirectives f).nonterminals = g.nonterminals := fun _ => rfl
  rw [prepare, keepFirstSets, firstSets, FirstSets.ofGrammar_congr (hnonterminals _),
    updateDirectives, firstSets]

/-- Completing a grammar with no two directives of a kind fills the gaps of its directives, so that
there is one of each kind, and keeps its FIRST sets.  Nothing else changes, and nothing at all if
the grammar is completed again, whatever the options are then. -/
theorem prepare_fillsGaps (g : Grammar) (o : Options) (h : g.directives.kinds.Nodup) :
  let g' := g.prepare o
  g'.directives.kinds.Perm Directive.Kind.all ∧
  g.directives.FillsGaps g'.directives (Directives.defaultsOf o g.directives.targetLanguage) ∧
  g' = { g with directives := g'.directives, cached := some g.firstSets } ∧
  (g.Fresh → g'.cached = some (.ofGrammar g')) ∧
  (∀ o', g'.prepare o' = g') ∧ g'.firstSets.diagnostics = g.firstSets.diagnostics
  := by
  intro g'
  have hg' : g' = { g with
      directives := g.directives.withDefaults o, cached := some g.firstSets } := prepare_eq g o
  clear_value g'
  have hdirectives : g'.directives = g.directives.withDefaults o := by rw [hg']
  have hcached : g'.cached = some g.firstSets := by rw [hg']
  have hfirst : g'.firstSets = g.firstSets := by rw [firstSets, hcached, Option.getD_some]
  refine ⟨?_, ?_, ?_, ?_, ?_, ?_⟩
  · rw [hdirectives]
    exact Directives.perm_kinds_withDefaults h o
  · rw [hdirectives]
    exact Directives.fillsGaps_withDefaults h o
  · rw [hdirectives]
    exact hg'
  · intro hfresh
    have hnonterminals : g'.nonterminals = g.nonterminals := by rw [hg']
    rw [FirstSets.ofGrammar_congr hnonterminals, ← hfresh.firstSets_eq, hcached]
  · intro o'
    have hagain : g'.directives.withDefaults o' = g'.directives := by
      rw [hdirectives]
      exact (Directives.isComplete_withDefaults h o).withDefaults_eq o'
    rw [prepare_eq, hagain, hfirst, ← hcached]
  · rw [hfirst]

/-- Directives that are given are kept where they are, with others put between them, and are given
the values that they lack. -/
theorem prepare_parseTree_overall :
  let o : Options := ⟨⟨"."⟩, ⟨"."⟩⟩
  let g := Grammar.empty.updateDirectives fun _ => ⟨[
    ⟨.parseTree, ⟨[("Generate", "False")]⟩, .nowhere⟩,
    ⟨.overall, ⟨[("Language", "C#"), ("Namespace", "Calc")]⟩, .nowhere⟩]⟩
  (g.prepare o).directives = ⟨[
    ⟨.parseTree, ⟨[("Generate", "False")]⟩, .nowhere⟩,
    ⟨.scanner, ⟨[("Generate", "True")]⟩, .nowhere⟩,
    ⟨.parser, ⟨[("Generate", "True")]⟩, .nowhere⟩,
    ⟨.overall, ⟨[("Language", "C#"), ("Namespace", "Calc"), ("OutputPath", "./"),
      ("TemplatePath", "./templates/csharp")]⟩, .nowhere⟩,
    ⟨.textHighlighter, ⟨[("Generate", "False")]⟩, .nowhere⟩]⟩ ∧
  g.directives.FillsGaps (g.prepare o).directives (Directives.defaultsOf o .csharp) ∧
  (g.prepare o).prepare o = g.prepare o
  := by
  intro o g
  have hkinds : g.directives.kinds.Nodup := by decide
  obtain ⟨-, hfills, -, -, hagain, -⟩ := prepare_fillsGaps g o hkinds
  exact ⟨by decide +kernel, hfills, hagain o⟩

end Grammar

end Descent
