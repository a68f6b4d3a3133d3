import Descent.Emission.Artifacts
import Descent.Proofs.Compilation
import Descent.Proofs.Declarations
import Descent.Proofs.Paths

/-!
# The directory of templates

A description that sets no directory of templates is given the one of its language below the
application directory.  It is written into the directives and resolved when code is emitted.

* What a description sets comes from its entries (`Draft.unset_ofDeclarations`), and defaults are
  set for what is not set (`Directives.value?_withDefaults`).
* The path is the default one (`Compilation.value?_templatePath`).
* Emitting reports an unresolved directory if and only if there is no directory to read templates
  from (`Compilation.reportsUnresolved_iff`).
* A path is resolved below the application directory, where the default one is already.  So it is
  found if the application directory is absolute or the working directory, and looked for below it
  twice otherwise (`Compilation.findsTemplates_iff`).
-/

namespace Descent

open Description (Entry Production)

/-! ### What a description sets -/

/-- The entries of all directives of a description. -/
def Description.entries (desc : Description) : List Entry :=
  desc.items.flatMap fun
    | .directive b => b.entries
    | .production _ => []

/-- A key that no entry has is not set. -/
theorem Directive.get?_ofEntries {kind : Kind} {span : Span} {entries : List Entry} {key : String}
    (h : ∀ e ∈ entries, e.key.value ≠ key) :
  (ofEntries kind span entries).get? key = none
  := by
  rw [ofEntries]
  apply List.foldlRecOn (motive := fun d : Directive => d.get? key = none) _ _ rfl
  intro d hd e he
  rw [get?, set, OrderedMap.get?_insert_ne _ (h e (List.mem_of_mem_filter he)).symm]
  exact hd

namespace Grammar

variable {g g' : Grammar}

theorem directives_setAttribute (name : String) (params : List Param) (x : Symbol) :
  (g.setAttribute name params x).directives = g.directives
  := by cases x <;> rfl

theorem directives_addSkip (t : TerminalId) :
  (g.addSkip t).directives = g.directives
  := by
  rw [addSkip]
  split <;> rfl

theorem directives_applyAttribute (name : String) (x : Symbol) :
  (g.applyAttribute name x).directives = g.directives
  := by
  unfold applyAttribute
  split
  · rfl
  · split
    · apply directives_addSkip
    · apply directives_addSkip
    · rfl

theorem directives_addTerminal? {t : Terminal} {id : TerminalId}
    (h : g.addTerminal? t = some (id, g')) :
  g'.directives = g.directives
  := by
  rw [addTerminal?_eq] at h
  split at h <;> cases h
  rfl

theorem directives_addNonterminal? {n : Nonterminal} {id : NonterminalId}
    (h : g.addNonterminal? n = some (id, g')) :
  g'.directives = g.directives
  := by
  rw [addNonterminal?_eq] at h
  split at h <;> cases h
  rfl

end Grammar

namespace Draft

variable (d : Draft)

theorem directives_addAttributes (x : Symbol) (as : List Description.Attribute) :
  (as.foldl (addAttribute x) d).grammar.directives = d.grammar.directives
  := by
  apply List.foldlRecOn (motive := fun d' : Draft => d'.grammar.directives = d.grammar.directives)
    _ _ rfl
  intro d' hd' a _
  rw [addAttribute, ← hd']
  dsimp only
  split
  · rfl
  · apply (Grammar.directives_applyAttribute _ _).trans (Grammar.directives_setAttribute _ _ _)

variable {d} in
theorem DeclaresLiteral.directives [Engine] {d' : Draft} {reserved : List String}
    {text : Located String} (h : d.DeclaresLiteral reserved text d') :
  d'.grammar.directives = d.grammar.directives
  := by cases h <;> rfl

theorem directives_declareTerminal [Engine] (p : Production) (pattern : String) :
  (d.declareTerminal p pattern).grammar.directives = d.grammar.directives
  := by
  have hstart : (if p.name.value = startName then d.report .startIsTerminal p.name.span else
      d).grammar = d.grammar := by split <;> rfl
  rw [declareTerminal, ← hstart]
  dsimp only
  split
  · rw [hstart]
    rfl
  · split
    · rfl
    · next h =>
      rw [directives_addAttributes]
      apply Grammar.directives_addTerminal? h

theorem directives_declareNonterminal (p : Production) :
  (d.declareNonterminal p).grammar.directives = d.grammar.directives
  := by
  rw [declareNonterminal]
  split
  · rfl
  · apply directives_addAttributes
  · split
    · rfl
    · next h =>
      rw [directives_addAttributes]
      apply Grammar.directives_addNonterminal? h

theorem directives_define (n : NonterminalId) (e : Description.Expr)
    (code : Option (Located String)) :
  (d.define n e code).grammar.directives = d.grammar.directives
  := by rw [define_eq_write]

/-- No directive of a draft sets a key. -/
def Unset (key : String) (d : Draft) : Prop :=
  ∀ x ∈ d.grammar.directives.toList, x.get? key = none

variable {d} {key : String}

theorem Unset.congr {d' : Draft} (h : d.Unset key)
    (hd : d'.grammar.directives = d.grammar.directives) :
  d'.Unset key
  := by
  rw [Unset, hd]
  exact h

theorem Unset.declareDirective (h : d.Unset key) (o : Options) (fs : FileSystem)
    {b : Description.DirectiveBlock} (hb : ∀ e ∈ b.entries, e.key.value ≠ key) :
  (d.declareDirective o fs b).Unset key
  := by
  unfold Draft.declareDirective
  dsimp only
  split
  · exact h
  · split
    · exact h
    · refine List.forall_mem_append.mpr ⟨h, List.forall_mem_singleton.mpr ?_⟩
      apply Directive.get?_ofEntries hb

/-- A key that no entry of a description has is not set by its directives. -/
theorem unset_ofDeclarations [Engine] (o : Options) (fs : FileSystem) {desc : Description}
    (h : ∀ e ∈ desc.entries, e.key.value ≠ key) :
  (ofDeclarations o fs desc).Unset key
  := by
  rw [ofDeclarations, declareLiterals]
  refine List.foldlRecOn _ _ (List.foldlRecOn _ _ (List.forall_mem_nil _) ?_) ?_
  · intro d hd text _
    exact hd.congr (declaresLiteral_declareLiteral _ d text).directives
  · intro d hd i hi
    unfold declareItem
    split
    · next b =>
      apply hd.declareDirective
      exact fun e he => h e (List.mem_flatMap.mpr ⟨_, hi, he⟩)
    · split
      · exact hd.congr (directives_declareTerminal d _ _)
      · exact hd.congr (directives_declareNonterminal d _)

end Draft

/-- Rules do not change directives. -/
theorem Grammar.directives_of_ofDescription [Engine] {o : Options} {fs : FileSystem}
    {desc : Description} {g : Grammar} {ds : List Diagnostic}
    (h : ofDescription o fs desc = (some g, ds)) :
  g.directives = (Draft.ofDeclarations o fs desc).grammar.directives
  := by
  obtain ⟨_, heq⟩ | ⟨_, heq⟩ := ofDescription_cases o fs desc
  · rw [heq] at h
    cases h
  · rw [heq] at h
    cases h
    apply Draft.foldl_defineProduction_induction
      (P := fun d => d.grammar.directives = (Draft.ofDeclarations o fs desc).grammar.directives) rfl
    intro d p _ e n _ _ hd
    rw [Draft.directives_define, hd]

/-! ### Defaults -/

namespace Directives

variable {ds : Directives} {kind kind' : Directive.Kind} {key : String}

theorem value?_eq_none (h : ∀ d ∈ ds.toList, d.get? key = none) (kind : Directive.Kind) :
  ds.value? kind key = none
  := by
  rw [value?, Option.bind_eq_none_iff]
  exact fun d hd => h d (List.mem_of_find?_eq_some hd)

/-- A directive that was put at an index is found if there is no other one of its kind. -/
theorem find?_insert_bare (h : ds.find? kind = none) (index : Nat) (kind' : Directive.Kind) :
  (ds.insert index (.bare kind .nowhere)).find? kind' =
    if kind' = kind then some (.bare kind .nowhere) else ds.find? kind'
  := by
  have hsplit : ds.find? kind' = ((ds.toList.take index).find? (·.kind = kind')).or
      ((ds.toList.drop index).find? (·.kind = kind')) := by
    rw [find?, ← List.find?_append, List.take_append_drop]
  rw [find?, insert, List.find?_append]
  split
  case isTrue hk =>
    subst hk
    rw [h] at hsplit
    rw [(Option.or_eq_none_iff.mp hsplit.symm).1, List.find?_cons_of_pos (by simp [Directive.bare]),
      Option.none_or]
  case isFalse hk =>
    rw [List.find?_cons_of_neg (by simp [Directive.bare, Ne.symm hk]), hsplit]

theorem isSome_find?_ensureAt (kind : Directive.Kind) (index : Nat) (ds : Directives) :
  ((ds.ensureAt kind index).find? kind).isSome
  := by
  unfold ensureAt
  split
  case isTrue h => exact h
  case isFalse h =>
    rw [find?_insert_bare (Option.not_isSome_iff_eq_none.mp h), if_pos rfl]
    rfl

/-- A directive without values does not change any. -/
theorem value?_ensureAt (kind : Directive.Kind) (index : Nat) (ds : Directives)
    (kind' : Directive.Kind) (key : String) :
  (ds.ensureAt kind index).value? kind' key = ds.value? kind' key
  := by
  unfold ensureAt
  split
  case isTrue => rfl
  case isFalse h =>
    have hnone := Option.not_isSome_iff_eq_none.mp h
    rw [value?, value?, find?_insert_bare hnone]
    split
    case isTrue hk =>
      rw [hk, hnone]
      rfl
    case isFalse => rfl

/-- Changing a directive but for its kind changes what is found. -/
theorem find?_update {f : Directive → Directive} (hf : ∀ d, (f d).kind = d.kind) (ds : Directives)
    (kind kind' : Directive.Kind) :
  (ds.update kind f).find? kind' =
    if kind' = kind then (ds.find? kind').map f else ds.find? kind'
  := by
  obtain ⟨ds⟩ := ds
  rw [update, find?, find?]
  dsimp only
  induction ds with
  | nil => simp [updateFirst]
  | cons d ds ih =>
    rw [updateFirst]
    by_cases hd : d.kind = kind
    · rw [if_pos hd, List.find?_cons, List.find?_cons, hf, hd]
      by_cases hk : kind' = kind
      · simp [hk]
      · simp [hk, Ne.symm hk]
    · rw [if_neg hd, List.find?_cons, List.find?_cons, ih]
      by_cases hk : d.kind = kind'
      · simp [hk, hk ▸ hd]
      · simp [hk]

end Directives

namespace Directive

theorem kind_foldl_setDefault (values : List (String × String)) (d : Directive) :
  (values.foldl (fun d (key, value) => d.setDefault key value) d).kind = d.kind
  := List.foldlRecOn (motive := fun d' : Directive => d'.kind = d.kind) _ _ rfl fun _ h _ _ => h

/-- Of the defaults of a key the first counts, if it has no value. -/
theorem get?_foldl_setDefault (key : String) (values : List (String × String)) : ∀ d : Directive,
  (values.foldl (fun d (key, value) => d.setDefault key value) d).get? key =
    (d.get? key).or (values.lookup key)
  := by
  induction values with
  | nil => intro d; simp
  | cons kv values ih =>
    intro d
    obtain ⟨k, v⟩ := kv
    rw [List.foldl_cons, ih, List.lookup_cons]
    dsimp only
    rw [get?, setDefault, OrderedMap.get?_insertNew, Option.or_assoc]
    by_cases h : key = k
    · simp [h, get?]
    · simp [h, get?, beq_eq_false_iff_ne.mpr h]

end Directive

namespace Directives

theorem value?_setDefaults (kind : Directive.Kind) (values : List (String × String))
    (ds : Directives) (kind' : Directive.Kind) (key : String) :
  (ds.setDefaults kind values).value? kind' key =
    (ds.value? kind' key).or
      (if kind' = kind ∧ (ds.find? kind).isSome then values.lookup key else none)
  := by
  rw [value?, value?, setDefaults, find?_update (Directive.kind_foldl_setDefault values)]
  by_cases hk : kind' = kind
  · subst hk
    rw [if_pos rfl]
    cases ds.find? kind' with
    | none => simp
    | some d => simp [Directive.get?_foldl_setDefault]
  · simp [hk]

/-- The defaults are those of the language that the directives ask for. -/
theorem value?_withDefaults (o : Options) (ds : Directives) (key : String) :
  (ds.withDefaults o).value? .overall key =
    (ds.value? .overall key).or ((overallDefaults o ds.targetLanguage).lookup key)
  := by
  have hlanguage : (ds.ensureAt .overall 0).targetLanguage = ds.targetLanguage := by
    rw [targetLanguage, language?, value?_ensureAt, targetLanguage, language?]
  rw [withDefaults]
  simp only [setGenerate, ensure, value?_setDefaults, value?_ensureAt, isSome_find?_ensureAt,
    hlanguage, reduceCtorEq, false_and, if_false, Option.or_none, and_self, if_true]

/-- Defaults do not ask for another language. -/
theorem targetLanguage_withDefaults (o : Options) (ds : Directives) :
  (ds.withDefaults o).targetLanguage = ds.targetLanguage
  := by
  rw [targetLanguage, language?, value?_withDefaults]
  cases h : ds.value? .overall "Language" with
  | some name => rw [Option.some_or, targetLanguage, language?, h]
  | none =>
    have hrust : ds.targetLanguage = .rust := by
      rw [targetLanguage, language?, h]
      rfl
    have hdefault : (overallDefaults o .rust).lookup "Language" = some Language.rust.name := rfl
    have hname : Language.ofName? Language.rust.name = some .rust := by decide +kernel
    rw [hrust, hdefault, Option.none_or, Option.bind_some, hname]
    rfl

end Directives

/-! ### The default directory -/

theorem Language.isAbsolute_templateDirectory (l : Language) :
  (Path.mk l.templateDirectory).isAbsolute = false
  := by cases l <;> decide

namespace Options

variable (o : Options) (l : Language)

theorem isAbsolute_defaultTemplates :
  (o.defaultTemplates l.templateDirectory).isAbsolute = o.appDirectory.isAbsolute
  := by
  rw [defaultTemplates, Path.isAbsolute_join _ l.isAbsolute_templateDirectory,
    Path.isAbsolute_join _ (by decide)]

theorem mem_defaultTemplates {c : Char} (hc : c ≠ '/') (h : c ∈ o.appDirectory.text.toList) :
  c ∈ (o.defaultTemplates l.templateDirectory).text.toList
  := by
  rw [defaultTemplates, Path.mem_join_iff _ l.isAbsolute_templateDirectory hc,
    Path.mem_join_iff _ (by decide) hc]
  exact .inl (.inl h)

variable {o l}

/-- Below the application directory, the default directory is the same directory if the application
directory is absolute, or has no names but points and there are not too many of these. -/
theorem isDirectory_join_iff {fs : FileSystem}
    (h : fs.isDirectory (o.defaultTemplates l.templateDirectory)) :
  let path := o.appDirectory.join (o.defaultTemplates l.templateDirectory)
  fs.isDirectory path ∧ path.Same (o.defaultTemplates l.templateDirectory) ↔
    o.appDirectory.isAbsolute ∨ (∀ name ∈ o.appDirectory.components, name = ".") ∧
      path.text.utf8ByteSize ≤ FileSystem.pathLimit
  := by
  intro path
  have habsolute := o.isAbsolute_defaultTemplates l
  have hallow := (FileSystem.isDirectory_iff.mp h).1
  cases ha : o.appDirectory.isAbsolute with
  | true =>
    have hpath : path = o.defaultTemplates l.templateDirectory :=
      Path.join_of_isAbsolute _ (habsolute.trans ha)
    rw [hpath]
    exact iff_of_true ⟨h, .refl _⟩ (.inl rfl)
  | false =>
    rw [ha] at habsolute
    have hsame : path.Same _ ↔ _ := Path.same_join_iff ha habsolute
    rw [hsame]
    constructor
    · rintro ⟨hdirectory, hpoints⟩
      have hpath := (FileSystem.isDirectory_iff.mp hdirectory).1
      exact .inr ⟨hpoints, (FileSystem.allow_eq_ok_iff.mp hpath).2.2⟩
    · rintro (hfalse | ⟨hpoints, hlength⟩)
      · cases hfalse
      · refine ⟨(hsame.mpr hpoints).isDirectory ?_ h, hpoints⟩
        apply FileSystem.allow_join habsolute _ hallow hlength
        -- The default directory has the characters of the application directory, and is allowed.
        intro hnull
        apply (FileSystem.allow_eq_ok_iff.mp hallow).1
        apply o.mem_defaultTemplates l (by decide) hnull

end Options

/-! ### Emitting -/

/-- The directory that templates are read from. -/
def Grammar.templates? (g : Grammar) (o : Options) (fs : FileSystem) : Option Path :=
  (g.directives.value? .overall "TemplatePath").bind (o.template? fs)

namespace Emission

variable {fs : FileSystem} {c : Context} {l : Language} {y : Diagnostic}

/-- A template that is not right is no missing directory. -/
theorem code_of_mem_artifact {directory : Path} {k : Artifact.Kind}
    (hy : y ∈ (artifact fs directory c l k).diagnostics) :
  y.code ≠ 0x1063
  := by
  unfold artifact at hy
  dsimp only at hy
  split at hy
  · rw [List.mem_singleton.mp hy]
    exact (by decide : 0x1064 ≠ 0x1063)
  · rw [throughTemplate, Template.read] at hy
    obtain ⟨piece, _, hpiece⟩ := List.mem_filterMap.mp hy
    obtain ⟨problem, hproblem, rfl⟩ := Option.map_eq_some_iff.mp hpiece
    unfold Template.Piece.problem? at hproblem
    split at hproblem
    · cases hproblem
    · dsimp only at hproblem
      split at hproblem <;> cases hproblem
      exact (by decide : 0x1065 ≠ 0x1063)

/-- What holds of the diagnostics of all outcomes holds of those of what came of them in order. -/
theorem forall_mem_foldl_append {P : Diagnostic → Prop} {outcomes : List Outcome}
    (h : ∀ outcome ∈ outcomes, ∀ y ∈ outcome.diagnostics, P y) :
  ∀ y ∈ (outcomes.foldl Outcome.append .start).diagnostics, P y
  := by
  apply List.foldlRecOn (motive := fun outcome : Outcome => ∀ y ∈ outcome.diagnostics, P y)
  · exact List.forall_mem_nil _
  · exact fun _ hs next hnext => List.forall_mem_append.mpr ⟨hs, h next hnext⟩

/-- An unresolved directory is reported if and only if there is none. -/
theorem reports_iff (fs : FileSystem) (o : Options) (c : Context) :
  (∃ y ∈ (artifacts fs o c).diagnostics, y.code = 0x1063) ↔ c.grammar.templates? o fs = none
  := by
  rw [Grammar.templates?, artifacts]
  dsimp only
  split
  case h_1 hnone =>
    rw [hnone]
    exact ⟨fun _ => rfl, fun _ => ⟨_, List.mem_singleton_self _, rfl⟩⟩
  case h_2 directory hdirectory =>
    rw [hdirectory]
    refine ⟨?_, fun h => nomatch h⟩
    rintro ⟨y, hy, hcode⟩
    rw [Outcome.append, List.append_nil] at hy
    exfalso
    refine forall_mem_foldl_append (P := (·.code ≠ 0x1063)) ?_ y hy hcode
    intro outcome houtcome
    obtain ⟨k, _, rfl⟩ := List.mem_map.mp houtcome
    exact fun y => code_of_mem_artifact

end Emission

namespace Compilation

/-- Emitting code of a compilation reports that the directory of templates is unresolved. -/
def ReportsUnresolved (c : Compilation) (fs : FileSystem) (mode : Emission.Mode) : Prop :=
  ∃ ds, (c.artifacts fs mode).1 = .error ds ∧ ∃ y ∈ ds, y.code = 0x1063

variable {c : Compilation} {p : Product}

theorem reportsUnresolved_iff (hp : c.sound? = some p) (fs : FileSystem) (mode : Emission.Mode) :
  c.ReportsUnresolved fs mode ↔ p.grammar.templates? c.options fs = none
  := by
  have hreports := Emission.reports_iff fs c.options ⟨p.grammar, p.program, mode⟩
  rw [ReportsUnresolved, artifacts, hp, ← hreports]
  dsimp only
  split
  case h_1 hds => simp [hds]
  case h_2 => simp

/-- Emitting finds templates in a directory, perhaps written with other points. -/
structure FindsTemplates (c : Compilation) (p : Product) (fs : FileSystem) (directory : Path) :
    Prop where
  resolved : ∃ path, p.grammar.templates? c.options fs = some path ∧ path.Same directory
  unreported : ∀ mode, ¬ c.ReportsUnresolved fs mode

variable {fs fs' : FileSystem} {o : Options} {text file : String}

theorem options_ofText [Engine] (fs : FileSystem) (o : Options) (text file : String) :
  (ofText fs o text file).options = o
  := by
  unfold ofText
  split
  · rfl
  · split <;> rfl

/-- The default directory of templates of a product. -/
def Product.defaultTemplates (p : Product) (o : Options) : Path :=
  o.defaultTemplates p.grammar.directives.targetLanguage.templateDirectory

/-- A description that sets no directory of templates is given the default one. -/
theorem value?_templatePath [Engine] (hp : (ofText fs o text file).sound? = some p)
    (hunset : ∀ e ∈ (Description.parse text file).1.entries, e.key.value ≠ "TemplatePath") :
  p.grammar.directives.value? .overall "TemplatePath" = some (p.defaultTemplates o).text
  := by
  have hproduct : (ofText fs o text file).product? = some p := by
    unfold sound? at hp
    split at hp
    · exact hp
    · cases hp
  have hgrammar : (ofText fs o text file).grammar? = some p.grammar := by
    rw [grammar?, hproduct, Option.map_some]
  obtain ⟨g, ds, -, hg, heq, -⟩ := exists_of_grammar? hgrammar
  have hdirectives : p.grammar.directives = g.directives.withDefaults o := by rw [heq]; rfl
  have hnone : g.directives.value? .overall "TemplatePath" = none := by
    apply Directives.value?_eq_none
    rw [Grammar.directives_of_ofDescription hg]
    apply Draft.unset_ofDeclarations o fs hunset
  rw [Product.defaultTemplates, hdirectives, Directives.targetLanguage_withDefaults,
    Directives.value?_withDefaults, hnone, Option.none_or]
  rfl

/-- What is not set is looked for below the application directory. -/
theorem templates?_of_unset [Engine] (hp : (ofText fs o text file).sound? = some p)
    (hunset : ∀ e ∈ (Description.parse text file).1.entries, e.key.value ≠ "TemplatePath")
    (fs' : FileSystem) :
  p.grammar.templates? o fs' =
    if fs'.isDirectory (o.appDirectory.join (p.defaultTemplates o)) then
      some (o.appDirectory.join (p.defaultTemplates o))
    else none
  := by
  rw [Grammar.templates?, value?_templatePath hp hunset]
  rfl

/-- If a description sets no directory of templates, the default one is found if and only if the
application directory is absolute, or it has no names but points and these are not too many.  It is
the default directory below the application directory whose absence is reported. -/
theorem findsTemplates_iff [Engine] (hp : (ofText fs o text file).sound? = some p)
    (hunset : ∀ e ∈ (Description.parse text file).1.entries, e.key.value ≠ "TemplatePath")
    (hdefault : fs'.isDirectory (p.defaultTemplates o)) :
  let c := ofText fs o text file
  let path := o.appDirectory.join (p.defaultTemplates o)
  (c.FindsTemplates p fs' (p.defaultTemplates o) ↔
      o.appDirectory.isAbsolute ∨
        (∀ name ∈ o.appDirectory.components, name = ".") ∧
          path.text.utf8ByteSize ≤ FileSystem.pathLimit) ∧
    ∀ mode, c.ReportsUnresolved fs' mode ↔ ¬ fs'.isDirectory path
  := by
  intro c path
  have htemplates := templates?_of_unset hp hunset fs'
  have hreports : ∀ mode, c.ReportsUnresolved fs' mode ↔ ¬ fs'.isDirectory path := by
    intro mode
    rw [reportsUnresolved_iff hp, options_ofText, htemplates]
    simp [path]
  have hfinds : c.FindsTemplates p fs' (p.defaultTemplates o) ↔
      fs'.isDirectory path ∧ path.Same (p.defaultTemplates o) := by
    constructor
    · rintro ⟨⟨path', hpath', hsame⟩, -⟩
      rw [options_ofText, htemplates] at hpath'
      obtain ⟨hdirectory, heq⟩ := Option.ite_none_right_eq_some.mp hpath'
      obtain rfl := Option.some_inj.mp heq
      exact ⟨hdirectory, hsame⟩
    · rintro ⟨hdirectory, hsame⟩
      refine ⟨⟨path, ?_, hsame⟩, fun mode h => (hreports mode).mp h hdirectory⟩
      rw [options_ofText, htemplates]
      apply if_pos hdirectory
  exact ⟨hfinds.trans (Options.isDirectory_join_iff hdefault), hreports⟩

/-- A file system with templates below the directory `app` of its root. -/
def bundled (working : Location) : FileSystem :=
  ⟨⟨[[], ["app"], ["app", "templates"], ["app", "templates", "rust"]].map (·, .directory)⟩, working⟩

/-- Templates are found below the working directory. -/
theorem findsTemplates_point :
  let o : Options := ⟨⟨""⟩, ⟨"."⟩⟩
  let c := ofText (bundled ["app"]) o "Start -> 'a' 'b';" ""
  ∃ p, c.sound? = some p ∧
    (∀ e ∈ (Description.parse "Start -> 'a' 'b';" "").1.entries, e.key.value ≠ "TemplatePath") ∧
    (bundled ["app"]).isDirectory (p.defaultTemplates o) ∧
    c.FindsTemplates p (bundled ["app"]) (p.defaultTemplates o)
  := by
  intro o c
  have hlanguage : (c.sound?.map fun p => p.grammar.directives.targetLanguage) = some .rust := by
    decide +kernel
  obtain ⟨p, hp, hrust⟩ := Option.map_eq_some_iff.mp hlanguage
  have hpath : p.defaultTemplates o = ⟨"./templates/rust"⟩ := by
    rw [Product.defaultTemplates, hrust]
    decide +kernel
  have hunset : ∀ e ∈ (Description.parse "Start -> 'a' 'b';" "").1.entries,
      e.key.value ≠ "TemplatePath" := by decide +kernel
  have hdefault : (bundled ["app"]).isDirectory (p.defaultTemplates o) := by
    rw [hpath, FileSystem.isDirectory_iff, FileSystem.allow_eq_ok_iff]
    exact ⟨by decide +kernel, ["app", "templates", "rust"], rfl, by decide +kernel⟩
  refine ⟨p, hp, hunset, hdefault, (findsTemplates_iff hp hunset hdefault).1.mpr (.inr ?_)⟩
  rw [hpath]
  decide +kernel

/-- Templates below a directory that is given relative to the working directory are not found: they
are looked for in `app/app/templates/rust`. -/
theorem not_findsTemplates_relative :
  let o : Options := ⟨⟨""⟩, ⟨"app"⟩⟩
  let c := ofText (bundled []) o "Start -> 'a' 'b';" ""
  ∃ p, c.sound? = some p ∧
    (∀ e ∈ (Description.parse "Start -> 'a' 'b';" "").1.entries, e.key.value ≠ "TemplatePath") ∧
    (bundled []).isDirectory (p.defaultTemplates o) ∧
    p.grammar.templates? o (bundled []) = none ∧ ∀ mode, c.ReportsUnresolved (bundled []) mode
  := by
  intro o c
  have hpath : (c.sound?.map fun p => (p.defaultTemplates o,
      p.grammar.directives.value? .overall "TemplatePath")) =
      some (⟨"app/templates/rust"⟩, some "app/templates/rust") := by decide +kernel
  obtain ⟨p, hp, hpath⟩ := Option.map_eq_some_iff.mp hpath
  obtain ⟨hpath, hvalue⟩ := Prod.mk.inj hpath
  have hdefault : (bundled []).isDirectory (p.defaultTemplates o) := by
    rw [hpath, FileSystem.isDirectory_iff, FileSystem.allow_eq_ok_iff]
    exact ⟨by decide +kernel, ["app", "templates", "rust"], rfl, by decide +kernel⟩
  have hdoubled : ¬ (bundled []).isDirectory ⟨"app/app/templates/rust"⟩ := by
    rw [FileSystem.isDirectory_iff]
    rintro ⟨-, l, hl, -⟩
    cases hl
  have hnone : p.grammar.templates? o (bundled []) = none := by
    have hjoin : o.appDirectory.join ⟨"app/templates/rust"⟩ = ⟨"app/app/templates/rust"⟩ := by
      decide +kernel
    rw [Grammar.templates?, hvalue, Option.bind_some, Options.template?, Options.existing?, hjoin]
    apply if_neg hdoubled
  refine ⟨p, hp, by decide +kernel, hdefault, hnone, fun mode => ?_⟩
  rw [reportsUnresolved_iff hp, options_ofText]
  exact hnone

end Compilation

end Descent
