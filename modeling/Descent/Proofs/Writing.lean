import Descent.Proofs.Templates

/-!
# Files that are written

A path that can be written leads to a location (`FileSystem.target?`), and paths that are written
differently can lead to the same one.

* What is put at the location of a path is read back through the path
  (`FileSystem.readText_of_target?`).
* Writing makes no directory, so that all paths lead where they did
  (`FileSystem.SameDirectories.target?_eq`).
* When several artifacts are written, a location has the last of those whose paths lead to it
  (`Emission.written_write`).
* So every artifact can be read back if artifacts that share a location have the same text, and only
  then (`Compilation.holds_iff`).
-/

namespace Descent

namespace FileSystem

variable {fs fs' : FileSystem} {p q : Path} {l m : Location} {name : String} {names : List String}

/-! ### Following names -/

theorem bind_eq_ok_iff {α β : Type} {x : Except FileError α} {f : α → Except FileError β} {b : β} :
  (x >>= f) = .ok b ↔ ∃ a, x = .ok a ∧ f a = .ok b
  := by
  cases x <;> simp [bind, Except.bind]

/-- Names lead on from directories only. -/
theorem follow_cons_eq_ok_iff :
  fs.follow l (name :: names) = .ok m ↔ fs.get? l = some .directory ∧
    if name = "." then fs.follow l names = .ok m
    else if name = ".." then fs.follow l.dropLast names = .ok m
    else allowName name = .ok () ∧ fs.follow (l ++ [name]) names = .ok m
  := by
  rw [follow]
  split
  case h_1 hl =>
    rw [hl, eq_self, true_and]
    split
    · rfl
    · split
      · rfl
      · rw [bind_eq_ok_iff]
        constructor
        · rintro ⟨_, hname, h⟩
          exact ⟨hname, h⟩
        · rintro ⟨hname, h⟩
          exact ⟨(), hname, h⟩
  all_goals
    rename_i hl
    simp [hl]

theorem follow_append_eq_ok_iff {names' : List String} :
  fs.follow l (names ++ names') = .ok m ↔
    ∃ k, fs.follow l names = .ok k ∧ fs.follow k names' = .ok m
  := by
  induction names generalizing l with
  | nil => simp [follow]
  | cons name names ih =>
    simp only [List.cons_append, follow_cons_eq_ok_iff, ih]
    split
    · grind
    · split <;> grind

/-- File systems with the same directories. -/
structure SameDirectories (fs fs' : FileSystem) : Prop where
  working : fs'.working = fs.working
  directories : ∀ l, fs'.get? l = some .directory ↔ fs.get? l = some .directory

theorem SameDirectories.refl (fs : FileSystem) :
  fs.SameDirectories fs
  := ⟨rfl, fun _ => Iff.rfl⟩

theorem SameDirectories.trans {fs'' : FileSystem} (h : fs.SameDirectories fs')
    (h' : fs'.SameDirectories fs'') :
  fs.SameDirectories fs''
  := ⟨h'.working.trans h.working, fun l => (h'.directories l).trans (h.directories l)⟩

/-- A file that is put where no directory is. -/
theorem sameDirectories_put (hl : fs.get? l ≠ some .directory) (bytes : List UInt8) :
  fs.SameDirectories (fs.put l (.file bytes))
  := by
  refine ⟨rfl, fun m => ?_⟩
  by_cases hm : m = l
  · rw [hm, get?_put_self]
    exact ⟨nofun, fun h => absurd h hl⟩
  · rw [get?_put_ne fs _ hm]

theorem SameDirectories.follow_eq_ok_iff (h : fs.SameDirectories fs') :
  fs'.follow l names = .ok m ↔ fs.follow l names = .ok m
  := by
  induction names generalizing l with
  | nil => rfl
  | cons name names ih => simp only [follow_cons_eq_ok_iff, h.directories, ih]

/-! ### Locations of files -/

/-- The location of the file that a path is written to, if it can be written. -/
def target? (fs : FileSystem) (p : Path) : Option Location := do
  (allow p).toOption
  let (names, name) ← fileName? p
  let l ← (fs.follow (fs.origin p) (names ++ ["."])).toOption
  (allowName name).toOption
  pure (l ++ [name])

theorem toOption_eq_some_iff {α : Type} {x : Except FileError α} {a : α} :
  x.toOption = some a ↔ x = .ok a
  := by
  cases x <;> simp [Except.toOption]

theorem target?_eq_some_iff :
  fs.target? p = some l ↔ allow p = .ok () ∧ ∃ names name m, fileName? p = some (names, name) ∧
    fs.follow (fs.origin p) (names ++ ["."]) = .ok m ∧ allowName name = .ok () ∧ l = m ++ [name]
  := by
  simp only [target?, bind, Option.bind_eq_some_iff, toOption_eq_some_iff, Prod.exists]
  constructor
  · rintro ⟨⟨⟩, hp, names, name, hn, m, hm, ⟨⟩, hname, heq⟩
    exact ⟨hp, names, name, m, hn, hm, hname, (Option.some_inj.mp heq).symm⟩
  · rintro ⟨hp, names, name, m, hn, hm, hname, rfl⟩
    exact ⟨(), hp, names, name, hn, m, hm, (), hname, rfl⟩

/-- Writing puts a file at the location of a path, where there is nothing or a file. -/
theorem write_eq_ok_iff {text : String} :
  fs.write p text = .ok fs' ↔ ∃ l, fs.target? p = some l ∧ fs.get? l ≠ some .directory ∧
    (∀ e, fs.get? l ≠ some (.closed e)) ∧ fs' = fs.put l (.file (Text.encode text))
  := by
  constructor
  · intro h
    obtain ⟨⟨⟩, hp, h⟩ := bind_eq_ok_iff.mp h
    split at h
    case h_1 =>
      obtain ⟨-, -, ⟨⟩⟩ := bind_eq_ok_iff.mp h
    case h_2 names name hn =>
      obtain ⟨m, hm, h⟩ := bind_eq_ok_iff.mp h
      obtain ⟨⟨⟩, hname, h⟩ := bind_eq_ok_iff.mp h
      refine ⟨m ++ [name], target?_eq_some_iff.mpr ⟨hp, names, name, m, hn, hm, hname, rfl⟩, ?_⟩
      split at h
      case h_1 => cases h
      case h_2 => cases h
      case h_3 hdirectory hclosed => exact ⟨hdirectory, hclosed, (Except.ok.inj h).symm⟩
  · rintro ⟨l, ht, hdirectory, hclosed, rfl⟩
    obtain ⟨hp, names, name, m, hn, hm, hname, rfl⟩ := target?_eq_some_iff.mp ht
    refine bind_eq_ok_iff.mpr ⟨(), hp, ?_⟩
    rw [hn]
    refine bind_eq_ok_iff.mpr ⟨m, hm, bind_eq_ok_iff.mpr ⟨(), hname, ?_⟩⟩
    split
    case h_1 h => exact absurd h hdirectory
    case h_2 e h => exact absurd h (hclosed e)
    case h_3 => rfl

theorem components_of_fileName? (h : fileName? p = some (names, name)) :
  p.components = names ++ [name] ∧ name ≠ "." ∧ name ≠ ".." ∧ p.endsWithSlash = false
  := by
  unfold fileName? at h
  split at h
  case h_1 => cases h
  case h_2 last hlast =>
    obtain ⟨hnames, heq⟩ := Option.ite_none_left_eq_some.mp h
    obtain ⟨rfl, rfl⟩ := Prod.mk.inj (Option.some_inj.mp heq)
    rw [not_or, not_or, Bool.not_eq_true] at hnames
    obtain ⟨before, hbefore⟩ := List.getLast?_eq_some_iff.mp hlast
    exact ⟨by rw [hbefore, List.dropLast_concat], hnames⟩

/-- The text of the file at the location of a path is read through the path. -/
theorem readText_of_target? {text : String} (ht : fs.target? p = some l)
    (hl : fs.get? l = some (.file (Text.encode text))) :
  fs.readText p = .ok text
  := by
  obtain ⟨hp, names, name, m, hn, hm, hname, rfl⟩ := target?_eq_some_iff.mp ht
  obtain ⟨hcomponents, hpoint, hpoints, hslash⟩ := components_of_fileName? hn
  have hfollow : fs.follow (fs.origin p) p.components = .ok (m ++ [name]) := by
    obtain ⟨k, hk, hpoint'⟩ := follow_append_eq_ok_iff.mp hm
    obtain ⟨hdirectory, hkm⟩ := follow_cons_eq_ok_iff.mp hpoint'
    rw [if_pos rfl] at hkm
    cases hkm
    rw [hcomponents]
    refine follow_append_eq_ok_iff.mpr ⟨m, hk, follow_cons_eq_ok_iff.mpr ⟨hdirectory, ?_⟩⟩
    rw [if_neg hpoint, if_neg hpoints]
    exact ⟨hname, rfl⟩
  have hlookup : fs.lookup p = .ok (.file (Text.encode text)) := by
    rw [lookup, bind_eq_ok_iff]
    refine ⟨(), hp, bind_eq_ok_iff.mpr ⟨m ++ [name], hfollow, ?_⟩⟩
    rw [hl]
    dsimp only
    rw [hslash]
    rfl
  have hread : fs.read p = .ok (Text.encode text) := bind_eq_ok_iff.mpr ⟨_, hlookup, rfl⟩
  refine bind_eq_ok_iff.mpr ⟨_, hread, ?_⟩
  rw [Text.decode?_encode]
  rfl

/-- Paths lead to the same locations where the directories are the same. -/
theorem SameDirectories.target?_eq (h : fs.SameDirectories fs') (p : Path) :
  fs'.target? p = fs.target? p
  := by
  ext l
  rw [target?_eq_some_iff, target?_eq_some_iff, origin, h.working, ← origin]
  simp only [h.follow_eq_ok_iff]

/-! ### Plain names -/

/-- A name that a file can have, and that names no other directory. -/
structure IsPlain (name : String) : Prop where
  ne_empty : name ≠ ""
  ne_point : name ≠ "."
  ne_points : name ≠ ".."
  slash : '/' ∉ name.toList

theorem splitSlashes_of_not_mem {cs : List Char} (h : '/' ∉ cs) :
  Path.splitSlashes cs = [cs]
  := by
  induction cs with
  | nil => rfl
  | cons c cs ih =>
    obtain ⟨hc, hcs⟩ := List.ne_and_not_mem_of_not_mem_cons h
    rw [Path.splitSlashes, if_neg hc.symm, ih hcs]

theorem IsPlain.components (h : IsPlain name) :
  Path.components ⟨name⟩ = [name]
  := by
  have hne : name.toList ≠ [] := mt String.toList_eq_nil_iff.mp h.ne_empty
  rw [Path.components, splitSlashes_of_not_mem h.slash,
    List.filter_cons_of_pos (by simpa using hne), List.filter_nil, List.map_singleton,
    String.ofList_toList]

/-- A path below a directory leads to a location with its name, if it is a plain one. -/
theorem IsPlain.getLast?_of_target? (h : IsPlain name) (ht : fs.target? (p.join ⟨name⟩) = some l) :
  l.getLast? = some name
  := by
  obtain ⟨-, names, last, m, hn, -, -, rfl⟩ := target?_eq_some_iff.mp ht
  have hrelative : Path.isAbsolute ⟨name⟩ = false := by
    rw [Path.isAbsolute, beq_eq_false_iff_ne]
    exact fun hslash => h.slash (List.mem_of_head? hslash)
  have hlast := congrArg List.getLast? (components_of_fileName? hn).1
  rw [Path.components_join p hrelative, h.components, List.getLast?_concat,
    List.getLast?_concat] at hlast
  rw [List.getLast?_concat, hlast]

end FileSystem

/-! ### Artifacts -/

namespace Emission

variable {fs fs' : FileSystem} {dir : Path} {a : Artifact} {as : List Artifact}
  {paths : List Path} {l : Location}

/-- The path that an artifact is written to below a directory. -/
def pathOf (dir : Path) (a : Artifact) : Path := dir.join ⟨a.fileName⟩

/-- The last of the artifacts whose paths lead to a location. -/
def lastAt? (fs : FileSystem) (dir : Path) (as : List Artifact) (l : Location) : Option Artifact :=
  (as.filter fun a => fs.target? (pathOf dir a) = some l).getLast?

theorem lastAt?_cons (fs : FileSystem) (dir : Path) (a : Artifact) (as : List Artifact)
    (l : Location) :
  lastAt? fs dir (a :: as) l =
    (lastAt? fs dir as l).or (if fs.target? (pathOf dir a) = some l then some a else none)
  := by
  rw [lastAt?, lastAt?, List.filter_cons]
  by_cases ht : fs.target? (pathOf dir a) = some l
  · rw [if_pos (decide_eq_true ht), if_pos ht, List.getLast?_cons]
    cases List.getLast? _ <;> rfl
  · rw [if_neg (by simpa using ht), if_neg ht, Option.or_none]

/-- What has been done when artifacts are written. -/
structure Written (fs : FileSystem) (dir : Path) (as : List Artifact) (paths : List Path)
    (fs' : FileSystem) : Prop where
  paths : paths = as.map (pathOf dir)
  directories : fs.SameDirectories fs'
  targets : ∀ a ∈ as, ∃ l, fs.target? (pathOf dir a) = some l
  /-- A location has the last artifact whose path leads to it, or what it had. -/
  entries : ∀ l, fs'.get? l =
    ((lastAt? fs dir as l).map fun a => .file (Text.encode a.text)).or (fs.get? l)

/-- Writing one artifact before others. -/
theorem Written.cons {fs₁ : FileSystem} (h : Written fs₁ dir as paths fs')
    (hw : fs.write (pathOf dir a) a.text = .ok fs₁) :
  Written fs dir (a :: as) (pathOf dir a :: paths) fs'
  := by
  obtain ⟨m, hm, hdirectory, -, rfl⟩ := FileSystem.write_eq_ok_iff.mp hw
  have hsame := FileSystem.sameDirectories_put hdirectory (Text.encode a.text)
  have htargets := fun b => hsame.target?_eq (pathOf dir b)
  constructor
  case paths => rw [h.paths, List.map_cons]
  case directories => exact hsame.trans h.directories
  case targets =>
    refine List.forall_mem_cons.mpr ⟨⟨m, hm⟩, fun b hb => ?_⟩
    obtain ⟨l, hl⟩ := h.targets b hb
    exact ⟨l, (htargets b).symm.trans hl⟩
  case entries =>
    intro l
    have hlast : lastAt? (fs.put m (.file (Text.encode a.text))) dir as l =
        lastAt? fs dir as l := by
      simp only [lastAt?, htargets]
    rw [h.entries, hlast, lastAt?_cons, hm]
    cases lastAt? fs dir as l with
    | some b => rfl
    | none =>
      rw [Option.none_or]
      by_cases hml : m = l
      · rw [hml, if_pos rfl, FileSystem.get?_put_self]
        rfl
      · rw [if_neg (by simpa using hml), FileSystem.get?_put_ne _ _ (Ne.symm hml)]

/-- When all artifacts have been written. -/
theorem written_write (fs : FileSystem) (dir : Path) (as : List Artifact)
    (h : Emission.write fs dir as = (.ok paths, fs')) :
  Written fs dir as paths fs'
  := by
  induction as generalizing fs paths with
  | nil =>
    cases h
    exact ⟨rfl, .refl _, List.forall_mem_nil _, fun l => rfl⟩
  | cons a as ih =>
    rw [write] at h
    dsimp only at h
    split at h
    case h_1 => cases h
    case h_2 fs₁ hw =>
      generalize hrest : write fs₁ dir as = rest at h
      obtain ⟨written | written, fs₂⟩ := rest
      · cases h
      · cases h
        exact (ih fs₁ hrest).cons hw

/-- Whether a path leads to a location where a file can be put. -/
def IsWritable (fs : FileSystem) (p : Path) : Prop :=
  ∃ l, fs.target? p = some l ∧ ∀ e, fs.get? l = some e → ∃ bytes, e = .file bytes

/-- Artifacts whose paths can be written are all written. -/
theorem exists_write (fs : FileSystem) (dir : Path) (as : List Artifact)
    (h : ∀ a ∈ as, IsWritable fs (pathOf dir a)) :
  ∃ paths fs', Emission.write fs dir as = (.ok paths, fs')
  := by
  induction as generalizing fs with
  | nil => exact ⟨[], fs, rfl⟩
  | cons a as ih =>
    obtain ⟨⟨l, hl, hfree⟩, has⟩ := List.forall_mem_cons.mp h
    have hdirectory : fs.get? l ≠ some .directory := by
      intro hd
      obtain ⟨bytes, ⟨⟩⟩ := hfree _ hd
    have hclosed : ∀ e, fs.get? l ≠ some (.closed e) := by
      intro e he
      obtain ⟨bytes, ⟨⟩⟩ := hfree _ he
    have hw : fs.write (pathOf dir a) a.text = .ok (fs.put l (.file (Text.encode a.text))) :=
      FileSystem.write_eq_ok_iff.mpr ⟨l, hl, hdirectory, hclosed, rfl⟩
    have hsame := FileSystem.sameDirectories_put hdirectory (Text.encode a.text)
    obtain ⟨paths, fs', hrest⟩ := ih (fs.put l (.file (Text.encode a.text))) (by
      intro b hb
      obtain ⟨m, hm, hfree'⟩ := has b hb
      refine ⟨m, (hsame.target?_eq _).trans hm, fun e he => ?_⟩
      by_cases hml : m = l
      · rw [hml, FileSystem.get?_put_self, Option.some_inj] at he
        exact ⟨_, he.symm⟩
      · rw [FileSystem.get?_put_ne fs _ hml] at he
        exact hfree' e he)
    refine ⟨pathOf dir a :: paths, fs', ?_⟩
    rw [pathOf] at hw
    simp only [Emission.write, hw, hrest]
    rfl

/-- What artifacts are read back as after they have been written. -/
theorem Written.readText (h : Written fs dir as paths fs') (ha : a ∈ as) :
  ∃ l b, fs.target? (pathOf dir a) = some l ∧ lastAt? fs dir as l = some b ∧
    fs'.readText (pathOf dir a) = .ok b.text
  := by
  obtain ⟨l, hl⟩ := h.targets a ha
  have hlast : (lastAt? fs dir as l).isSome := by
    rw [lastAt?, List.getLast?_isSome]
    exact List.ne_nil_of_mem (List.mem_filter.mpr ⟨ha, decide_eq_true hl⟩)
  obtain ⟨b, hb⟩ := Option.isSome_iff_exists.mp hlast
  refine ⟨l, b, hl, hb, FileSystem.readText_of_target? ((h.directories.target?_eq _).trans hl) ?_⟩
  rw [h.entries, hb]
  rfl

/-- Whether every artifact can be read back from its path. -/
def Holds (fs : FileSystem) (dir : Path) (as : List Artifact) : Prop :=
  ∀ a ∈ as, fs.readText (pathOf dir a) = .ok a.text

/-- Artifacts that share a location have the same text. -/
def Agree (fs : FileSystem) (dir : Path) (as : List Artifact) : Prop :=
  ∀ a ∈ as, ∀ b ∈ as, fs.target? (pathOf dir a) = fs.target? (pathOf dir b) → a.text = b.text

theorem Written.holds_iff (h : Written fs dir as paths fs') :
  Holds fs' dir as ↔ Agree fs dir as
  := by
  constructor
  · intro hholds a ha b hb heq
    obtain ⟨l, c, hl, hc, hread⟩ := h.readText ha
    obtain ⟨l', c', hl', hc', hread'⟩ := h.readText hb
    obtain rfl := Option.some_inj.mp (hl.symm.trans (heq.trans hl'))
    obtain rfl := Option.some_inj.mp (hc.symm.trans hc')
    rw [hholds a ha] at hread
    rw [hholds b hb] at hread'
    exact Except.ok.inj (hread.trans hread'.symm)
  · intro hagree a ha
    obtain ⟨l, b, hl, hb, hread⟩ := h.readText ha
    obtain ⟨hmem, hbl⟩ := List.mem_filter.mp (List.mem_of_getLast? hb)
    rw [hread, hagree a ha b hmem (hl.trans (of_decide_eq_true hbl).symm)]

/-- Artifacts with plain names that are distinct share no location. -/
theorem Written.agree_of_isPlain (h : Written fs dir as paths fs')
    (hplain : ∀ a ∈ as, FileSystem.IsPlain a.fileName) (hnames : (as.map (·.fileName)).Nodup) :
  Agree fs dir as
  := by
  intro a ha b hb heq
  obtain ⟨l, hl⟩ := h.targets a ha
  have hlast := (hplain a ha).getLast?_of_target? hl
  rw [(hplain b hb).getLast?_of_target? (heq.symm.trans hl), Option.some_inj] at hlast
  rw [List.inj_on_of_nodup_map hnames ha hb hlast.symm]

/-! ### Artifacts of a grammar -/

/-- An artifact that is emitted through a template with nothing wrong with it. -/
def Emits (fs : FileSystem) (directory : Path) (c : Context) (l : Language) (k : Artifact.Kind)
    (a : Artifact) : Prop :=
  ∃ text, fs.readText (directory.join ⟨k.templateFile l⟩) = .ok text ∧
    (Template.read (k.templateFile l) text).2 = [] ∧
    a = ⟨k, fileName c.grammar.directives l k,
      (Template.read (k.templateFile l) text).1.render (slot l c)⟩

/-- An outcome with nothing wrong. -/
def Outcome.IsOk (x : Outcome) (as : List Artifact) : Prop :=
  x.artifacts? = some as ∧ x.diagnostics = []

theorem Outcome.isOk_append_iff (x y : Outcome) :
  (x.append y).IsOk as ↔ ∃ bs cs, x.IsOk bs ∧ y.IsOk cs ∧ as = bs ++ cs
  := by
  obtain ⟨bs | bs, ds, ws⟩ := x
  · simp [append, IsOk]
  · obtain ⟨cs | cs, ds', ws'⟩ := y
    · simp [append, IsOk]
    · simp [append, IsOk]
      grind

theorem isOk_artifact_iff (fs : FileSystem) (directory : Path) (c : Context) (lang : Language)
    (k : Artifact.Kind) :
  (artifact fs directory c lang k).IsOk as ↔ ∃ a, as = [a] ∧ Emits fs directory c lang k a
  := by
  unfold artifact Emits
  dsimp only
  cases fs.readText (directory.join ⟨k.templateFile lang⟩) with
  | error e => simp [Outcome.IsOk]
  | ok text =>
    simp only [Outcome.IsOk, throughTemplate, Option.some_inj, Except.ok.injEq, exists_eq_left']
    grind

/-- Emitting artifacts after others. -/
theorem isOk_foldl_append_iff (fs : FileSystem) (directory : Path) (c : Context) (lang : Language)
    (ks : List Artifact.Kind) (x : Outcome) :
  ((ks.map (artifact fs directory c lang)).foldl Outcome.append x).IsOk as ↔
    ∃ bs cs, x.IsOk bs ∧ List.Forall₂ (Emits fs directory c lang) ks cs ∧ as = bs ++ cs
  := by
  induction ks generalizing x as with
  | nil => simp
  | cons k ks ih =>
    simp only [List.map_cons, List.foldl_cons, ih, Outcome.isOk_append_iff, isOk_artifact_iff,
      List.forall₂_cons_left_iff]
    constructor
    · rintro ⟨_, cs, ⟨bs, _, hx, ⟨a, rfl, ha⟩, rfl⟩, hcs, rfl⟩
      exact ⟨bs, a :: cs, hx, ⟨a, cs, ha, hcs, rfl⟩,
        by rw [List.append_assoc, List.singleton_append]⟩
    · rintro ⟨bs, _, hx, ⟨a, cs, ha, hcs, rfl⟩, rfl⟩
      exact ⟨bs ++ [a], cs, ⟨bs, [a], hx, ⟨a, rfl, ha⟩, rfl⟩, hcs,
        by rw [List.append_assoc, List.singleton_append]⟩

/-- The kinds of artifacts that directives ask for. -/
def wanted (ds : Directives) : List Artifact.Kind :=
  Artifact.Kind.all.filter fun k => ds.generate k.directive

/-- Artifacts are emitted when the directory of templates is there, and there is nothing wrong with
the template of any that is asked for. -/
theorem isOk_artifacts_iff (fs : FileSystem) (o : Options) (c : Context) :
  (artifacts fs o c).IsOk as ↔ ∃ directory, c.grammar.templates? o fs = some directory ∧
    List.Forall₂ (Emits fs directory c c.grammar.directives.targetLanguage)
      (wanted c.grammar.directives) as
  := by
  unfold artifacts Grammar.templates?
  dsimp only
  cases (c.grammar.directives.value? .overall "TemplatePath").bind (o.template? fs) with
  | none => simp [Outcome.IsOk]
  | some directory =>
    rw [← wanted, Outcome.isOk_append_iff]
    simp only [isOk_foldl_append_iff, Option.some_inj, exists_eq_left']
    constructor
    · rintro ⟨_, ds, ⟨bs, cs, ⟨hbs, -⟩, hcs, rfl⟩, ⟨hds, -⟩, rfl⟩
      cases hbs
      cases hds
      rwa [List.nil_append, List.append_nil]
    · exact fun h => ⟨as, [], ⟨[], as, ⟨rfl, rfl⟩, h, rfl⟩, ⟨rfl, rfl⟩, (List.append_nil as).symm⟩

end Emission

namespace Compilation

/-- Artifacts are those of a grammar with which nothing is wrong. -/
theorem artifacts_eq_ok_iff {c : Compilation} {fs : FileSystem} {mode : Emission.Mode}
    {as : List Artifact} :
  (c.artifacts fs mode).1 = .ok as ↔ ∃ p, c.sound? = some p ∧
    (Emission.artifacts fs c.options ⟨p.grammar, p.program, mode⟩).IsOk as
  := by
  unfold artifacts
  cases c.sound? with
  | none => simp
  | some p =>
    simp only [Option.some_inj, exists_eq_left', Emission.Outcome.IsOk]
    split
    case h_1 bs hbs hds => simp [hbs, hds]
    case h_2 hno =>
      refine iff_of_false nofun ?_
      rintro ⟨has, hds⟩
      exact hno as has hds

variable {fs₀ fs disk disk' : FileSystem} {o : Options} {text file : String}
  {mode : Emission.Mode} {as : List Artifact} {dir : Path} {paths : List Path}

/-- The artifacts of a text are those that its directives ask for.  When they have been written, the
path of each leads to the text of the last artifact at its location.  So every artifact can be read
back if artifacts that share a location have the same text, and only then; this is so if their
file names are plain and distinct. -/
theorem artifacts_hold_iff [Engine] (h : ((ofText fs₀ o text file).artifacts fs mode).1 = .ok as)
    (hw : Emission.write disk dir as = (.ok paths, disk')) :
  ∃ p directory, (ofText fs₀ o text file).sound? = some p ∧
    p.grammar.templates? o fs = some directory ∧
    List.Forall₂ (Emission.Emits fs directory ⟨p.grammar, p.program, mode⟩
      p.grammar.directives.targetLanguage) (Emission.wanted p.grammar.directives) as ∧
    paths = as.map (Emission.pathOf dir) ∧
    (∀ a ∈ as, ∃ l b, disk.target? (Emission.pathOf dir a) = some l ∧
      Emission.lastAt? disk dir as l = some b ∧
      disk'.readText (Emission.pathOf dir a) = .ok b.text) ∧
    (Emission.Holds disk' dir as ↔ Emission.Agree disk dir as) ∧
    ((∀ a ∈ as, FileSystem.IsPlain a.fileName) → (as.map (·.fileName)).Nodup →
      Emission.Holds disk' dir as)
  := by
  obtain ⟨p, hp, hok⟩ := artifacts_eq_ok_iff.mp h
  obtain ⟨directory, hdirectory, hemits⟩ := (Emission.isOk_artifacts_iff _ _ _).mp hok
  rw [options_ofText] at hdirectory
  have hwritten := Emission.written_write disk dir as hw
  exact ⟨p, directory, hp, hdirectory, hemits, hwritten.paths, fun a ha => hwritten.readText ha,
    hwritten.holds_iff, fun hplain hnames =>
      hwritten.holds_iff.mpr (hwritten.agree_of_isPlain hplain hnames)⟩

/-- A file system with templates of a scanner and a parser, of one letter each. -/
def templated : FileSystem :=
  ⟨⟨[[], ["templates"], ["templates", "rust"]].map (·, .directory) ++
    [(["templates", "rust", "scanner.rs.tpl"], .file (Text.encode "s")),
      (["templates", "rust", "parser.rs.tpl"], .file (Text.encode "p"))]⟩, []⟩

/-- The compilation of a text that names the files of its scanner and its parser, and asks for no
other. -/
def ofFileNames [Engine] (scanner parser : String) : Compilation :=
  .ofText templated ⟨⟨"."⟩, ⟨"."⟩⟩ ("@Scanner \x7b FileName = \"" ++ scanner ++
    "\"; \x7d @Parser \x7b FileName = \"" ++ parser ++
    "\"; \x7d @ParseTree \x7b Generate = \"False\"; \x7d Start -> 'a' 'b';") ""

/-- What a compilation with a product asks for. -/
def asked? (c : Compilation) :
    Option (Option String × Language × List Artifact.Kind × String × String) :=
  c.sound?.map fun p =>
    let ds := p.grammar.directives
    (ds.value? .overall "TemplatePath", ds.targetLanguage, Emission.wanted ds,
      Emission.fileName ds .rust .scanner, Emission.fileName ds .rust .parser)

/-- A template that is read from below the directory of templates. -/
theorem readText_templated {name text : String}
    (h : (FileSystem.fileName? ((Path.mk "././templates/rust").join ⟨name⟩)) =
      some ([".", ".", "templates", "rust"], name))
    (hp : FileSystem.allow ((Path.mk "././templates/rust").join ⟨name⟩) = .ok ())
    (hname : FileSystem.allowName name = .ok ())
    (hfile : templated.get? ["templates", "rust", name] = some (.file (Text.encode text))) :
  templated.readText ((Path.mk "././templates/rust").join ⟨name⟩) = .ok text
  := by
  refine FileSystem.readText_of_target? (l := ["templates", "rust", name]) ?_ hfile
  refine FileSystem.target?_eq_some_iff.mpr ⟨hp, _, _, ["templates", "rust"], h, ?_, hname, rfl⟩
  have horigin : templated.origin ((Path.mk "././templates/rust").join ⟨name⟩) = [] := ite_self []
  rw [horigin]
  rfl

theorem artifacts_ofFileNames [Engine] (scanner parser : String)
    (h : (ofFileNames scanner parser).asked? =
      some (some "./templates/rust", .rust, [.scanner, .parser], scanner, parser)) :
  ((ofFileNames scanner parser).artifacts templated .release).1 =
    .ok [⟨.scanner, scanner, "s"⟩, ⟨.parser, parser, "p"⟩]
  := by
  obtain ⟨p, hp, hasked⟩ := Option.map_eq_some_iff.mp h
  simp only [Prod.mk.injEq] at hasked
  obtain ⟨hpath, hlanguage, hwanted, hscanner, hparser⟩ := hasked
  have hdirectory : templated.isDirectory ⟨"././templates/rust"⟩ := by
    rw [FileSystem.isDirectory_iff, FileSystem.allow_eq_ok_iff]
    exact ⟨by decide +kernel, ["templates", "rust"], by decide +kernel, by decide +kernel⟩
  have htemplates :
      p.grammar.templates? ⟨⟨"."⟩, ⟨"."⟩⟩ templated = some ⟨"././templates/rust"⟩ := by
    rw [Grammar.templates?, hpath]
    exact if_pos hdirectory
  have hallow : ∀ k : Artifact.Kind, FileSystem.allow ((Path.mk "././templates/rust").join
      ⟨k.templateFile .rust⟩) = .ok () := by
    intro k
    rw [FileSystem.allow_eq_ok_iff]
    cases k <;> decide +kernel
  refine artifacts_eq_ok_iff.mpr ⟨p, hp, (Emission.isOk_artifacts_iff _ _ _).mpr
    ⟨⟨"././templates/rust"⟩, ?_, ?_⟩⟩
  · rw [ofFileNames, options_ofText, htemplates]
  · rw [hlanguage, hwanted]
    refine .cons ⟨"s", ?_, by decide +kernel, ?_⟩ (.cons ⟨"p", ?_, by decide +kernel, ?_⟩ .nil)
    · exact readText_templated (by decide +kernel) (hallow .scanner) rfl (by decide +kernel)
    · rw [hscanner]
      have hread : Template.read "scanner.rs.tpl" "s" = (⟨"scanner.rs.tpl", [.text "s"]⟩, []) := by
        decide +kernel
      change _ = Artifact.mk _ _ ((Template.read "scanner.rs.tpl" "s").1.render _)
      rw [hread]
      rfl
    · exact readText_templated (by decide +kernel) (hallow .parser) rfl (by decide +kernel)
    · rw [hparser]
      have hread : Template.read "parser.rs.tpl" "p" = (⟨"parser.rs.tpl", [.text "p"]⟩, []) := by
        decide +kernel
      change _ = Artifact.mk _ _ ((Template.read "parser.rs.tpl" "p").1.render _)
      rw [hread]
      rfl

/-- Below the root there is nothing of the name of an artifact. -/
theorem target?_templated (name : String)
    (h : FileSystem.fileName? ((Path.mk ".").join ⟨name⟩) = some (["."], name))
    (hp : FileSystem.allow ((Path.mk ".").join ⟨name⟩) = .ok ())
    (hname : FileSystem.allowName name = .ok ()) :
  templated.target? ((Path.mk ".").join ⟨name⟩) = some [name]
  := by
  refine FileSystem.target?_eq_some_iff.mpr ⟨hp, _, _, [], h, ?_, hname, rfl⟩
  have horigin : templated.origin ((Path.mk ".").join ⟨name⟩) = [] := ite_self []
  rw [horigin]
  rfl

/-- The scanner has a name of its own, and the parser is in its default file: both are kept. -/
theorem artifacts_hold_distinct :
  ∃ as paths disk, ((ofFileNames "scan.rs" "parser.rs").artifacts templated .release).1 = .ok as ∧
    Emission.write templated ⟨"."⟩ as = (.ok paths, disk) ∧
    paths = [⟨"./scan.rs"⟩, ⟨"./parser.rs"⟩] ∧ Emission.Holds disk ⟨"."⟩ as
  := by
  have hartifacts := artifacts_ofFileNames "scan.rs" "parser.rs" (by decide +kernel)
  have hscanner := target?_templated "scan.rs" (by decide +kernel)
    (FileSystem.allow_eq_ok_iff.mpr (by decide +kernel)) rfl
  have hparser := target?_templated "parser.rs" (by decide +kernel)
    (FileSystem.allow_eq_ok_iff.mpr (by decide +kernel)) rfl
  obtain ⟨paths, disk, hw⟩ := Emission.exists_write templated ⟨"."⟩
    [⟨.scanner, "scan.rs", "s"⟩, ⟨.parser, "parser.rs", "p"⟩] (by
      rw [List.forall_mem_cons, List.forall_mem_singleton]
      exact ⟨⟨_, hscanner, nofun⟩, ⟨_, hparser, nofun⟩⟩)
  obtain ⟨-, -, -, -, -, hpaths, -, -, hholds⟩ := artifacts_hold_iff hartifacts hw
  refine ⟨_, paths, disk, hartifacts, hw, hpaths.trans (by decide +kernel), hholds ?_ (by decide)⟩
  rw [List.forall_mem_cons, List.forall_mem_singleton]
  exact ⟨⟨by decide, by decide, by decide, by decide⟩, ⟨by decide, by decide, by decide, by decide⟩⟩

/-- The scanner and the parser are written to one file: nothing is wrong, and the scanner is
lost. -/
theorem not_holds_shared :
  ∃ as paths disk, ((ofFileNames "x" "x").artifacts templated .release).1 = .ok as ∧
    templated.isDirectory ⟨"."⟩ ∧ Emission.write templated ⟨"."⟩ as = (.ok paths, disk) ∧
    ∃ a ∈ as, a.text = "s" ∧ disk.readText (Emission.pathOf ⟨"."⟩ a) = .ok "p"
  := by
  have hartifacts := artifacts_ofFileNames "x" "x" (by decide +kernel)
  have hx := target?_templated "x" (by decide +kernel)
    (FileSystem.allow_eq_ok_iff.mpr (by decide +kernel)) rfl
  have htarget : ∀ k text, templated.target? (Emission.pathOf ⟨"."⟩ ⟨k, "x", text⟩) = some ["x"] :=
    fun _ _ => hx
  obtain ⟨paths, disk, hw⟩ := Emission.exists_write templated ⟨"."⟩
    [⟨.scanner, "x", "s"⟩, ⟨.parser, "x", "p"⟩] (by
      rw [List.forall_mem_cons, List.forall_mem_singleton]
      exact ⟨⟨_, htarget _ _, nofun⟩, ⟨_, htarget _ _, nofun⟩⟩)
  have hdirectory : templated.isDirectory ⟨"."⟩ := by
    rw [FileSystem.isDirectory_iff, FileSystem.allow_eq_ok_iff]
    exact ⟨by decide +kernel, [], by decide +kernel, by decide +kernel⟩
  have hlast : Emission.lastAt? templated ⟨"."⟩ [⟨.scanner, "x", "s"⟩, ⟨.parser, "x", "p"⟩] ["x"] =
      some ⟨.parser, "x", "p"⟩ := by
    rw [Emission.lastAt?_cons, Emission.lastAt?_cons, if_pos (htarget _ _), if_pos (htarget _ _)]
    rfl
  obtain ⟨l, b, hl, hb, hread⟩ := (Emission.written_write _ _ _ hw).readText List.mem_cons_self
  obtain rfl := Option.some_inj.mp ((htarget _ _).symm.trans hl)
  obtain rfl := Option.some_inj.mp (hlast.symm.trans hb)
  exact ⟨_, paths, disk, hartifacts, hdirectory, hw, _, List.mem_cons_self, rfl, hread⟩

end Compilation

end Descent
