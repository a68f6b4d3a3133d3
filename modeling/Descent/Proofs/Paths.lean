import Descent.FileSystem

/-!
# Paths up to points

A point among the names on a path stays where the path is.

* The names on a path below another one are those of both (`Path.components_join`).
* Paths are the same up to points if their names are, but for points (`Path.Same`).  A path below a
  relative one is the same only if the relative one has no other names (`Path.same_join_iff`).
* One of two paths that are the same leads to a directory if the other one does, and if it may be
  looked up at all (`Path.Same.isDirectory`).
-/

namespace Descent

namespace Path

variable {p q : Path}

/-! ### Names -/

theorem splitSlashes_ne_nil (cs : List Char) :
  splitSlashes cs ≠ []
  := by
  cases cs with
  | nil => simp [splitSlashes]
  | cons c cs =>
    rw [splitSlashes]
    split
    · simp
    · split <;> simp

/-- A slash cuts what comes before it from what comes after. -/
theorem splitSlashes_append (xs ys : List Char) :
  splitSlashes (xs ++ '/' :: ys) = splitSlashes xs ++ splitSlashes ys
  := by
  induction xs with
  | nil => simp [splitSlashes]
  | cons c xs ih =>
    rw [List.cons_append, splitSlashes, splitSlashes, ih]
    obtain ⟨name, names, h⟩ := List.exists_cons_of_ne_nil (splitSlashes_ne_nil xs)
    rw [h]
    split <;> rfl

theorem components_append_slash (a b : String) :
  components ⟨a ++ "/" ++ b⟩ = components ⟨a⟩ ++ components ⟨b⟩
  := by
  have htext : (a ++ "/" ++ b).toList = a.toList ++ '/' :: b.toList := by simp
  rw [components, htext, splitSlashes_append, List.filter_append, List.map_append]
  rfl

/-! ### Joining -/

/-- The text of a path below another one is that of both, perhaps with a slash in between. -/
theorem exists_text_join (p : Path) (hq : q.isAbsolute = false) :
  ∃ slash, (slash = "" ∨ slash = "/") ∧ (p.join q).text = p.text ++ slash ++ q.text
  := by
  rw [join, hq, Bool.false_or]
  split
  case isTrue hp =>
    rw [String.isEmpty_iff.mp hp]
    exact ⟨"", .inl rfl, by simp⟩
  case isFalse =>
    split
    · exact ⟨"", .inl rfl, by simp⟩
    · exact ⟨"/", .inr rfl, rfl⟩

/-- Joining adds no character but a slash. -/
theorem mem_join_iff (p : Path) (hq : q.isAbsolute = false) {c : Char} (hc : c ≠ '/') :
  c ∈ (p.join q).text.toList ↔ c ∈ p.text.toList ∨ c ∈ q.text.toList
  := by
  obtain ⟨slash, rfl | rfl, htext⟩ := exists_text_join p hq
  · simp [htext]
  · simp [htext, hc]

theorem join_of_isAbsolute (p : Path) (hq : q.isAbsolute) :
  p.join q = q
  := by rw [join, hq, Bool.true_or, if_pos rfl]

/-- A path is absolute if it is below an absolute one. -/
theorem isAbsolute_join (p : Path) (hq : q.isAbsolute = false) :
  (p.join q).isAbsolute = p.isAbsolute
  := by
  rw [join, hq, Bool.false_or]
  split
  case isTrue hp =>
    rw [hq, isAbsolute, String.isEmpty_iff.mp hp]
    rfl
  case isFalse hp =>
    have hne : p.text.toList ≠ [] := fun h => hp (by simp [String.toList_eq_nil_iff.mp h])
    obtain ⟨c, cs, h⟩ := List.exists_cons_of_ne_nil hne
    split <;> simp [isAbsolute, h]

/-- The names on a path below another one. -/
theorem components_join (p : Path) (hq : q.isAbsolute = false) :
  (p.join q).components = p.components ++ q.components
  := by
  rw [join, hq, Bool.false_or]
  split
  case isTrue hp =>
    have hnames : p.components = [] := by
      rw [components, String.isEmpty_iff.mp hp]
      rfl
    rw [hnames, List.nil_append]
  case isFalse =>
    split
    case isTrue hslash =>
      rw [endsWithSlash, beq_iff_eq] at hslash
      obtain ⟨cs, hcs⟩ := List.getLast?_eq_some_iff.mp hslash
      have htext : p.text = String.ofList cs ++ "/" := by
        apply String.toList_injective
        simp [hcs]
      have hnames := components_append_slash (String.ofList cs) ""
      rw [String.append_empty, ← htext] at hnames
      rw [htext, components_append_slash, hnames, List.append_assoc]
      rfl
    case isFalse => apply components_append_slash

/-! ### Points -/

/-- Paths that start at the same place and have the same names but for points. -/
structure Same (p q : Path) : Prop where
  isAbsolute : p.isAbsolute = q.isAbsolute
  names : p.components.filter (· ≠ ".") = q.components.filter (· ≠ ".")

theorem Same.refl (p : Path) :
  p.Same p
  := ⟨rfl, rfl⟩

/-- A path stays the same below a relative one only if that has no names but points. -/
theorem same_join_iff (hp : p.isAbsolute = false) (hq : q.isAbsolute = false) :
  (p.join q).Same q ↔ ∀ name ∈ p.components, name = "."
  := by
  have hnames : ((p.join q).components.filter (· ≠ ".") = q.components.filter (· ≠ ".")) ↔
      ∀ name ∈ p.components, name = "." := by
    rw [components_join p hq, List.filter_append, List.append_left_eq_self, List.filter_eq_nil_iff]
    simp
  rw [← hnames]
  refine ⟨Same.names, fun h => ⟨?_, h⟩⟩
  rw [isAbsolute_join p hq, hp, hq]

end Path

namespace FileSystem

variable {fs : FileSystem} {p q : Path} {l m : Location} {names : List String}

/-! ### Looking up -/

theorem allow_eq_ok_iff :
  allow p = .ok () ↔ '\x00' ∉ p.text.toList ∧ p.text ≠ "" ∧ p.text.utf8ByteSize ≤ pathLimit
  := by
  unfold allow
  rw [String.contains_char_eq]
  split
  case isTrue h => simpa using fun hnot => absurd (of_decide_eq_true h) hnot
  case isFalse h =>
    split
    case isTrue he => simp [String.isEmpty_iff.mp he]
    case isFalse he =>
      split
      case isTrue hlt => simp [hlt]
      case isFalse hle => simp_all

/-- A path below another one may be looked up if it is not too long. -/
theorem allow_join (hq : q.isAbsolute = false) (hp : '\x00' ∉ p.text.toList) (h : allow q = .ok ())
    (hlength : (p.join q).text.utf8ByteSize ≤ pathLimit) :
  allow (p.join q) = .ok ()
  := by
  obtain ⟨hnull, hne, -⟩ := allow_eq_ok_iff.mp h
  refine allow_eq_ok_iff.mpr ⟨?_, ?_, hlength⟩
  · rw [Path.mem_join_iff p hq (by decide), not_or]
    exact ⟨hp, hnull⟩
  · obtain ⟨slash, -, htext⟩ := Path.exists_text_join p hq
    intro hempty
    rw [htext, String.append_eq_empty_iff] at hempty
    exact hne hempty.2

/-- A path leads to a directory if it may be looked up and its names lead to one. -/
theorem isDirectory_iff :
  fs.isDirectory p ↔ allow p = .ok () ∧
    ∃ l, fs.follow (fs.origin p) p.components = .ok l ∧ fs.get? l = some .directory
  := by
  rw [isDirectory, lookup]
  cases allow p with
  | error e => simp [bind, Except.bind]
  | ok =>
    cases fs.follow (fs.origin p) p.components with
    | error e => simp [bind, Except.bind]
    | ok l =>
      simp only [bind, Except.bind, true_and, Except.ok.injEq, exists_eq_left']
      cases fs.get? l with
      | none => simp [throw, throwThe, MonadExceptOf.throw]
      | some e =>
        cases e with
        | directory => simp [pure, Except.pure]
        | closed e => simp [throw, throwThe, MonadExceptOf.throw]
        | file bytes => cases p.endsWithSlash <;> simp [throw, throwThe, MonadExceptOf.throw, pure,
            Except.pure]

/-- What leads to a directory starts at one. -/
theorem get?_of_follow (h : fs.follow l names = .ok m) (hm : fs.get? m = some .directory) :
  fs.get? l = some .directory
  := by
  cases names with
  | nil =>
    cases h
    exact hm
  | cons name names =>
    unfold follow at h
    split at h
    · assumption
    · cases h
    · cases h
    · cases h

/-- Points can be left out on the way to a directory. -/
theorem follow_filter_iff (hm : fs.get? m = some .directory) (names : List String) :
    ∀ l, fs.follow l (names.filter (· ≠ ".")) = .ok m ↔
  fs.follow l names = .ok m
  := by
  induction names with
  | nil => exact fun _ => Iff.rfl
  | cons name names ih =>
    intro l
    by_cases hl : fs.get? l = some .directory
    · by_cases hname : name = "."
      · rw [List.filter_cons_of_neg (by simp [hname]), ih, follow, hl]
        dsimp only
        rw [if_pos hname]
      · rw [List.filter_cons_of_pos (by simp [hname]), follow, follow, hl]
        dsimp only
        rw [if_neg hname, if_neg hname]
        split
        · apply ih
        · cases allowName name with
          | error e => exact Iff.rfl
          | ok => apply ih
    · exact ⟨fun h => absurd (get?_of_follow h hm) hl, fun h => absurd (get?_of_follow h hm) hl⟩

end FileSystem

/-- A path that may be looked up leads to a directory if one does that is the same. -/
theorem Path.Same.isDirectory {fs : FileSystem} {p q : Path} (h : p.Same q)
    (hp : FileSystem.allow p = .ok ()) (hq : fs.isDirectory q) :
  fs.isDirectory p
  := by
  obtain ⟨-, l, hl, hd⟩ := FileSystem.isDirectory_iff.mp hq
  have horigin : fs.origin p = fs.origin q := by
    rw [FileSystem.origin, FileSystem.origin, h.isAbsolute]
  rw [← FileSystem.follow_filter_iff hd, ← h.names, FileSystem.follow_filter_iff hd,
    ← horigin] at hl
  exact FileSystem.isDirectory_iff.mpr ⟨hp, l, hl, hd⟩

end Descent
