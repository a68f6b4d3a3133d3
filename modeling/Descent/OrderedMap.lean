/-!
# Ordered maps

A finite map that remembers the order in which its keys came.  Writing to a key that is present
changes its value and leaves it at its place.
-/

namespace Descent

/-- A finite map whose keys stand in the order of their first insertion. -/
structure OrderedMap (κ ν : Type) where
  entries : List (κ × ν)
  deriving DecidableEq, Repr

namespace OrderedMap

variable {κ ν : Type}

/-- The map without keys. -/
def empty : OrderedMap κ ν := ⟨[]⟩

instance : Inhabited (OrderedMap κ ν) := ⟨empty⟩

/-- The keys, in order. -/
def keys (m : OrderedMap κ ν) : List κ := m.entries.map Prod.fst

variable [DecidableEq κ]

/-- The value of a key. -/
def get? (m : OrderedMap κ ν) (k : κ) : Option ν :=
  (m.entries.find? (·.1 = k)).map Prod.snd

/-- Whether a key has a value. -/
def contains (m : OrderedMap κ ν) (k : κ) : Bool := m.entries.any (·.1 = k)

/-- Writes a value in a list of entries: at the place of its key, or at the end. -/
def write (k : κ) (v : ν) : List (κ × ν) → List (κ × ν)
  | [] => [(k, v)]
  | e :: rest => if e.1 = k then (k, v) :: rest else e :: write k v rest

/-- Gives a key a value. -/
def insert (m : OrderedMap κ ν) (k : κ) (v : ν) : OrderedMap κ ν := ⟨write k v m.entries⟩

/-- Gives a key a value unless it has one. -/
def insertNew (m : OrderedMap κ ν) (k : κ) (v : ν) : OrderedMap κ ν :=
  if m.contains k then m else ⟨m.entries ++ [(k, v)]⟩

@[simp]
theorem get?_empty (k : κ) :
  (empty : OrderedMap κ ν).get? k = none
  := rfl

theorem find?_write_self (k : κ) (v : ν) (es : List (κ × ν)) :
  (write k v es).find? (·.1 = k) = some (k, v)
  := by
  induction es with
  | nil => simp [write]
  | cons e es ih =>
    unfold write
    split
    · simp
    · next h => simp [h, ih]

theorem find?_write_ne {j k : κ} (h : j ≠ k) (v : ν) (es : List (κ × ν)) :
  (write k v es).find? (·.1 = j) = es.find? (·.1 = j)
  := by
  induction es with
  | nil => simp [write, Ne.symm h]
  | cons e es ih =>
    unfold write
    split
    · next he => simp [he, Ne.symm h]
    · simp [List.find?_cons, ih]

@[simp]
theorem get?_insert_self (m : OrderedMap κ ν) (k : κ) (v : ν) :
  (m.insert k v).get? k = some v
  := by simp [insert, get?, find?_write_self]

theorem get?_insert_ne (m : OrderedMap κ ν) {j k : κ} (h : j ≠ k) (v : ν) :
  (m.insert k v).get? j = m.get? j
  := by simp [insert, get?, find?_write_ne h]

theorem contains_eq_isSome (m : OrderedMap κ ν) (k : κ) :
  m.contains k = (m.get? k).isSome
  := by
  simp only [contains, get?, Option.isSome_map, List.isSome_find?]

/-- A key without a value is written at the end. -/
theorem write_of_notMem {k : κ} {es : List (κ × ν)} (h : k ∉ es.map Prod.fst) (v : ν) :
  write k v es = es ++ [(k, v)]
  := by
  induction es with
  | nil => rfl
  | cons e es ih =>
    rw [List.map_cons, List.mem_cons, not_or] at h
    rw [write, if_neg (Ne.symm h.1), ih h.2, List.cons_append]

/-- The keys with a value are those of the entries. -/
theorem mem_keys_iff {m : OrderedMap κ ν} {k : κ} :
  k ∈ m.keys ↔ m.contains k
  := by simp [keys, contains]

/-- If no key occurs twice, the entries are the keys with their values. -/
theorem get?_eq_some_iff {m : OrderedMap κ ν} (h : m.keys.Nodup) {k : κ} {v : ν} :
  m.get? k = some v ↔ (k, v) ∈ m.entries
  := by
  obtain ⟨es⟩ := m
  simp only [get?, keys] at h ⊢
  induction es with
  | nil => simp
  | cons e es ih =>
    obtain ⟨j, w⟩ := e
    rw [List.map_cons, List.nodup_cons] at h
    rw [List.find?_cons, List.mem_cons]
    by_cases hj : j = k
    · have hk : (k, v) ∉ es := by
        intro hmem
        apply h.1
        rw [hj]
        apply List.mem_map_of_mem hmem
      simp [hj, hk, eq_comm]
    · simp [hj, Ne.symm hj, ih h.2]

/-- A new key has the value that was given; others have theirs. -/
theorem get?_insertNew (m : OrderedMap κ ν) (j k : κ) (v : ν) :
  (m.insertNew k v).get? j = (m.get? j).or (if j = k then some v else none)
  := by
  unfold insertNew
  split
  case isTrue hk =>
    rw [contains_eq_isSome] at hk
    split
    case isTrue hj => rw [hj, Option.or_of_isSome hk]
    case isFalse => rw [Option.or_none]
  case isFalse =>
    rw [get?, get?, List.find?_append, Option.map_or]
    by_cases hj : k = j
    · simp [hj]
    · simp [hj, Ne.symm hj]

end OrderedMap

end Descent
