import Descent.Position
import Descent.Text.Ascii

/-!
# Action code

Action code is text that may refer to the symbols of its production: a dollar sign and a name, and
an index in brackets if one follows.  Cutting a code into pieces, references and the characters
between them, loses nothing; substituting replaces the references and leaves the rest alone.
-/

namespace Descent

namespace ActionCode

/-- A reference to a symbol. -/
structure Reference where
  name : List Char
  index : Option (List Char)
  deriving DecidableEq, Repr

/-- The index of a reference as written. -/
def indexText : Option (List Char) → List Char
  | none => []
  | some i => '[' :: i ++ [']']

/-- The reference as written. -/
def Reference.text (r : Reference) : List Char := '$' :: r.name ++ indexText r.index

/-- A piece of a code. -/
inductive Piece where
  | char (c : Char)
  | reference (r : Reference)
  deriving DecidableEq, Repr

/-- The piece as written. -/
def Piece.text : Piece → List Char
  | char c => [c]
  | reference r => r.text

/-- Whether a character may stand in the name of a reference: a letter or digit in ASCII, or a low
line. -/
def isNameChar (c : Char) : Bool :=
  Text.isAsciiLetter c || Text.isAsciiDigit c || c == '_'

/-- The index in brackets at the front of a text; it has at least one character. -/
def readIndex : List Char → Option (List Char)
  | '[' :: cs =>
    let i := cs.takeWhile (· ≠ ']')
    if i.isEmpty || (cs.drop i.length).isEmpty then none else some i
  | _ => none

/-- The reference after a dollar sign. -/
def readReference (cs : List Char) : Option Reference :=
  let name := cs.takeWhile isNameChar
  if name.isEmpty then none else some ⟨name, readIndex (cs.drop name.length)⟩

/-- The first piece of a code. -/
def readPiece (c : Char) (cs : List Char) : Piece :=
  if c = '$' then
    match readReference cs with
    | some r => .reference r
    | none => .char c
  else .char c

/-- The pieces of a code. -/
def pieces : List Char → List Piece
  | [] => []
  | c :: cs =>
    let p := readPiece c cs
    p :: pieces (cs.drop (p.text.length - 1))
  termination_by cs => cs.length
  decreasing_by simp only [List.length_drop, List.length_cons]; omega

/-! ### Cutting loses nothing -/

theorem takeWhile_append_drop (p : Char → Bool) (cs : List Char) :
  cs.takeWhile p ++ cs.drop (cs.takeWhile p).length = cs
  := by
  induction cs with
  | nil => rfl
  | cons c cs ih =>
    by_cases h : p c
    · simp [h, ih]
    · simp [h]

theorem head_drop_takeWhile {p : Char → Bool} {cs : List Char} {d : Char} {ds : List Char}
    (h : cs.drop (cs.takeWhile p).length = d :: ds) :
  p d = false
  := by
  induction cs with
  | nil => simp at h
  | cons c cs ih =>
    by_cases hp : p c
    · simp only [List.takeWhile_cons, hp, ite_true, List.length_cons, List.drop_succ_cons] at h
      exact ih h
    · simp only [List.takeWhile_cons, hp, Bool.false_eq_true, ite_false, List.length_nil,
        List.drop_zero, List.cons.injEq] at h
      simpa [← h.1] using hp

theorem indexText_readIndex (cs : List Char) :
  ∃ ds, cs = indexText (readIndex cs) ++ ds
  := by
  unfold readIndex
  split
  · next cs =>
    dsimp only
    split
    · exact ⟨'[' :: cs, rfl⟩
    · next h =>
      simp only [Bool.or_eq_true, List.isEmpty_iff, not_or] at h
      obtain ⟨d, ds, hd⟩ := List.exists_cons_of_ne_nil h.2
      refine ⟨ds, ?_⟩
      have := takeWhile_append_drop (· ≠ ']') cs
      rw [hd] at this
      have hd' := head_drop_takeWhile hd
      simp only [ne_eq, decide_not, Bool.not_eq_eq_eq_not, Bool.not_false, decide_eq_true_eq] at hd'
      subst hd'
      rw [indexText]
      simp only [List.cons_append, List.append_assoc, List.nil_append]
      rw [this]
  · exact ⟨cs, rfl⟩

/-- The first piece stands at the front of its code. -/
theorem text_readPiece (c : Char) (cs : List Char) :
  ∃ ds, c :: cs = (readPiece c cs).text ++ ds
  := by
  unfold readPiece
  split
  · next h =>
    subst h
    unfold readReference
    split
    · next r hr =>
      dsimp only at hr
      simp only [Option.ite_none_left_eq_some, Option.some.injEq] at hr
      obtain ⟨-, rfl⟩ := hr
      obtain ⟨ds, hds⟩ := indexText_readIndex (cs.drop (cs.takeWhile isNameChar).length)
      refine ⟨ds, ?_⟩
      simp only [Piece.text, Reference.text, List.cons_append, List.append_assoc, List.cons.injEq,
        true_and]
      rw [← hds, takeWhile_append_drop]
    · exact ⟨cs, rfl⟩
  · exact ⟨cs, rfl⟩

theorem length_text_pos (p : Piece) :
  0 < p.text.length
  := by cases p <;> simp [Piece.text, Reference.text]

/-- The pieces of a code make up the code. -/
theorem flatMap_text_pieces (cs : List Char) :
  (pieces cs).flatMap Piece.text = cs
  := by
  fun_induction pieces cs with
  | case1 => rfl
  | case2 c cs p ih =>
    obtain ⟨ds, hds⟩ := text_readPiece c cs
    have hpos := length_text_pos p
    have hdrop : cs.drop (p.text.length - 1) = ds := by
      have : (c :: cs).drop p.text.length = ds := by
        rw [hds]
        exact List.drop_left
      obtain ⟨k, hk⟩ := Nat.exists_eq_succ_of_ne_zero (Nat.pos_iff_ne_zero.1 hpos)
      rw [hk, List.drop_succ_cons] at this
      rw [hk, Nat.succ_sub_one, this]
    simp only [List.flatMap_cons]
    rw [ih, hdrop]
    exact hds.symm

/-! ### References in their places -/

/-- A reference and the bytes it takes in its code. -/
structure Occurrence where
  start : Nat
  stop : Nat
  reference : Reference
  deriving DecidableEq, Repr

/-- The references among pieces that start at the given byte. -/
def occurrences (offset : Nat) : List Piece → List Occurrence
  | [] => []
  | .char c :: ps => occurrences (offset + c.utf8Size) ps
  | .reference r :: ps =>
    let stop := offset + byteLength r.text
    ⟨offset, stop, r⟩ :: occurrences stop ps

/-- The references of a code, in order. -/
def references (code : String) : List Occurrence := occurrences 0 (pieces code.toList)

/-- A piece with references replaced by what `f` gives for them. -/
def Piece.substitute (f : Reference → List Char) : Piece → List Char
  | char c => [c]
  | reference r => f r

/-- The code with each reference replaced by what `f` gives for it. -/
def substitute (f : Reference → List Char) (code : String) : String :=
  String.ofList ((pieces code.toList).flatMap (Piece.substitute f))

/-- Pairs each reference among pieces with what stands before its name. -/
def namesAfter (before : List Char) : List Piece → List (List Char × List Char)
  | [] => []
  | .char c :: ps => namesAfter (before ++ [c]) ps
  | .reference r :: ps => (before ++ ['$'], r.name) :: namesAfter (before ++ r.text) ps

end ActionCode

end Descent
