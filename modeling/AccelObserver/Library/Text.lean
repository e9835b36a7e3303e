import AccelObserver.Library.Bytes
import Mathlib.Data.List.DropRight

/-!
# Searching a text

`std::string::find` looks for the first occurrence of a pattern, and its
callers go on with the text behind it.  So a search answers with that text,
and no positions are kept.
-/

namespace AccelObserver.Library.Text

/-- The text behind the first occurrence of a pattern. -/
def findAfter (pattern : Bytes) : Bytes → Option Bytes
  | [] => if pattern = [] then some [] else none
  | byte :: rest =>
      if pattern.isPrefixOf (byte :: rest) then
        some ((byte :: rest).drop pattern.length)
      else
        findAfter pattern rest

/-- Does the pattern occur in the text? -/
def occurs (pattern text : Bytes) : Bool :=
  (findAfter pattern text).isSome

/-- A block without the first byte of the pattern is skipped. -/
theorem findAfter_append_of_not_mem
    (first : UInt8) (more block rest : Bytes)
    (absent : first ∉ block) :
    findAfter (first :: more) (block ++ rest) =
      findAfter (first :: more) rest := by
  induction block with
  | nil => rfl
  | cons byte block induction =>
      simp only [List.mem_cons, not_or] at absent
      rcases absent with ⟨different, absentLater⟩
      have mismatch :
          (first :: more).isPrefixOf (byte :: (block ++ rest)) = false := by
        simp [List.isPrefixOf, different]
      rw [List.cons_append, findAfter, if_neg (by simp [mismatch])]
      exact induction absentLater

/-- The pattern is found at once where the text begins with it. -/
theorem findAfter_append_self
    (first : UInt8) (more rest : Bytes) :
    findAfter (first :: more) (first :: more ++ rest) = some rest := by
  have matched :
      (first :: more).isPrefixOf (first :: (more ++ rest)) = true :=
    List.isPrefixOf_iff_prefix.mpr (List.prefix_append (first :: more) rest)
  rw [List.cons_append, findAfter, if_pos matched]
  simp

/-- The first byte of the pattern marks where it is found. -/
theorem findAfter_of_eq_append
    {first : UInt8} {before : Bytes} (absent : first ∉ before)
    (more : Bytes) {text rest : Bytes}
    (split : text = before ++ (first :: more ++ rest)) :
    findAfter (first :: more) text = some rest := by
  rw [split, findAfter_append_of_not_mem first more before _ absent,
    findAfter_append_self]

/-- Where the pattern does not begin, the search goes on behind the byte. -/
theorem findAfter_cons_of_mismatch
    {pattern : Bytes} {byte : UInt8} {rest : Bytes}
    (mismatch : pattern.isPrefixOf (byte :: rest) = false) :
    findAfter pattern (byte :: rest) = findAfter pattern rest := by
  rw [findAfter, if_neg (by simp [mismatch])]

/-! ## Occurrences between separators -/

theorem occurs_cons (pattern : Bytes) (byte : UInt8) (rest : Bytes) :
    occurs pattern (byte :: rest) =
      (pattern.isPrefixOf (byte :: rest) || occurs pattern rest) := by
  rw [occurs, findAfter]
  by_cases here : pattern.isPrefixOf (byte :: rest) = true
  · simp [here]
  · simp [here, occurs]

/-- A pattern without the separator does not reach across it. -/
theorem isPrefixOf_append_cons
    {pattern : Bytes} {separator : UInt8} (absent : separator ∉ pattern)
    (left right : Bytes) :
    pattern.isPrefixOf (left ++ separator :: right) =
      pattern.isPrefixOf left := by
  induction pattern generalizing left with
  | nil => simp
  | cons first more induction =>
      simp only [List.mem_cons, not_or] at absent
      cases left with
      | nil => simp [List.isPrefixOf, Ne.symm absent.1]
      | cons byte left =>
          simp [List.isPrefixOf, induction absent.2]

/-- So it occurs on one side of the separator or on the other. -/
theorem occurs_append_cons
    {pattern : Bytes} {separator : UInt8} (absent : separator ∉ pattern)
    (left right : Bytes) :
    occurs pattern (left ++ separator :: right) =
      (occurs pattern left || occurs pattern right) := by
  induction left with
  | nil =>
      have across := isPrefixOf_append_cons absent [] right
      rw [List.nil_append] at across ⊢
      rw [occurs_cons, across]
      cases pattern with
      | nil => simp [occurs, findAfter]
      | cons first more => simp [occurs, findAfter, List.isPrefixOf]
  | cons byte left induction =>
      have across := isPrefixOf_append_cons absent (byte :: left) right
      rw [List.cons_append] at across ⊢
      rw [occurs_cons, occurs_cons, across, induction, Bool.or_assoc]

/-- A text without the first byte of the pattern does not hold it. -/
theorem occurs_of_not_mem
    {first : UInt8} {more text : Bytes} (absent : first ∉ text) :
    occurs (first :: more) text = false := by
  have skipped := findAfter_append_of_not_mem first more text [] absent
  rw [List.append_nil] at skipped
  rw [occurs, skipped]
  rfl

/-- A text that begins with the pattern holds it. -/
theorem occurs_append_self (first : UInt8) (more rest : Bytes) :
    occurs (first :: more) (first :: more ++ rest) = true := by
  rw [occurs, findAfter_append_self]
  rfl

/-! ## Trimming -/

/-- Nothing is trimmed off a text without the bytes to trim. -/
theorem trim_of_forall
    {front back : UInt8 → Bool} {text : Bytes}
    (keptFront : ∀ byte ∈ text, front byte = false)
    (keptBack : ∀ byte ∈ text, back byte = false) :
    (text.dropWhile front).rdropWhile back = text := by
  have first : text.dropWhile front = text := by
    cases text with
    | nil => rfl
    | cons byte rest =>
        have kept := keptFront byte (List.mem_cons_self ..)
        rw [List.dropWhile_cons_of_neg (by simp [kept])]
  rw [first, List.rdropWhile_eq_self_iff]
  intro nonempty
  simp [keptBack _ (List.getLast_mem nonempty)]

end AccelObserver.Library.Text
