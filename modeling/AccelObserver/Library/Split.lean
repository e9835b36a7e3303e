import Mathlib.Data.List.Infix

/-!
# Splitting at a separator

The pieces of a text between the occurrences of a separator, which are looked
for from the front and do not overlap.  Joining with a separator and splitting
at it gives the pieces back where the separator is not met before its turn.
-/

namespace AccelObserver.Library.Split

variable {α : Type}

/-! ## Splitting -/

/-- An element in front of the first piece. -/
def addFront (a : α) : List (List α) → List (List α)
  | [] => [[a]]
  | piece :: more => (a :: piece) :: more

/-- The pieces of a text behind some elements of a separator. -/
def splitFrom [DecidableEq α] (separator : List α) : Nat → List α → List (List α)
  | _, [] => [[]]
  | skip + 1, _ :: rest => splitFrom separator skip rest
  | 0, a :: rest =>
      if separator <+: a :: rest then
        [] :: splitFrom separator (separator.length - 1) rest
      else addFront a (splitFrom separator 0 rest)

/-- The pieces of a text; an empty separator separates nothing. -/
def split [DecidableEq α] (separator text : List α) : List (List α) :=
  if separator = [] then [text] else splitFrom separator 0 text

/-- The separator is met before the end of a piece that it follows. -/
def Early (separator piece : List α) : Prop :=
  ∃ q < piece.length, separator <+: (piece ++ separator).drop q

/-- Pieces that splitting finds again where they were joined. -/
def Separable (separator : List α) : List (List α) → Prop
  | [] => False
  | [last] => ¬ separator <:+: last
  | piece :: next :: more =>
      ¬ Early separator piece ∧ Separable separator (next :: more)

instance [DecidableEq α] (separator piece : List α) :
    Decidable (Early separator piece) :=
  inferInstanceAs (Decidable (∃ q < piece.length, _))

instance decidableSeparable [DecidableEq α] (separator : List α) :
    (pieces : List (List α)) → Decidable (Separable separator pieces)
  | [] => inferInstanceAs (Decidable False)
  | [last] => inferInstanceAs (Decidable (¬ separator <:+: last))
  | piece :: next :: more =>
      have := decidableSeparable separator (next :: more)
      inferInstanceAs (Decidable (¬ Early separator piece ∧ _))

/-! ## The first piece -/

theorem early_cons {separator piece : List α} {a : α} :
    Early separator (a :: piece) ↔
      separator <+: a :: piece ++ separator ∨ Early separator piece := by
  constructor
  · rintro ⟨q, inside, met⟩
    cases q with
    | zero => exact .inl met
    | succ q => exact .inr ⟨q, by simpa using inside, met⟩
  · rintro (met | ⟨q, inside, met⟩)
    · exact ⟨0, by simp, met⟩
    · exact ⟨q + 1, by simpa using inside, met⟩

/-- What is met at the front of a longer text is met without its end. -/
theorem prefix_append_iff
    {separator text : List α} (fits : separator.length ≤ text.length)
    (rest : List α) :
    separator <+: text ++ rest ↔ separator <+: text := by
  constructor
  · intro met
    exact List.prefix_of_prefix_length_le met (List.prefix_append _ _) fits
  · intro met
    exact met.trans (List.prefix_append _ _)

theorem length_addFront
    {a : α} {pieces : List (List α)} (nonempty : pieces ≠ []) :
    (addFront a pieces).length = pieces.length := by
  cases pieces with
  | nil => exact absurd rfl nonempty
  | cons piece more => rfl

variable [DecidableEq α]

theorem splitFrom_length (separator front rest : List α) :
    splitFrom separator front.length (front ++ rest) =
      splitFrom separator 0 rest := by
  induction front with
  | nil => rfl
  | cons a front induction => exact induction

theorem splitFrom_ne_nil (separator : List α) (skip : Nat) (text : List α) :
    splitFrom separator skip text ≠ [] := by
  induction text generalizing skip with
  | nil => simp [splitFrom]
  | cons a rest induction =>
      cases skip with
      | succ skip => exact induction skip
      | zero =>
          rw [splitFrom]
          split_ifs
          · simp
          · cases splitFrom separator 0 rest <;> simp [addFront]

/-- A piece and the separator behind it, at the front of a text. -/
theorem splitFrom_append
    {separator piece : List α} (separates : separator ≠ [])
    (inTurn : ¬ Early separator piece) (rest : List α) :
    splitFrom separator 0 (piece ++ separator ++ rest) =
      piece :: splitFrom separator 0 rest := by
  induction piece with
  | nil =>
      cases separator with
      | nil => exact absurd rfl separates
      | cons a separator =>
          have met : a :: separator <+: a :: (separator ++ rest) :=
            List.prefix_append (a :: separator) rest
          simp only [List.nil_append, List.cons_append, splitFrom, if_pos met,
            List.length_cons, Nat.add_sub_cancel, splitFrom_length]
  | cons a piece induction =>
      rw [early_cons, not_or] at inTurn
      have fits : separator.length ≤ (a :: piece ++ separator).length := by
        rw [List.length_append]
        exact Nat.le_add_left _ _
      have notMet : ¬ separator <+: a :: (piece ++ separator ++ rest) :=
        fun met => inTurn.1 ((prefix_append_iff fits rest).mp met)
      simp only [List.cons_append, splitFrom, if_neg notMet,
        induction inTurn.2, addFront]

/-- A separator that is met early makes the first piece shorter. -/
theorem splitFrom_of_early
    {separator piece : List α} (early : Early separator piece)
    (rest : List α) :
    ∃ first more,
      splitFrom separator 0 (piece ++ separator ++ rest) = first :: more ∧
        first.length < piece.length := by
  induction piece with
  | nil =>
      rcases early with ⟨_, inside, _⟩
      exact absurd inside (Nat.not_lt_zero _)
  | cons a piece induction =>
      simp only [List.cons_append, splitFrom]
      split_ifs with met
      · exact ⟨[], _, rfl, by simp⟩
      · have later : Early separator piece := by
          refine (early_cons.mp early).resolve_left fun metHere => met ?_
          exact metHere.trans (List.prefix_append _ rest)
        rcases induction later with ⟨first, more, split, shorter⟩
        rw [split]
        exact ⟨a :: first, more, rfl, by simpa using shorter⟩

/-! ## The last piece -/

theorem splitFrom_of_not_infix
    {separator text : List α} (absent : ¬ separator <:+: text) :
    splitFrom separator 0 text = [text] := by
  induction text with
  | nil => rfl
  | cons a rest induction =>
      have notMet : ¬ separator <+: a :: rest := fun met =>
        absent met.isInfix
      have absentLater : ¬ separator <:+: rest := fun inside =>
        absent (inside.trans (List.suffix_cons a rest).isInfix)
      rw [splitFrom, if_neg notMet, induction absentLater, addFront]

/-- A separator that is met anywhere makes two pieces. -/
theorem two_le_length_splitFrom
    {separator text : List α} (separates : separator ≠ [])
    (inside : separator <:+: text) :
    2 ≤ (splitFrom separator 0 text).length := by
  induction text with
  | nil => exact absurd (List.infix_nil.mp inside) separates
  | cons a rest induction =>
      have nonempty (skip : Nat) :
          0 < (splitFrom separator skip rest).length :=
        List.length_pos_of_ne_nil (splitFrom_ne_nil separator skip rest)
      rw [splitFrom]
      split_ifs with met
      · exact Nat.succ_le_succ (nonempty _)
      · rw [length_addFront (splitFrom_ne_nil separator 0 rest)]
        exact induction ((List.infix_cons_iff.mp inside).resolve_left met)

/-! ## Splitting what was joined -/

theorem splitFrom_intercalate_iff
    {separator : List α} (separates : separator ≠ [])
    (pieces : List (List α)) :
    splitFrom separator 0 (separator.intercalate pieces) = pieces ↔
      Separable separator pieces := by
  induction pieces with
  | nil => simp [splitFrom, Separable]
  | cons piece pieces induction =>
      cases pieces with
      | nil =>
          rw [List.intercalate_singleton, Separable]
          constructor
          · intro split inside
            have more := two_le_length_splitFrom separates inside
            rw [split] at more
            simp at more
          · exact splitFrom_of_not_infix
      | cons next pieces =>
          rw [List.intercalate_cons_cons, Separable, ← induction]
          by_cases early : Early separator piece
          · rcases splitFrom_of_early early
              (separator.intercalate (next :: pieces)) with
              ⟨first, more, split, shorter⟩
            rw [split]
            constructor
            · intro same
              cases same
              exact absurd shorter (Nat.lt_irrefl _)
            · rintro ⟨inTurn, _⟩
              exact absurd early inTurn
          · rw [splitFrom_append separates early]
            simp [early]

/-- Joined pieces are found again exactly if they are separable. -/
theorem split_intercalate_iff
    {separator : List α} (separates : separator ≠ [])
    (pieces : List (List α)) :
    split separator (separator.intercalate pieces) = pieces ↔
      Separable separator pieces := by
  rw [split, if_neg separates, splitFrom_intercalate_iff separates]

/-- A separator with an element that a piece does not have is not early. -/
theorem not_early_of_foreign
    {separator piece : List α} {a : α}
    (member : a ∈ separator) (foreign : a ∉ piece) :
    ¬ Early separator piece := by
  rintro ⟨q, inside, rest, met⟩
  rw [List.drop_append_of_le_length inside.le] at met
  have foreignLater : a ∉ piece.drop q := fun later =>
    foreign (List.mem_of_mem_drop later)
  have place := congrArg (List.idxOf a) met
  rw [List.idxOf_append_of_mem member,
    List.idxOf_append_of_notMem foreignLater, List.length_drop] at place
  omega

theorem separable_of_foreign
    {separator : List α} {a : α} (member : a ∈ separator)
    {pieces : List (List α)} (nonempty : pieces ≠ [])
    (foreign : ∀ piece ∈ pieces, a ∉ piece) :
    Separable separator pieces := by
  induction pieces with
  | nil => exact absurd rfl nonempty
  | cons piece pieces induction =>
      rcases List.forall_mem_cons.mp foreign with ⟨foreignHere, foreignLater⟩
      cases pieces with
      | nil => exact fun inside => foreignHere (inside.subset member)
      | cons next pieces =>
          exact ⟨not_early_of_foreign member foreignHere,
            induction (List.cons_ne_nil _ _) foreignLater⟩

end AccelObserver.Library.Split
