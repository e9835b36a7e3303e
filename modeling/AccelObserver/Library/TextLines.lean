import AccelObserver.Library.Bytes
import AccelObserver.Library.Split

/-!
# The lines of a text

The lines that a reader of a file gets one after another: each ends with a
line feed, but the last one need not.  A text is open when its last line does
not end; what is appended to an open text continues that line.
-/

namespace AccelObserver.Library.TextLines

open AccelObserver.Library.Split (addFront)

/-- The lines of a text, without their line feeds. -/
def lines : Bytes → List Bytes
  | [] => []
  | byte :: rest =>
      if byte = 10 then [] :: lines rest else addFront byte (lines rest)

theorem lines_cons (byte : UInt8) (rest : Bytes) :
    lines (byte :: rest) =
      if byte = 10 then [] :: lines rest else addFront byte (lines rest) :=
  rfl

/-- The text ends within a line. -/
def Open (text : Bytes) : Prop :=
  ∃ last ∈ text.getLast?, last ≠ 10

theorem not_open_append
    {before after : Bytes} (ended : ¬ Open before) (endedAfter : ¬ Open after) :
    ¬ Open (before ++ after) := by
  rintro ⟨last, found, noFeed⟩
  rw [List.getLast?_append] at found
  cases ending : after.getLast? with
  | none =>
      rw [ending, Option.none_or] at found
      exact ended ⟨last, found, noFeed⟩
  | some byte =>
      rw [ending, Option.some_or] at found
      cases found
      exact endedAfter ⟨last, ending, noFeed⟩

theorem not_open_feed (text : Bytes) : ¬ Open (text ++ [10]) := by
  simp [Open]

/-- A line at the front of a text. -/
theorem lines_append_cons
    {line : Bytes} (oneLine : 10 ∉ line) (rest : Bytes) :
    lines (line ++ 10 :: rest) = line :: lines rest := by
  induction line with
  | nil => rfl
  | cons byte line induction =>
      simp only [List.mem_cons, not_or] at oneLine
      rw [List.cons_append, lines, if_neg (Ne.symm oneLine.1),
        induction oneLine.2]
      rfl

/-- A part of a line at the front of a text. -/
theorem exists_lines_append
    {part : Bytes} (some : part ≠ []) (oneLine : 10 ∉ part) (rest : Bytes) :
    ∃ follows more, lines (part ++ rest) = (part ++ follows) :: more := by
  induction part with
  | nil => exact absurd rfl some
  | cons byte part induction =>
      simp only [List.mem_cons, not_or] at oneLine
      rw [List.cons_append, lines, if_neg (Ne.symm oneLine.1)]
      cases part with
      | nil =>
          cases later : lines rest with
          | nil => exact ⟨[], [], by simp [later, addFront]⟩
          | cons line more => exact ⟨line, more, by simp [later, addFront]⟩
      | cons next part =>
          rcases induction (List.cons_ne_nil _ _) oneLine.2
            with ⟨follows, more, split⟩
          refine ⟨follows, more, ?_⟩
          rw [split]
          rfl

theorem lines_eq_nil_iff {text : Bytes} : lines text = [] ↔ text = [] := by
  cases text with
  | nil => simp [lines]
  | cons byte rest =>
      rw [lines]
      split_ifs
      · simp
      · cases lines rest <;> simp [addFront]

/-- A text whose last line ends is followed by the lines of what comes next. -/
theorem lines_append_of_not_open
    {before : Bytes} (ended : ¬ Open before) (after : Bytes) :
    lines (before ++ after) = lines before ++ lines after := by
  induction before with
  | nil => rfl
  | cons byte before induction =>
      cases before with
      | nil =>
          have feed : byte = 10 := by simpa [Open] using ended
          simp [feed, lines]
      | cons next before =>
          have endedLater : ¬ Open (next :: before) := by
            simpa [Open] using ended
          rw [List.cons_append, lines_cons, induction endedLater,
            lines_cons byte]
          split_ifs with feed
          · rfl
          · cases first : lines (next :: before) with
            | nil => simp [lines_eq_nil_iff] at first
            | cons line more => rfl

/-- An open text is continued by the first line of what comes next. -/
theorem lines_append_of_open
    {before : Bytes} (unended : Open before)
    {after first : Bytes} {more : List Bytes}
    (follows : lines after = first :: more) :
    ∃ whole part, part ≠ [] ∧
      lines (before ++ after) = whole ++ (part ++ first) :: more := by
  induction before with
  | nil => simp [Open] at unended
  | cons byte before induction =>
      cases before with
      | nil =>
          have noFeed : byte ≠ 10 := by simpa [Open] using unended
          refine ⟨[], [byte], by simp, ?_⟩
          rw [List.singleton_append, lines, if_neg noFeed, follows]
          rfl
      | cons next before =>
          have unendedLater : Open (next :: before) := by
            simpa [Open] using unended
          rcases induction unendedLater with ⟨whole, part, nonempty, split⟩
          rw [List.cons_append, lines_cons, split]
          split_ifs with feed
          · exact ⟨[] :: whole, part, nonempty, rfl⟩
          · cases whole with
            | nil => exact ⟨[], byte :: part, by simp, rfl⟩
            | cons line whole =>
                exact ⟨(byte :: line) :: whole, part, nonempty, rfl⟩

/-- There are at least as many lines as line feeds. -/
theorem count_le_length_lines (text : Bytes) :
    text.count 10 ≤ (lines text).length := by
  induction text with
  | nil => simp [lines]
  | cons byte rest induction =>
      rw [lines]
      split_ifs with feed
      · simpa [feed] using induction
      · rw [List.count_cons_of_ne feed]
        cases later : lines rest with
        | nil =>
            rw [later] at induction
            exact Nat.le_succ_of_le induction
        | cons line more =>
            rw [later] at induction
            exact induction

end AccelObserver.Library.TextLines
