import AccelObserver.Library.CNumber
import AccelObserver.Library.Lines
import AccelObserver.Library.Text

/-!
# Searching up to letter case

A text can be searched as it is, or after its letters have been made small.
Both are one search with a function on bytes in front of the comparison; what
is found is the text behind the pattern, with its letters as they were.

A pattern without the end of a line is found in the first line that holds it.
-/

namespace AccelObserver.Library.Search

open AccelObserver.Library.CNumber (toLower)
open AccelObserver.Library.Text

/-- The text behind the first place that reads as the pattern. -/
def findAfterBy (same : UInt8 → UInt8) (pattern : Bytes) :
    Bytes → Option Bytes
  | [] => if pattern = [] then some [] else none
  | byte :: rest =>
      if pattern.isPrefixOf ((byte :: rest).map same) then
        some ((byte :: rest).drop pattern.length)
      else findAfterBy same pattern rest

theorem findAfterBy_id (pattern text : Bytes) :
    findAfterBy id pattern text = findAfter pattern text := by
  induction text with
  | nil => rfl
  | cons byte rest induction =>
      rw [findAfterBy, findAfter, List.map_id, induction]

/-- Searching the changed text finds the changed rest. -/
theorem findAfter_map (same : UInt8 → UInt8) (pattern text : Bytes) :
    findAfter pattern (text.map same) =
      (findAfterBy same pattern text).map (List.map same) := by
  induction text with
  | nil =>
      rw [findAfterBy, List.map_nil, findAfter]
      split_ifs <;> rfl
  | cons byte rest induction =>
      rw [findAfterBy, List.map_cons, findAfter, ← List.map_cons]
      by_cases here : pattern.isPrefixOf ((byte :: rest).map same) = true
      · rw [if_pos here, if_pos here, Option.map_some, List.map_drop]
      · rw [if_neg here, if_neg here, induction]

section Search

variable {same : UInt8 → UInt8} {pattern : Bytes}

/-- What is found is the end of the text. -/
theorem findAfterBy_suffix
    {text after : Bytes} (found : findAfterBy same pattern text = some after) :
    after <:+ text := by
  induction text with
  | nil =>
      rw [findAfterBy] at found
      split_ifs at found
      cases found
      exact List.suffix_refl []
  | cons byte rest induction =>
      rw [findAfterBy] at found
      split_ifs at found
      · cases found
        exact List.drop_suffix _ _
      · exact (induction found).trans (List.suffix_cons byte rest)

/-- A pattern without the separator is found on one side of it. -/
theorem findAfterBy_append_cons
    {separator : UInt8} (absent : same separator ∉ pattern)
    (left right : Bytes) :
    findAfterBy same pattern (left ++ separator :: right) =
      match findAfterBy same pattern left with
      | some after => some (after ++ separator :: right)
      | none => findAfterBy same pattern right := by
  induction left with
  | nil =>
      rw [List.nil_append, findAfterBy, findAfterBy]
      cases pattern with
      | nil => simp
      | cons first more =>
          simp only [List.mem_cons, not_or] at absent
          simp [List.isPrefixOf, Ne.symm absent.1]
  | cons byte left induction =>
      rw [List.cons_append, findAfterBy, findAfterBy]
      have across :
          pattern.isPrefixOf ((byte :: (left ++ separator :: right)).map same) =
            pattern.isPrefixOf ((byte :: left).map same) := by
        have reached :=
          isPrefixOf_append_cons absent ((byte :: left).map same)
            (right.map same)
        rw [← reached]
        simp
      rw [across]
      by_cases here : pattern.isPrefixOf ((byte :: left).map same) = true
      · have length : pattern.length ≤ (byte :: left).length := by
          have short := (List.isPrefixOf_iff_prefix.mp here).length_le
          rwa [List.length_map] at short
        rw [if_pos here, if_pos here, ← List.cons_append,
          List.drop_append_of_le_length length]
      · rw [if_neg here, if_neg here, induction]

/-- Where a byte cannot begin the pattern, the search goes on behind it. -/
theorem findAfterBy_cons
    {first byte : UInt8} {more : Bytes} (other : same byte ≠ first)
    (rest : Bytes) :
    findAfterBy same (first :: more) (byte :: rest) =
      findAfterBy same (first :: more) rest := by
  rw [findAfterBy, if_neg]
  simp [List.isPrefixOf, Ne.symm other]

theorem findAfterBy_replicate
    {first byte : UInt8} {more : Bytes} (other : same byte ≠ first)
    (count : Nat) (rest : Bytes) :
    findAfterBy same (first :: more) (List.replicate count byte ++ rest) =
      findAfterBy same (first :: more) rest := by
  induction count with
  | zero => rfl
  | succ count induction =>
      rw [List.replicate_succ, List.cons_append, findAfterBy_cons other,
        induction]

/-- Two texts around a mark that neither of the first halves holds. -/
theorem prefix_around_mark
    {mark : UInt8} {name front : Bytes} (noMark : mark ∉ name)
    (frontNoMark : mark ∉ front) (tail back : Bytes) :
    name ++ mark :: tail <+: front ++ mark :: back ↔
      name = front ∧ tail <+: back := by
  induction name generalizing front with
  | nil =>
      cases front with
      | nil => simp
      | cons byte front =>
          simp only [List.mem_cons, not_or] at frontNoMark
          simp [List.cons_prefix_cons, frontNoMark.1]
  | cons first name induction =>
      simp only [List.mem_cons, not_or] at noMark
      cases front with
      | nil =>
          simp [List.cons_prefix_cons, Ne.symm noMark.1]
      | cons byte front =>
          simp only [List.mem_cons, not_or] at frontNoMark
          rw [List.cons_append, List.cons_append, List.cons_prefix_cons,
            induction noMark.2 frontNoMark.2, List.cons.injEq, and_assoc]

/--
A pattern with a mark in it, in a text that has the mark: the two marks meet,
or the pattern is behind the mark of the text.
-/
theorem findAfterBy_mark
    {mark : UInt8} {name tail : Bytes} (noMark : mark ∉ name)
    (fixed : same mark = mark) {front : Bytes}
    (frontNoMark : mark ∉ front.map same) (back : Bytes) :
    findAfterBy same (name ++ mark :: tail) (front ++ mark :: back) =
      if name <:+ front.map same ∧ tail <+: back.map same then
        some (back.drop tail.length)
      else findAfterBy same (name ++ mark :: tail) back := by
  induction front with
  | nil =>
      have meets := prefix_around_mark noMark List.not_mem_nil tail
        (back.map same)
      rw [List.nil_append] at meets
      rw [List.nil_append, findAfterBy, List.map_cons, fixed, List.map_nil]
      by_cases here : name = [] ∧ tail <+: back.map same
      · rw [if_pos (List.isPrefixOf_iff_prefix.mpr (meets.mpr here)),
          if_pos ⟨List.suffix_nil.mpr here.1, here.2⟩, here.1]
        rfl
      · rw [if_neg fun found =>
            here (meets.mp (List.isPrefixOf_iff_prefix.mp found)),
          if_neg fun suffix => here ⟨List.suffix_nil.mp suffix.1, suffix.2⟩]
  | cons byte front induction =>
      have laterNoMark : mark ∉ front.map same := by
        intro member
        exact frontNoMark (List.mem_cons_of_mem _ member)
      have meets := prefix_around_mark noMark frontNoMark tail (back.map same)
      have shape :
          (byte :: (front ++ mark :: back)).map same =
            (byte :: front).map same ++ mark :: back.map same := by
        simp [fixed]
      rw [List.cons_append, findAfterBy, shape, induction laterNoMark]
      by_cases here :
          name = (byte :: front).map same ∧ tail <+: back.map same
      · have found := List.isPrefixOf_iff_prefix.mpr (meets.mpr here)
        have suffix : name <:+ (byte :: front).map same := ⟨[], here.1⟩
        have length : name.length = front.length + 1 := by
          rw [here.1, List.length_map, List.length_cons]
        have dropped :
            (byte :: (front ++ mark :: back)).drop
                (name ++ mark :: tail).length =
              back.drop tail.length := by
          rw [← List.cons_append, List.length_append, length,
            List.drop_append]
          simp
        rw [if_pos found, if_pos ⟨suffix, here.2⟩, dropped]
      · rw [if_neg fun found =>
          here (meets.mp (List.isPrefixOf_iff_prefix.mp found))]
        have later :
            name <:+ (byte :: front).map same ∧ tail <+: back.map same ↔
              name <:+ front.map same ∧ tail <+: back.map same := by
          rw [List.map_cons, List.suffix_cons_iff]
          rw [List.map_cons] at here
          constructor
          · rintro ⟨whole | suffix, behind⟩
            · exact absurd ⟨whole, behind⟩ here
            · exact ⟨suffix, behind⟩
          · rintro ⟨suffix, behind⟩
            exact ⟨.inr suffix, behind⟩
        simp only [later]

/-! ## Lines -/

/-- A pattern without an end of line is in the line or behind it. -/
theorem findAfterBy_crlf
    (noCr : same 13 ∉ pattern) (noLf : same 10 ∉ pattern)
    (nonempty : pattern ≠ []) (line rest : Bytes) :
    findAfterBy same pattern (Lines.crlf line ++ rest) =
      match findAfterBy same pattern line with
      | some after => some (after ++ 13 :: 10 :: rest)
      | none => findAfterBy same pattern rest := by
  have nothing : findAfterBy same pattern [] = none := by
    rw [findAfterBy, if_neg nonempty]
  have behind := findAfterBy_append_cons noLf [] rest
  rw [List.nil_append, nothing] at behind
  have split : Lines.crlf line ++ rest = line ++ 13 :: 10 :: rest := by
    simp [Lines.crlf]
  rw [split, findAfterBy_append_cons noCr]
  cases findAfterBy same pattern line with
  | some after => rfl
  | none => exact behind

/-- It is found in the first line that holds it. -/
theorem findAfterBy_lines_some
    (noCr : same 13 ∉ pattern) (noLf : same 10 ∉ pattern)
    (nonempty : pattern ≠ []) {lines : List Bytes} {after : Bytes}
    (found : lines.findSome? (findAfterBy same pattern) = some after)
    (tail : Bytes) :
    ∃ rest,
      findAfterBy same pattern (lines.flatMap Lines.crlf ++ tail) =
        some (after ++ 13 :: 10 :: rest) := by
  induction lines with
  | nil => cases found
  | cons line lines induction =>
      rw [List.flatMap_cons, List.append_assoc,
        findAfterBy_crlf noCr noLf nonempty]
      rw [List.findSome?_cons] at found
      cases here : findAfterBy same pattern line with
      | some first =>
          rw [here] at found
          cases found
          exact ⟨_, rfl⟩
      | none =>
          rw [here] at found
          exact induction found

/-- And nowhere where no line holds it. -/
theorem findAfterBy_lines_none
    (noCr : same 13 ∉ pattern) (noLf : same 10 ∉ pattern)
    (nonempty : pattern ≠ []) {lines : List Bytes}
    (missing : lines.findSome? (findAfterBy same pattern) = none)
    (tail : Bytes) :
    findAfterBy same pattern (lines.flatMap Lines.crlf ++ tail) =
      findAfterBy same pattern tail := by
  induction lines with
  | nil => rfl
  | cons line lines induction =>
      rw [List.findSome?_cons] at missing
      cases here : findAfterBy same pattern line with
      | some first =>
          rw [here] at missing
          cases missing
      | none =>
          rw [here] at missing
          rw [List.flatMap_cons, List.append_assoc,
            findAfterBy_crlf noCr noLf nonempty, here]
          exact induction missing

/-- So it is found in a text of lines where one of them holds it. -/
theorem findAfterBy_text_none
    (noCr : same 13 ∉ pattern) (noLf : same 10 ∉ pattern)
    (nonempty : pattern ≠ []) {lines : List Bytes}
    (missing : lines.findSome? (findAfterBy same pattern) = none) :
    findAfterBy same pattern (lines.flatMap Lines.crlf ++ Lines.crlf []) =
      none := by
  have nothing : findAfterBy same pattern [] = none := by
    rw [findAfterBy, if_neg nonempty]
  have blank := findAfterBy_crlf noCr noLf nonempty [] []
  rw [List.append_nil, nothing] at blank
  rw [findAfterBy_lines_none noCr noLf nonempty missing]
  exact blank

/-- What is found in lines is the end of one of them. -/
theorem exists_of_findSome?
    {lines : List Bytes} {after : Bytes}
    (found : lines.findSome? (findAfterBy same pattern) = some after) :
    ∃ line ∈ lines, after <:+ line := by
  rcases List.exists_of_findSome?_eq_some found with ⟨line, member, here⟩
  exact ⟨line, member, findAfterBy_suffix here⟩

/-- The end of a line and an empty line behind it. -/
def blankLine : Bytes :=
  [13, 10, 13, 10]

/-- Lines that are not empty hold it at their end only. -/
theorem findAfter_blankLine
    {first : Bytes} (noCr : 13 ∉ first) {lines : List Bytes}
    (linesNoCr : ∀ line ∈ lines, 13 ∉ line)
    (nonempty : ∀ line ∈ lines, line ≠ []) :
    findAfter blankLine
        (Lines.crlf first ++ (lines.flatMap Lines.crlf ++ Lines.crlf [])) =
      some [] := by
  induction lines generalizing first with
  | nil =>
      rw [Lines.crlf, List.append_assoc, blankLine,
        findAfter_append_of_not_mem 13 _ first _ noCr]
      rfl
  | cons line lines induction =>
      have later :=
        induction (linesNoCr line (List.mem_cons_self ..))
          (fun other member => linesNoCr other (List.mem_cons_of_mem _ member))
          (fun other member => nonempty other (List.mem_cons_of_mem _ member))
      cases line with
      | nil => exact absurd rfl (nonempty [] (List.mem_cons_self ..))
      | cons byte line =>
          have different : byte ≠ 13 := by
            rintro rfl
            exact linesNoCr _ (List.mem_cons_self ..) (List.mem_cons_self ..)
          rw [blankLine] at later ⊢
          rw [Lines.crlf, List.append_assoc,
            findAfter_append_of_not_mem 13 _ first _ noCr,
            List.flatMap_cons, List.append_assoc, ← later]
          simp only [List.cons_append, List.nil_append, Lines.crlf]
          rw [findAfter_cons_of_mismatch
              (by simp [List.isPrefixOf, Ne.symm different]),
            findAfter_cons_of_mismatch (by simp [List.isPrefixOf])]

/-- What is found has the pattern in front of it. -/
theorem exists_of_findAfter
    {sought text after : Bytes} (found : findAfter sought text = some after) :
    ∃ before, text = before ++ (sought ++ after) := by
  induction text with
  | nil =>
      rw [findAfter] at found
      split_ifs at found with empty
      cases found
      exact ⟨[], by rw [empty]; rfl⟩
  | cons byte rest induction =>
      rw [findAfter] at found
      split_ifs at found with here
      · rcases List.isPrefixOf_iff_prefix.mp here with ⟨tail, split⟩
        cases found
        refine ⟨[], ?_⟩
        rw [← split, List.drop_left, List.nil_append]
      · rcases induction found with ⟨before, split⟩
        exact ⟨byte :: before, by rw [split]; rfl⟩

/-- More text behind a pattern that was found does not change where it is. -/
theorem findAfter_append
    {sought text after : Bytes} (found : findAfter sought text = some after)
    (more : Bytes) :
    findAfter sought (text ++ more) = some (after ++ more) := by
  induction text with
  | nil =>
      rw [findAfter] at found
      split_ifs at found with empty
      cases found
      rw [empty]
      cases more <;> simp [findAfter]
  | cons byte rest induction =>
      rw [findAfter] at found
      rw [List.cons_append, findAfter]
      by_cases here : sought.isPrefixOf (byte :: rest) = true
      · have fits := (List.isPrefixOf_iff_prefix.mp here)
        have extended :
            sought.isPrefixOf (byte :: (rest ++ more)) = true := by
          rw [List.isPrefixOf_iff_prefix, ← List.cons_append]
          exact fits.trans (List.prefix_append _ _)
        rw [if_pos here, Option.some.injEq] at found
        rw [if_pos extended, ← found, ← List.cons_append,
          List.drop_append_of_le_length fits.length_le]
      · rw [if_neg here] at found
        rcases exists_of_findAfter found with ⟨before, split⟩
        have fits : sought.length ≤ (byte :: rest).length := by
          rw [split]
          simp only [List.length_cons, List.length_append]
          omega
        have notLonger :
            ¬ sought.isPrefixOf (byte :: (rest ++ more)) = true := by
          rw [List.isPrefixOf_iff_prefix, ← List.cons_append]
          intro longer
          exact here (List.isPrefixOf_iff_prefix.mpr
            (List.prefix_of_prefix_length_le longer
              (List.prefix_append _ _) fits))
        rw [if_neg notLonger, induction found]

end Search

end AccelObserver.Library.Search
