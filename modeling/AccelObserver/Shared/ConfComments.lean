import AccelObserver.Shared.ConfParser

/-!
# Comments behind values

The layout comment of `confparser.h` shows a comment behind a value, and
`bareValue` is the value that it promises, which is all before the first mark
behind white space.  `conf_load` looks at the first mark of a value only,
after it has trimmed the blanks in front of it.
-/

namespace AccelObserver.Shared.ConfComments

open AccelObserver.Library
open AccelObserver.Library.CNumber (isSpace)
open AccelObserver.Library.CString
open AccelObserver.Shared.ConfParser

/-! ## Where a comment begins -/

/-- The part of a text up to the first mark that is behind white space. -/
def uncommented : Bytes → Bytes
  | [] => []
  | byte :: rest =>
      if isSpace byte && rest.head?.any isCommentMark then [byte]
      else byte :: uncommented rest

/-- The value of the text behind an equals sign. -/
def bareValue (raw : Bytes) : Bytes :=
  trim (uncommented raw)

/-- Some mark of the text is behind white space. -/
def HasComment (raw : Bytes) : Prop :=
  uncommented raw ≠ raw

instance (raw : Bytes) : Decidable (HasComment raw) :=
  inferInstanceAs (Decidable (_ ≠ _))

/-- The comment of a text, if it has one, begins with a mark. -/
theorem exists_mark_of_hasComment
    {raw : Bytes} (comment : HasComment raw) :
    ∃ mark after,
      raw = uncommented raw ++ mark :: after ∧ isCommentMark mark = true ∧
        (uncommented raw).getLast?.any isSpace = true := by
  induction raw with
  | nil => exact absurd rfl comment
  | cons byte rest induction =>
      rw [HasComment, uncommented] at comment
      rw [uncommented]
      split_ifs at comment ⊢ with begins
      · rw [Bool.and_eq_true] at begins
        cases rest with
        | nil => exact absurd begins.2 (by simp)
        | cons mark after =>
            exact ⟨mark, after, rfl, by simpa using begins.2,
              by simpa using begins.1⟩
      · have later : HasComment rest := fun same => comment (by rw [same])
        rcases induction later with ⟨mark, after, split, isMark, space⟩
        refine ⟨mark, after, ?_, isMark, ?_⟩
        · rw [List.cons_append, ← split]
        · rw [List.getLast?_cons]
          cases last : (uncommented rest).getLast? with
          | none =>
              rw [last] at space
              exact absurd space (by simp)
          | some c =>
              rw [last] at space
              simpa using space

/-- A text without a comment is the beginning of what continues it. -/
theorem uncommented_append_of_plain
    {raw : Bytes} (plain : ¬ HasComment raw) (more : Bytes) :
    raw <+: uncommented (raw ++ more) := by
  induction raw with
  | nil => exact List.nil_prefix
  | cons byte rest induction =>
      rw [HasComment, not_not, uncommented] at plain
      split_ifs at plain with begins
      · cases rest with
        | nil => simp at begins
        | cons mark after => cases plain
      · have later : ¬ HasComment rest :=
          not_not.mpr (List.cons.inj plain).2
        rw [List.cons_append, uncommented]
        split_ifs with beginsBehind
        · cases rest with
          | nil => exact List.prefix_refl _
          | cons mark after => exact absurd beginsBehind begins
        · exact (List.cons_prefix_cons).mpr ⟨rfl, induction later⟩

/-- A comment that was read is the comment of the whole text. -/
theorem uncommented_append_of_comment
    {raw : Bytes} (comment : HasComment raw) (more : Bytes) :
    uncommented (raw ++ more) = uncommented raw := by
  induction raw with
  | nil => exact absurd rfl comment
  | cons byte rest induction =>
      rw [HasComment, uncommented] at comment
      rw [List.cons_append, uncommented, uncommented]
      split_ifs at comment ⊢ with begins beginsBehind beginsBehind
      · rfl
      · cases rest with
        | nil => exact absurd rfl comment
        | cons mark after => exact absurd begins beginsBehind
      · cases rest with
        | nil => exact absurd rfl comment
        | cons mark after => exact absurd beginsBehind begins
      · have later : HasComment rest := fun same => comment (by rw [same])
        rw [induction later]

/-! ## What the code cuts off -/

/-- What is before the first mark. -/
def beforeMark (raw : Bytes) : Bytes :=
  raw.takeWhile (!isCommentMark ·)

/-- The first mark is behind white space, and behind some other byte. -/
def FirstMarkEnds (raw : Bytes) : Prop :=
  (beforeMark raw).getLast?.any isSpace = true ∧
    ∃ byte ∈ beforeMark raw, isSpace byte = false

instance (raw : Bytes) : Decidable (FirstMarkEnds raw) :=
  inferInstanceAs (Decidable (_ ∧ _))

theorem not_space_of_mark
    {mark : UInt8} (isMark : isCommentMark mark = true) :
    isSpace mark = false := by
  rw [isCommentMark, Bool.or_eq_true, beq_iff_eq, beq_iff_eq] at isMark
  rcases isMark with rfl | rfl
  · decide
  · decide

/-- A text has no mark, or is split at its first one. -/
theorem beforeMark_cases (raw : Bytes) :
    beforeMark raw = raw ∨
      ∃ mark after,
        raw = beforeMark raw ++ mark :: after ∧
          isCommentMark mark = true := by
  cases rest : raw.dropWhile (!isCommentMark ·) with
  | nil =>
      left
      have whole := List.takeWhile_append_dropWhile (p := (!isCommentMark ·))
        (l := raw)
      rwa [rest, List.append_nil] at whole
  | cons mark after =>
      right
      have whole := List.takeWhile_append_dropWhile (p := (!isCommentMark ·))
        (l := raw)
      have stops := List.head?_dropWhile_not (!isCommentMark ·) raw
      rw [rest] at whole stops
      exact ⟨mark, after, whole.symm, by simpa using stops⟩

/-- The part before the first mark has no comment. -/
theorem uncommented_of_noMark
    {raw : Bytes} (noMark : ∀ byte ∈ raw, isCommentMark byte = false) :
    uncommented raw = raw := by
  by_contra comment
  rcases exists_mark_of_hasComment comment with ⟨mark, after, split, isMark, _⟩
  have member : mark ∈ raw := by
    rw [split]
    simp
  rw [noMark mark member] at isMark
  cases isMark

theorem noMark_beforeMark (raw : Bytes) :
    ∀ byte ∈ beforeMark raw, isCommentMark byte = false := by
  intro byte member
  have kept := List.mem_takeWhile_imp member
  simpa using kept

/-- Behind white space the first mark begins the comment. -/
theorem uncommented_of_space
    {before after : Bytes} {mark : UInt8}
    (noMark : ∀ byte ∈ before, isCommentMark byte = false)
    (space : before.getLast?.any isSpace = true)
    (isMark : isCommentMark mark = true) :
    uncommented (before ++ mark :: after) = before := by
  induction before with
  | nil => simp at space
  | cons byte before induction =>
      rw [List.cons_append, uncommented]
      cases before with
      | nil =>
          have begins :
              (isSpace byte && ([] ++ mark :: after).head?.any isCommentMark) =
                true := by
            simpa [isMark] using space
          rw [if_pos begins]
      | cons next before =>
          have nextPlain : isCommentMark next = false := noMark next (by simp)
          have later :=
            induction (fun b member => noMark b (List.mem_cons_of_mem _ member))
              (by simpa using space)
          rw [if_neg (by simp [nextPlain]), later]

/-- What is left of a text without its front ends in white space. -/
theorem space_at_end_iff (text : Bytes) :
    (text.dropWhile isSpace).getLast?.any isSpace = true ↔
      text.getLast?.any isSpace = true ∧
        ∃ byte ∈ text, isSpace byte = false := by
  cases rest : text.dropWhile isSpace with
  | nil =>
      have allSpace := List.dropWhile_eq_nil_iff.mp rest
      constructor
      · intro impossible
        simp at impossible
      · rintro ⟨_, byte, member, kept⟩
        rw [allSpace byte member] at kept
        cases kept
  | cons c more =>
      have whole := List.takeWhile_append_dropWhile (p := isSpace) (l := text)
      have kept := List.head?_dropWhile_not isSpace text
      rw [rest] at whole kept
      have sameEnd : text.getLast? = (c :: more).getLast? := by
        rw [← whole, List.getLast?_append_of_ne_nil _ (List.cons_ne_nil _ _)]
      have member : c ∈ text := by
        rw [← whole]
        simp
      rw [sameEnd]
      exact (and_iff_left ⟨c, member, by simpa using kept⟩).symm

theorem mem_of_mem_trim
    {text : Bytes} {byte : UInt8} (member : byte ∈ trim text) :
    byte ∈ text :=
  (List.dropWhile_suffix isSpace).subset
    ((List.rdropWhile_prefix isSpace _).subset member)

section StripComment

variable {raw : Bytes}

theorem stripComment_of_noMark
    (noMark : ∀ byte ∈ raw, isCommentMark byte = false) :
    stripComment (trim raw) = trim raw := by
  have whole : (trim raw).takeWhile (!isCommentMark ·) = trim raw := by
    rw [List.takeWhile_eq_self_iff]
    intro byte member
    simp [noMark byte (mem_of_mem_trim member)]
  rw [stripComment]
  split_ifs with quoted
  · rfl
  · rw [whole]
    exact if_neg fun both => Nat.lt_irrefl _ both.1

/-- What is cut off behind the first mark. -/
theorem stripComment_of_mark
    {mark : UInt8} {after : Bytes}
    (split : raw = beforeMark raw ++ mark :: after)
    (isMark : isCommentMark mark = true)
    (unquoted : (trim raw).head? ≠ some 34) :
    stripComment (trim raw) =
      if FirstMarkEnds raw then trim (beforeMark raw) else trim raw := by
  have trimmed :
      trim raw =
        (beforeMark raw).dropWhile isSpace ++
          mark :: after.rdropWhile isSpace := by
    conv_lhs => rw [split]
    exact trim_append_cons (not_space_of_mark isMark) _ _
  have before :
      (trim raw).takeWhile (!isCommentMark ·) =
        (beforeMark raw).dropWhile isSpace := by
    rw [trimmed]
    refine takeWhile_append_cons ?_ (by simp [isMark]) _
    intro byte member
    have kept := (List.dropWhile_suffix isSpace).subset member
    simp [noMark_beforeMark raw byte kept]
  have shorter :
      ((beforeMark raw).dropWhile isSpace).length < (trim raw).length := by
    rw [trimmed, List.length_append, List.length_cons]
    omega
  have sameTrim :
      trim ((beforeMark raw).dropWhile isSpace) = trim (beforeMark raw) := by
    rw [trim, trim, List.dropWhile_idempotent]
  have condition :
      (((beforeMark raw).dropWhile isSpace).length < (trim raw).length ∧
        ((beforeMark raw).dropWhile isSpace).getLast?.any isSpace = true) ↔
        FirstMarkEnds raw := by
    rw [space_at_end_iff]
    exact and_iff_right shorter
  rw [stripComment, if_neg unquoted]
  simp only [before, sameTrim, condition]

/-- The whole comment is cut off when its mark is the first one. -/
theorem stripComment_of_firstMarkEnds
    (comment : HasComment raw) (ends : FirstMarkEnds raw)
    (unquoted : (trim raw).head? ≠ some 34) :
    stripComment (trim raw) = bareValue raw := by
  rcases beforeMark_cases raw with whole | ⟨mark, after, split, isMark⟩
  · rw [← whole] at comment
    exact absurd (uncommented_of_noMark (noMark_beforeMark raw)) comment
  · have cut :
        uncommented (beforeMark raw ++ mark :: after) = beforeMark raw :=
      uncommented_of_space (noMark_beforeMark raw) ends.1 isMark
    rw [← split] at cut
    rw [stripComment_of_mark split isMark unquoted, if_pos ends, bareValue,
      cut]

/-- Otherwise nothing is cut off. -/
theorem stripComment_of_not_firstMarkEnds
    (goesOn : ¬ FirstMarkEnds raw)
    (unquoted : (trim raw).head? ≠ some 34) :
    stripComment (trim raw) = trim raw := by
  rcases beforeMark_cases raw with whole | ⟨mark, after, split, isMark⟩
  · have noMark := noMark_beforeMark raw
    rw [whole] at noMark
    exact stripComment_of_noMark noMark
  · rw [stripComment_of_mark split isMark unquoted, if_neg goesOn]

/-- A value without a comment stays as it is. -/
theorem stripComment_of_plain
    (plain : ¬ HasComment raw) (unquoted : (trim raw).head? ≠ some 34) :
    stripComment (trim raw) = bareValue raw := by
  have same : bareValue raw = trim raw := by
    rw [bareValue, not_not.mp plain]
  rw [same]
  rcases beforeMark_cases raw with whole | ⟨mark, after, split, isMark⟩
  · have noMark := noMark_beforeMark raw
    rw [whole] at noMark
    exact stripComment_of_noMark noMark
  · have goesOn : ¬ FirstMarkEnds raw := by
      intro ends
      have cut :
          uncommented (beforeMark raw ++ mark :: after) = beforeMark raw :=
        uncommented_of_space (noMark_beforeMark raw) ends.1 isMark
      rw [← split, not_not.mp plain] at cut
      have lengths := congrArg List.length split
      rw [← cut, List.length_append, List.length_cons] at lengths
      omega
    exact stripComment_of_not_firstMarkEnds goesOn unquoted

/-- The value is shorter than the text with its comment. -/
theorem bareValue_of_comment (comment : HasComment raw) :
    bareValue raw <+: trim raw ∧
      (bareValue raw).length < (trim raw).length := by
  rcases exists_mark_of_hasComment comment with ⟨mark, after, split, isMark, _⟩
  have trimmed :
      trim raw =
        (uncommented raw).dropWhile isSpace ++
          mark :: after.rdropWhile isSpace := by
    conv_lhs => rw [split]
    exact trim_append_cons (not_space_of_mark isMark) _ _
  have front :
      bareValue raw <+: (uncommented raw).dropWhile isSpace :=
    List.rdropWhile_prefix isSpace _
  refine ⟨front.trans ⟨_, trimmed.symm⟩, ?_⟩
  have bound := front.length_le
  rw [trimmed, List.length_append, List.length_cons]
  omega

end StripComment

end AccelObserver.Shared.ConfComments
