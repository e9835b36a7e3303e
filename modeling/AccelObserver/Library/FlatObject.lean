import AccelObserver.Library.Text

/-!
# Flat objects

The text of a flat JSON object, and what a search for a quoted key finds in
it.  Keys and values that hold no quotation mark cannot be mistaken for the
key that is looked for, whatever else stands in them.
-/

namespace AccelObserver.Library.FlatObject

open AccelObserver.Library.Text

/-- A key in quotation marks. -/
def quoted (key : Bytes) : Bytes :=
  34 :: (key ++ [34])

/-- One member: the quoted key, a colon and the value. -/
def member (key value : Bytes) : Bytes :=
  34 :: (key ++ 34 :: 58 :: value)

/-- The members behind an opening byte, separated by commas, and the end. -/
def textFrom : UInt8 → List (Bytes × Bytes) → Bytes
  | _, [] => [125]
  | opening, (key, value) :: more =>
      opening :: (member key value ++ textFrom 44 more)

/-- The text of an object. -/
def text (members : List (Bytes × Bytes)) : Bytes :=
  textFrom 123 members

/-- No quotation mark in it. -/
def Unquoted (bytes : Bytes) : Prop :=
  34 ∉ bytes

instance (bytes : Bytes) : Decidable (Unquoted bytes) :=
  inferInstanceAs (Decidable (34 ∉ bytes))

/-- A member that a search for the key passes over. -/
structure Other (key : Bytes) (other : Bytes × Bytes) : Prop where
  different : other.1 ≠ key
  unquotedKey : Unquoted other.1
  unquotedValue : Unquoted other.2

/-- A quoted key is no prefix of another one. -/
theorem isPrefixOf_quoted
    {key other : Bytes} (different : other ≠ key)
    (unquotedKey : Unquoted key) (unquotedOther : Unquoted other)
    (rest : Bytes) :
    (key ++ [34]).isPrefixOf (other ++ 34 :: rest) = false := by
  induction key generalizing other with
  | nil =>
      cases other with
      | nil => exact absurd rfl different
      | cons byte other =>
          simp only [Unquoted, List.mem_cons, not_or] at unquotedOther
          simp [List.isPrefixOf, unquotedOther.1]
  | cons first key induction =>
      simp only [Unquoted, List.mem_cons, not_or] at unquotedKey
      cases other with
      | nil => simp [List.isPrefixOf, Ne.symm unquotedKey.1]
      | cons byte other =>
          simp only [Unquoted, List.mem_cons, not_or] at unquotedOther
          by_cases same : first = byte
          · subst same
            have shorter : other ≠ key := fun equal =>
              different (congrArg _ equal)
            simpa [List.isPrefixOf]
              using induction shorter unquotedKey.2 unquotedOther.2
          · simp [List.isPrefixOf, same]

/-- A search for a quoted key passes over the other members. -/
theorem findAfter_member
    {key : Bytes} (unquotedKey : Unquoted key) (noColon : key.head? ≠ some 58)
    {other : Bytes × Bytes} (isOther : Other key other) (rest : Bytes) :
    findAfter (quoted key) (member other.1 other.2 ++ rest) =
      findAfter (quoted key) rest := by
  rcases isOther with ⟨different, unquotedOther, unquotedValue⟩
  have atKey :
      (quoted key).isPrefixOf (member other.1 other.2 ++ rest) = false := by
    have mismatch :=
      isPrefixOf_quoted different unquotedKey unquotedOther
        (58 :: (other.2 ++ rest))
    simpa [quoted, member, List.isPrefixOf] using mismatch
  have atColon :
      (quoted key).isPrefixOf (34 :: 58 :: (other.2 ++ rest)) = false := by
    cases key with
    | nil => simp [quoted, List.isPrefixOf]
    | cons first key =>
        have notColon : first ≠ 58 := by simpa using noColon
        simp [quoted, List.isPrefixOf, notColon]
  have step (text : Bytes)
      (mismatch : (quoted key).isPrefixOf (34 :: text) = false) :
      findAfter (quoted key) (34 :: text) = findAfter (quoted key) text := by
    rw [findAfter, if_neg (by simp [mismatch])]
  have behindColon : 34 ∉ 58 :: other.2 := by
    simpa [Unquoted] using unquotedValue
  calc
    findAfter (quoted key) (member other.1 other.2 ++ rest)
        = findAfter (quoted key)
            (other.1 ++ 34 :: 58 :: (other.2 ++ rest)) := by
      rw [member, List.cons_append, List.append_assoc]
      apply step
      simpa [member] using atKey
    _ = findAfter (quoted key) (34 :: 58 :: (other.2 ++ rest)) :=
      findAfter_append_of_not_mem 34 _ _ _ unquotedOther
    _ = findAfter (quoted key) (58 :: other.2 ++ rest) := step _ atColon
    _ = findAfter (quoted key) rest :=
      findAfter_append_of_not_mem 34 _ _ _ behindColon

/-- The first member with a key is the one that is found. -/
theorem findAfter_textFrom
    {key : Bytes} (unquotedKey : Unquoted key) (noColon : key.head? ≠ some 58)
    {before : List (Bytes × Bytes)} (others : ∀ other ∈ before, Other key other)
    (value : Bytes) (after : List (Bytes × Bytes))
    {opening : UInt8} (unquotedOpening : opening ≠ 34) :
    findAfter (quoted key)
        (textFrom opening (before ++ (key, value) :: after)) =
      some (58 :: (value ++ textFrom 44 after)) := by
  have opened (text : Bytes) :
      findAfter (quoted key) (opening :: text) =
        findAfter (quoted key) text :=
    findAfter_append_of_not_mem 34 _ [opening] text
      (by simpa using Ne.symm unquotedOpening)
  induction before generalizing opening with
  | nil =>
      rw [List.nil_append, textFrom, opened]
      have found :=
        findAfter_append_self 34 (key ++ [34])
          (58 :: (value ++ textFrom 44 after))
      simpa [quoted, member] using found
  | cons other before induction =>
      rcases List.forall_mem_cons.mp others with ⟨isOther, others⟩
      rw [List.cons_append, textFrom, opened,
        findAfter_member unquotedKey noColon isOther]
      apply induction others (by decide)
      intro text
      exact findAfter_append_of_not_mem 34 _ [44] text (by decide)

/-- A key that no member has is not found. -/
theorem findAfter_textFrom_none
    {key : Bytes} (unquotedKey : Unquoted key) (noColon : key.head? ≠ some 58)
    {members : List (Bytes × Bytes)}
    (others : ∀ other ∈ members, Other key other)
    {opening : UInt8} (unquotedOpening : opening ≠ 34) :
    findAfter (quoted key) (textFrom opening members) = none := by
  induction members generalizing opening with
  | nil =>
      have skipped :=
        findAfter_append_of_not_mem 34 (key ++ [34]) [125] [] (by decide)
      rw [textFrom, quoted]
      exact skipped
  | cons other members induction =>
      rcases List.forall_mem_cons.mp others with ⟨isOther, others⟩
      have opened :=
        findAfter_append_of_not_mem 34 (key ++ [34]) [opening]
          (member other.1 other.2 ++ textFrom 44 members)
          (by simpa using Ne.symm unquotedOpening)
      rw [textFrom]
      refine opened.trans ?_
      exact (findAfter_member unquotedKey noColon isOther _).trans
        (induction others (by decide))

end AccelObserver.Library.FlatObject
