import AccelObserver.Library.JsonText
import Mathlib.Algebra.Order.BigOperators.Group.List

/-!
# Objects of a type and numbers

Objects whose first member names their type and whose other members are
numbers, as a format string spells them.  What is printed for a number may be
a word that is no value of JSON; then the whole text is none.
-/

namespace AccelObserver.Library.Json

/-! ## The text -/

/-- Members behind another one, and the brace that ends the object. -/
def fieldsText : List (Bytes × Bytes) → Bytes
  | [] => [125]
  | (name, text) :: more =>
      44 :: 34 :: (name ++ 34 :: 58 :: (text ++ fieldsText more))

/-- The object with a type and these members. -/
def typedText (kind : Bytes) (fields : List (Bytes × Bytes)) : Bytes :=
  123 :: 34 :: (ascii "type" ++ 34 :: 58 :: 34 ::
    (kind ++ 34 :: fieldsText fields))

/-- What may stand behind a number. -/
def EndsNumber (text : Bytes) : Prop :=
  ∃ byte rest, text = byte :: rest ∧ (byte = 44 ∨ byte = 125)

/-- A text that is read as the number, up to what ends it. -/
def IsNumeral (text : Bytes) (number : JsonNumber) : Prop :=
  ∀ rest, EndsNumber rest →
    JsonNumber.scanNumber (text ++ rest) = some (number, rest)

/-- A text that no value begins with. -/
def IsWord (text : Bytes) : Prop :=
  ∀ steps rest, parseValue steps (text ++ rest) = none

/-- The object that the members are read as. -/
def typedObject (kind : Bytes) (names : List Bytes)
    (numbers : List JsonNumber) : Json :=
  object ((ascii "type", string kind) ::
    names.zip (numbers.map number))

theorem endsNumber_fieldsText (fields : List (Bytes × Bytes)) :
    EndsNumber (fieldsText fields) := by
  cases fields with
  | nil => exact ⟨125, [], rfl, Or.inr rfl⟩
  | cons field more => exact ⟨44, _, rfl, Or.inl rfl⟩

/-! ## Reading -/

/-- The members behind a comma are read where there are steps enough. -/
theorem parseMembers_fields
    {fields : List (Bytes × Bytes)} {numbers : List JsonNumber}
    (numerals :
      List.Forall₂ (fun field number => IsNumeral field.2 number) fields
        numbers)
    (plain : ∀ field ∈ fields, field.1.all isPlain = true) {bound : Nat}
    (short : ∀ field ∈ fields, field.1.length < bound)
    (nonempty : fields ≠ []) :
    parseMembers (bound + fields.length) (fieldsText fields).tail =
      some ((fields.map Prod.fst).zip (numbers.map number), []) := by
  induction numerals with
  | nil => exact absurd rfl nonempty
  | @cons field number more numbers numeral numerals induction =>
      rcases field with ⟨name, text⟩
      rcases List.forall_mem_cons.mp plain with ⟨plainHere, plainLater⟩
      rcases List.forall_mem_cons.mp short with ⟨shortHere, shortLater⟩
      have valued :
          parseValue (bound + more.length) (text ++ fieldsText more) =
            some (.number number, fieldsText more) := by
        have positive : 0 < bound := Nat.zero_lt_of_lt shortHere
        rcases Nat.exists_eq_add_of_lt positive with ⟨spare, rfl⟩
        rw [Nat.zero_add, Nat.add_right_comm]
        exact parseValue_number (numeral _ (endsNumber_fieldsText more)) _
      have shortEnough : name.length < bound + more.length :=
        Nat.lt_add_right _ shortHere
      rw [fieldsText, List.tail_cons, List.length_cons, ← Nat.add_assoc,
        parseMembers, expect_cons (by decide), if_pos rfl]
      simp only [Option.bind_eq_bind, Option.bind_some]
      rw [scanString_of_plain plainHere, if_pos shortEnough]
      simp only [Option.bind_some]
      rw [expect_cons (by decide), if_pos rfl]
      simp only [Option.bind_some, valued]
      cases more with
      | nil =>
          cases numerals
          rw [fieldsText, expect_cons (by decide), if_neg (by decide),
            expect_cons (by decide), if_pos rfl]
          rfl
      | cons next later =>
          have rest := induction plainLater shortLater (by simp)
          have comma :
              expect 44 (fieldsText (next :: later)) =
                some (fieldsText (next :: later)).tail := by
            rw [fieldsText, expect_cons (by decide), if_pos rfl]
            rfl
          simp only [comma, rest, Option.bind_some]
          rfl

/-- An object is read where its members are. -/
theorem parseValue_object
    {steps : Nat} {body rest : Bytes} {members : List (Bytes × Json)}
    (parsed : parseMembers steps (34 :: body) = some (members, rest)) :
    parseValue (steps + 1) (123 :: 34 :: body) =
      some (object members, rest) := by
  rw [parseValue, expect_cons (by decide), if_neg (by decide),
    expect_cons (by decide), if_pos rfl]
  simp only
  rw [expect_cons (by decide), if_neg (by decide)]
  simp only
  rw [parsed]
  rfl

theorem exists_parseMembers
    {steps : Nat} {body rest : Bytes} {value : Json}
    (parsed : parseValue steps (123 :: 34 :: body) = some (value, rest)) :
    ∃ fewer members,
      parseMembers fewer (34 :: body) = some (members, rest) ∧
        value = object members := by
  cases steps with
  | zero =>
      rw [parseValue] at parsed
      cases parsed
  | succ steps =>
      rw [parseValue, expect_cons (by decide), if_neg (by decide),
        expect_cons (by decide), if_pos rfl] at parsed
      simp only at parsed
      rw [expect_cons (by decide), if_neg (by decide)] at parsed
      rcases Option.map_eq_some_iff.mp parsed
        with ⟨⟨members, behind⟩, inside, same⟩
      cases same
      exact ⟨steps, members, inside, rfl⟩

/-- A member with a string that needs no escapes, and a comma behind it. -/
theorem parseMembers_plain
    {steps : Nat} {name value more rest : Bytes}
    {later : List (Bytes × Json)} (namePlain : name.all isPlain = true)
    (valuePlain : value.all isPlain = true)
    (nameShort : name.length < steps + 1) (valueShort : value.length < steps)
    (parsed : parseMembers (steps + 1) more = some (later, rest)) :
    parseMembers (steps + 2)
        (34 :: (name ++ 34 :: 58 :: 34 :: (value ++ 34 :: 44 :: more))) =
      some ((name, string value) :: later, rest) := by
  have scanned :
      scanString steps (value ++ 34 :: 44 :: more) =
        some (value, 44 :: more) := by
    rw [scanString_of_plain valuePlain, if_pos valueShort]
  have comma : expect 44 (44 :: more) = some more := by
    rw [expect_cons (by decide), if_pos rfl]
  exact parseMembers_string namePlain nameShort scanned comma parsed

theorem parseMembers_plain_eq_some
    {steps : Nat} {name value more rest : Bytes}
    {members : List (Bytes × Json)} (namePlain : name.all isPlain = true)
    (valuePlain : value.all isPlain = true)
    (parsed :
      parseMembers steps
          (34 :: (name ++ 34 :: 58 :: 34 :: (value ++ 34 :: 44 :: more))) =
        some (members, rest)) :
    ∃ fewer later,
      parseMembers fewer more = some (later, rest) ∧
        members = (name, string value) :: later := by
  rcases parseMembers_string_eq_some namePlain parsed with
    ⟨bound, fewer, read, behind, scanned, ends⟩
  rw [scanString_of_plain valuePlain] at scanned
  split_ifs at scanned
  cases scanned
  rcases ends with ⟨next, later, comma, parsedLater, same⟩ | ⟨brace, _⟩
  · rw [expect_cons (by decide), if_pos rfl] at comma
    cases comma
    exact ⟨fewer, later, parsedLater, same⟩
  · rw [expect_cons (by decide), if_neg (by decide)] at brace
    cases brace

/-- An object whose numbers are all numerals is read as such. -/
theorem isText_typedText
    {kind : Bytes} (kindPlain : kind.all isPlain = true)
    {fields : List (Bytes × Bytes)} {numbers : List JsonNumber}
    (numerals :
      List.Forall₂ (fun field number => IsNumeral field.2 number) fields
        numbers)
    (plain : ∀ field ∈ fields, field.1.all isPlain = true)
    (nonempty : fields ≠ [])
    (small : ∀ byte ∈ typedText kind fields, byte < 128) :
    IsText (typedText kind fields)
      (typedObject kind (fields.map Prod.fst) numbers) := by
  refine ⟨validUtf8_of_small small, ?_⟩
  set bound := kind.length + 5 + (fields.map fun field => field.1.length).sum
    with boundEq
  have short : ∀ field ∈ fields, field.1.length < bound := by
    intro field member
    have le := List.le_sum_of_mem
      (List.mem_map.mpr ⟨field, member, rfl⟩ :
        field.1.length ∈ fields.map fun field => field.1.length)
    omega
  have members := parseMembers_fields numerals plain short nonempty
  rcases List.exists_cons_of_ne_nil nonempty with ⟨first, more, rfl⟩
  have comma :
      expect 44 (fieldsText (first :: more)) =
        some (fieldsText (first :: more)).tail := by
    rw [fieldsText, expect_cons (by decide), if_pos rfl]
    rfl
  have scanned :
      scanString (bound + more.length)
          (kind ++ 34 :: fieldsText (first :: more)) =
        some (kind, fieldsText (first :: more)) := by
    rw [scanString_of_plain kindPlain, if_pos (by omega)]
  rw [List.length_cons, ← Nat.add_assoc] at members
  have typed :=
    parseMembers_string (show (ascii "type").all isPlain = true by decide)
      (show (ascii "type").length < bound + more.length + 1 by
        have length : (ascii "type").length = 4 := by decide
        omega)
      scanned comma members
  refine ⟨bound + more.length + 3, [], ?_, rfl⟩
  rw [typedText]
  exact parseValue_object typed

/-! ## What cannot be read -/

/-- Members that are read are numerals, where there are only numerals and
words. -/
theorem isNumeral_of_parseMembers
    {fields : List (Bytes × Bytes)}
    (plain : ∀ field ∈ fields, field.1.all isPlain = true)
    (each :
      ∀ field ∈ fields,
        (∃ number, IsNumeral field.2 number) ∨ IsWord field.2)
    {steps : Nat} {members : List (Bytes × Json)} {rest : Bytes}
    (parsed :
      parseMembers steps (fieldsText fields).tail = some (members, rest)) :
    ∀ field ∈ fields, ∃ number, IsNumeral field.2 number := by
  induction fields generalizing steps members rest with
  | nil => simp
  | cons field more induction =>
      rcases field with ⟨name, text⟩
      rcases List.forall_mem_cons.mp plain with ⟨plainHere, plainLater⟩
      rcases List.forall_mem_cons.mp each with ⟨eachHere, eachLater⟩
      cases steps with
      | zero =>
          rw [parseMembers] at parsed
          cases parsed
      | succ steps =>
          rcases parseMembers_eq_some parsed with
            ⟨body, found, afterName, valueText, value, afterValue, quote,
              named, colon, valued, behind⟩
          rw [fieldsText, List.tail_cons, expect_cons (by decide),
            if_pos rfl] at quote
          cases quote
          rw [scanString_of_plain plainHere] at named
          split_ifs at named
          cases named
          rw [expect_cons (by decide), if_pos rfl] at colon
          cases colon
          rcases eachHere with ⟨number, numeral⟩ | word
          · refine List.forall_mem_cons.mpr ⟨⟨number, numeral⟩, ?_⟩
            cases steps with
            | zero =>
                rw [parseValue] at valued
                cases valued
            | succ steps =>
                rw [parseValue_number
                  (numeral _ (endsNumber_fieldsText more))] at valued
                cases valued
                cases more with
                | nil => simp
                | cons next later =>
                    rcases behind with ⟨_, _, comma, inside, _⟩ | ⟨brace, _⟩
                    · rw [fieldsText, expect_cons (by decide), if_pos rfl]
                        at comma
                      cases comma
                      exact induction plainLater eachLater inside
                    · rw [fieldsText, expect_cons (by decide),
                        if_neg (by decide)] at brace
                      cases brace
          · rw [word] at valued
            cases valued

/-- An object is not over before its brace. -/
theorem brace_mem_of_parseValue
    {steps : Nat} {body rest : Bytes} {value : Json}
    (parsed : parseValue steps (123 :: body) = some (value, rest)) :
    125 ∈ body := by
  cases steps with
  | zero =>
      rw [parseValue] at parsed
      cases parsed
  | succ steps =>
      rw [parseValue, expect_cons (by decide), if_neg (by decide),
        expect_cons (by decide), if_pos rfl] at parsed
      simp only at parsed
      cases brace : expect 125 body with
      | some behind => exact (expect_suffix brace).mem (List.mem_cons_self ..)
      | none =>
          simp only [brace] at parsed
          rcases Option.map_eq_some_iff.mp parsed with ⟨result, inside, _⟩
          exact brace_mem_of_parseMembers steps inside

/-- A text with a word among its numbers has no value. -/
theorem isNumeral_of_isText
    {kind : Bytes} (kindPlain : kind.all isPlain = true)
    {fields : List (Bytes × Bytes)}
    (plain : ∀ field ∈ fields, field.1.all isPlain = true)
    (each :
      ∀ field ∈ fields,
        (∃ number, IsNumeral field.2 number) ∨ IsWord field.2)
    {value : Json} (isText : IsText (typedText kind fields) value) :
    ∀ field ∈ fields, ∃ number, IsNumeral field.2 number := by
  rcases isText with ⟨_, steps, rest, parsed, _⟩
  rw [typedText] at parsed
  rcases exists_parseMembers parsed with ⟨fewer, members, inside, _⟩
  rcases parseMembers_string_eq_some (by decide) inside with
    ⟨bound, fewer, found, behind, scanned, later⟩
  rw [scanString_of_plain kindPlain] at scanned
  split_ifs at scanned
  cases scanned
  cases fields with
  | nil => simp
  | cons first more =>
      rcases later with ⟨_, _, comma, membersParsed, _⟩ | ⟨brace, _⟩
      · rw [fieldsText, expect_cons (by decide), if_pos rfl] at comma
        cases comma
        exact isNumeral_of_parseMembers plain each membersParsed
      · rw [fieldsText, expect_cons (by decide), if_neg (by decide)] at brace
        cases brace

/-- The brace of an object is its last byte, if no member has one. -/
theorem fieldsText_eq_concat
    {fields : List (Bytes × Bytes)}
    (noBrace : ∀ field ∈ fields, 125 ∉ field.1 ∧ 125 ∉ field.2) :
    ∃ front, fieldsText fields = front ++ [125] ∧ 125 ∉ front := by
  induction fields with
  | nil => exact ⟨[], rfl, List.not_mem_nil⟩
  | cons field more induction =>
      rcases field with ⟨name, text⟩
      rcases List.forall_mem_cons.mp noBrace with ⟨⟨inName, inText⟩, later⟩
      rcases induction later with ⟨front, split, noBraceFront⟩
      refine ⟨44 :: 34 :: (name ++ 34 :: 58 :: (text ++ front)), ?_, ?_⟩
      · simp [fieldsText, split]
      · simp only [List.mem_cons, List.mem_append, not_or]
        exact ⟨by decide, by decide, inName, by decide, by decide, inText,
          noBraceFront⟩

/-- A text that is cut has no value. -/
theorem fits_of_isText
    {kind : Bytes} (kindNoBrace : 125 ∉ kind)
    {fields : List (Bytes × Bytes)}
    (noBrace : ∀ field ∈ fields, 125 ∉ field.1 ∧ 125 ∉ field.2)
    {room : Nat} (positive : 0 < room) {value : Json}
    (isText : IsText ((typedText kind fields).take room) value) :
    (typedText kind fields).length ≤ room := by
  rcases isText with ⟨_, steps, rest, parsed, _⟩
  rcases fieldsText_eq_concat noBrace with ⟨front, split, noBraceFront⟩
  rcases Nat.exists_eq_succ_of_ne_zero (Nat.pos_iff_ne_zero.mp positive)
    with ⟨room, rfl⟩
  set before := 34 :: (ascii "type" ++ 34 :: 58 :: 34 ::
    (kind ++ 34 :: front)) with beforeEq
  have whole : typedText kind fields = 123 :: (before ++ [125]) := by
    simp [typedText, split, beforeEq]
  have noBraceBefore : 125 ∉ before := by
    have inType : 125 ∉ ascii "type" := by decide
    simp only [beforeEq, List.mem_cons, List.mem_append, not_or]
    exact ⟨by decide, inType, by decide, by decide, by decide, kindNoBrace,
      by decide, noBraceFront⟩
  rw [whole, List.take_succ_cons] at parsed
  have brace := brace_mem_of_parseValue parsed
  by_contra long
  rw [whole, List.length_cons, List.length_append, List.length_singleton]
    at long
  rw [List.take_append_of_le_length (by omega)] at brace
  exact noBraceBefore (List.mem_of_mem_take brace)

/-! ## When a text is one -/

/-- A byte that may stand anywhere in a member. -/
def isMemberByte (byte : UInt8) : Bool :=
  byte < 128 && byte != 125

/-- A member that is a numeral or a word, under a plain name. -/
structure IsField (field : Bytes × Bytes) : Prop where
  plain : field.1.all isPlain = true
  name : field.1.all isMemberByte = true
  text : field.2.all isMemberByte = true
  kind : (∃ number, IsNumeral field.2 number) ∨ IsWord field.2

theorem isMemberByte_of_all
    {bytes : Bytes} (all : bytes.all isMemberByte = true) :
    ∀ byte ∈ bytes, byte < 128 ∧ byte ≠ 125 := by
  intro byte member
  simpa [isMemberByte] using List.all_eq_true.mp all byte member

/-- No text is a word and a numeral. -/
theorem IsWord.not_isNumeral
    {text : Bytes} (word : IsWord text) (number : JsonNumber) :
    ¬ IsNumeral text number := by
  intro numeral
  have read := parseValue_number (numeral [44] ⟨44, [], rfl, Or.inl rfl⟩) 0
  rw [word] at read
  cases read

theorem typedText_small
    {kind : Bytes} (kindSmall : kind.all isMemberByte = true)
    {fields : List (Bytes × Bytes)}
    (isField : ∀ field ∈ fields, IsField field) :
    ∀ byte ∈ typedText kind fields, byte < 128 := by
  have small {bytes : Bytes} (all : bytes.all isMemberByte = true) :
      ∀ byte ∈ bytes, byte < 128 :=
    fun byte member => (isMemberByte_of_all all byte member).1
  have later : ∀ byte ∈ fieldsText fields, byte < 128 := by
    induction fields with
    | nil => simp [fieldsText]
    | cons field more induction =>
        rcases List.forall_mem_cons.mp isField with ⟨here, laterFields⟩
        rcases field with ⟨name, text⟩
        simp only [fieldsText, List.forall_mem_cons, List.forall_mem_append]
        exact ⟨by decide, by decide, small here.name, by decide, by decide,
          small here.text, induction laterFields⟩
  simp only [typedText, List.forall_mem_cons, List.forall_mem_append]
  exact ⟨by decide, by decide, small (by decide), by decide, by decide,
    by decide, small kindSmall, by decide, later⟩

theorem exists_numbers
    {fields : List (Bytes × Bytes)}
    (numerals : ∀ field ∈ fields, ∃ number, IsNumeral field.2 number) :
    ∃ numbers,
      List.Forall₂ (fun field number => IsNumeral field.2 number) fields
        numbers := by
  induction fields with
  | nil => exact ⟨[], .nil⟩
  | cons field more induction =>
      rcases List.forall_mem_cons.mp numerals with ⟨⟨number, here⟩, later⟩
      rcases induction later with ⟨numbers, read⟩
      exact ⟨number :: numbers, .cons here read⟩

/--
What a buffer keeps of the object is a text of JSON exactly if all of it fits
and every number is one.
-/
theorem isText_take_iff
    {kind : Bytes} (kindPlain : kind.all isPlain = true)
    (kindSmall : kind.all isMemberByte = true)
    {fields : List (Bytes × Bytes)} (nonempty : fields ≠ [])
    (isField : ∀ field ∈ fields, IsField field) {room : Nat}
    (positive : 0 < room) :
    (∃ value, IsText ((typedText kind fields).take room) value) ↔
      (typedText kind fields).length ≤ room ∧
        ∀ field ∈ fields, ∃ number, IsNumeral field.2 number := by
  have plain : ∀ field ∈ fields, field.1.all isPlain = true :=
    fun field member => (isField field member).plain
  constructor
  · rintro ⟨value, isText⟩
    have fits : (typedText kind fields).length ≤ room := by
      refine fits_of_isText ?_ ?_ positive isText
      · exact fun brace => (isMemberByte_of_all kindSmall 125 brace).2 rfl
      · intro field member
        exact
          ⟨fun brace =>
            (isMemberByte_of_all (isField field member).name 125 brace).2 rfl,
          fun brace =>
            (isMemberByte_of_all (isField field member).text 125 brace).2 rfl⟩
    rw [List.take_of_length_le fits] at isText
    exact ⟨fits, isNumeral_of_isText kindPlain plain
      (fun field member => (isField field member).kind) isText⟩
  · rintro ⟨fits, numerals⟩
    rw [List.take_of_length_le fits]
    rcases exists_numbers numerals with ⟨numbers, read⟩
    exact ⟨_, isText_typedText kindPlain read plain nonempty
      (typedText_small kindSmall isField)⟩

end AccelObserver.Library.Json
