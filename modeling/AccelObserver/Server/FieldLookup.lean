import AccelObserver.Library.Numerals
import AccelObserver.Server.RangeGate

/-!
# Looking fields up in any flat object

The extractors take the first place where a quoted key stands, whatever it is
part of, and read the number behind it.  In an object with fields of any kind
that place is the first mention of the key, and what they read is the number of
that mention; the marks of the Android format are found wherever they stand.
-/

namespace AccelObserver.Server.FieldLookup

open AccelObserver.Library
open AccelObserver.Library.CNumber
open AccelObserver.Library.FlatFields
open AccelObserver.Library.FlatObject (quoted)
open AccelObserver.Library.Numerals
open AccelObserver.Server.PacketValidator
open AccelObserver.Server.RangeGate (readNumber)

/-! ## Reading behind a mention -/

/-- The integer that a text gives, if the extractors take it. -/
def readUint64 (text : Bytes) : Option UInt64 :=
  (accepted (strtoull text)).map Prod.fst

/-- A conversion that skips blanks, stops at punctuation and refuses strings. -/
structure Reads {Number : Type} (read : Bytes → Option Number) : Prop where
  skips :
    ∀ spaces text, spaces.all isSpace = true →
      read (spaces ++ text) = read text
  stops :
    ∀ numeral after, IsValue numeral after → numeral ≠ [] →
      read (numeral ++ after) = read numeral
  refuses :
    ∀ byte rest, byte = 34 ∨ byte = 44 ∨ byte = 125 →
      read (byte :: rest) = none

theorem accepted_append
    {Number : Type} (conversion : Option (Conversion Number)) (after : Bytes) :
    (accepted (conversion.map fun conversion =>
        { conversion with rest := conversion.rest ++ after })).map Prod.fst =
      (accepted conversion).map Prod.fst := by
  cases conversion with
  | none => rfl
  | some conversion =>
      simp only [Option.map_some, accepted]
      split_ifs <;> rfl

theorem reads_readUint64 : Reads readUint64 where
  skips := by
    intro spaces text blank
    simp only [readUint64, strtoull, dropSpace_append blank]
  stops := by
    intro numeral after isValue some
    rw [readUint64, strtoull_append isValue some, accepted_append, readUint64]
  refuses := by
    intro byte rest refused
    rw [readUint64, strtoull_refuses refused]
    rfl

theorem reads_readNumber : Reads readNumber where
  skips := by
    intro spaces text blank
    simp only [readNumber, strtod, dropSpace_append blank]
  stops := by
    intro numeral after isValue some
    rw [readNumber, strtod_append isValue some, accepted_append, readNumber]
  refuses := by
    intro byte rest refused
    rw [readNumber, strtod_refuses refused]
    rfl

/-- The number that a mention gives: a string has none. -/
def numberOf {Number : Type} (read : Bytes → Option Number) :
    Mention → Option Number
  | .key (.number numeral) => read numeral
  | .key (.string _) => none
  | .string => none

/-- The number at the first mention of a name. -/
def firstNumber {Number : Type} (read : Bytes → Option Number) (name : Bytes)
    (fields : List Field) : Option Number :=
  (firstMention name fields).bind (numberOf read)

theorem isSpace_of_isBlank {byte : UInt8} (blank : isBlank byte = true) :
    isSpace byte = true := by
  simp only [isBlank, Bool.or_eq_true, beq_iff_eq] at blank
  rcases blank with ((rfl | rfl) | rfl) | rfl <;> decide

/-- The separators behind a key are its colon and some of its blanks. -/
theorem dropSeparators
    (field : Field) {byte : UInt8} (noSeparator : isSeparator byte = false)
    (rest : Bytes) :
    ∃ spaces : Bytes, spaces.all isBlank = true ∧
      (58 :: (field.blanks ++ byte :: rest)).dropWhile isSeparator =
        spaces ++ byte :: rest := by
  have colon : isSeparator 58 = true := by decide
  refine ⟨field.blanks.dropWhile isSeparator, ?_, ?_⟩
  · rw [List.all_eq_true]
    intro other member
    exact List.all_eq_true.mp field.blanksBlank other
      (List.dropWhile_subset _ member)
  · rw [List.dropWhile_cons_of_pos colon, List.dropWhile_append]
    split_ifs with all
    · rw [List.isEmpty_iff] at all
      rw [all, List.dropWhile_cons_of_neg (by simp [noSeparator]),
        List.nil_append]
    · rfl

theorem follows_fieldsFrom (fields : List Field) :
    Follows (fieldsFrom 44 fields) := by
  rcases fieldsFrom_eq_cons fields with ⟨byte, rest, equal, closing⟩
  intro first head
  rw [equal, List.head?_cons, Option.mem_def, Option.some.injEq] at head
  exact head ▸ closing

/-- What stands behind a mention: blanks, a byte that opens no array, and a
text from which every reader gets the number of the mention. -/
def Behind (mention : Mention) (text : Bytes) : Prop :=
  ∃ spaces byte rest,
    text.dropWhile isSeparator = spaces ++ byte :: rest ∧
      spaces.all isBlank = true ∧ byte ≠ 91 ∧
      ∀ (Number : Type) (read : Bytes → Option Number), Reads read →
        read (byte :: rest) = numberOf read mention

/-- Behind a key stands the value of its field. -/
theorem behind_key (field : Field) (more : List Field) :
    Behind (.key field.value)
      (58 :: (field.blanks ++ (field.value.text ++ fieldsFrom 44 more))) := by
  have plain := field.valuePlain
  cases valueEq : field.value with
  | number numeral =>
      simp only [valueEq, Value.plain, Bool.and_eq_true,
        Bool.not_eq_true', List.isEmpty_eq_false_iff] at plain
      rcases plain with ⟨some, bytes⟩
      have isValue : IsValue numeral (fieldsFrom 44 more) :=
        ⟨bytes, follows_fieldsFrom more⟩
      cases numeral with
      | nil => exact absurd rfl some
      | cons byte digits =>
          have first : isNumeralByte byte = true :=
            List.all_eq_true.mp bytes byte (by simp)
          have noSeparator : isSeparator byte = false := by
            by_contra separator
            simp only [isSeparator, Bool.not_eq_false, Bool.or_eq_true,
              beq_iff_eq] at separator
            rcases separator with (rfl | rfl) | rfl <;>
              exact absurd first (by decide)
          have noArray : byte ≠ 91 := by
            rintro rfl
            exact absurd first (by decide)
          rcases dropSeparators field noSeparator
              (digits ++ fieldsFrom 44 more)
            with ⟨spaces, blank, dropped⟩
          exact ⟨spaces, byte, _, dropped, blank, noArray,
            fun _ _ reads => reads.stops _ _ isValue some⟩
  | string content =>
      rcases dropSeparators field (show isSeparator 34 = false by decide)
          (content ++ [34] ++ fieldsFrom 44 more)
        with ⟨spaces, blank, dropped⟩
      exact ⟨spaces, 34, _, dropped, blank, by decide,
        fun _ _ reads => reads.refuses 34 _ (Or.inl rfl)⟩

/-- Behind a string stands the punctuation that follows it. -/
theorem behind_string (more : List Field) :
    Behind .string (fieldsFrom 44 more) := by
  rcases fieldsFrom_eq_cons more with ⟨byte, rest, equal, closing⟩
  have noSeparator : isSeparator byte = false := by
    rcases closing with rfl | rfl <;> decide
  have noArray : byte ≠ 91 := by
    rcases closing with rfl | rfl <;> decide
  refine ⟨[], byte, rest, ?_, rfl, noArray,
    fun _ _ reads => reads.refuses byte rest (Or.inr closing)⟩
  rw [equal, List.dropWhile_cons_of_neg (by simp [noSeparator]),
    List.nil_append]

/-- A search finds the text behind the first mention, if there is one. -/
theorem behindMention_spec (name : Bytes) (fields : List Field) :
    match firstMention name fields with
    | none => behindMention name fields = none
    | some mention =>
        ∃ text, behindMention name fields = some text ∧
          Behind mention text := by
  induction fields with
  | nil => rfl
  | cons field more induction =>
      rw [firstMention, List.findSome?_cons, behindMention]
      cases mentions : field.mentions name with
      | none => exact induction
      | some mention =>
          cases mention with
          | string => exact ⟨_, rfl, behind_string more⟩
          | key value =>
              have same : field.value = value := by
                rw [Field.mentions] at mentions
                split_ifs at mentions
                · exact Mention.key.inj (Option.some.inj mentions)
                · cases Option.some.inj mentions
              subst same
              exact ⟨_, rfl, behind_key field more⟩

/-- What is read behind the first mention is its number. -/
theorem read_behindMention
    {Number : Type} {read : Bytes → Option Number} (reads : Reads read)
    (name : Bytes) (fields : List Field) :
    ((behindMention name fields).map (List.dropWhile isSeparator)).bind read =
      firstNumber read name fields := by
  have spec := behindMention_spec name fields
  rw [firstNumber]
  cases mentioned : firstMention name fields with
  | none =>
      rw [mentioned] at spec
      simp [spec]
  | some mention =>
      simp only [mentioned] at spec
      rcases spec with
        ⟨text, found, spaces, byte, rest, dropped, blank, _, number⟩
      have space : spaces.all isSpace = true :=
        List.all_eq_true.mpr fun other member =>
          isSpace_of_isBlank (List.all_eq_true.mp blank other member)
      rw [found, Option.map_some, Option.bind_some, Option.bind_some, dropped,
        reads.skips spaces _ space, number _ read reads]

/-! ## The extractors -/

/-- The names that `parse` looks for. -/
def names : List Bytes :=
  [ascii "ts", ascii "seq", ascii "ax", ascii "ay", ascii "az",
    ascii "type", ascii "values"]

theorem searchable_of_mem {name : Bytes} (member : name ∈ names) :
    Searchable name := by
  have every :
      ∀ name ∈ names,
        34 ∉ name ∧ 92 ∉ name ∧ name.head? ≠ some 58 ∧
          name.head? ≠ some 44 ∧ name.head? ≠ some 125 := by
    decide
  rcases every name member with ⟨unquoted, noBackslash, start⟩
  exact ⟨unquoted, noBackslash, start⟩

theorem findAfter_objectText
    {name : Bytes} (member : name ∈ names) (fields : List Field) :
    Text.findAfter (34 :: (name ++ [34])) (objectText fields) =
      behindMention name fields :=
  findAfter_fieldsFrom (searchable_of_mem member) (by decide) fields

theorem fieldText_objectText
    {name : Bytes} (member : name ∈ names) (fields : List Field) :
    fieldText (objectText fields) name =
      (behindMention name fields).map (List.dropWhile isSeparator) := by
  rw [fieldText, findAfter_objectText member]

theorem extractUint64_objectText
    {name : Bytes} (member : name ∈ names) (fields : List Field) :
    extractUint64 (objectText fields) name =
      firstNumber readUint64 name fields := by
  rw [← read_behindMention reads_readUint64,
    ← fieldText_objectText member, extractUint64]
  cases fieldText (objectText fields) name with
  | none => rfl
  | some text =>
      by_cases empty : text = []
      · subst empty
        rfl
      · simp only [if_neg empty, Option.bind_some, readUint64]

theorem extractDouble_objectText
    {name : Bytes} (member : name ∈ names) (fields : List Field) :
    extractDouble (objectText fields) name =
      firstNumber readNumber name fields := by
  rw [← read_behindMention reads_readNumber,
    ← fieldText_objectText member, RangeGate.extractDouble_eq]
  cases fieldText (objectText fields) name <;> rfl

/-! ## The Android marks -/

/-- Both names of the Android format are mentioned, and its word stands in a
key or in a string. -/
def AndroidMarked (fields : List Field) : Prop :=
  firstMention (ascii "type") fields ≠ none ∧
    firstMention (ascii "values") fields ≠ none ∧
      ∃ field ∈ fields, field.holds (ascii "android.sensor.") = true

theorem behindMention_isSome (name : Bytes) (fields : List Field) :
    (behindMention name fields).isSome =
      (firstMention name fields).isSome := by
  have spec := behindMention_spec name fields
  cases mentioned : firstMention name fields with
  | none =>
      rw [mentioned] at spec
      simp [spec]
  | some mention =>
      simp only [mentioned] at spec
      rcases spec with ⟨text, found, _⟩
      simp [found]

theorem detectAndroidFormat_objectText (fields : List Field) :
    detectAndroidFormat (objectText fields) = true ↔ AndroidMarked fields := by
  have occursName {name : Bytes} (member : name ∈ names) :
      Text.occurs (34 :: (name ++ [34])) (objectText fields) =
        (firstMention name fields).isSome := by
    rw [Text.occurs, findAfter_objectText member, behindMention_isSome]
  have word : Word 97 (ascii "ndroid.sensor.") :=
    ⟨by decide, by decide, by decide, by decide, by decide⟩
  have occursWord :
      Text.occurs (ascii "android.sensor.") (objectText fields) =
        fields.any (Field.holds (ascii "android.sensor.")) :=
    occurs_fieldsFrom word (by decide) fields
  have marks :
      ascii "\"type\"" = 34 :: (ascii "type" ++ [34]) ∧
        ascii "\"values\"" = 34 :: (ascii "values" ++ [34]) :=
    ⟨rfl, rfl⟩
  rw [detectAndroidFormat, marks.1, marks.2, occursName (by decide),
    occursName (by decide), occursWord, AndroidMarked]
  simp only [Bool.and_eq_true, Option.isSome_iff_ne_none, List.any_eq_true]
  constructor
  · rintro ⟨⟨type, word⟩, values⟩
    exact ⟨type, values, word⟩
  · rintro ⟨type, values, word⟩
    exact ⟨⟨type, word⟩, values⟩

/-- No value of a flat object is an array. -/
theorem arrayText_objectText (fields : List Field) :
    arrayText (objectText fields) (ascii "values") = none := by
  have spec := behindMention_spec (ascii "values") fields
  rw [arrayText, fieldText_objectText (by decide)]
  cases mentioned : firstMention (ascii "values") fields with
  | none =>
      rw [mentioned] at spec
      rw [spec]
      rfl
  | some mention =>
      simp only [mentioned] at spec
      rcases spec with
        ⟨text, found, spaces, byte, rest, dropped, blank, noArray, _⟩
      rw [found, Option.map_some, dropped]
      cases spaces with
      | nil => simp [noArray]
      | cons space spaces =>
          have notBracket : space ≠ 91 := by
            rintro rfl
            simp [isBlank] at blank
          simp [notBracket]

theorem parse_androidMarked
    {fields : List Field} (marked : AndroidMarked fields)
    (cfg : ValidatorConfig) (clock : UInt64) (counter : UInt32) :
    (parse cfg clock counter (objectText fields)).1.result =
      .missingFields := by
  have detected := (detectAndroidFormat_objectText fields).mpr marked
  rw [parse, if_pos detected, parseAndroid, extractArrayDoubles,
    arrayText_objectText]

end AccelObserver.Server.FieldLookup
