import AccelObserver.Library.FlatObject

/-!
# Flat objects with numbers and strings

The members of a flat object with the blanks behind their colons.  A key may
hold quotation marks behind backslashes; a string value holds neither.

A search for a quoted name finds the first member that mentions it: one whose
key is the name, or ends in it behind an escaped quotation mark, or one whose
value is the name as a string.
-/

namespace AccelObserver.Library.FlatFields

open AccelObserver.Library.Text
open AccelObserver.Library.FlatObject

/-! ## Fields -/

/-- A digit, a sign, a point or the letter of an exponent. -/
def isNumeralByte (byte : UInt8) : Bool :=
  (48 ≤ byte && byte ≤ 57) || byte == 43 || byte == 45 || byte == 46 ||
    byte == 69 || byte == 101

/-- The blanks of JSON. -/
def isBlank (byte : UInt8) : Bool :=
  byte == 32 || byte == 9 || byte == 10 || byte == 13

inductive Value
  | number (numeral : Bytes)
  | string (content : Bytes)
  deriving DecidableEq

def Value.text : Value → Bytes
  | .number numeral => numeral
  | .string content => quoted content

/-- A number has a numeral; a string has no quotation mark or backslash. -/
def Value.plain : Value → Bool
  | .number numeral => !numeral.isEmpty && numeral.all isNumeralByte
  | .string content => content.all fun byte => byte != 34 && byte != 92

/-- Quotation marks have a backslash before them; `piece` is what has been
read since the last one. -/
def escapedFrom (piece : Bytes) : Bytes → Bool
  | [] => true
  | byte :: rest =>
      if byte = 34 then piece.getLast? == some 92 && escapedFrom [] rest
      else escapedFrom (piece ++ [byte]) rest

/-- What stands behind the last quotation mark. -/
def lastPieceFrom (piece : Bytes) : Bytes → Bytes
  | [] => piece
  | byte :: rest =>
      if byte = 34 then lastPieceFrom [] rest
      else lastPieceFrom (piece ++ [byte]) rest

/-- The end of a key behind its last quotation mark, or the whole key. -/
def lastPiece (key : Bytes) : Bytes :=
  lastPieceFrom [] key

/-- A member of an object. -/
structure Field where
  key : Bytes
  blanks : Bytes
  value : Value
  keyEscaped : escapedFrom [] key = true
  blanksBlank : blanks.all isBlank = true
  valuePlain : value.plain = true

def Field.member (field : Field) : Bytes × Bytes :=
  (field.key, field.blanks ++ field.value.text)

/-- The members behind an opening byte, and the end of the object. -/
def fieldsFrom (opening : UInt8) (fields : List Field) : Bytes :=
  textFrom opening (fields.map Field.member)

/-- The text of an object. -/
def objectText (fields : List Field) : Bytes :=
  text (fields.map Field.member)

/-! ## Mentions -/

/-- How a member mentions a name: as its key, or as its string value. -/
inductive Mention
  | key (value : Value)
  | string
  deriving DecidableEq

def Field.mentions (name : Bytes) (field : Field) : Option Mention :=
  if lastPiece field.key = name then some (.key field.value)
  else if field.value = .string name then some .string
  else none

/-- The first mention of a name in an object. -/
def firstMention (name : Bytes) (fields : List Field) : Option Mention :=
  fields.findSome? (Field.mentions name)

/-- What a search finds behind the first mention of a name. -/
def behindMention (name : Bytes) : List Field → Option Bytes
  | [] => none
  | field :: more =>
      match field.mentions name with
      | some (.key value) =>
          some (58 :: (field.blanks ++ (value.text ++ fieldsFrom 44 more)))
      | some .string => some (fieldsFrom 44 more)
      | none => behindMention name more

/-- A name that no punctuation of an object can be a part of. -/
structure Searchable (name : Bytes) : Prop where
  unquoted : Unquoted name
  noBackslash : 92 ∉ name
  start : name.head? ≠ some 58 ∧ name.head? ≠ some 44 ∧ name.head? ≠ some 125

/-- Between two quotation marks stands the name, or the search goes on. -/
theorem findAfter_quoted
    {name : Bytes} (unquotedName : Unquoted name)
    {piece : Bytes} (unquotedPiece : Unquoted piece) (rest : Bytes) :
    findAfter (quoted name) (34 :: (piece ++ 34 :: rest)) =
      if piece = name then some rest
      else findAfter (quoted name) (34 :: rest) := by
  split_ifs with same
  · subst same
    have found := findAfter_append_self 34 (piece ++ [34]) rest
    simpa [quoted] using found
  · have mismatch :=
      isPrefixOf_quoted same unquotedName unquotedPiece rest
    have atQuote :
        (quoted name).isPrefixOf (34 :: (piece ++ 34 :: rest)) = false := by
      simpa [quoted, List.isPrefixOf] using mismatch
    rw [findAfter_cons_of_mismatch atQuote]
    exact findAfter_append_of_not_mem 34 _ _ _ unquotedPiece

/-- A quotation mark with another byte behind it than the name begins with. -/
theorem findAfter_quote_cons
    {name : Bytes} {byte : UInt8} (notQuote : byte ≠ 34)
    (noStart : name.head? ≠ some byte) (rest : Bytes) :
    findAfter (quoted name) (34 :: byte :: rest) =
      findAfter (quoted name) (byte :: rest) := by
  apply findAfter_cons_of_mismatch
  cases name with
  | nil => simp [quoted, List.isPrefixOf, Ne.symm notQuote]
  | cons first more =>
      have different : first ≠ byte := by simpa using noStart
      simp [quoted, List.isPrefixOf, different]

/-- A key mentions the name with its last piece, if at all. -/
theorem findAfter_key
    {name : Bytes} (searchable : Searchable name)
    {piece key : Bytes} (unquotedPiece : Unquoted piece)
    (escaped : escapedFrom piece key = true) (rest : Bytes) :
    findAfter (quoted name) (34 :: (piece ++ (key ++ 34 :: rest))) =
      if lastPieceFrom piece key = name then some rest
      else findAfter (quoted name) (34 :: rest) := by
  induction key generalizing piece with
  | nil =>
      exact findAfter_quoted searchable.unquoted unquotedPiece rest
  | cons byte key induction =>
      rw [escapedFrom] at escaped
      rw [lastPieceFrom]
      by_cases quote : byte = 34
      · subst quote
        simp only [if_true, Bool.and_eq_true, beq_iff_eq] at escaped ⊢
        have different : piece ≠ name := by
          intro same
          exact searchable.noBackslash
            (same ▸ List.mem_of_getLast? escaped.1)
        have later := @induction [] (by simp [Unquoted]) escaped.2
        rw [List.cons_append,
          findAfter_quoted searchable.unquoted unquotedPiece,
          if_neg different]
        exact later
      · rw [if_neg quote] at escaped ⊢
        have unquotedMore : Unquoted (piece ++ [byte]) := by
          simp only [Unquoted, List.mem_append, List.mem_singleton, not_or]
          exact ⟨unquotedPiece, Ne.symm quote⟩
        have later := induction unquotedMore escaped
        simpa using later

theorem unquoted_of_all
    {accepts : UInt8 → Bool} (noQuote : accepts 34 = false)
    {bytes : Bytes} (accepted : bytes.all accepts = true) :
    Unquoted bytes := by
  intro quoted
  have accepts := List.all_eq_true.mp accepted 34 quoted
  rw [noQuote] at accepts
  cases accepts

/-- What follows a member does not begin like the name. -/
theorem fieldsFrom_eq_cons (fields : List Field) :
    ∃ byte rest, fieldsFrom 44 fields = byte :: rest ∧
      (byte = 44 ∨ byte = 125) := by
  cases fields with
  | nil => exact ⟨125, [], rfl, Or.inr rfl⟩
  | cons field more => exact ⟨44, _, rfl, Or.inl rfl⟩

/-- A search in a value that is not the name goes on behind it. -/
theorem findAfter_value
    {name : Bytes} (searchable : Searchable name)
    {value : Value} (plain : value.plain = true)
    (different : value ≠ .string name) (more : List Field) :
    findAfter (quoted name) (value.text ++ fieldsFrom 44 more) =
      findAfter (quoted name) (fieldsFrom 44 more) := by
  cases value with
  | number numeral =>
      simp only [Value.plain, Bool.and_eq_true] at plain
      exact findAfter_append_of_not_mem 34 _ _ _
        (unquoted_of_all (by decide) plain.2)
  | string content =>
      have unquotedContent : Unquoted content :=
        unquoted_of_all (by decide) plain
      have otherContent : content ≠ name := by
        rintro rfl
        exact different rfl
      rcases fieldsFrom_eq_cons more with ⟨byte, rest, follows, closing⟩
      have notQuote : byte ≠ 34 := by
        rcases closing with rfl | rfl <;> decide
      have noStart : name.head? ≠ some byte := by
        rcases closing with rfl | rfl
        · exact searchable.start.2.1
        · exact searchable.start.2.2
      have skipped :=
        findAfter_quoted searchable.unquoted unquotedContent
          (fieldsFrom 44 more)
      rw [if_neg otherContent, follows,
        findAfter_quote_cons notQuote noStart, ← follows] at skipped
      simpa [Value.text, quoted] using skipped

/-- A search in a member finds its mention, or goes on behind it. -/
theorem findAfter_field
    {name : Bytes} (searchable : Searchable name)
    (field : Field) (more : List Field) :
    findAfter (quoted name)
        (member field.key (field.blanks ++ field.value.text) ++
          fieldsFrom 44 more) =
      match field.mentions name with
      | some (.key value) =>
          some (58 :: (field.blanks ++ (value.text ++ fieldsFrom 44 more)))
      | some .string => some (fieldsFrom 44 more)
      | none => findAfter (quoted name) (fieldsFrom 44 more) := by
  have unquotedBlanks : Unquoted (58 :: field.blanks) := by
    have blanks :=
      unquoted_of_all (show isBlank 34 = false by decide) field.blanksBlank
    simpa [Unquoted] using blanks
  have atColon (text : Bytes) :
      findAfter (quoted name) (34 :: 58 :: (field.blanks ++ text)) =
        findAfter (quoted name) text := by
    rw [findAfter_quote_cons (by decide) searchable.start.1]
    exact
      findAfter_append_of_not_mem 34 _ (58 :: field.blanks) _ unquotedBlanks
  have byKey :=
    @findAfter_key name searchable [] field.key (by simp [Unquoted])
      field.keyEscaped
      (58 :: (field.blanks ++ (field.value.text ++ fieldsFrom 44 more)))
  have spread :
      member field.key (field.blanks ++ field.value.text) ++
          fieldsFrom 44 more =
        34 :: ([] ++ (field.key ++ 34 :: 58 ::
          (field.blanks ++ (field.value.text ++ fieldsFrom 44 more)))) := by
    simp [member]
  rw [spread, byKey, Field.mentions, lastPiece]
  split_ifs with isKey isString
  · rfl
  · have found :=
      findAfter_quoted searchable.unquoted searchable.unquoted
        (fieldsFrom 44 more)
    rw [if_pos rfl] at found
    rw [atColon, isString]
    simpa [Value.text, quoted] using found
  · rw [atColon]
    exact findAfter_value searchable field.valuePlain isString more

/-- A search in an object finds the first mention. -/
theorem findAfter_fieldsFrom
    {name : Bytes} (searchable : Searchable name)
    {opening : UInt8} (notQuote : opening ≠ 34) (fields : List Field) :
    findAfter (quoted name) (fieldsFrom opening fields) =
      behindMention name fields := by
  have opened (opening : UInt8) (notQuote : opening ≠ 34) (text : Bytes) :
      findAfter (quoted name) (opening :: text) =
        findAfter (quoted name) text :=
    findAfter_append_of_not_mem 34 _ [opening] text
      (by simpa using Ne.symm notQuote)
  induction fields generalizing opening with
  | nil =>
      rw [fieldsFrom, List.map_nil, textFrom, opened 125 (by decide)]
      rfl
  | cons field more induction =>
      have split :
          fieldsFrom opening (field :: more) =
            opening :: (member field.key (field.blanks ++ field.value.text) ++
              fieldsFrom 44 more) := rfl
      rw [split, opened opening notQuote, findAfter_field searchable,
        behindMention]
      cases field.mentions name with
      | none => exact induction (by decide)
      | some mention => cases mention <;> rfl

/-! ## Occurrences of a word -/

/-- The word stands in a key or in a string value. -/
def Field.holds (word : Bytes) (field : Field) : Bool :=
  occurs word field.key ||
    match field.value with
    | .number _ => false
    | .string content => occurs word content

/-- No byte of the word is punctuation, and it does not begin like a number. -/
structure Word (first : UInt8) (more : Bytes) : Prop where
  noQuote : 34 ∉ first :: more
  noColon : 58 ∉ first :: more
  noComma : 44 ∉ first :: more
  noEnd : 125 ∉ first :: more
  start : isBlank first = false ∧ isNumeralByte first = false

theorem occurs_nil (first : UInt8) (more : Bytes) :
    occurs (first :: more) [] = false := rfl

theorem occurs_separator
    {first : UInt8} {more : Bytes} {separator : UInt8}
    (absent : separator ∉ first :: more) (text : Bytes) :
    occurs (first :: more) (separator :: text) =
      occurs (first :: more) text := by
  have split := occurs_append_cons absent [] text
  rw [List.nil_append, occurs_nil, Bool.false_or] at split
  exact split

theorem occurs_of_all
    {first : UInt8} {more : Bytes} {accepts : UInt8 → Bool}
    (refused : accepts first = false)
    {text : Bytes} (accepted : text.all accepts = true) :
    occurs (first :: more) text = false := by
  apply occurs_of_not_mem
  intro inText
  have accepts := List.all_eq_true.mp accepted first inText
  rw [refused] at accepts
  cases accepts

/-- In a value, the word stands in a string or not at all. -/
theorem occurs_value
    {first : UInt8} {more : Bytes} (word : Word first more) (field : Field) :
    occurs (first :: more) (field.blanks ++ field.value.text) =
      match field.value with
      | .number _ => false
      | .string content => occurs (first :: more) content := by
  have plain := field.valuePlain
  have blanks : occurs (first :: more) field.blanks = false :=
    occurs_of_all word.start.1 field.blanksBlank
  cases valueEq : field.value with
  | number numeral =>
      simp only [valueEq, Value.plain, Bool.and_eq_true] at plain
      apply occurs_of_not_mem
      simp only [Value.text, List.mem_append, not_or]
      constructor
      · intro inBlanks
        have blank := List.all_eq_true.mp field.blanksBlank first inBlanks
        simp [word.start.1] at blank
      · intro inNumeral
        have numeral := List.all_eq_true.mp plain.2 first inNumeral
        simp [word.start.2] at numeral
  | string content =>
      have spread :
          field.blanks ++ (Value.string content).text =
            field.blanks ++ 34 :: (content ++ 34 :: []) := rfl
      rw [spread, occurs_append_cons word.noQuote, blanks,
        occurs_append_cons word.noQuote, occurs_nil]
      simp

/-- A word that no punctuation splits stands in one of the members. -/
theorem occurs_fieldsFrom
    {first : UInt8} {more : Bytes} (word : Word first more)
    {opening : UInt8} (absent : opening ∉ first :: more)
    (fields : List Field) :
    occurs (first :: more) (fieldsFrom opening fields) =
      fields.any (Field.holds (first :: more)) := by
  induction fields generalizing opening with
  | nil =>
      rw [fieldsFrom, List.map_nil, textFrom, occurs_separator word.noEnd,
        occurs_nil, List.any_nil]
  | cons field fields induction =>
      rcases fieldsFrom_eq_cons fields with ⟨byte, rest, follows, closing⟩
      have noByte : byte ∉ first :: more := by
        rcases closing with rfl | rfl
        · exact word.noComma
        · exact word.noEnd
      have spread :
          fieldsFrom opening (field :: fields) =
            opening :: 34 :: (field.key ++ 34 :: 58 ::
              ((field.blanks ++ field.value.text) ++ byte :: rest)) := by
        have split :
            fieldsFrom opening (field :: fields) =
              opening ::
                (member field.key (field.blanks ++ field.value.text) ++
                  fieldsFrom 44 fields) := rfl
        rw [split, follows]
        simp [member]
      have later :
          occurs (first :: more) rest =
            fields.any (Field.holds (first :: more)) := by
        rw [← induction word.noComma, follows, occurs_separator noByte]
      rw [spread, occurs_separator absent, occurs_separator word.noQuote,
        occurs_append_cons word.noQuote, occurs_separator word.noColon,
        occurs_append_cons noByte, occurs_value word, later,
        List.any_cons, Field.holds, Bool.or_assoc]

end AccelObserver.Library.FlatFields
