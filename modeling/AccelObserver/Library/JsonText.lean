import AccelObserver.Library.JsonNumber
import Mathlib.Data.List.Infix

/-!
# JSON texts

A text of JSON is UTF-8 and has one value with blanks around it.  The value of
a string is again bytes in UTF-8: an escape stands for the encoding of its
character, and surrogates count in pairs only.

The parser is bounded by a number of steps.  A text is one for which some
bound is large enough.
-/

namespace AccelObserver.Library

inductive Json where
  | null
  | bool (value : Bool)
  | number (number : JsonNumber)
  | string (text : Bytes)
  | array (elements : List Json)
  | object (members : List (Bytes × Json))

namespace Json

open AccelObserver.Library.Decimal

/-! ## Strings -/

/-- The encoding of a code point. -/
def encodePoint (point : Nat) : Bytes :=
  String.utf8EncodeChar (Char.ofNat point)

/-- What a single byte behind a backslash stands for. -/
def simpleEscape (byte : UInt8) : Option UInt8 :=
  if byte = 34 ∨ byte = 92 ∨ byte = 47 then some byte
  else if byte = 98 then some 8
  else if byte = 102 then some 12
  else if byte = 110 then some 10
  else if byte = 114 then some 13
  else if byte = 116 then some 9
  else none

/-- Four digits of base sixteen. -/
def codeUnit : Bytes → Option (Nat × Bytes)
  | a :: b :: c :: d :: rest =>
      match digitValue 16 a, digitValue 16 b, digitValue 16 c,
        digitValue 16 d with
      | some first, some second, some third, some fourth =>
          some (positional 16 [first, second, third, fourth], rest)
      | _, _, _, _ => none
  | _ => none

/-- The first half of a surrogate pair. -/
def isHigh (unit : Nat) : Bool :=
  0xD800 ≤ unit && unit < 0xDC00

/-- The second half. -/
def isLow (unit : Nat) : Bool :=
  0xDC00 ≤ unit && unit < 0xE000

/-- The code point of a pair. -/
def pairPoint (high low : Nat) : Nat :=
  0x10000 + (high - 0xD800) * 0x400 + (low - 0xDC00)

/-- The second half behind the first. -/
def lowSurrogate (high : Nat) : Bytes → Option (Bytes × Bytes)
  | 92 :: 117 :: more =>
      match codeUnit more with
      | some (low, rest) =>
          if isLow low then some (encodePoint (pairPoint high low), rest)
          else none
      | none => none
  | _ => none

/-- What is behind `\u`. -/
def scanUnicode (text : Bytes) : Option (Bytes × Bytes) :=
  match codeUnit text with
  | some (unit, rest) =>
      if isHigh unit then lowSurrogate unit rest
      else if isLow unit then none
      else some (encodePoint unit, rest)
  | none => none

/-- What is behind a backslash. -/
def scanEscape : Bytes → Option (Bytes × Bytes)
  | [] => none
  | byte :: rest =>
      if byte = 117 then scanUnicode rest
      else (simpleEscape byte).map fun value => ([value], rest)

/-- A byte that stands for itself in a string. -/
def isPlain (byte : UInt8) : Bool :=
  byte != 34 && byte != 92 && 32 ≤ byte

/-- From behind the opening quote to behind the closing one. -/
def scanString : Nat → Bytes → Option (Bytes × Bytes)
  | 0, _ => none
  | _ + 1, [] => none
  | steps + 1, byte :: rest =>
      if byte = 34 then some ([], rest)
      else if byte = 92 then
        match scanEscape rest with
        | some (value, after) =>
            (scanString steps after).map fun more =>
              (value ++ more.1, more.2)
        | none => none
      else if byte < 32 then none
      else (scanString steps rest).map fun more => (byte :: more.1, more.2)

/-! ## Values -/

def isBlank (byte : UInt8) : Bool :=
  byte == 32 || byte == 9 || byte == 10 || byte == 13

/-- Blanks and the byte, and what is behind them. -/
def expect (byte : UInt8) (text : Bytes) : Option Bytes :=
  match text.dropWhile isBlank with
  | [] => none
  | first :: rest => if first = byte then some rest else none

/-- A word or a number. -/
def parseAtom (text : Bytes) : Option (Json × Bytes) :=
  if (ascii "null").isPrefixOf text then some (null, text.drop 4)
  else if (ascii "true").isPrefixOf text then some (bool true, text.drop 4)
  else if (ascii "false").isPrefixOf text then some (bool false, text.drop 5)
  else
    (JsonNumber.scanNumber text).map fun result => (number result.1, result.2)

mutual

/-- The value at the front of a text. -/
def parseValue : Nat → Bytes → Option (Json × Bytes)
  | 0, _ => none
  | steps + 1, text =>
      match expect 34 text with
      | some body =>
          (scanString steps body).map fun result =>
            (string result.1, result.2)
      | none =>
          match expect 123 text with
          | some body =>
              match expect 125 body with
              | some rest => some (object [], rest)
              | none =>
                  (parseMembers steps body).map fun result =>
                    (object result.1, result.2)
          | none =>
              match expect 91 text with
              | some body =>
                  match expect 93 body with
                  | some rest => some (array [], rest)
                  | none =>
                      (parseElements steps body).map fun result =>
                        (array result.1, result.2)
              | none => parseAtom (text.dropWhile isBlank)

/-- Members with commas between them, and the brace behind the last. -/
def parseMembers : Nat → Bytes → Option (List (Bytes × Json) × Bytes)
  | 0, _ => none
  | steps + 1, text => do
      let body ← expect 34 text
      let (name, afterName) ← scanString steps body
      let body ← expect 58 afterName
      let (value, afterValue) ← parseValue steps body
      match expect 44 afterValue with
      | some more =>
          let (members, rest) ← parseMembers steps more
          some ((name, value) :: members, rest)
      | none =>
          let rest ← expect 125 afterValue
          some ([(name, value)], rest)

/-- Elements with commas between them, and the bracket behind the last. -/
def parseElements : Nat → Bytes → Option (List Json × Bytes)
  | 0, _ => none
  | steps + 1, text => do
      let (value, afterValue) ← parseValue steps text
      match expect 44 afterValue with
      | some more =>
          let (elements, rest) ← parseElements steps more
          some (value :: elements, rest)
      | none =>
          let rest ← expect 93 afterValue
          some ([value], rest)

end

/-- The bytes are the encoding of characters. -/
def ValidUtf8 (bytes : Bytes) : Prop :=
  ∃ characters : List Char, bytes = characters.flatMap String.utf8EncodeChar

/-- The text is a well-formed JSON text with this value. -/
def IsText (text : Bytes) (value : Json) : Prop :=
  ValidUtf8 text ∧
    ∃ steps rest, parseValue steps text = some (value, rest) ∧
      rest.all isBlank = true

/-- The object has one member of the name, and this is its value. -/
def HasMember
    (members : List (Bytes × Json)) (name : Bytes) (value : Json) : Prop :=
  (members.filter fun entry => entry.1 == name).map Prod.snd = [value]

/-- Every member of the name has the value. -/
theorem HasMember.eq_of_mem
    {members : List (Bytes × Json)} {name : Bytes} {value other : Json}
    (has : HasMember members name value) (member : (name, other) ∈ members) :
    other = value := by
  have kept :
      other ∈
        (members.filter fun entry => entry.1 == name).map Prod.snd :=
    List.mem_map.mpr ⟨(name, other),
      List.mem_filter.mpr ⟨member, beq_self_eq_true name⟩, rfl⟩
  rw [has] at kept
  exact List.mem_singleton.mp kept

/-! ## What an escape is spelled with -/

theorem encodePoint_length_le (point : Nat) :
    (encodePoint point).length ≤ 4 := by
  rw [encodePoint, String.length_utf8EncodeChar]
  exact Char.utf8Size_le_four _

/-- Four digits are consumed, and none of them is a quote. -/
theorem codeUnit_eq_some
    {text rest : Bytes} {unit : Nat}
    (scanned : codeUnit text = some (unit, rest)) :
    ∃ digits, text = digits ++ rest ∧ digits.length = 4 ∧ 34 ∉ digits := by
  rw [codeUnit.eq_def] at scanned
  split at scanned
  · rename_i a b c d more
    split at scanned
    · rename_i first second third fourth firstValue secondValue thirdValue
        fourthValue
      cases scanned
      refine ⟨[a, b, c, d], rfl, rfl, ?_⟩
      have noQuote {byte : UInt8} {value : Nat}
          (digit : digitValue 16 byte = some value) : 34 ≠ byte := by
        rintro rfl
        cases digit
      simp only [List.mem_cons, List.not_mem_nil, or_false, not_or]
      exact ⟨noQuote firstValue, noQuote secondValue, noQuote thirdValue,
        noQuote fourthValue⟩
    · cases scanned
  · cases scanned

theorem codeUnit_append
    {text rest : Bytes} {unit : Nat}
    (scanned : codeUnit text = some (unit, rest)) (more : Bytes) :
    codeUnit (text ++ more) = some (unit, rest ++ more) := by
  rw [codeUnit.eq_def] at scanned
  split at scanned
  · rename_i a b c d tail
    split at scanned
    · rename_i firstValue secondValue thirdValue fourthValue
      cases scanned
      simp only [List.cons_append, codeUnit, firstValue, secondValue,
        thirdValue, fourthValue]
    · cases scanned
  · cases scanned

/-- The second half begins with a backslash and a `u`. -/
theorem lowSurrogate_eq_some
    {high : Nat} {text value rest : Bytes}
    (scanned : lowSurrogate high text = some (value, rest)) :
    ∃ more low, text = 92 :: 117 :: more ∧ codeUnit more = some (low, rest) ∧
      isLow low = true ∧ value = encodePoint (pairPoint high low) := by
  rw [lowSurrogate.eq_def] at scanned
  split at scanned
  · rename_i more
    split at scanned
    · rename_i low after unit
      split_ifs at scanned with half
      rw [Option.some.injEq, Prod.mk.injEq] at scanned
      rcases scanned with ⟨same, rfl⟩
      exact ⟨more, low, rfl, unit, half, same.symm⟩
    · cases scanned
  · cases scanned

theorem lowSurrogate_append
    {high : Nat} {text value rest : Bytes}
    (scanned : lowSurrogate high text = some (value, rest)) (more : Bytes) :
    lowSurrogate high (text ++ more) = some (value, rest ++ more) := by
  rcases lowSurrogate_eq_some scanned with
    ⟨digits, low, rfl, unit, half, same⟩
  simp only [List.cons_append, lowSurrogate, codeUnit_append unit more,
    if_pos half, same]

/-- An escape of a character is longer than the character. -/
theorem scanUnicode_eq_some
    {text value rest : Bytes}
    (scanned : scanUnicode text = some (value, rest)) :
    ∃ spelled, text = spelled ++ rest ∧ value.length ≤ spelled.length ∧
      34 ∉ spelled := by
  rw [scanUnicode] at scanned
  cases unit : codeUnit text with
  | none =>
      rw [unit] at scanned
      cases scanned
  | some result =>
      rcases result with ⟨high, after⟩
      rcases codeUnit_eq_some unit with ⟨digits, rfl, four, noQuote⟩
      simp only [unit] at scanned
      split_ifs at scanned with first second
      · rcases lowSurrogate_eq_some scanned with
          ⟨more, low, rfl, lowUnit, _, same⟩
        rcases codeUnit_eq_some lowUnit with
          ⟨lowDigits, rfl, lowFour, lowNoQuote⟩
        refine ⟨digits ++ 92 :: 117 :: lowDigits, by simp, ?_, ?_⟩
        · have short := encodePoint_length_le (pairPoint high low)
          rw [same, List.length_append, four]
          omega
        · simp only [List.mem_append, List.mem_cons, not_or]
          exact ⟨noQuote, by decide, by decide, lowNoQuote⟩
      · cases scanned
        refine ⟨digits, rfl, ?_, noQuote⟩
        rw [four]
        exact encodePoint_length_le high

theorem scanUnicode_append
    {text value rest : Bytes}
    (scanned : scanUnicode text = some (value, rest)) (more : Bytes) :
    scanUnicode (text ++ more) = some (value, rest ++ more) := by
  rw [scanUnicode] at scanned
  cases unit : codeUnit text with
  | none =>
      rw [unit] at scanned
      cases scanned
  | some result =>
      rcases result with ⟨high, after⟩
      rw [scanUnicode, codeUnit_append unit more]
      simp only [unit] at scanned ⊢
      split_ifs at scanned ⊢ with first second
      · exact lowSurrogate_append scanned more
      · cases scanned
        rfl

/-- Only the escaped quote is spelled with a quote. -/
theorem scanEscape_eq_some
    {text value rest : Bytes}
    (scanned : scanEscape text = some (value, rest)) :
    ∃ spelled, text = spelled ++ rest ∧ value.length ≤ spelled.length ∧
      (34 ∈ spelled → spelled = [34]) := by
  cases text with
  | nil => cases scanned
  | cons byte body =>
      rw [scanEscape] at scanned
      split_ifs at scanned with unicode
      · rcases scanUnicode_eq_some scanned with
          ⟨spelled, rfl, short, noQuote⟩
        refine ⟨byte :: spelled, rfl, Nat.le_succ_of_le short, ?_⟩
        intro quote
        rcases List.mem_cons.mp quote with rfl | later
        · cases unicode
        · exact absurd later noQuote
      · rcases Option.map_eq_some_iff.mp scanned with ⟨simple, _, same⟩
        cases same
        refine ⟨[byte], rfl, Nat.le_refl 1, ?_⟩
        intro quote
        rw [List.mem_singleton.mp quote]

theorem scanEscape_append
    {text value rest : Bytes}
    (scanned : scanEscape text = some (value, rest)) (more : Bytes) :
    scanEscape (text ++ more) = some (value, rest ++ more) := by
  cases text with
  | nil => cases scanned
  | cons byte body =>
      rw [scanEscape] at scanned
      rw [List.cons_append, scanEscape]
      split_ifs at scanned ⊢ with unicode
      · exact scanUnicode_append scanned more
      · rcases Option.map_eq_some_iff.mp scanned with ⟨simple, value, same⟩
        cases same
        rw [value]
        rfl

/-! ## What a string is spelled with -/

/-- One step of the scanner, as its three cases. -/
theorem scanString_cons_eq_some
    {steps : Nat} {byte : UInt8} {text value rest : Bytes}
    (scanned : scanString (steps + 1) (byte :: text) = some (value, rest)) :
    (byte = 34 ∧ value = [] ∧ rest = text) ∨
      (byte = 92 ∧ ∃ first after more,
        scanEscape text = some (first, after) ∧
          scanString steps after = some (more, rest) ∧
          value = first ++ more) ∨
      (isPlain byte = true ∧ ∃ more,
        scanString steps text = some (more, rest) ∧ value = byte :: more) := by
  rw [scanString] at scanned
  split_ifs at scanned with quote backslash control
  · cases scanned
    exact .inl ⟨quote, rfl, rfl⟩
  · right
    left
    cases escaped : scanEscape text with
    | none =>
        rw [escaped] at scanned
        cases scanned
    | some result =>
        rw [escaped] at scanned
        rcases Option.map_eq_some_iff.mp scanned with ⟨more, later, same⟩
        cases same
        exact ⟨backslash, result.1, result.2, more.1, rfl, later, rfl⟩
  · right
    right
    rcases Option.map_eq_some_iff.mp scanned with ⟨more, later, same⟩
    cases same
    refine ⟨?_, more.1, later, rfl⟩
    simp only [isPlain, Bool.and_eq_true, bne_iff_ne, decide_eq_true_eq]
    exact ⟨⟨quote, backslash⟩, UInt8.not_lt.mp control⟩

/-- What is behind the closing quote does not count. -/
theorem scanString_append (steps : Nat) :
    ∀ {text value rest : Bytes},
      scanString steps text = some (value, rest) → ∀ more : Bytes,
      scanString steps (text ++ more) = some (value, rest ++ more) := by
  induction steps with
  | zero =>
      intro text value rest scanned
      cases scanned
  | succ steps induction =>
      intro text value rest scanned more
      cases text with
      | nil => cases scanned
      | cons byte text =>
          rw [scanString] at scanned
          rw [List.cons_append, scanString]
          split_ifs at scanned ⊢ with quote backslash control
          · cases scanned
            rfl
          · cases escaped : scanEscape text with
            | none =>
                rw [escaped] at scanned
                cases scanned
            | some result =>
                rw [escaped] at scanned
                rcases Option.map_eq_some_iff.mp scanned with
                  ⟨found, later, same⟩
                cases same
                rw [scanEscape_append escaped more]
                simp only [induction later more, Option.map_some]
          · rcases Option.map_eq_some_iff.mp scanned with ⟨found, later, same⟩
            cases same
            rw [induction later more, Option.map_some]

/-- A plain text is its own value. -/
theorem scanString_of_plain
    {text : Bytes} (plain : text.all isPlain = true) (rest : Bytes) :
    ∀ steps,
      scanString steps (text ++ 34 :: rest) =
        if text.length < steps then some (text, rest) else none := by
  induction text with
  | nil =>
      intro steps
      cases steps with
      | zero => rfl
      | succ steps =>
          rw [List.nil_append, scanString, if_pos rfl, List.length_nil,
            if_pos (Nat.succ_pos _)]
  | cons byte text induction =>
      intro steps
      rw [List.all_cons, Bool.and_eq_true] at plain
      rcases plain with ⟨plainHere, plainLater⟩
      cases steps with
      | zero => rfl
      | succ steps =>
          simp only [isPlain, Bool.and_eq_true, bne_iff_ne,
            decide_eq_true_eq] at plainHere
          rcases plainHere with ⟨⟨noQuote, noBackslash⟩, printable⟩
          rw [List.cons_append, scanString, if_neg noQuote,
            if_neg noBackslash, if_neg (UInt8.not_lt.mpr printable),
            induction plainLater, List.length_cons]
          by_cases enough : text.length < steps
          · rw [if_pos enough, if_pos (Nat.succ_lt_succ enough)]
            rfl
          · rw [if_neg enough,
              if_neg (fun less => enough (Nat.lt_of_succ_lt_succ less))]
            rfl

/--
The value of a string is at most as long as its spelling, and as long only
where every byte stands for itself.
-/
theorem scanString_eq_some (steps : Nat) :
    ∀ {text value rest : Bytes},
      scanString steps text = some (value, rest) →
      ∃ spelled, text = spelled ++ 34 :: rest ∧
        value.length ≤ spelled.length ∧
        (spelled.length ≤ value.length →
          value = spelled ∧ spelled.all isPlain = true) := by
  induction steps with
  | zero =>
      intro text value rest scanned
      cases scanned
  | succ steps induction =>
      intro text value rest scanned
      cases text with
      | nil => cases scanned
      | cons byte text =>
          rcases scanString_cons_eq_some scanned with
            ⟨rfl, rfl, rfl⟩ | ⟨rfl, first, after, more, escaped, later, rfl⟩ |
              ⟨plain, more, later, rfl⟩
          · exact ⟨[], rfl, Nat.le_refl 0, fun _ => ⟨rfl, rfl⟩⟩
          · rcases scanEscape_eq_some escaped with
              ⟨escape, rfl, escapeShort, _⟩
            rcases induction later with ⟨spelled, rfl, short, _⟩
            have shorter :
                (first ++ more).length <
                  (92 :: (escape ++ spelled)).length := by
              simp only [List.length_append, List.length_cons]
              omega
            refine ⟨92 :: (escape ++ spelled), by simp, Nat.le_of_lt shorter,
              fun long => ?_⟩
            exact absurd long (Nat.not_le_of_lt shorter)
          · rcases induction later with ⟨spelled, rfl, short, exact⟩
            refine ⟨byte :: spelled, rfl, Nat.succ_le_succ short,
              fun long => ?_⟩
            rcases exact (Nat.le_of_succ_le_succ long) with ⟨same, all⟩
            rw [same, List.all_cons, plain, all]
            exact ⟨rfl, rfl⟩

/-- A string that goes on behind a quote has escaped it. -/
theorem scanString_of_long (steps : Nat) :
    ∀ {text value rest tail : Bytes},
      scanString steps (text ++ 34 :: 44 :: 34 :: tail) = some (value, rest) →
      rest.length < (44 :: 34 :: tail).length →
      text.getLast? = some 92 ∧ value.getLast? = some 44 := by
  induction steps with
  | zero =>
      intro text value rest tail scanned
      cases scanned
  | succ steps induction =>
      intro text value rest tail scanned beyond
      cases text with
      | nil =>
          rcases scanString_cons_eq_some scanned with
            ⟨_, _, rfl⟩ | ⟨impossible, _⟩ | ⟨impossible, _⟩
          · exact absurd beyond (Nat.lt_irrefl _)
          · cases impossible
          · cases impossible
      | cons byte text =>
          rw [List.cons_append] at scanned
          rcases scanString_cons_eq_some scanned with
            ⟨_, _, rfl⟩ | ⟨rfl, first, after, more, escaped, later, rfl⟩ |
              ⟨_, more, later, rfl⟩
          · rw [List.length_append, List.length_cons] at beyond
            omega
          · rcases scanEscape_eq_some escaped with
              ⟨escape, split, _, onlyQuote⟩
            rcases List.append_eq_append_iff.mp split with
              ⟨outside, rfl, restSplit⟩ | ⟨inside, rfl, rfl⟩
            · cases outside with
              | nil =>
                  rw [List.nil_append] at restSplit
                  rw [← restSplit] at later
                  rcases @induction [] more rest tail later beyond with
                    ⟨last, _⟩
                  cases last
              | cons quote outside =>
                  rw [List.cons_append, List.cons.injEq] at restSplit
                  rcases restSplit with ⟨rfl, restSplit⟩
                  have single := onlyQuote (by simp)
                  rw [List.append_eq_singleton_iff] at single
                  rcases single with ⟨rfl, same⟩ | ⟨_, impossible⟩
                  · rw [(List.cons.inj same).2, List.nil_append] at restSplit
                    have comma :=
                      scanString_of_plain
                        (show ([44] : Bytes).all isPlain = true from rfl)
                        tail steps
                    rw [List.singleton_append, restSplit, later] at comma
                    split_ifs at comma
                    cases comma
                    simp
                  · cases impossible
            · rcases induction later beyond with ⟨last, moreLast⟩
              rw [List.getLast?_cons, List.getLast?_append, last,
                List.getLast?_append, moreLast]
              exact ⟨rfl, rfl⟩
          · rcases induction later beyond with ⟨last, moreLast⟩
            rw [List.getLast?_cons, last, List.getLast?_cons, moreLast]
            exact ⟨rfl, rfl⟩

/-! ## What is behind a value -/

theorem expect_eq_some_iff
    {byte : UInt8} {text rest : Bytes} :
    expect byte text = some rest ↔
      text.dropWhile isBlank = byte :: rest := by
  rw [expect]
  cases text.dropWhile isBlank with
  | nil => simp
  | cons first later =>
      by_cases same : first = byte
      · simp [same]
      · simp [same]

theorem expect_suffix
    {byte : UInt8} {text rest : Bytes} (found : expect byte text = some rest) :
    byte :: rest <:+ text := by
  rw [← expect_eq_some_iff.mp found]
  exact List.dropWhile_suffix _

/-- A text that begins with another byte than the blanks. -/
theorem expect_cons
    {first : UInt8} (visible : isBlank first = false) (byte : UInt8)
    (rest : Bytes) :
    expect byte (first :: rest) = if first = byte then some rest else none := by
  rw [expect, List.dropWhile_cons_of_neg (by simp [visible])]

theorem scan_suffix (radix : Nat) (text : Bytes) :
    (scan radix text).2 <:+ text := by
  induction text with
  | nil => exact List.suffix_refl []
  | cons byte text induction =>
      rw [scan]
      cases digitValue radix byte with
      | none => exact List.suffix_refl _
      | some digit => exact induction.trans (List.suffix_cons byte text)

theorem scanSign_suffix (text : Bytes) :
    (CNumber.scanSign text).2 <:+ text := by
  cases text with
  | nil => exact List.suffix_refl []
  | cons byte text =>
      rw [CNumber.scanSign]
      split_ifs
      · exact List.suffix_cons byte text
      · exact List.suffix_cons byte text
      · exact List.suffix_refl _

theorem scanExponent_suffix (marker : UInt8) (text : Bytes) :
    (CNumber.scanExponent marker text).2 <:+ text := by
  cases text with
  | nil => exact List.suffix_refl []
  | cons byte text =>
      have digits :=
        ((scan_suffix 10 _).trans (scanSign_suffix text)).trans
          (List.suffix_cons byte text)
      simp only [CNumber.scanExponent]
      split_ifs
      · exact List.suffix_refl _
      · exact digits
      · exact digits
      · exact List.suffix_refl _

theorem scanNumber_suffix
    {text rest : Bytes} {number : JsonNumber}
    (scanned : JsonNumber.scanNumber text = some (number, rest)) :
    rest <:+ text := by
  have minus : (JsonNumber.scanMinus text).2 <:+ text := by
    rw [JsonNumber.scanMinus.eq_def]
    split
    · exact List.suffix_cons _ _
    · exact List.suffix_refl _
  have whole (body : Bytes) : (JsonNumber.scanWhole body).2 <:+ body := by
    rw [JsonNumber.scanWhole.eq_def]
    split
    · exact List.suffix_cons _ _
    · exact scan_suffix 10 body
  have fraction (body : Bytes) :
      (JsonNumber.scanFraction body).2 <:+ body := by
    rw [JsonNumber.scanFraction.eq_def]
    split
    · split_ifs
      · exact List.suffix_refl _
      · exact (scan_suffix 10 _).trans (List.suffix_cons _ _)
    · exact List.suffix_refl _
  simp only [JsonNumber.scanNumber] at scanned
  split_ifs at scanned
  cases scanned
  exact (scanExponent_suffix 101 _).trans
    ((fraction _).trans ((whole _).trans minus))

theorem scanString_suffix
    {steps : Nat} {text value rest : Bytes}
    (scanned : scanString steps text = some (value, rest)) : rest <:+ text := by
  rcases scanString_eq_some steps scanned with ⟨spelled, rfl, _⟩
  exact ⟨spelled ++ [34], by simp⟩

theorem parseAtom_suffix
    {text rest : Bytes} {value : Json}
    (parsed : parseAtom text = some (value, rest)) : rest <:+ text := by
  rw [parseAtom] at parsed
  split_ifs at parsed
  · cases parsed
    exact List.drop_suffix 4 text
  · cases parsed
    exact List.drop_suffix 4 text
  · cases parsed
    exact List.drop_suffix 5 text
  · rcases Option.map_eq_some_iff.mp parsed with ⟨result, scanned, same⟩
    cases same
    exact scanNumber_suffix scanned

/-- A member, and what is behind it: a comma with more, or the brace. -/
theorem parseMembers_eq_some
    {steps : Nat} {text rest : Bytes} {members : List (Bytes × Json)}
    (parsed : parseMembers (steps + 1) text = some (members, rest)) :
    ∃ body name afterName valueText value afterValue,
      expect 34 text = some body ∧
        scanString steps body = some (name, afterName) ∧
        expect 58 afterName = some valueText ∧
        parseValue steps valueText = some (value, afterValue) ∧
        ((∃ more later, expect 44 afterValue = some more ∧
            parseMembers steps more = some (later, rest) ∧
            members = (name, value) :: later) ∨
          (expect 125 afterValue = some rest ∧
            members = [(name, value)])) := by
  rw [parseMembers] at parsed
  simp only [Option.bind_eq_bind, Option.bind_eq_some_iff] at parsed
  rcases parsed with ⟨body, opened, ⟨name, afterName⟩, named, valueText, colon,
    ⟨value, afterValue⟩, valued, behind⟩
  refine ⟨body, name, afterName, valueText, value, afterValue, opened, named,
    colon, valued, ?_⟩
  cases comma : expect 44 afterValue with
  | some more =>
      simp only [comma, Option.bind_eq_some_iff] at behind
      rcases behind with ⟨⟨later, last⟩, parsedLater, same⟩
      cases same
      exact .inl ⟨more, later, rfl, parsedLater, rfl⟩
  | none =>
      simp only [comma, Option.bind_eq_some_iff] at behind
      rcases behind with ⟨last, brace, same⟩
      cases same
      exact .inr ⟨brace, rfl⟩

theorem parseElements_eq_some
    {steps : Nat} {text rest : Bytes} {elements : List Json}
    (parsed : parseElements (steps + 1) text = some (elements, rest)) :
    ∃ value afterValue,
      parseValue steps text = some (value, afterValue) ∧
        ((∃ more later, expect 44 afterValue = some more ∧
            parseElements steps more = some (later, rest) ∧
            elements = value :: later) ∨
          (expect 93 afterValue = some rest ∧ elements = [value])) := by
  rw [parseElements] at parsed
  simp only [Option.bind_eq_bind, Option.bind_eq_some_iff] at parsed
  rcases parsed with ⟨⟨value, afterValue⟩, valued, behind⟩
  refine ⟨value, afterValue, valued, ?_⟩
  cases comma : expect 44 afterValue with
  | some more =>
      simp only [comma, Option.bind_eq_some_iff] at behind
      rcases behind with ⟨⟨later, last⟩, parsedLater, same⟩
      cases same
      exact .inl ⟨more, later, rfl, parsedLater, rfl⟩
  | none =>
      simp only [comma, Option.bind_eq_some_iff] at behind
      rcases behind with ⟨last, bracket, same⟩
      cases same
      exact .inr ⟨bracket, rfl⟩

/-- What is behind a found byte is behind the text, too. -/
theorem suffix_of_expect
    {byte : UInt8} {text body rest : Bytes}
    (found : expect byte text = some body) (later : rest <:+ body) :
    rest <:+ text :=
  (later.trans (List.suffix_cons byte body)).trans (expect_suffix found)

/-- The parser leaves the end of its text, whatever it has found. -/
theorem parse_suffix (steps : Nat) :
    (∀ {text rest : Bytes} {value : Json},
        parseValue steps text = some (value, rest) → rest <:+ text) ∧
      (∀ {text rest : Bytes} {members : List (Bytes × Json)},
        parseMembers steps text = some (members, rest) → rest <:+ text) ∧
      ∀ {text rest : Bytes} {elements : List Json},
        parseElements steps text = some (elements, rest) → rest <:+ text := by
  induction steps with
  | zero =>
      refine ⟨?_, ?_, ?_⟩
      · intro text rest value parsed
        rw [parseValue] at parsed
        cases parsed
      · intro text rest members parsed
        rw [parseMembers] at parsed
        cases parsed
      · intro text rest elements parsed
        rw [parseElements] at parsed
        cases parsed
  | succ steps induction =>
      rcases induction with ⟨inValue, inMembers, inElements⟩
      refine ⟨?_, ?_, ?_⟩
      · intro text rest value parsed
        rw [parseValue] at parsed
        split at parsed
        · rename_i body quote
          rcases Option.map_eq_some_iff.mp parsed with ⟨result, scanned, same⟩
          cases same
          exact suffix_of_expect quote (scanString_suffix scanned)
        · split at parsed
          · rename_i body brace
            split at parsed
            · rename_i last close
              cases parsed
              exact suffix_of_expect brace
                (suffix_of_expect close (List.suffix_refl _))
            · rcases Option.map_eq_some_iff.mp parsed with
                ⟨result, found, same⟩
              cases same
              exact suffix_of_expect brace (inMembers found)
          · split at parsed
            · rename_i body bracket
              split at parsed
              · rename_i last close
                cases parsed
                exact suffix_of_expect bracket
                  (suffix_of_expect close (List.suffix_refl _))
              · rcases Option.map_eq_some_iff.mp parsed with
                  ⟨result, found, same⟩
                cases same
                exact suffix_of_expect bracket (inElements found)
            · exact (parseAtom_suffix parsed).trans (List.dropWhile_suffix _)
      · intro text rest members parsed
        rcases parseMembers_eq_some parsed with
          ⟨body, name, afterName, valueText, value, afterValue, quote, named,
            colon, valued, behind⟩
        have last : rest <:+ afterValue := by
          rcases behind with ⟨more, later, comma, found, _⟩ | ⟨brace, _⟩
          · exact suffix_of_expect comma (inMembers found)
          · exact suffix_of_expect brace (List.suffix_refl _)
        exact suffix_of_expect quote
          ((suffix_of_expect colon (last.trans (inValue valued))).trans
            (scanString_suffix named))
      · intro text rest elements parsed
        rcases parseElements_eq_some parsed with
          ⟨value, afterValue, valued, behind⟩
        have last : rest <:+ afterValue := by
          rcases behind with ⟨more, later, comma, found, _⟩ | ⟨bracket, _⟩
          · exact suffix_of_expect comma (inElements found)
          · exact suffix_of_expect bracket (List.suffix_refl _)
        exact last.trans (inValue valued)

/-- Members end with a brace. -/
theorem brace_mem_of_parseMembers (steps : Nat) :
    ∀ {text rest : Bytes} {members : List (Bytes × Json)},
      parseMembers steps text = some (members, rest) → 125 ∈ text := by
  induction steps with
  | zero =>
      intro text rest members parsed
      rw [parseMembers] at parsed
      cases parsed
  | succ steps induction =>
      intro text rest members parsed
      rcases parseMembers_eq_some parsed with
        ⟨body, name, afterName, valueText, value, afterValue, quote, named,
          colon, valued, behind⟩
      have later : afterValue <:+ text :=
        suffix_of_expect quote
          ((suffix_of_expect colon ((parse_suffix steps).1 valued)).trans
            (scanString_suffix named))
      rcases behind with ⟨more, _, comma, found, _⟩ | ⟨brace, _⟩
      · exact later.mem ((suffix_of_expect comma (List.suffix_refl _)).mem
          (induction found))
      · exact later.mem
          ((expect_suffix brace).mem (List.mem_cons_self ..))

/-! ## Members that are strings, and numbers -/

theorem parseValue_quote (steps : Nat) (body : Bytes) :
    parseValue (steps + 1) (34 :: body) =
      (scanString steps body).map fun result =>
        (string result.1, result.2) := by
  rw [parseValue, expect_cons (by decide), if_pos rfl]

/-- A member with a plain name and a string, from its opening quote on. -/
theorem parseMembers_string_eq_some
    {steps : Nat} {name tail rest : Bytes} {members : List (Bytes × Json)}
    (plain : name.all isPlain = true)
    (parsed :
      parseMembers steps (34 :: (name ++ 34 :: 58 :: 34 :: tail)) =
        some (members, rest)) :
    ∃ bound fewer value behind,
      scanString bound tail = some (value, behind) ∧
        ((∃ more later, expect 44 behind = some more ∧
            parseMembers fewer more = some (later, rest) ∧
            members = (name, string value) :: later) ∨
          (expect 125 behind = some rest ∧
            members = [(name, string value)])) := by
  cases steps with
  | zero =>
      rw [parseMembers] at parsed
      cases parsed
  | succ steps =>
      rcases parseMembers_eq_some parsed with
        ⟨body, found, afterName, valueText, value, afterValue, quote, named,
          colon, valued, behind⟩
      rw [expect_cons (by decide), if_pos rfl] at quote
      cases quote
      rw [scanString_of_plain plain] at named
      split_ifs at named
      cases named
      rw [expect_cons (by decide), if_pos rfl] at colon
      cases colon
      cases steps with
      | zero =>
          rw [parseValue] at valued
          cases valued
      | succ steps =>
          rw [parseValue_quote] at valued
          rcases Option.map_eq_some_iff.mp valued with
            ⟨result, scanned, same⟩
          cases same
          exact ⟨steps, steps + 1, result.1, result.2, scanned, behind⟩

/-- Such a member is parsed where there are steps enough. -/
theorem parseMembers_string
    {steps : Nat} {name tail value behind more rest : Bytes}
    {later : List (Bytes × Json)}
    (plain : name.all isPlain = true) (short : name.length < steps + 1)
    (scanned : scanString steps tail = some (value, behind))
    (comma : expect 44 behind = some more)
    (parsed : parseMembers (steps + 1) more = some (later, rest)) :
    parseMembers (steps + 2) (34 :: (name ++ 34 :: 58 :: 34 :: tail)) =
      some ((name, string value) :: later, rest) := by
  rw [parseMembers, expect_cons (by decide), if_pos rfl]
  simp only [Option.bind_eq_bind, Option.bind_some]
  rw [scanString_of_plain plain, if_pos short]
  simp only [Option.bind_some]
  rw [expect_cons (by decide), if_pos rfl]
  simp only [Option.bind_some, parseValue_quote, scanned, Option.map_some,
    comma, parsed]

/-- A number begins with a minus sign or a digit. -/
theorem scanNumber_head
    {text rest : Bytes} {number : JsonNumber}
    (scanned : JsonNumber.scanNumber text = some (number, rest)) :
    ∃ byte more, text = byte :: more ∧
      (byte = 45 ∨ (digitValue 10 byte).isSome = true) := by
  cases text with
  | nil => cases scanned
  | cons byte more =>
      refine ⟨byte, more, rfl, ?_⟩
      by_contra neither
      rw [not_or, Option.not_isSome_iff_eq_none] at neither
      rcases neither with ⟨noMinus, noDigit⟩
      have minus :
          JsonNumber.scanMinus (byte :: more) = (false, byte :: more) := by
        rw [JsonNumber.scanMinus]
        intro other same
        exact noMinus (List.cons.inj same).1
      have whole :
          JsonNumber.scanWhole (byte :: more) = ([], byte :: more) := by
        rw [JsonNumber.scanWhole_of_ne]
        · exact ends_cons noDigit
        · rw [List.head?_cons, ne_eq, Option.some.injEq]
          rintro rfl
          cases noDigit
      simp only [JsonNumber.scanNumber, minus, whole, if_true] at scanned
      cases scanned

theorem parseValue_number
    {text rest : Bytes} {number : JsonNumber}
    (scanned : JsonNumber.scanNumber text = some (number, rest))
    (steps : Nat) :
    parseValue (steps + 1) text = some (.number number, rest) := by
  have kinds :
      ∀ byte, byte = 45 ∨ (digitValue 10 byte).isSome = true →
        isBlank byte = false ∧ byte ≠ 34 ∧ byte ≠ 123 ∧ byte ≠ 91 ∧
          byte ≠ 110 ∧ byte ≠ 116 ∧ byte ≠ 102 :=
    forall_byte (by decide +kernel)
  rcases scanNumber_head scanned with ⟨byte, more, rfl, first⟩
  rcases kinds byte first with
    ⟨visible, noQuote, noBrace, noBracket, noNull, noTrue, noFalse⟩
  have word (letter : UInt8) (letters : Bytes) (other : byte ≠ letter) :
      (letter :: letters).isPrefixOf (byte :: more) = false := by
    simp [List.isPrefixOf, Ne.symm other]
  have noWord :
      (ascii "null").isPrefixOf (byte :: more) = false ∧
        (ascii "true").isPrefixOf (byte :: more) = false ∧
        (ascii "false").isPrefixOf (byte :: more) = false :=
    ⟨word _ _ noNull, word _ _ noTrue, word _ _ noFalse⟩
  rw [parseValue, expect_cons visible, if_neg noQuote, expect_cons visible,
    if_neg noBrace, expect_cons visible, if_neg noBracket]
  simp only
  rw [List.dropWhile_cons_of_neg (by simp [visible]), parseAtom]
  simp only [noWord, Bool.false_eq_true, if_false, scanned, Option.map_some]

/-! ## UTF-8 -/

/-- A character is one small byte or several large ones. -/
theorem utf8EncodeChar_small_or_large (character : Char) :
    (∃ byte < 128, String.utf8EncodeChar character = [byte]) ∨
      ∀ byte ∈ String.utf8EncodeChar character, 128 ≤ byte := by
  have large (part : Nat) {mark limit : Nat} (high : 128 ≤ mark)
      (fits : mark + limit ≤ 256) (positive : 0 < limit) :
      128 ≤ UInt8.ofNat (part % limit + mark) := by
    have remainder := Nat.mod_lt part positive
    have byteSize : part % limit + mark < 256 := by omega
    rw [UInt8.le_iff_toNat_le, UInt8.toNat_ofNat_of_lt' byteSize]
    exact Nat.le_add_left_of_le high
  simp only [String.utf8EncodeChar]
  split_ifs with one two three
  · refine .inl ⟨_, ?_, rfl⟩
    have byteSize : character.val.toNat < 256 := by omega
    rw [UInt8.lt_iff_toNat_lt, UInt8.toNat_ofNat_of_lt' byteSize]
    exact Nat.lt_succ_of_le one
  · right
    simp only [List.mem_cons, List.not_mem_nil, or_false]
    rintro byte (rfl | rfl)
    · exact large _ (by decide) (by decide) (by decide)
    · exact large _ (by decide) (by decide) (by decide)
  · right
    simp only [List.mem_cons, List.not_mem_nil, or_false]
    rintro byte (rfl | rfl | rfl)
    · exact large _ (by decide) (by decide) (by decide)
    · exact large _ (by decide) (by decide) (by decide)
    · exact large _ (by decide) (by decide) (by decide)
  · right
    simp only [List.mem_cons, List.not_mem_nil, or_false]
    rintro byte (rfl | rfl | rfl | rfl)
    · exact large _ (by decide) (by decide) (by decide)
    · exact large _ (by decide) (by decide) (by decide)
    · exact large _ (by decide) (by decide) (by decide)
    · exact large _ (by decide) (by decide) (by decide)

theorem ValidUtf8.append
    {left right : Bytes} (leftValid : ValidUtf8 left)
    (rightValid : ValidUtf8 right) : ValidUtf8 (left ++ right) := by
  rcases leftValid with ⟨leftCharacters, rfl⟩
  rcases rightValid with ⟨rightCharacters, rfl⟩
  exact ⟨leftCharacters ++ rightCharacters, by rw [List.flatMap_append]⟩

/-- Small bytes are characters. -/
theorem validUtf8_of_small
    {bytes : Bytes} (small : ∀ byte ∈ bytes, byte < 128) :
    ValidUtf8 bytes := by
  have table :
      ∀ n < 128, String.utf8EncodeChar (Char.ofNat n) = [UInt8.ofNat n] := by
    decide +kernel
  refine ⟨bytes.map fun byte => Char.ofNat byte.toNat, ?_⟩
  induction bytes with
  | nil => rfl
  | cons byte bytes induction =>
      rcases List.forall_mem_cons.mp small with ⟨smallHere, smallLater⟩
      have character :=
        table byte.toNat (UInt8.lt_iff_toNat_lt.mp smallHere)
      rw [UInt8.ofNat_toNat] at character
      rw [List.map_cons, List.flatMap_cons, character,
        ← induction smallLater]
      rfl

/-- A small byte stands between characters. -/
theorem ValidUtf8.of_append_cons
    {left right : Bytes} {byte : UInt8} (small : byte < 128)
    (valid : ValidUtf8 (left ++ byte :: right)) :
    ValidUtf8 left ∧ ValidUtf8 right := by
  rcases valid with ⟨characters, split⟩
  induction characters generalizing left with
  | nil => simp at split
  | cons character characters induction =>
      rw [List.flatMap_cons] at split
      rcases List.append_eq_append_iff.mp split.symm with
        ⟨more, leftSplit, restSplit⟩ | ⟨inside, encoded, behind⟩
      · rcases induction restSplit.symm with ⟨moreValid, rightValid⟩
        rw [leftSplit]
        exact ⟨.append ⟨[character], by simp⟩ moreValid, rightValid⟩
      · cases inside with
        | nil =>
            rw [List.append_nil] at encoded
            rw [List.nil_append] at behind
            have later := @induction [] (by rw [List.nil_append, behind])
            exact ⟨⟨[character], by simp [encoded]⟩, later.2⟩
        | cons first inside =>
            rw [List.cons_append, List.cons.injEq] at behind
            rcases behind with ⟨rfl, behind⟩
            rcases utf8EncodeChar_small_or_large character with
              ⟨only, _, single⟩ | large
            · rw [single] at encoded
              rcases List.append_eq_singleton_iff.mp encoded.symm with
                ⟨rfl, same⟩ | ⟨_, impossible⟩
              · rw [(List.cons.inj same).2, List.nil_append] at behind
                exact ⟨⟨[], rfl⟩, ⟨characters, behind⟩⟩
              · cases impossible
            · have tooLarge := large byte (by rw [encoded]; simp)
              exact absurd small (UInt8.not_lt.mpr tooLarge)

end Json

end AccelObserver.Library
