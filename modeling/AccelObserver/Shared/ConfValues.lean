import AccelObserver.Shared.ConfComments
import AccelObserver.Shared.ConfDocument
import AccelObserver.Shared.ConfPieces
import Mathlib.Data.List.TakeDrop

/-!
# The value that is stored for a line

A line with a key is read with its first piece, and stores what `conf_load`
finds behind the equals sign.  `stores_bareValue_iff` says when that is the
value that the layout comment of `confparser.h` promises, for an unquoted
value with or without a comment; `quoted_comment_is_stored` says that a
comment behind a quoted value is stored with it.
-/

namespace AccelObserver.Shared.ConfValues

open AccelObserver.Library
open AccelObserver.Library.CNumber (isSpace)
open AccelObserver.Library.CString
open AccelObserver.Shared.ConfParser
open AccelObserver.Shared.ConfDocument (cutNewline_of_plain)
open AccelObserver.Shared.ConfLookup (newEntry)
open AccelObserver.Shared.ConfPieces
open AccelObserver.Shared.ConfComments

/-! ## A line with a key -/

/-- A text that can stand in front of an equals sign. -/
structure SettingKey where
  text : Bytes
  ne_nil : text ≠ []
  bare : Bare text
  bytes : ∀ byte ∈ text, byte ∉ ([61, 13, 10, 0] : Bytes)
  first : ∀ byte ∈ text.head?, byte ∉ ([35, 59, 91] : Bytes)

/-- The key, and an equals sign behind a blank. -/
def SettingKey.front (key : SettingKey) : Bytes :=
  key.text ++ [32, 61]

/-- What is behind a line: the end of the file, or the lines that follow. -/
def ending : Option Bytes → Bytes
  | none => []
  | some more => 10 :: more

/-- The entry that the loop adds next, when it comes to the line. -/
def storedFor
    (sourceName : Option Bytes) (loader : Loader) (line : Bytes)
    (behind : Option Bytes) : Option ConfEntry :=
  (loadLoop sourceName (line ++ ending behind).length loader
    (line ++ ending behind)).entries[loader.conf.entries.length]?

/-- A piece of a line ends with the line, or where the buffer is full. -/
theorem takeLine_ending
    {line : Bytes} (oneLine : 10 ∉ line) (behind : Option Bytes) (room : Nat) :
    ∃ feed,
      (feed = [] ∨ feed = [10]) ∧
        (takeLine room (line ++ ending behind)).1 = line.take room ++ feed := by
  induction line generalizing room with
  | nil =>
      cases room with
      | zero => exact ⟨[], Or.inl rfl, rfl⟩
      | succ room =>
          cases behind with
          | none => exact ⟨[], Or.inl rfl, rfl⟩
          | some more => exact ⟨[10], Or.inr rfl, rfl⟩
  | cons c line induction =>
      simp only [List.mem_cons, not_or] at oneLine
      cases room with
      | zero => exact ⟨[], Or.inl rfl, rfl⟩
      | succ room =>
          rcases induction oneLine.2 room with ⟨feed, isFeed, taken⟩
          refine ⟨feed, isFeed, ?_⟩
          rw [List.cons_append, takeLine, if_neg (Ne.symm oneLine.1),
            List.take_succ_cons, List.cons_append, ← taken]

/-- A text without line ends is not cut. -/
theorem cutNewline_append_feed
    {text feed : Bytes} (plain : ∀ byte ∈ text, byte ∉ ([13, 10, 0] : Bytes))
    (isFeed : feed = [] ∨ feed = [10]) : cutNewline (text ++ feed) = text := by
  rcases isFeed with rfl | rfl
  · have noNul : cText text = text :=
      cText_of_not_mem fun member => plain 0 member (by simp)
    rw [List.append_nil, cutNewline, noNul, List.takeWhile_eq_self_iff]
    intro byte member
    have := plain byte member
    simp only [List.mem_cons, not_or] at this
    simp [this.1, this.2.1]
  · exact cutNewline_of_plain plain

/-- The first piece of a line. -/
theorem pieces_line
    {line : Bytes} (notEmpty : line ≠ [])
    (plain : ∀ byte ∈ line, byte ∉ ([13, 10, 0] : Bytes))
    (behind : Option Bytes) :
    ∃ piece more,
      pieces (line ++ ending behind).length (line ++ ending behind) =
          piece :: more ∧
        cutNewline piece = line.take 1023 := by
  have oneLine : 10 ∉ line := fun member => by
    simpa using plain 10 member
  rcases takeLine_ending oneLine behind 1023 with ⟨feed, isFeed, taken⟩
  cases line with
  | nil => exact absurd rfl notEmpty
  | cons c line =>
      refine ⟨_, _, rfl, ?_⟩
      change cutNewline (takeLine 1023 (c :: line ++ ending behind)).1 = _
      rw [taken]
      refine cutNewline_append_feed ?_ isFeed
      intro byte member
      exact plain byte (List.mem_of_mem_take member)

/-- What the loop adds next is what the pieces store first. -/
theorem storedFor_eq
    {loader : Loader} (room : loader.conf.entries.length < confMaxEntries)
    (sourceName : Option Bytes) (line : Bytes) (behind : Option Bytes) :
    storedFor sourceName loader line behind =
      (settings loader.curSection loader.lineN
        (pieces (line ++ ending behind).length
          (line ++ ending behind))).head? := by
  rw [storedFor, loadLoop_eq_runPieces, entries_runPieces,
    List.getElem?_append_right (Nat.le_refl _), Nat.sub_self,
    ← List.head?_eq_getElem?, List.head?_take,
    if_neg (Nat.sub_ne_zero_of_lt room)]

section Piece

variable {key : SettingKey} {piece read : Bytes}

theorem SettingKey.front_eq_cons (key : SettingKey) :
    ∃ c rest,
      key.text = c :: rest ∧ isSpace c = false ∧
        ¬ (isCommentMark c = true ∨ c = 91) := by
  cases split : key.text with
  | nil => exact absurd split key.ne_nil
  | cons c rest =>
      have head : c ∈ key.text.head? := by rw [split]; rfl
      have first := key.first c head
      simp only [List.mem_cons, List.not_mem_nil, or_false, not_or] at first
      refine ⟨c, rest, rfl, key.bare.front c head, ?_⟩
      simp [isCommentMark, first.1, first.2.1, first.2.2]

/-- There is no equals sign before the one behind the key. -/
theorem SettingKey.noEquals (key : SettingKey) :
    ∀ byte ∈ key.text ++ [32], (byte != 61) = true := by
  intro byte member
  rcases List.mem_append.mp member with inKey | atEnd
  · have other := key.bytes byte inKey
    rw [List.mem_cons, not_or] at other
    exact bne_iff_ne.mpr other.1
  · rw [List.mem_singleton.mp atEnd]
    decide

/-- A buffer that ends before it holds none. -/
theorem SettingKey.noEquals_take
    (key : SettingKey) (long : 1023 < key.front.length) (raw : Bytes) :
    61 ∉ key.front.take 1023 ++ raw.take (1023 - key.front.length) := by
  have split : key.front = (key.text ++ [32]) ++ [61] := by
    simp [SettingKey.front]
  have fits : 1023 ≤ (key.text ++ [32]).length := by
    rw [split, List.length_append, List.length_singleton] at long
    omega
  rw [Nat.sub_eq_zero_of_le (Nat.le_of_lt long), List.take_zero,
    List.append_nil, split, List.take_append_of_le_length fits]
  intro member
  have other := key.noEquals 61 (List.mem_of_mem_take member)
  simp at other

/-- A piece with the equals sign is a setting. -/
theorem pieceSetting_of_front
    (cut : cutNewline piece = key.front ++ read) :
    pieceSetting piece =
      some (key.text, strUnquote (stripComment (trim read))) := by
  rcases key.front_eq_cons with ⟨c, rest, split, space, noMark⟩
  have trimmed :
      trim (cutNewline piece) =
        (key.text ++ [32]) ++ 61 :: read.rdropWhile isSpace := by
    have front :
        (key.text ++ [32]).dropWhile isSpace = key.text ++ [32] := by
      rw [split, List.cons_append,
        List.dropWhile_cons_of_neg (by simp [space])]
    have whole :
        cutNewline piece = (key.text ++ [32]) ++ 61 :: read := by
      rw [cut, SettingKey.front]
      simp
    rw [whole, trim_append_cons (by decide), front]
  have keyRaw :
      trim ((trim (cutNewline piece)).takeWhile (· != 61)) = key.text := by
    rw [trimmed, takeWhile_append_cons key.noEquals (by decide),
      trim_append_space (List.forall_mem_singleton.mpr rfl),
      trim_bare key.bare]
  have valRaw :
      trim (((trim (cutNewline piece)).dropWhile (· != 61)).drop 1) =
        trim read := by
    rw [trimmed, dropWhile_append_of_head key.noEquals (by simp),
      List.drop_one, List.tail_cons, trim_rdropWhile]
  have equals : 61 ∈ trim (cutNewline piece) := by
    rw [trimmed]
    simp
  have begins :
      trim (cutNewline piece) =
        c :: (rest ++ [32] ++ 61 :: read.rdropWhile isSpace) := by
    rw [trimmed, split]
    simp
  rw [pieceSetting]
  split
  case h_1 empty =>
    rw [begins] at empty
    cases empty
  case h_2 other more found =>
    rw [begins] at found
    cases found
    simp only [if_neg noMark, if_pos equals, keyRaw, valRaw,
      if_neg key.ne_nil]

/-- A piece without an equals sign is not. -/
theorem pieceSetting_of_noEquals (noEquals : 61 ∉ cutNewline piece) :
    pieceSetting piece = none := by
  have notIn : 61 ∉ trim (cutNewline piece) :=
    fun member => noEquals (mem_of_mem_trim member)
  rw [pieceSetting]
  split
  · rfl
  · simp only [if_neg notIn]
    split_ifs
    · rfl
    · rfl

end Piece

/-! ## Unquoted values -/

/-- What stands behind the equals sign of an unquoted value. -/
structure RawText where
  text : Bytes
  bytes : ∀ byte ∈ text, byte ∉ ([13, 10, 0] : Bytes)
  unquoted : (trim text).head? ≠ some 34

/-- A line with a key and what stands behind its equals sign. -/
def settingLine (key : SettingKey) (raw : RawText) : Bytes :=
  key.front ++ raw.text

/-- The part of it that the first piece of the line holds. -/
def readPart (key : SettingKey) (raw : RawText) : Bytes :=
  raw.text.take (1023 - key.front.length)

/--
The buffer reaches beyond the equals sign, the value fits its own buffer and
ends within the first piece, and the comment in that piece, if it has one, is
begun by its first mark, with more than blanks in front of it.  (A comment
that follows a value of the full 511 bytes is cut off by the copy.)
-/
def CommentSeen (key : SettingKey) (raw : RawText) : Prop :=
  key.front.length ≤ 1023 ∧
    (bareValue raw.text).length ≤ 511 ∧
    bareValue (readPart key raw) = bareValue raw.text ∧
    (HasComment (readPart key raw) →
      FirstMarkEnds (readPart key raw) ∨
        (bareValue raw.text).length = 511)

instance (key : SettingKey) (raw : RawText) : Decidable (CommentSeen key raw) :=
  inferInstanceAs (Decidable (_ ∧ _ ∧ _ ∧ (_ → _)))

theorem strUnquote_of_unquoted
    {value : Bytes} (unquoted : value.head? ≠ some 34) :
    strUnquote value = value :=
  if_neg fun quoted => unquoted quoted.2.1

/-- The beginning of an unquoted text is unquoted. -/
theorem head_ne_of_begins
    {front whole : Bytes} (begins : front <+: whole)
    (unquoted : whole.head? ≠ some 34) : front.head? ≠ some 34 := by
  rcases begins with ⟨rest, rfl⟩
  cases front with
  | nil => simp
  | cons c front => simpa using unquoted

/-- The first bytes of a text are a prefix of it of their own length. -/
theorem take_eq_iff_of_begins
    {value whole : Bytes} (front : value <+: whole)
    (shorter : value.length < whole.length) (room : Nat) :
    whole.take room = value ↔ value.length = room := by
  constructor
  · intro same
    have lengths := congrArg List.length same
    rw [List.length_take] at lengths
    omega
  · rintro rfl
    exact (List.prefix_iff_eq_take.mp front).symm

section StoredValue

variable {read rest : Bytes}

/-- A comment in the piece: which value is stored. -/
theorem stored_of_comment
    (comment : HasComment read)
    (unquoted : (trim (read ++ rest)).head? ≠ some 34) :
    (strUnquote (stripComment (trim read))).take 511 =
        bareValue (read ++ rest) ↔
      (bareValue (read ++ rest)).length ≤ 511 ∧
        (FirstMarkEnds read ∨ (bareValue (read ++ rest)).length = 511) := by
  have unquotedRead :=
    head_ne_of_begins (trim_prefix_append read rest) unquoted
  have sameValue : bareValue (read ++ rest) = bareValue read := by
    rw [bareValue, uncommented_append_of_comment comment, bareValue]
  rcases bareValue_of_comment comment with ⟨front, shorter⟩
  rw [sameValue]
  by_cases ends : FirstMarkEnds read
  · rw [stripComment_of_firstMarkEnds comment ends unquotedRead,
      strUnquote_of_unquoted (head_ne_of_begins front unquotedRead),
      List.take_eq_self_iff]
    exact (and_iff_left (Or.inl ends)).symm
  · rw [stripComment_of_not_firstMarkEnds ends unquotedRead,
      strUnquote_of_unquoted unquotedRead,
      take_eq_iff_of_begins front shorter]
    constructor
    · intro full
      exact ⟨Nat.le_of_eq full, Or.inr full⟩
    · rintro ⟨_, ends' | full⟩
      · exact absurd ends' ends
      · exact full

/-- No comment in the piece. -/
theorem stored_of_plain
    (plain : ¬ HasComment read)
    (unquoted : (trim (read ++ rest)).head? ≠ some 34) :
    (strUnquote (stripComment (trim read))).take 511 =
        bareValue (read ++ rest) ↔
      (bareValue (read ++ rest)).length ≤ 511 ∧
        bareValue read = bareValue (read ++ rest) := by
  have unquotedRead :=
    head_ne_of_begins (trim_prefix_append read rest) unquoted
  have isTrim : bareValue read = trim read := by
    rw [bareValue, not_not.mp plain]
  have front : bareValue read <+: bareValue (read ++ rest) := by
    rcases uncommented_append_of_plain plain rest with ⟨more, split⟩
    rw [isTrim, bareValue, ← split]
    exact trim_prefix_append read more
  rw [stripComment_of_plain plain unquotedRead, strUnquote_of_unquoted]
  · constructor
    · intro same
      have bound : (bareValue (read ++ rest)).length ≤ 511 := by
        rw [← same]
        exact List.length_take_le _ _
      refine ⟨bound, front.eq_of_length_le ?_⟩
      rw [← same]
      exact List.length_take_le' _ _
    · rintro ⟨bound, same⟩
      rw [same, List.take_of_length_le bound]
  · rw [isTrim]
    exact unquotedRead

end StoredValue

/-- The entry that the layout promises for a line. -/
def promisedEntry (loader : Loader) (key : SettingKey) (value : Bytes) :
    ConfEntry where
  sectionName := copyInto confMaxSection loader.curSection
  key := lower (copyInto confMaxKey key.text)
  value := value
  lineN := loader.lineN + 1

/-- The first entry of what is stored, and the number of its line. -/
theorem head_settings_of_none
    {curSection piece : Bytes} {lineN : Nat} {more : List Bytes}
    (noSetting : pieceSetting piece = none) {e : ConfEntry}
    (first : (settings curSection lineN (piece :: more)).head? = some e) :
    lineN + 1 < e.lineN := by
  rw [settings, noSetting] at first
  exact lineN_of_mem_settings (List.mem_of_mem_head? first)

theorem head_settings_of_some
    {curSection piece key value : Bytes}
    (setting : pieceSetting piece = some (key, value)) (lineN : Nat)
    (more : List Bytes) :
    (settings curSection lineN (piece :: more)).head? =
      some (newEntry curSection key value (lineN + 1)) := by
  rw [settings, setting]
  rfl

theorem settingLine_plain (key : SettingKey) (raw : RawText) :
    ∀ byte ∈ settingLine key raw, byte ∉ ([13, 10, 0] : Bytes) := by
  intro byte member
  rw [settingLine, SettingKey.front, List.append_assoc, List.mem_append,
    List.mem_append] at member
  rcases member with inKey | inSign | inRaw
  · exact fun other => key.bytes byte inKey (List.mem_cons_of_mem _ other)
  · simp only [List.mem_cons, List.not_mem_nil, or_false] at inSign
    rcases inSign with rfl | rfl
    · decide
    · decide
  · exact raw.bytes byte inRaw

/--
The loop stores what the layout promises for an unquoted value, which is the
trimmed part in front of the first mark behind white space, exactly when it
sees the comment.
-/
theorem stores_bareValue_iff
    (key : SettingKey) (raw : RawText) (sourceName : Option Bytes)
    (loader : Loader) (room : loader.conf.entries.length < confMaxEntries)
    (behind : Option Bytes) :
    storedFor sourceName loader (settingLine key raw) behind =
        some (promisedEntry loader key (bareValue raw.text)) ↔
      CommentSeen key raw := by
  have notEmpty : settingLine key raw ≠ [] := by
    simp [settingLine, SettingKey.front]
  rcases pieces_line notEmpty (settingLine_plain key raw) behind
    with ⟨piece, more, split, cut⟩
  rw [storedFor_eq room, split, CommentSeen]
  rw [settingLine, List.take_append] at cut
  by_cases keyFits : key.front.length ≤ 1023
  · rw [List.take_of_length_le keyFits] at cut
    have whole :
        readPart key raw ++ raw.text.drop (1023 - key.front.length) =
          raw.text :=
      List.take_append_drop _ _
    have unquoted := raw.unquoted
    rw [← whole] at unquoted
    rw [head_settings_of_some (pieceSetting_of_front cut), Option.some.injEq,
      newEntry, promisedEntry, ConfEntry.mk.injEq]
    simp only [true_and, and_true, keyFits]
    change
      (strUnquote (stripComment (trim (readPart key raw)))).take 511 = _ ↔ _
    by_cases comment : HasComment (readPart key raw)
    · have sameValue :
          bareValue (readPart key raw) = bareValue raw.text := by
        conv_rhs => rw [← whole]
        rw [bareValue, bareValue, uncommented_append_of_comment comment]
      have stored := stored_of_comment comment unquoted
      rw [whole] at stored
      rw [stored]
      simp only [sameValue, comment, true_and, forall_const]
    · have stored := stored_of_plain comment unquoted
      rw [whole] at stored
      rw [stored]
      simp only [comment, false_imp_iff, and_true]
  · constructor
    · intro stored
      have noSetting : pieceSetting piece = none := by
        apply pieceSetting_of_noEquals
        rw [cut]
        exact key.noEquals_take (Nat.lt_of_not_le keyFits) _
      have later := head_settings_of_none noSetting stored
      exact absurd later (Nat.lt_irrefl _)
    · rintro ⟨fits, _⟩
      exact absurd fits keyFits

/-- So it is for a comment behind blanks that is all there is. -/
theorem bareValue_of_blanks
    {blanks after : Bytes} {mark : UInt8} (some : blanks ≠ [])
    (space : ∀ byte ∈ blanks, isSpace byte = true)
    (isMark : isCommentMark mark = true) :
    bareValue (blanks ++ mark :: after) = [] := by
  have noMark : ∀ byte ∈ blanks, isCommentMark byte = false := by
    intro byte member
    by_contra isMark
    have kept := not_space_of_mark (by simpa using isMark)
    rw [space byte member] at kept
    cases kept
  have last : blanks.getLast?.any isSpace = true := by
    rw [List.getLast?_eq_some_getLast some]
    exact space _ (List.getLast_mem some)
  rw [bareValue, uncommented_of_space noMark last isMark,
    trim_of_space space]

/-- The loop that has read nothing. -/
def freshLoader : Loader where
  conf := confAlloc
  curSection := []
  lineN := 0

/-- A key for the examples. -/
def plainKey : SettingKey where
  text := ascii "key"
  ne_nil := by decide
  bare := { front := by decide +kernel, back := by decide +kernel }
  bytes := by decide +kernel
  first := by decide +kernel

/-- A value with a mark of its own, and a comment. -/
def colourText : RawText where
  text := ascii " red ; or #f00"
  bytes := by decide +kernel
  unquoted := by decide +kernel

theorem colour_is_stored :
    storedFor none freshLoader (settingLine plainKey colourText) none =
      some (promisedEntry freshLoader plainKey (bareValue colourText.text)) :=
  (stores_bareValue_iff plainKey colourText none freshLoader (by decide)
    none).mpr (by decide +kernel)

/-- The empty value with its comment, as the layout comment shows it. -/
def emptyValueText : RawText where
  text := ascii "              ; empty value (empty string \"\")"
  bytes := by decide +kernel
  unquoted := by decide +kernel

/-- The comment is stored as the value. -/
theorem comment_is_stored :
    bareValue emptyValueText.text = [] ∧
      ((confLoad (ascii "a.conf")
        (some (settingLine plainKey emptyValueText ++ [10])) none).entries.map
          ConfEntry.value) = [ascii "; empty value (empty string \"\")"] := by
  decide +kernel

/-! ## Quoted values -/

/-- A line with a quoted value and a comment behind it. -/
structure QuotedSetting where
  key : SettingKey
  value : Bytes
  blanks : Bytes
  mark : UInt8
  comment : Bytes
  value_length : value.length ≤ 511
  value_bytes : ∀ byte ∈ value, byte ∉ ([34, 13, 10, 0] : Bytes)
  blanks_ne_nil : blanks ≠ []
  blanks_bytes : ∀ byte ∈ blanks, byte ∈ ([32, 9] : Bytes)
  mark_begins : isCommentMark mark = true
  comment_bytes : ∀ byte ∈ comment, byte ∉ ([34, 13, 10, 0] : Bytes)
  line_length :
    (key.front ++ ascii " \"" ++ value ++ ascii "\"" ++ blanks ++
      mark :: comment).length < 1023

/-- `key = "value"  ; comment` -/
def QuotedSetting.line (setting : QuotedSetting) : Bytes :=
  setting.key.front ++ ascii " \"" ++ setting.value ++ ascii "\"" ++
    setting.blanks ++ setting.mark :: setting.comment

/-- From the first quote to the mark. -/
def QuotedSetting.quoted (setting : QuotedSetting) : Bytes :=
  34 :: (setting.value ++ 34 :: setting.blanks)

namespace QuotedSetting

variable (setting : QuotedSetting)

theorem line_eq :
    setting.line =
      setting.key.front ++
        (32 :: setting.quoted ++ setting.mark :: setting.comment) := by
  simp [line, quoted, ascii]

theorem line_plain :
    ∀ byte ∈ setting.line, byte ∉ ([13, 10, 0] : Bytes) := by
  intro byte member
  simp only [line_eq, quoted, SettingKey.front, List.mem_append,
    List.mem_cons, List.not_mem_nil, or_false] at member
  rcases member with (inKey | rfl | rfl) |
    (rfl | rfl | inValue | rfl | inBlanks) | rfl | inComment
  · exact fun other =>
      setting.key.bytes byte inKey (List.mem_cons_of_mem _ other)
  · decide
  · decide
  · decide
  · decide
  · exact fun other =>
      setting.value_bytes byte inValue (List.mem_cons_of_mem _ other)
  · decide
  · have blank := setting.blanks_bytes byte inBlanks
    simp only [List.mem_cons, List.not_mem_nil, or_false] at blank
    rcases blank with rfl | rfl
    · decide
    · decide
  · have begins := setting.mark_begins
    rw [isCommentMark, Bool.or_eq_true, beq_iff_eq, beq_iff_eq] at begins
    rcases begins with isHash | isSemicolon
    · rw [isHash]
      decide
    · rw [isSemicolon]
      decide
  · exact fun other =>
      setting.comment_bytes byte inComment (List.mem_cons_of_mem _ other)

/-- What `conf_load` takes for the value. -/
def taken : Bytes :=
  setting.quoted ++ setting.mark :: setting.comment.rdropWhile isSpace

theorem trim_eq :
    trim (32 :: setting.quoted ++ setting.mark :: setting.comment) =
      setting.taken := by
  have front :
      (32 :: setting.quoted).dropWhile isSpace = setting.quoted := by
    rw [List.dropWhile_cons_of_pos (by decide), quoted,
      List.dropWhile_cons_of_neg (by decide)]
  rw [trim_append_cons (not_space_of_mark setting.mark_begins), front, taken]

/-- The comment does not end with a quote, so the quotes stay. -/
theorem strUnquote_taken :
    strUnquote (stripComment setting.taken) = setting.taken := by
  have noQuote :
      ∀ byte ∈ setting.mark :: setting.comment.rdropWhile isSpace,
        byte ≠ 34 := by
    intro byte member
    rcases List.mem_cons.mp member with rfl | inComment
    · intro isQuote
      have begins := setting.mark_begins
      rw [isQuote] at begins
      exact absurd begins (by decide)
    · have plain :=
        setting.comment_bytes byte
          ((List.rdropWhile_prefix isSpace _).subset inComment)
      exact fun isQuote => plain (by simp [isQuote])
  have kept : stripComment setting.taken = setting.taken := if_pos rfl
  rw [kept, strUnquote]
  refine if_neg ?_
  rintro ⟨_, _, last⟩
  rw [taken, List.getLast?_append_of_ne_nil _ (List.cons_ne_nil _ _)] at last
  exact noQuote 34 (List.mem_of_getLast? last) rfl

/-- A value without quotes is not the beginning of what is taken. -/
theorem value_ne_take : setting.taken.take 511 ≠ setting.value := by
  intro same
  have member : 34 ∈ setting.value := by
    rw [← same, taken, quoted]
    exact List.mem_cons_self
  exact setting.value_bytes 34 member (by decide)

/-- The setting of the line. -/
theorem pieceSetting_eq {piece : Bytes}
    (cut : cutNewline piece = setting.line.take 1023) :
    pieceSetting piece = some (setting.key.text, setting.taken) := by
  have fits : setting.line.length ≤ 1023 := Nat.le_of_lt setting.line_length
  rw [List.take_of_length_le fits, line_eq] at cut
  rw [pieceSetting_of_front cut, trim_eq, strUnquote_taken]

end QuotedSetting

/-- Without room the loop adds nothing. -/
theorem storedFor_of_full
    {loader : Loader} (full : ¬ loader.conf.entries.length < confMaxEntries)
    (sourceName : Option Bytes) (line : Bytes) (behind : Option Bytes) :
    storedFor sourceName loader line behind = none := by
  rw [storedFor, loadLoop_eq_runPieces, entries_runPieces,
    Nat.sub_eq_zero_of_le (Nat.le_of_not_lt full), List.take_zero,
    List.append_nil, List.getElem?_eq_none (Nat.le_refl _)]

/-- What is stored is the value in its quotes, and the comment. -/
theorem storedFor_quoted
    (setting : QuotedSetting) (sourceName : Option Bytes) (loader : Loader)
    (room : loader.conf.entries.length < confMaxEntries)
    (behind : Option Bytes) :
    storedFor sourceName loader setting.line behind =
      some
        (newEntry loader.curSection setting.key.text setting.taken
          (loader.lineN + 1)) := by
  have notEmpty : setting.line ≠ [] := by
    simp [setting.line_eq, SettingKey.front]
  rcases pieces_line notEmpty setting.line_plain behind
    with ⟨piece, more, split, cut⟩
  rw [storedFor_eq room, split,
    head_settings_of_some (setting.pieceSetting_eq cut)]

/-- A quoted value with a comment behind it is never stored. -/
theorem quoted_comment_is_stored
    (setting : QuotedSetting) (sourceName : Option Bytes) (loader : Loader)
    (behind : Option Bytes) :
    (storedFor sourceName loader setting.line behind).map ConfEntry.value ≠
      some setting.value := by
  by_cases room : loader.conf.entries.length < confMaxEntries
  · rw [storedFor_quoted setting sourceName loader room behind,
      Option.map_some]
    exact fun same => setting.value_ne_take (Option.some.inj same)
  · rw [storedFor_of_full room]
    exact Option.some_ne_none _ |>.symm

/-- The quoted value with its comment, as the layout comment shows it. -/
def bracesSetting : QuotedSetting where
  key := plainKey
  value := ascii "value val"
  blanks := ascii "  "
  mark := 59
  comment := ascii " braces saved, spaces in is part of value"
  value_length := by decide +kernel
  value_bytes := by decide +kernel
  blanks_ne_nil := by decide +kernel
  blanks_bytes := by decide +kernel
  mark_begins := by decide +kernel
  comment_bytes := by decide +kernel
  line_length := by decide +kernel

/-- The quotes and the comment are in the value that is stored. -/
theorem braces_are_stored :
    (confLoad (ascii "a.conf") (some (bracesSetting.line ++ [10]))
        none).entries.map ConfEntry.value =
      [ascii "\"value val\"  ; braces saved, spaces in is part of value"] ∧
    (confLoad (ascii "a.conf") (some (bracesSetting.line ++ [10]))
        none).entries.map ConfEntry.value ≠ [bracesSetting.value] := by
  decide +kernel

end AccelObserver.Shared.ConfValues
