import AccelObserver.Shared.ConfComments
import AccelObserver.Shared.ConfDocument
import AccelObserver.Shared.ConfPieces

/-!
# Dumping a configuration and loading the dump

`conf_dump` prints the entries of a configuration as a configuration file.  It
prints the values as they are, without quotes, and a name for the section
that has none.  `reload_dump` says what loading the dump gives back, and for
which entries that is what was dumped.
-/

namespace AccelObserver.Shared.ConfDump

open AccelObserver.Library
open AccelObserver.Library.CNumber (isSpace toLower)
open AccelObserver.Library.CString
open AccelObserver.Shared.ConfParser
open AccelObserver.Shared.ConfComments
open AccelObserver.Shared.ConfDocument (content unlines)
open AccelObserver.Shared.ConfDocument (bare_of_ends cutNewline_of_plain)
open AccelObserver.Shared.ConfLookup (newEntry)
open AccelObserver.Shared.ConfPieces

/-! ## The dump -/

/-- `"# conf_result_t dump: %d entries"` -/
def titleLine (filledCount : Nat) : Bytes :=
  ascii "# conf_result_t dump: " ++ Decimal.decimal filledCount ++
    ascii " entries"

/-- `e->section[0] ? e->section : "(global)"` -/
def shownSection (sectionName : Bytes) : Bytes :=
  if sectionName = [] then ascii "(global)" else sectionName

/-- `"[%s]"` -/
def sectionLine (sectionName : Bytes) : Bytes :=
  91 :: (shownSection sectionName ++ [93])

/-- `"  %-30s = %s"` -/
def entryLine (e : ConfEntry) : Bytes :=
  (32 :: 32 :: e.key ++ List.replicate (30 - e.key.length) 32 ++ [32]) ++
    61 :: 32 :: e.value

/-- The lines of the loop; `prevSec` is null before the first entry. -/
def dumpLines : Option Bytes → List ConfEntry → List Bytes
  | _, [] => []
  | prevSec, e :: more =>
      (if prevSec = some e.sectionName then []
        else [[], sectionLine e.sectionName]) ++
        entryLine e :: dumpLines (some e.sectionName) more

/-- `conf_dump` -/
def confDump (conf : ConfResult) : Bytes :=
  unlines
    (titleLine conf.entries.length :: dumpLines none conf.entries)

/-! ## What a loaded configuration holds -/

/-- The sections of a file are stored as such names. -/
structure StoredSection (sectionName : Bytes) : Prop where
  length : sectionName.length ≤ 63
  bytes : ∀ byte ∈ sectionName, byte ∉ ([93, 13, 10, 0] : Bytes)
  front : ∀ byte ∈ sectionName.head?, isSpace byte = false

/-- The settings of a file are stored as such entries. -/
structure Stored (e : ConfEntry) : Prop where
  inSection : StoredSection e.sectionName
  key_length : e.key.length ≤ 63
  key_ne_nil : e.key ≠ []
  key_bytes : ∀ byte ∈ e.key, byte ∉ ([61, 13, 10, 0] : Bytes)
  key_front : ∀ byte ∈ e.key.head?, isSpace byte = false
  key_first : ∀ byte ∈ e.key.head?, byte ∉ ([35, 59, 91] : Bytes)
  key_lower : ∀ byte ∈ e.key, toLower byte = byte
  value_length : e.value.length ≤ 511
  value_bytes : ∀ byte ∈ e.value, byte ∉ ([13, 10, 0] : Bytes)

/-- What is left of a line is of one line. -/
theorem plain_of_mem_cutNewline
    {line : Bytes} {byte : UInt8} (member : byte ∈ cutNewline line) :
    byte ∉ ([13, 10, 0] : Bytes) := by
  have kept :=
    List.mem_takeWhile_imp (p := fun byte => byte != 13 && byte != 10) member
  have noNul :=
    List.mem_takeWhile_imp (p := (· != 0))
      ((List.takeWhile_prefix _).subset member)
  simp only [Bool.and_eq_true, bne_iff_ne] at kept noNul
  simp [kept.1, kept.2, noNul]

theorem head_trim_front
    (text : Bytes) : ∀ byte ∈ (trim text).head?, isSpace byte = false := by
  intro byte first
  have dropped := ConfDocument.head_trim first
  have kept := List.head?_dropWhile_not isSpace text
  rw [Option.mem_def.mp dropped] at kept
  simpa using kept

/-- A copy begins with what the text begins with. -/
theorem mem_head_of_copyInto
    {size : Nat} {text : Bytes} {byte : UInt8}
    (first : byte ∈ (copyInto size text).head?) : byte ∈ text.head? := by
  rw [copyInto, List.head?_take] at first
  split_ifs at first
  · cases first
  · exact first

theorem storedSection_nextSection
    {curSection : Bytes} (stored : StoredSection curSection)
    (piece : Bytes) : StoredSection (nextSection curSection piece) := by
  rw [nextSection]
  split_ifs with isSection
  · have inName {byte : UInt8}
        (member :
          byte ∈
            copyInto confMaxSection
              (trim
                (((trim (cutNewline piece)).drop 1).takeWhile (· != 93)))) :
        byte ∈ ((trim (cutNewline piece)).drop 1).takeWhile (· != 93) :=
      mem_of_mem_trim (List.mem_of_mem_take member)
    constructor
    · exact List.length_take_le _ _
    · intro byte member
      have notBracket := List.mem_takeWhile_imp (inName member)
      have plain :=
        plain_of_mem_cutNewline
          (mem_of_mem_trim
            (List.mem_of_mem_drop
              ((List.takeWhile_prefix _).subset (inName member))))
      rw [List.mem_cons, not_or]
      exact ⟨by simpa using notBracket, plain⟩
    · intro byte first
      exact head_trim_front _ byte (mem_head_of_copyInto first)
  · exact stored

theorem trim_sublist (text : Bytes) : (trim text).Sublist text :=
  (List.rdropWhile_prefix isSpace _).sublist.trans
    (List.dropWhile_sublist isSpace)

theorem strUnquote_sublist (value : Bytes) :
    (strUnquote value).Sublist value := by
  rw [strUnquote]
  split_ifs
  · exact (List.dropLast_sublist _).trans (List.tail_sublist _)
  · exact List.Sublist.refl _

theorem stripComment_sublist (value : Bytes) :
    (stripComment value).Sublist value := by
  rw [stripComment]
  simp only
  split_ifs
  · exact List.Sublist.refl _
  · exact (trim_sublist _).trans (List.takeWhile_sublist _)
  · exact List.Sublist.refl _

theorem toLower_toLower (byte : UInt8) :
    toLower (toLower byte) = toLower byte := by
  rw [toLower, toLower]
  grind

/-- The key begins where the line does. -/
theorem head_trim_takeWhile
    {text : Bytes} {keep : UInt8 → Bool}
    (front : ∀ byte ∈ text.head?, isSpace byte = false) {byte : UInt8}
    (first : byte ∈ (trim (text.takeWhile keep)).head?) :
    byte ∈ text.head? := by
  have dropped := ConfDocument.head_dropWhile_takeWhile
    (ConfDocument.head_trim first)
  cases text with
  | nil => cases dropped
  | cons c rest =>
      have kept : isSpace c = false := front c rfl
      rwa [List.dropWhile_cons_of_neg (by simp [kept])] at dropped

/-- The bytes of a stored key are bytes of the text in lower case. -/
theorem mem_lower_copyInto
    {size : Nat} {text : Bytes} {byte : UInt8}
    (member : byte ∈ lower (copyInto size text)) :
    ∃ written ∈ text, toLower written = byte := by
  rcases List.mem_map.mp member with ⟨written, inCopy, rfl⟩
  exact ⟨written, List.mem_of_mem_take inCopy, rfl⟩

theorem mem_head_lower_copyInto
    {size : Nat} {text : Bytes} {byte : UInt8}
    (first : byte ∈ (lower (copyInto size text)).head?) :
    ∃ written ∈ text.head?, toLower written = byte := by
  rw [lower, List.head?_map, Option.mem_map] at first
  rcases first with ⟨written, inCopy, rfl⟩
  exact ⟨written, mem_head_of_copyInto inCopy, rfl⟩

/-- Only a letter is changed, and it stays a letter. -/
theorem toLower_eq_of_not_letter
    {byte written : UInt8} (lowered : toLower written = byte)
    (notLetter : ¬ (97 ≤ byte ∧ byte ≤ 122)) : written = byte := by
  rw [toLower] at lowered
  grind

/-- A section is not cut when it is copied into the entry. -/
theorem copyInto_section
    {sectionName : Bytes} (stored : StoredSection sectionName) :
    copyInto confMaxSection sectionName = sectionName :=
  List.take_of_length_le stored.length

/-- The two sides of the equals sign as they are stored. -/
theorem stored_of_pair
    {curSection : Bytes} {c : UInt8} {rest : Bytes}
    (inSection : StoredSection curSection)
    (front : ∀ byte ∈ (c :: rest).head?, isSpace byte = false)
    (plain : ∀ byte ∈ c :: rest, byte ∉ ([13, 10, 0] : Bytes))
    (mark : ¬ (isCommentMark c = true ∨ c = 91))
    (keyless : ¬ trim ((c :: rest).takeWhile (· != 61)) = [])
    (lineN : Nat) :
    Stored
      (newEntry curSection (trim ((c :: rest).takeWhile (· != 61)))
        (strUnquote
          (stripComment (trim (((c :: rest).dropWhile (· != 61)).drop 1))))
        lineN) := by
  have inText {byte : UInt8}
      (member : byte ∈ trim ((c :: rest).takeWhile (· != 61))) :
      byte ≠ 61 ∧ byte ∉ ([13, 10, 0] : Bytes) := by
    have before := mem_of_mem_trim member
    exact
      ⟨by simpa using List.mem_takeWhile_imp before,
        plain byte ((List.takeWhile_prefix _).subset before)⟩
  constructor
  · rw [newEntry, copyInto_section inSection]
    exact inSection
  · rw [newEntry, lower, List.length_map]
    exact List.length_take_le _ _
  · intro nothing
    rw [newEntry, lower, List.map_eq_nil_iff, copyInto] at nothing
    exact keyless (by simpa [confMaxKey] using nothing)
  · intro byte member other
    rcases mem_lower_copyInto member with ⟨written, inKey, lowered⟩
    have same : written = byte :=
      toLower_eq_of_not_letter lowered (by grind)
    rw [same] at inKey
    rw [List.mem_cons] at other
    exact other.elim (inText inKey).1 (inText inKey).2
  · intro byte first
    rcases mem_head_lower_copyInto first with ⟨written, inKey, lowered⟩
    by_contra space
    have same : written = byte :=
      toLower_eq_of_not_letter lowered (by grind [isSpace])
    rw [same] at inKey
    exact space (head_trim_front _ byte inKey)
  · intro byte first other
    rcases mem_head_lower_copyInto first with ⟨written, inKey, lowered⟩
    have same : written = byte :=
      toLower_eq_of_not_letter lowered (by grind)
    rw [same] at inKey
    have begins := head_trim_takeWhile front inKey
    cases begins
    refine mark ?_
    simpa [isCommentMark, or_assoc] using other
  · intro byte member
    rcases mem_lower_copyInto member with ⟨written, _, rfl⟩
    exact toLower_toLower written
  · exact List.length_take_le _ _
  · intro byte member
    have inValue := mem_of_mem_trim
      ((stripComment_sublist _).subset
        ((strUnquote_sublist _).subset (List.mem_of_mem_take member)))
    exact
      plain byte
        ((List.dropWhile_suffix _).subset (List.mem_of_mem_drop inValue))

/-- A setting of a piece is stored as such an entry. -/
theorem stored_newEntry
    {curSection piece key value : Bytes}
    (inSection : StoredSection curSection)
    (setting : pieceSetting piece = some (key, value)) (lineN : Nat) :
    Stored (newEntry curSection key value lineN) := by
  rw [pieceSetting] at setting
  cases trimmed : trim (cutNewline piece) with
  | nil =>
      simp only [trimmed] at setting
      cases setting
  | cons c rest =>
      have plain : ∀ byte ∈ c :: rest, byte ∉ ([13, 10, 0] : Bytes) := by
        intro byte member
        rw [← trimmed] at member
        exact plain_of_mem_cutNewline (mem_of_mem_trim member)
      have front := head_trim_front (cutNewline piece)
      rw [trimmed] at front
      simp only [trimmed] at setting
      split_ifs at setting with mark equals keyless
      simp only [Option.some.injEq, Prod.mk.injEq] at setting
      rcases setting with ⟨rfl, rfl⟩
      exact stored_of_pair inSection front plain mark keyless lineN

/-- Every entry of a loaded file is one that can be stored. -/
theorem stored_settings
    {curSection : Bytes} (inSection : StoredSection curSection)
    (lineN : Nat) (pieces : List Bytes) :
    ∀ e ∈ settings curSection lineN pieces, Stored e := by
  induction pieces generalizing curSection lineN with
  | nil => simp [settings]
  | cons piece more induction =>
      have later :=
        induction (storedSection_nextSection inSection piece) (lineN + 1)
      rw [settings]
      cases setting : pieceSetting piece with
      | none => exact later
      | some pair =>
          rcases pair with ⟨key, value⟩
          exact List.forall_mem_cons.mpr
            ⟨stored_newEntry inSection setting (lineN + 1), later⟩

theorem stored_confLoadFp (file : Bytes) (sourceName : Option Bytes) :
    ∀ e ∈ (confLoadFp file sourceName).entries, Stored e := by
  intro e member
  rw [entries_confLoadFp] at member
  have noSection : StoredSection [] :=
    ⟨Nat.zero_le _, by simp, by simp⟩
  exact stored_settings noSection 0 _ e (List.mem_of_mem_take member)

/-! ## The lines of the dump -/

/-- A text of one line that `fgets` reads whole. -/
structure Fits (line : Bytes) : Prop where
  plain : ∀ byte ∈ line, byte ∉ ([13, 10, 0] : Bytes)
  short : line.length < 1023

/-- The lines are the pieces of the file. -/
theorem pieces_unlines
    {lines : List Bytes} (fits : ∀ line ∈ lines, Fits line) {rounds : Nat}
    (enough : (unlines lines).length ≤ rounds) :
    pieces rounds (unlines lines) = lines.map (· ++ [10]) := by
  induction lines generalizing rounds with
  | nil =>
      cases rounds with
      | zero => rfl
      | succ rounds => rfl
  | cons line lines induction =>
      rcases List.forall_mem_cons.mp fits with ⟨here, later⟩
      have split :
          unlines (line :: lines) = line ++ 10 :: unlines lines := by
        simp [unlines]
      have oneLine : 10 ∉ line := fun member => by
        simpa using here.plain 10 member
      rw [split, List.length_append, List.length_cons] at enough
      cases rounds with
      | zero => omega
      | succ rounds =>
          have read :=
            fgets_of_append oneLine (Nat.succ_lt_succ here.short)
              (unlines lines)
          rw [split, pieces, List.map_cons]
          simp only [confMaxLine, read]
          rw [induction later (by omega)]

theorem forall_not_mem_of_all
    {text marks : Bytes}
    (none : text.all (fun byte => !marks.contains byte) = true) :
    ∀ byte ∈ text, byte ∉ marks := by
  intro byte member
  simpa using List.all_eq_true.mp none byte member

/-- What is shown of a section fits a header. -/
theorem storedSection_shownSection
    {sectionName : Bytes} (stored : StoredSection sectionName) :
    StoredSection (shownSection sectionName) := by
  rw [shownSection]
  split_ifs
  · constructor
    · decide +kernel
    · exact forall_not_mem_of_all (by decide +kernel)
    · intro byte first
      have begins : (ascii "(global)").head? = some 40 := by decide +kernel
      rw [begins] at first
      cases first
      decide
  · exact stored

theorem fits_sectionLine
    {sectionName : Bytes} (stored : StoredSection sectionName) :
    Fits (sectionLine sectionName) := by
  have shown := storedSection_shownSection stored
  constructor
  · intro byte member
    rw [sectionLine, List.mem_cons, List.mem_append, List.mem_singleton]
      at member
    rcases member with rfl | inName | rfl
    · decide
    · exact fun other =>
        shown.bytes byte inName (List.mem_cons_of_mem _ other)
    · decide
  · have length := shown.length
    rw [sectionLine, List.length_cons, List.length_append,
      List.length_singleton]
    omega

theorem fits_entryLine {e : ConfEntry} (stored : Stored e) :
    Fits (entryLine e) := by
  constructor
  · intro byte member
    simp only [entryLine, List.mem_append, List.mem_cons, List.mem_replicate,
      List.not_mem_nil, or_false] at member
    rcases member with ((front | ⟨_, rfl⟩) | rfl) | rfl | rfl | inValue
    · rcases front with rfl | rfl | inKey
      · decide
      · decide
      · exact fun other =>
          stored.key_bytes byte inKey (List.mem_cons_of_mem _ other)
    · decide
    · decide
    · decide
    · decide
    · exact stored.value_bytes byte inValue
  · have key := stored.key_length
    have value := stored.value_length
    simp only [entryLine, List.length_append, List.length_cons,
      List.length_replicate, List.length_nil]
    omega

/-- The blank line above a header sets nothing. -/
theorem blank_sets_nothing (curSection : Bytes) :
    pieceSetting [10] = none ∧ nextSection curSection [10] = curSection := by
  have cut : trim (cutNewline [10]) = [] := by decide
  constructor
  · simp only [pieceSetting, cut]
  · apply nextSection_of_head
    rw [cut]
    exact (Option.some_ne_none _).symm

/-- A header sets the section, and no value. -/
theorem header_sets_section
    {sectionName : Bytes} (stored : StoredSection sectionName)
    (curSection : Bytes) :
    pieceSetting (sectionLine sectionName ++ [10]) = none ∧
      nextSection curSection (sectionLine sectionName ++ [10]) =
        trim (shownSection sectionName) := by
  have shown := storedSection_shownSection stored
  have cut : trim (cutNewline (sectionLine sectionName ++ [10])) =
      sectionLine sectionName := by
    rw [cutNewline_of_plain (fits_sectionLine stored).plain]
    exact trim_bare (bare_of_ends (by decide) (by decide))
  have name :
      ((sectionLine sectionName).drop 1).takeWhile (· != 93) =
        shownSection sectionName := by
    rw [sectionLine, List.drop_one, List.tail_cons]
    apply takeWhile_append_cons
    · intro byte member
      have other := shown.bytes byte member
      rw [List.mem_cons, not_or] at other
      exact bne_iff_ne.mpr other.1
    · decide
  have closed : 93 ∈ sectionLine sectionName := by simp [sectionLine]
  have short : (trim (shownSection sectionName)).length ≤ 63 := by
    refine le_trans ?_ shown.length
    exact
      (List.rdropWhile_prefix _ _).length_le.trans
        (List.dropWhile_suffix _).length_le
  constructor
  · simp only [pieceSetting, cut]
    exact if_pos (Or.inr rfl)
  · simp only [nextSection, cut]
    rw [if_pos ⟨rfl, closed⟩, name]
    exact List.take_of_length_le short

/-- What the loader makes of a value that stands there without quotes. -/
def rereadValue (value : Bytes) : Bytes :=
  strUnquote (stripComment (trim value))

/-- The key as it is printed, with the blanks behind it. -/
def paddedKey (key : Bytes) : Bytes :=
  key ++ List.replicate (30 - key.length) 32 ++ [32]

theorem trim_paddedKey (key : Bytes) : trim (paddedKey key) = trim key := by
  rw [paddedKey, List.append_assoc]
  apply trim_append_space
  intro byte member
  simp only [List.mem_append, List.mem_replicate, List.mem_singleton] at member
  rcases member with ⟨_, rfl⟩ | rfl
  · decide
  · decide

section EntryLine

variable {e : ConfEntry} (stored : Stored e)
include stored

theorem paddedKey_noEquals :
    ∀ byte ∈ paddedKey e.key, (byte != 61) = true := by
  intro byte member
  simp only [paddedKey, List.mem_append, List.mem_replicate,
    List.mem_singleton] at member
  rcases member with (inKey | ⟨_, rfl⟩) | rfl
  · have other := stored.key_bytes byte inKey
    rw [List.mem_cons, not_or] at other
    exact bne_iff_ne.mpr other.1
  · decide
  · decide

/-- The line without the white space around it. -/
theorem trim_entryLine :
    trim (cutNewline (entryLine e ++ [10])) =
      paddedKey e.key ++ 61 :: (32 :: e.value).rdropWhile isSpace := by
  have split :
      entryLine e = ([32, 32] ++ paddedKey e.key) ++ 61 :: 32 :: e.value := by
    simp [entryLine, paddedKey]
  have front :
      ([32, 32] ++ paddedKey e.key).dropWhile isSpace = paddedKey e.key := by
    have blanks : ∀ byte ∈ ([32, 32] : Bytes), isSpace byte = true :=
      List.forall_mem_cons.mpr ⟨rfl, List.forall_mem_singleton.mpr rfl⟩
    apply dropWhile_append_of_head blanks
    intro byte first
    rw [paddedKey, List.append_assoc,
      List.head?_append_of_ne_nil _ stored.key_ne_nil] at first
    exact stored.key_front byte first
  rw [cutNewline_of_plain (fits_entryLine stored).plain, split,
    trim_append_cons (by decide), front]

/-- The line of an entry sets its key, and leaves the section. -/
theorem entry_sets_key (curSection : Bytes) :
    pieceSetting (entryLine e ++ [10]) =
        some (trim e.key, rereadValue e.value) ∧
      nextSection curSection (entryLine e ++ [10]) = curSection := by
  have cut := trim_entryLine stored
  have noEquals := paddedKey_noEquals stored
  have before :
      (paddedKey e.key ++ 61 :: (32 :: e.value).rdropWhile isSpace).takeWhile
          (· != 61) =
        paddedKey e.key :=
    takeWhile_append_cons noEquals (by decide) _
  have behind :
      (paddedKey e.key ++ 61 :: (32 :: e.value).rdropWhile isSpace).dropWhile
          (· != 61) =
        61 :: (32 :: e.value).rdropWhile isSpace := by
    apply dropWhile_append_of_head noEquals
    intro byte first
    cases first
    decide
  have value : trim ((32 :: e.value).rdropWhile isSpace) = trim e.value := by
    rw [trim_rdropWhile, trim, trim, List.dropWhile_cons_of_pos (by decide)]
  have equals :
      61 ∈ paddedKey e.key ++ 61 :: (32 :: e.value).rdropWhile isSpace := by
    simp
  rcases List.exists_cons_of_ne_nil stored.key_ne_nil with ⟨c, more, split⟩
  have head : c ∈ e.key.head? := by rw [split]; rfl
  have first := stored.key_first c head
  simp only [List.mem_cons, List.not_mem_nil, or_false, not_or] at first
  have mark : ¬ (isCommentMark c = true ∨ c = 91) := by
    simp [isCommentMark, first.1, first.2.1, first.2.2]
  have keyed : trim e.key ≠ [] := by
    have kept := trim_append_cons (stored.key_front c head) [] more
    rw [split, ← List.nil_append (c :: more), kept]
    exact List.cons_ne_nil _ _
  have begins : ∃ rest, paddedKey e.key = c :: rest := by
    rw [paddedKey, split]
    exact ⟨_, rfl⟩
  rcases begins with ⟨rest, padded⟩
  have shape :
      paddedKey e.key ++ 61 :: (32 :: e.value).rdropWhile isSpace =
        c :: (rest ++ 61 :: (32 :: e.value).rdropWhile isSpace) := by
    rw [padded, List.cons_append]
  rw [shape] at cut before behind equals
  constructor
  · simp only [pieceSetting, cut, if_neg mark, if_pos equals, before, behind,
      List.drop_one, List.tail_cons, trim_paddedKey, value, if_neg keyed,
      rereadValue]
  · apply nextSection_of_head
    rw [cut, List.head?_cons]
    exact fun same => first.2.2 (Option.some.inj same)

end EntryLine

/-! ## Loading the dump -/

/-- What loading the dump stores for an entry. -/
def reread (e : ConfEntry) : Bytes × Bytes × Bytes :=
  (trim (shownSection e.sectionName), trim e.key, rereadValue e.value)

theorem rereadValue_sublist (value : Bytes) :
    (rereadValue value).Sublist value :=
  (strUnquote_sublist _).trans
    ((stripComment_sublist _).trans (trim_sublist value))

/-- The copies of the loader cut nothing. -/
theorem content_newEntry_reread
    {e : ConfEntry} (stored : Stored e) (lineN : Nat) :
    content
        (newEntry (trim (shownSection e.sectionName)) (trim e.key)
          (rereadValue e.value) lineN) =
      reread e := by
  have shown := (storedSection_shownSection stored.inSection).length
  have sectionFits := (trim_sublist (shownSection e.sectionName)).length_le
  have keyFits := (trim_sublist e.key).length_le
  have valueFits := (rereadValue_sublist e.value).length_le
  have lowered : lower (trim e.key) = trim e.key := by
    rw [lower]
    nth_rewrite 2 [← List.map_id (trim e.key)]
    refine List.map_congr_left ?_
    intro byte member
    exact stored.key_lower byte (mem_of_mem_trim member)
  have sectionWhole :
      copyInto confMaxSection (trim (shownSection e.sectionName)) =
        trim (shownSection e.sectionName) :=
    List.take_of_length_le (sectionFits.trans shown)
  have keyWhole : copyInto confMaxKey (trim e.key) = trim e.key :=
    List.take_of_length_le (keyFits.trans stored.key_length)
  have valueWhole :
      copyInto confMaxValue (rereadValue e.value) = rereadValue e.value :=
    List.take_of_length_le (valueFits.trans stored.value_length)
  rw [content, newEntry, reread, sectionWhole, keyWhole, lowered, valueWhole]

/-- The lines of the loop, read in the section of the entry before. -/
theorem settings_dumpLines
    {entries : List ConfEntry} (stored : ∀ e ∈ entries, Stored e)
    {prevSec : Option Bytes} {curSection : Bytes}
    (current : ∀ name ∈ prevSec, curSection = trim (shownSection name))
    (lineN : Nat) :
    (settings curSection lineN
        ((dumpLines prevSec entries).map (· ++ [10]))).map content =
      entries.map reread := by
  induction entries generalizing prevSec curSection lineN with
  | nil => rfl
  | cons e more induction =>
      rcases List.forall_mem_cons.mp stored with ⟨here, later⟩
      -- the line of the entry and the lines behind it, in its own section
      have inSection (lineN : Nat) :
          (settings (trim (shownSection e.sectionName)) lineN
              ((entryLine e :: dumpLines (some e.sectionName) more).map
                (· ++ [10]))).map content =
            (e :: more).map reread := by
        have entry := entry_sets_key here (trim (shownSection e.sectionName))
        rw [List.map_cons, settings, entry.1, entry.2]
        simp only [List.map_cons]
        rw [content_newEntry_reread here, induction later]
        intro name same
        cases same
        rfl
      rw [dumpLines]
      split_ifs with same
      · rw [current _ same]
        exact inSection lineN
      · have blank := blank_sets_nothing curSection
        have header := header_sets_section here.inSection curSection
        simp only [List.cons_append, List.nil_append, List.map_cons, settings,
          blank.1, blank.2, header.1, header.2]
        exact inSection (lineN + 1 + 1)

/-- What stays the same when it is dumped and loaded. -/
structure Dumpable (e : ConfEntry) : Prop where
  section_ne_nil : e.sectionName ≠ []
  section_bare : Bare e.sectionName
  key_bare : Bare e.key
  value_bare : Bare e.value
  value_quotes :
    ¬ (2 ≤ e.value.length ∧ e.value.head? = some 34 ∧
      e.value.getLast? = some 34)
  value_comment : e.value.head? = some 34 ∨ ¬ FirstMarkEnds e.value

theorem bare_trim (text : Bytes) : Bare (trim text) where
  front := head_trim_front text
  back byte last := by
    have notEmpty : trim text ≠ [] := by
      rintro nothing
      rw [nothing] at last
      cases last
    have kept := List.rdropWhile_last_not isSpace _ notEmpty
    rw [List.getLast?_eq_some_getLast notEmpty] at last
    cases last
    exact Bool.eq_false_of_not_eq_true kept

theorem trim_eq_self_iff (text : Bytes) : trim text = text ↔ Bare text := by
  constructor
  · intro same
    rw [← same]
    exact bare_trim text
  · exact trim_bare

theorem strUnquote_eq_self_iff (value : Bytes) :
    strUnquote value = value ↔
      ¬ (2 ≤ value.length ∧ value.head? = some 34 ∧
        value.getLast? = some 34) := by
  rw [strUnquote]
  split_ifs with quoted
  · refine iff_of_false ?_ (not_not.mpr quoted)
    intro same
    have lengths := congrArg List.length same
    rw [List.length_dropLast, List.length_tail] at lengths
    omega
  · exact iff_of_true rfl quoted

/-- A comment is seen in a value without quotes when its mark is the first
one, and stands behind white space. -/
theorem stripComment_eq_self_iff {value : Bytes} (bare : Bare value) :
    stripComment value = value ↔
      value.head? = some 34 ∨ ¬ FirstMarkEnds value := by
  have trimmed := trim_bare bare
  by_cases quoted : value.head? = some 34
  · exact iff_of_true (if_pos quoted) (Or.inl quoted)
  · have unquoted : (trim value).head? ≠ some 34 := by rwa [trimmed]
    rw [or_iff_right quoted]
    by_cases ends : FirstMarkEnds value
    · refine iff_of_false ?_ (not_not.mpr ends)
      intro same
      rcases beforeMark_cases value with whole | ⟨mark, after, split, isMark⟩
      · have space := ends.1
        rw [whole] at space
        cases last : value.getLast? with
        | none => simp [last] at space
        | some byte => simp [last, bare.back byte last] at space
      · have cut := stripComment_of_mark split isMark unquoted
        rw [trimmed, same, if_pos ends] at cut
        have shorter := (trim_sublist (beforeMark value)).length_le
        have lengths := congrArg List.length split
        rw [← cut] at shorter
        rw [List.length_append, List.length_cons] at lengths
        omega
    · refine iff_of_true ?_ ends
      have whole := stripComment_of_not_firstMarkEnds ends unquoted
      rwa [trimmed] at whole

theorem rereadValue_eq_self_iff (value : Bytes) :
    rereadValue value = value ↔
      Bare value ∧
        ¬ (2 ≤ value.length ∧ value.head? = some 34 ∧
          value.getLast? = some 34) ∧
        (value.head? = some 34 ∨ ¬ FirstMarkEnds value) := by
  constructor
  · intro same
    have unquoted := strUnquote_sublist (stripComment (trim value))
    have stripped := stripComment_sublist (trim value)
    rw [← rereadValue, same] at unquoted
    have trimmed : trim value = value :=
      (trim_sublist value).antisymm (unquoted.trans stripped)
    have bare := (trim_eq_self_iff value).mp trimmed
    rw [trimmed] at unquoted stripped
    have kept : stripComment value = value := stripped.antisymm unquoted
    rw [rereadValue, trimmed, kept] at same
    exact
      ⟨bare, (strUnquote_eq_self_iff value).mp same,
        (stripComment_eq_self_iff bare).mp kept⟩
  · rintro ⟨bare, noQuotes, noComment⟩
    rw [rereadValue, trim_bare bare,
      (stripComment_eq_self_iff bare).mpr noComment]
    exact (strUnquote_eq_self_iff value).mpr noQuotes

theorem shownSection_eq_self_iff (sectionName : Bytes) :
    trim (shownSection sectionName) = sectionName ↔
      sectionName ≠ [] ∧ Bare sectionName := by
  rw [shownSection]
  split_ifs with noSection
  · refine iff_of_false ?_ fun both => both.1 noSection
    rw [noSection]
    decide +kernel
  · rw [trim_eq_self_iff, and_iff_right noSection]

theorem reread_eq_content_iff (e : ConfEntry) :
    reread e = content e ↔ Dumpable e := by
  rw [reread, content, Prod.mk.injEq, Prod.mk.injEq, shownSection_eq_self_iff,
    trim_eq_self_iff, rereadValue_eq_self_iff]
  constructor
  · rintro ⟨⟨named, inSection⟩, key, value, noQuotes, noComment⟩
    exact ⟨named, inSection, key, value, noQuotes, noComment⟩
  · intro dumpable
    exact
      ⟨⟨dumpable.section_ne_nil, dumpable.section_bare⟩, dumpable.key_bare,
        dumpable.value_bare, dumpable.value_quotes, dumpable.value_comment⟩

theorem fits_titleLine {filledCount : Nat} (bound : filledCount ≤ 512) :
    Fits (titleLine filledCount) := by
  have numeral : (Decimal.decimal filledCount).length ≤ 3 :=
    Decimal.length_decimal_le (by decide) (by omega)
  have front : (ascii "# conf_result_t dump: ").length = 22 := by decide +kernel
  have back : (ascii " entries").length = 8 := by decide +kernel
  have plainFront :
      ∀ byte ∈ ascii "# conf_result_t dump: ",
        byte ∉ ([13, 10, 0] : Bytes) :=
    forall_not_mem_of_all (by decide +kernel)
  have plainBack :
      ∀ byte ∈ ascii " entries", byte ∉ ([13, 10, 0] : Bytes) :=
    forall_not_mem_of_all (by decide +kernel)
  constructor
  · intro byte member
    rw [titleLine, List.mem_append, List.mem_append] at member
    rcases member with (inFront | inNumeral) | inBack
    · exact plainFront byte inFront
    · intro other
      have noDigit : Decimal.digitValue 10 byte = none := by
        simp only [List.mem_cons, List.not_mem_nil, or_false] at other
        rcases other with rfl | rfl | rfl
        · decide
        · decide
        · decide
      exact
        Decimal.not_mem_digits noDigit (Decimal.digits_small filledCount)
          inNumeral
    · exact plainBack byte inBack
  · rw [titleLine, List.length_append, List.length_append]
    omega

theorem title_sets_nothing
    {filledCount : Nat} (bound : filledCount ≤ 512) (curSection : Bytes) :
    pieceSetting (titleLine filledCount ++ [10]) = none ∧
      nextSection curSection (titleLine filledCount ++ [10]) = curSection := by
  have front :
      ascii "# conf_result_t dump: " = 35 :: ascii " conf_result_t dump: " := by
    decide +kernel
  have cut :
      ∃ rest,
        trim (cutNewline (titleLine filledCount ++ [10])) = 35 :: rest := by
    rw [cutNewline_of_plain (fits_titleLine bound).plain, titleLine, front,
      List.cons_append, List.cons_append]
    exact ⟨_, trim_append_cons (by decide) [] _⟩
  rcases cut with ⟨rest, cut⟩
  constructor
  · simp only [pieceSetting, cut]
    exact if_pos (Or.inl rfl)
  · apply nextSection_of_head
    rw [cut, List.head?_cons]
    decide

theorem fits_dumpLines
    {entries : List ConfEntry} (stored : ∀ e ∈ entries, Stored e)
    (prevSec : Option Bytes) :
    ∀ line ∈ dumpLines prevSec entries, Fits line := by
  induction entries generalizing prevSec with
  | nil => simp [dumpLines]
  | cons e more induction =>
      rcases List.forall_mem_cons.mp stored with ⟨here, later⟩
      have entry :=
        List.forall_mem_cons.mpr
          ⟨fits_entryLine here, induction later (some e.sectionName)⟩
      have blank : Fits [] := ⟨by simp, by decide⟩
      have header := fits_sectionLine here.inSection
      rw [dumpLines]
      split_ifs
      · exact entry
      · exact List.forall_mem_cons.mpr
          ⟨blank, List.forall_mem_cons.mpr ⟨header, entry⟩⟩

/-- What the dump stores, without its limit. -/
theorem reload_of_stored
    {conf : ConfResult} (stored : ∀ e ∈ conf.entries, Stored e)
    (dumpName : Option Bytes) :
    (confLoadFp (confDump conf) dumpName).entries.map content =
      conf.entries.map reread := by
  have bound : conf.entries.length ≤ confMaxEntries :=
    conf.filled_le.trans conf.capacity_le
  have title := title_sets_nothing bound []
  have fits :=
    List.forall_mem_cons.mpr
      ⟨fits_titleLine bound, fits_dumpLines stored none⟩
  have lines :
      (settings [] 1 ((dumpLines none conf.entries).map (· ++ [10]))).map
          content =
        conf.entries.map reread :=
    settings_dumpLines stored (by simp) 1
  have count := congrArg List.length lines
  rw [List.length_map, List.length_map] at count
  rw [entries_confLoadFp, filePieces, confDump,
    pieces_unlines fits (Nat.le_refl _), List.map_cons, settings, title.1,
    title.2, List.take_of_length_le (count.trans_le bound)]
  exact lines

/-- Loading the dump of a loaded file gives each entry as it reads without
its quotes; that is the entry exactly when it is dumpable. -/
theorem reload_dump (file : Bytes) (sourceName dumpName : Option Bytes) :
    (confLoadFp (confDump (confLoadFp file sourceName)) dumpName).entries.map
          content =
        (confLoadFp file sourceName).entries.map reread ∧
      ((confLoadFp (confDump (confLoadFp file sourceName))
            dumpName).entries.map content =
          (confLoadFp file sourceName).entries.map content ↔
        ∀ e ∈ (confLoadFp file sourceName).entries, Dumpable e) := by
  have reloaded := reload_of_stored (stored_confLoadFp file sourceName) dumpName
  refine ⟨reloaded, ?_⟩
  rw [reloaded, List.map_inj_left]
  exact forall₂_congr fun e _ => reread_eq_content_iff e

end AccelObserver.Shared.ConfDump
