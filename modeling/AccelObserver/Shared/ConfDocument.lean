import AccelObserver.Shared.ConfParser

/-!
# Writing a configuration and loading it

A document is a list of triples, each written as a section line and a line
with a quoted value, with idle lines anywhere.  `confLoad_document` says what
loading gives back, and which value a lookup finds.

The proof goes line by line: an idle line and a section line leave the
entries alone, a line with a key is one `conf_push`, and a document is a run
over its lines.
-/

namespace AccelObserver.Shared.ConfDocument

open AccelObserver.Library
open AccelObserver.Library.CNumber (isSpace)
open AccelObserver.Library.CString
open AccelObserver.Shared.ConfParser

/-! ## Documents -/

/-- What a section line and a line with a key can carry. -/
structure Triple where
  sectionName : Bytes
  key : Bytes
  value : Bytes
  section_length : sectionName.length ≤ 63
  section_bare : Bare sectionName
  section_bytes : ∀ byte ∈ sectionName, byte ∉ ([93, 13, 10, 0] : Bytes)
  key_length : key.length ≤ 63
  key_ne_nil : key ≠ []
  key_bare : Bare key
  key_bytes : ∀ byte ∈ key, byte ∉ ([61, 13, 10, 0] : Bytes)
  key_first : ∀ byte ∈ key.head?, byte ∉ ([35, 59, 91] : Bytes)
  value_length : value.length ≤ 511
  value_bytes : ∀ byte ∈ value, byte ∉ ([13, 10, 0] : Bytes)

/-- A blank line or a comment that fits the buffer. -/
structure IdleLine where
  text : Bytes
  short : text.length < 1023
  oneLine : 10 ∉ text
  idle : ∀ byte ∈ (text.dropWhile isSpace).head?, isCommentMark byte = true

/-- `[section]` -/
def Triple.sectionLine (triple : Triple) : Bytes :=
  ascii "[" ++ triple.sectionName ++ ascii "]"

/-- `key = "value"` -/
def Triple.keyLine (triple : Triple) : Bytes :=
  triple.key ++ ascii " = \"" ++ triple.value ++ ascii "\""

/-- A triple with the idle lines before either of its lines. -/
structure Block where
  before : List IdleLine
  between : List IdleLine
  triple : Triple

def Block.lines (block : Block) : List Bytes :=
  block.before.map IdleLine.text ++ block.triple.sectionLine ::
    (block.between.map IdleLine.text ++ [block.triple.keyLine])

/-- The lines of a file, each with its line feed. -/
def unlines (lines : List Bytes) : Bytes :=
  lines.flatMap (· ++ [10])

/-- The file with these triples. -/
def document (blocks : List Block) (trailing : List IdleLine) : Bytes :=
  unlines (blocks.flatMap Block.lines ++ trailing.map IdleLine.text)

/-- Section, key and value of an entry. -/
def content (entry : ConfEntry) : Bytes × Bytes × Bytes :=
  (entry.sectionName, entry.key, entry.value)

/-- What is stored for a triple. -/
def Triple.stored (triple : Triple) : Bytes × Bytes × Bytes :=
  (triple.sectionName, lower triple.key, triple.value)

/-! ## One line -/

/-- Of a line without NUL and carriage return nothing is cut. -/
theorem cutNewline_of_plain
    {line : Bytes} (plain : ∀ byte ∈ line, byte ∉ ([13, 10, 0] : Bytes)) :
    cutNewline (line ++ [10]) = line := by
  have noNul : cText (line ++ [10]) = line ++ [10] := by
    apply cText_of_not_mem
    intro member
    rcases List.mem_append.mp member with inLine | atEnd
    · exact plain 0 inLine (by simp)
    · simp at atEnd
  rw [cutNewline, noNul]
  apply takeWhile_append_cons
  · intro byte member
    have := plain byte member
    simp only [List.mem_cons, not_or] at this
    simp [this.1, this.2.1]
  · decide

/-- What a trimmed text begins with is not white space. -/
theorem head_trim
    {text : Bytes} {byte : UInt8} (first : byte ∈ (trim text).head?) :
    byte ∈ (text.dropWhile isSpace).head? := by
  have kept : trim text <+: text.dropWhile isSpace :=
    List.rdropWhile_prefix isSpace _
  rcases kept with ⟨rest, split⟩
  rw [← split]
  cases trimmed : trim text with
  | nil =>
      rw [trimmed] at first
      cases first
  | cons c more =>
      rw [trimmed] at first
      exact first

/-- What is cut from the end does not change the beginning. -/
theorem head_dropWhile_takeWhile
    {keep : UInt8 → Bool} {text : Bytes} {byte : UInt8}
    (first : byte ∈ ((text.takeWhile keep).dropWhile isSpace).head?) :
    byte ∈ (text.dropWhile isSpace).head? := by
  induction text with
  | nil => exact first
  | cons c text induction =>
      by_cases kept : keep c = true
      · rw [List.takeWhile_cons_of_pos kept] at first
        by_cases space : isSpace c = true
        · rw [List.dropWhile_cons_of_pos space] at first ⊢
          exact induction first
        · rw [List.dropWhile_cons_of_neg space] at first ⊢
          exact first
      · rw [List.takeWhile_cons_of_neg kept] at first
        cases first

/-- Neither does the line feed at the end. -/
theorem head_dropWhile_lineFeed
    {text : Bytes} {byte : UInt8}
    (first : byte ∈ ((text ++ [10]).dropWhile isSpace).head?) :
    byte ∈ (text.dropWhile isSpace).head? := by
  rw [List.dropWhile_append] at first
  cases dropped : text.dropWhile isSpace with
  | nil =>
      have atEnd : ([10] : Bytes).dropWhile isSpace = [] := by decide
      rw [dropped, List.isEmpty_nil, if_pos rfl, atEnd] at first
      cases first
  | cons c more =>
      rw [dropped] at first
      exact first

/-- An idle line is counted, and nothing else happens. -/
theorem loadLine_idle
    (sourceName : Option Bytes) (loader : Loader) (idle : IdleLine) :
    loadLine sourceName loader (idle.text ++ [10]) =
      .ok { loader with lineN := loader.lineN + 1 } := by
  have mark : ∀ byte ∈ (trim (cutNewline (idle.text ++ [10]))).head?,
      isCommentMark byte = true := by
    intro byte first
    apply idle.idle
    apply head_dropWhile_lineFeed
    exact head_dropWhile_takeWhile (head_dropWhile_takeWhile (head_trim first))
  rw [loadLine]
  cases cut : trim (cutNewline (idle.text ++ [10])) with
  | nil => rfl
  | cons c rest =>
      have isMark : isCommentMark c = true := mark c (by rw [cut]; rfl)
      simp only [isMark, if_true]

/-- A text with other bytes around it has no white space around it. -/
theorem bare_of_ends
    {first last : UInt8} {middle : Bytes} (front : isSpace first = false)
    (back : isSpace last = false) : Bare (first :: (middle ++ [last])) where
  front byte member := by
    cases member
    exact front
  back byte member := by
    rw [← List.cons_append, List.getLast?_concat] at member
    cases member
    exact back

theorem Triple.sectionLine_eq (triple : Triple) :
    triple.sectionLine = 91 :: (triple.sectionName ++ [93]) := rfl

/-- The section line is a line of its own. -/
theorem Triple.sectionLine_plain (triple : Triple) :
    ∀ byte ∈ triple.sectionLine, byte ∉ ([13, 10, 0] : Bytes) := by
  intro byte member
  rw [Triple.sectionLine_eq, List.mem_cons, List.mem_append,
    List.mem_singleton] at member
  rcases member with rfl | inName | rfl
  · decide
  · exact fun other =>
      triple.section_bytes byte inName (List.mem_cons_of_mem _ other)
  · decide

/-- A section line sets the section. -/
theorem loadLine_section
    (sourceName : Option Bytes) (loader : Loader) (triple : Triple) :
    loadLine sourceName loader (triple.sectionLine ++ [10]) =
      .ok
        { loader with
          curSection := triple.sectionName
          lineN := loader.lineN + 1 } := by
  have bare : Bare triple.sectionLine := bare_of_ends (by decide) (by decide)
  have name :
      (triple.sectionLine.drop 1).takeWhile (· != 93) =
        triple.sectionName := by
    rw [Triple.sectionLine_eq, List.drop_one, List.tail_cons]
    apply takeWhile_append_cons
    · intro byte member
      have other := triple.section_bytes byte member
      rw [List.mem_cons, not_or] at other
      exact bne_iff_ne.mpr other.1
    · decide
  have closed : 93 ∈ triple.sectionLine := by
    rw [Triple.sectionLine_eq]
    simp
  have copied :
      copyInto confMaxSection triple.sectionName = triple.sectionName :=
    List.take_of_length_le triple.section_length
  rw [loadLine, cutNewline_of_plain triple.sectionLine_plain, trim_bare bare]
  simp only [loadSection, closed, if_true, name, trim_bare triple.section_bare,
    copied]
  rfl

/-- The value behind the equals sign comes out of its quotes. -/
theorem strUnquote_stripComment (value : Bytes) :
    strUnquote (stripComment (34 :: (value ++ [34]))) = value := by
  have quoted : stripComment (34 :: (value ++ [34])) = 34 :: (value ++ [34]) :=
    if_pos rfl
  have last : (34 :: (value ++ [34])).getLast? = some 34 := by
    rw [← List.cons_append, List.getLast?_concat]
  have length : 2 ≤ (34 :: (value ++ [34])).length := by simp
  rw [quoted, strUnquote, if_pos ⟨length, rfl, last⟩, List.tail_cons,
    List.dropLast_concat]

/-- The text between the quotes, as it stands behind the equals sign. -/
def Triple.quoted (triple : Triple) : Bytes :=
  34 :: (triple.value ++ [34])

theorem Triple.keyLine_eq (triple : Triple) :
    triple.keyLine = (triple.key ++ [32]) ++ 61 :: (32 :: triple.quoted) := by
  simp [Triple.keyLine, Triple.quoted, ascii]

/-- The line with the key is a line of its own. -/
theorem Triple.keyLine_plain (triple : Triple) :
    ∀ byte ∈ triple.keyLine, byte ∉ ([13, 10, 0] : Bytes) := by
  intro byte member
  simp only [Triple.keyLine_eq, Triple.quoted, List.mem_append, List.mem_cons,
    List.not_mem_nil, or_false] at member
  rcases member with (inKey | rfl) | rfl | rfl | rfl | inValue | rfl
  · exact fun other =>
      triple.key_bytes byte inKey (List.mem_cons_of_mem _ other)
  · decide
  · decide
  · decide
  · decide
  · exact triple.value_bytes byte inValue
  · decide

/-- It begins with the key, which is neither a comment nor a section. -/
theorem Triple.exists_keyLine_eq_cons (triple : Triple) :
    ∃ c rest,
      triple.keyLine = c :: (rest ++ [34]) ∧ isSpace c = false ∧
        isCommentMark c = false ∧ c ≠ 91 := by
  cases split : triple.key with
  | nil => exact absurd split triple.key_ne_nil
  | cons c more =>
      have head : c ∈ triple.key.head? := by rw [split]; rfl
      have first := triple.key_first c head
      simp only [List.mem_cons, List.not_mem_nil, or_false, not_or] at first
      refine ⟨c, more ++ [32, 61, 32, 34] ++ triple.value, ?_⟩
      refine ⟨?_, triple.key_bare.front c head, ?_, first.2.2⟩
      · simp [Triple.keyLine_eq, Triple.quoted, split]
      · simp [isCommentMark, first.1, first.2.1]

theorem Triple.noEquals (triple : Triple) :
    ∀ byte ∈ triple.key ++ [32], (byte != 61) = true := by
  intro byte member
  rcases List.mem_append.mp member with inKey | atEnd
  · have other := triple.key_bytes byte inKey
    rw [List.mem_cons, not_or] at other
    exact bne_iff_ne.mpr other.1
  · rw [List.mem_singleton.mp atEnd]
    decide

/-- The key is in front of the equals sign. -/
theorem Triple.keyRaw_eq (triple : Triple) :
    trim (triple.keyLine.takeWhile (· != 61)) = triple.key := by
  have before :
      triple.keyLine.takeWhile (· != 61) = triple.key ++ [32] := by
    rw [Triple.keyLine_eq]
    exact takeWhile_append_cons triple.noEquals (by decide) _
  rw [before, ← List.nil_append (triple.key ++ [32])]
  exact trim_of_bare triple.key_bare (by simp)
    (List.forall_mem_singleton.mpr rfl)

/-- The quoted value is behind it. -/
theorem Triple.valRaw_eq (triple : Triple) :
    trim ((triple.keyLine.dropWhile (· != 61)).drop 1) = triple.quoted := by
  have behind :
      triple.keyLine.dropWhile (· != 61) = 61 :: (32 :: triple.quoted) := by
    rw [Triple.keyLine_eq]
    apply dropWhile_append_of_head triple.noEquals
    intro byte member
    cases member
    decide
  have bare : Bare triple.quoted := bare_of_ends (by decide) (by decide)
  have trimmed : trim ([32] ++ (triple.quoted ++ [])) = triple.quoted :=
    trim_of_bare bare (List.forall_mem_singleton.mpr rfl) (by simp)
  rw [List.append_nil] at trimmed
  rw [behind]
  exact trimmed

/-- What is neither a comment nor a section is a line with a key. -/
theorem loadLine_of_cons
    (sourceName : Option Bytes) (loader : Loader) {line rest : Bytes}
    {c : UInt8} (cut : trim (cutNewline line) = c :: rest)
    (mark : isCommentMark c = false) (bracket : c ≠ 91) :
    loadLine sourceName loader line =
      loadPair sourceName { loader with lineN := loader.lineN + 1 }
        (c :: rest) := by
  simp only [loadLine, cut, mark, Bool.false_eq_true, if_false,
    if_neg bracket]

/-- A line with a key is one call of `conf_push`. -/
theorem loadLine_key
    (sourceName : Option Bytes) (loader : Loader) (triple : Triple) :
    loadLine sourceName loader (triple.keyLine ++ [10]) =
      match
        confPush loader.conf loader.curSection triple.key triple.value
          (loader.lineN + 1) with
      | some conf =>
          .ok { loader with conf := conf, lineN := loader.lineN + 1 }
      | none =>
          .error
            { loader.conf with lastErrorMsg := entryLimitMsg sourceName } := by
  rcases triple.exists_keyLine_eq_cons
    with ⟨c, rest, line, space, mark, bracket⟩
  have cut :
      trim (cutNewline (triple.keyLine ++ [10])) = c :: (rest ++ [34]) := by
    rw [cutNewline_of_plain triple.keyLine_plain, line]
    exact trim_bare (bare_of_ends space (by decide))
  have equals : 61 ∈ triple.keyLine := by
    rw [Triple.keyLine_eq]
    simp
  have value : strUnquote (stripComment triple.quoted) = triple.value :=
    strUnquote_stripComment triple.value
  rw [loadLine_of_cons sourceName loader cut mark bracket, ← line]
  cases push :
      confPush loader.conf loader.curSection triple.key triple.value
        (loader.lineN + 1) with
  | none =>
      simp only [loadPair, equals, if_true, triple.keyRaw_eq,
        triple.valRaw_eq, value, if_neg triple.key_ne_nil, push]
  | some conf =>
      simp only [loadPair, equals, if_true, triple.keyRaw_eq,
        triple.valRaw_eq, value, if_neg triple.key_ne_nil, push]

/-! ## A run over lines -/

/-- The loop over lines that fit the buffer. -/
def run (sourceName : Option Bytes) (loader : Loader) (lines : List Bytes) :
    Except ConfResult Loader :=
  lines.foldlM (fun loader line => loadLine sourceName loader (line ++ [10]))
    loader

/-- What `conf_load` returns. -/
def outcome : Except ConfResult Loader → ConfResult
  | .error conf => conf
  | .ok loader => loader.conf

theorem run_append
    (sourceName : Option Bytes) (loader : Loader) (lines more : List Bytes) :
    run sourceName loader (lines ++ more) =
      (run sourceName loader lines).bind fun loader =>
        run sourceName loader more :=
  List.foldlM_append

theorem run_cons
    (sourceName : Option Bytes) (loader : Loader) (line : Bytes)
    (more : List Bytes) :
    run sourceName loader (line :: more) =
      (loadLine sourceName loader (line ++ [10])).bind fun loader =>
        run sourceName loader more :=
  List.foldlM_cons

/-- The loop reads such lines one by one. -/
theorem loadLoop_unlines
    (sourceName : Option Bytes) {lines : List Bytes}
    (readable : ∀ line ∈ lines, 10 ∉ line ∧ line.length < 1023)
    {rounds : Nat} (enough : (unlines lines).length ≤ rounds)
    (loader : Loader) :
    loadLoop sourceName rounds loader (unlines lines) =
      outcome (run sourceName loader lines) := by
  induction lines generalizing rounds loader with
  | nil =>
      cases rounds with
      | zero => rfl
      | succ rounds => rfl
  | cons line lines induction =>
      rcases List.forall_mem_cons.mp readable with ⟨here, later⟩
      have split :
          unlines (line :: lines) = line ++ 10 :: unlines lines := by
        simp [unlines]
      rw [split, List.length_append, List.length_cons] at enough
      cases rounds with
      | zero => omega
      | succ rounds =>
          have read :=
            fgets_of_append here.1 (Nat.succ_lt_succ here.2) (unlines lines)
          rw [split, loadLoop]
          simp only [confMaxLine, read]
          rw [run_cons]
          cases loadLine sourceName loader (line ++ [10]) with
          | error conf => rfl
          | ok next => exact induction later (by omega) next

/-- Idle lines are counted. -/
theorem run_idle
    (sourceName : Option Bytes) (loader : Loader) (idle : List IdleLine) :
    run sourceName loader (idle.map IdleLine.text) =
      .ok { loader with lineN := loader.lineN + idle.length } := by
  induction idle generalizing loader with
  | nil => rfl
  | cons first idle induction =>
      rw [List.map_cons, run_cons, loadLine_idle]
      change run _ _ _ = _
      rw [induction]
      simp only [List.length_cons, Nat.add_assoc, Nat.add_comm 1]

/-- A block is one call of `conf_push` with its triple. -/
theorem run_block
    (sourceName : Option Bytes) (loader : Loader) (block : Block) :
    ∃ lineN,
      run sourceName loader block.lines =
        match
          confPush loader.conf block.triple.sectionName block.triple.key
            block.triple.value lineN with
        | some conf =>
            .ok
              { conf := conf
                curSection := block.triple.sectionName
                lineN := lineN }
        | none =>
            .error
              { loader.conf with
                lastErrorMsg := entryLimitMsg sourceName } := by
  refine
    ⟨loader.lineN + block.before.length + 1 + block.between.length + 1, ?_⟩
  rw [Block.lines, run_append, run_idle, Except.bind]
  simp only
  rw [run_cons, loadLine_section, Except.bind]
  simp only
  rw [run_append, run_idle, Except.bind]
  simp only
  rw [run_cons, loadLine_key]
  simp only
  split
  · rfl
  · rfl

/-- What is stored for the triple of a block. -/
theorem content_confPush
    {conf pushed : ConfResult} {triple : Triple} {lineN : Nat}
    (push :
      confPush conf triple.sectionName triple.key triple.value lineN =
        some pushed) :
    pushed.entries.map content =
      conf.entries.map content ++ [triple.stored] := by
  have sectionCopied :
      copyInto confMaxSection triple.sectionName = triple.sectionName :=
    List.take_of_length_le triple.section_length
  have keyCopied : copyInto confMaxKey triple.key = triple.key :=
    List.take_of_length_le triple.key_length
  have valueCopied : copyInto confMaxValue triple.value = triple.value :=
    List.take_of_length_le triple.value_length
  rw [(confPush_spec push).1, List.map_append, sectionCopied, keyCopied,
    valueCopied]
  rfl

/-- The entries of a run over blocks, and its message. -/
theorem outcome_blocks
    (sourceName : Option Bytes) (trailing : List IdleLine)
    (blocks : List Block) (loader : Loader) :
    let result :=
      outcome
        (run sourceName loader
          (blocks.flatMap Block.lines ++ trailing.map IdleLine.text))
    result.entries.map content =
        (loader.conf.entries.map content ++
          blocks.map fun block => block.triple.stored).take confMaxEntries ∧
      result.lastErrorMsg =
        if confMaxEntries < loader.conf.entries.length + blocks.length then
          entryLimitMsg sourceName
        else loader.conf.lastErrorMsg := by
  induction blocks generalizing loader with
  | nil =>
      have bounded := loader.conf.filled_le.trans loader.conf.capacity_le
      rw [List.flatMap_nil, List.nil_append, run_idle]
      constructor
      · simp only [outcome, List.map_nil, List.append_nil]
        rw [List.take_of_length_le]
        rw [List.length_map]
        exact bounded
      · simp only [outcome, List.length_nil, Nat.add_zero]
        rw [if_neg (Nat.not_lt_of_le bounded)]
  | cons block blocks induction =>
      rcases run_block sourceName loader block with ⟨lineN, ran⟩
      rw [List.flatMap_cons, List.append_assoc, run_append, ran]
      cases push :
          confPush loader.conf block.triple.sectionName block.triple.key
            block.triple.value lineN with
      | none =>
          have full := (confPush_eq_none_iff _ _ _ _ _).mp push
          constructor
          · simp only [Except.bind, outcome]
            rw [List.take_append_of_le_length, List.take_of_length_le]
            · rw [List.length_map]
              exact full.le
            · rw [List.length_map]
              exact full.ge
          · simp only [Except.bind, outcome]
            rw [if_pos]
            rw [full, List.length_cons]
            omega
      | some conf =>
          have pushed := content_confPush push
          have spec := confPush_spec push
          have length :
              conf.entries.length = loader.conf.entries.length + 1 := by
            rw [spec.1, List.length_append]
            rfl
          rcases induction
              { conf := conf
                curSection := block.triple.sectionName
                lineN := lineN }
            with ⟨entries, message⟩
          constructor
          · refine entries.trans ?_
            simp only [pushed, List.map_cons, List.append_assoc,
              List.singleton_append]
          · refine message.trans ?_
            simp only [length, spec.2.1, List.length_cons]
            rw [Nat.add_assoc, Nat.add_comm 1]

/-! ## The file -/

theorem Triple.readable (triple : Triple) :
    ∀ line ∈ [triple.sectionLine, triple.keyLine],
      10 ∉ line ∧ line.length < 1023 := by
  have sectionLength := triple.section_length
  have keyLength := triple.key_length
  have valueLength := triple.value_length
  intro line member
  simp only [List.mem_cons, List.not_mem_nil, or_false] at member
  rcases member with rfl | rfl
  · constructor
    · intro lineFeed
      exact triple.sectionLine_plain 10 lineFeed (by decide)
    · simp only [Triple.sectionLine_eq, List.length_cons, List.length_append,
        List.length_nil]
      omega
  · constructor
    · intro lineFeed
      exact triple.keyLine_plain 10 lineFeed (by decide)
    · simp only [Triple.keyLine_eq, Triple.quoted, List.length_cons,
        List.length_append, List.length_nil]
      omega

theorem idle_readable (idle : List IdleLine) :
    ∀ line ∈ idle.map IdleLine.text, 10 ∉ line ∧ line.length < 1023 := by
  intro line member
  rcases List.mem_map.mp member with ⟨first, _, rfl⟩
  exact ⟨first.oneLine, first.short⟩

/-- Every line of a document fits the buffer. -/
theorem document_readable (blocks : List Block) (trailing : List IdleLine) :
    ∀ line ∈ blocks.flatMap Block.lines ++ trailing.map IdleLine.text,
      10 ∉ line ∧ line.length < 1023 := by
  intro line member
  rcases List.mem_append.mp member with inBlocks | inTrailing
  · rcases List.mem_flatMap.mp inBlocks with ⟨block, _, inBlock⟩
    simp only [Block.lines, List.mem_append, List.mem_cons, List.not_mem_nil,
      or_false] at inBlock
    rcases inBlock with inBefore | rfl | inBetween | rfl
    · exact idle_readable block.before line inBefore
    · exact block.triple.readable _ (by simp)
    · exact idle_readable block.between line inBetween
    · exact block.triple.readable _ (by simp)
  · exact idle_readable trailing line inTrailing

theorem entryLimitMsg_ne_nil (sourceName : Option Bytes) :
    entryLimitMsg sourceName ≠ [] := by
  apply List.ne_nil_of_length_pos
  rw [entryLimitMsg, errorMsg, copyInto, List.length_take, List.length_append,
    List.length_append, List.length_append]
  have lead : (ascii ": reached maximum entry limit (").length = 31 := by decide
  omega

/-- The value that a lookup of a loaded document finds. -/
theorem confGetStr_of_content
    {conf : ConfResult} {triples : List Triple}
    (entries : conf.entries.map content = triples.map Triple.stored)
    (sectionName : Bytes) {key : Bytes} (short : key.length ≤ 63)
    (fallback : Option Bytes) :
    confGetStr conf sectionName key fallback =
      match
        triples.find? fun triple =>
          decide (lower triple.sectionName = lower sectionName) &&
            decide (lower triple.key = lower key) with
      | some triple => some triple.value
      | none => fallback := by
  let found (stored : Bytes × Bytes × Bytes) : Bool :=
    decide (lower stored.1 = lower sectionName) &&
      decide (stored.2.1 = lower key)
  have whole : copyInto confMaxKey key = key := List.take_of_length_le short
  have search :
      (findEntry conf sectionName key).map content =
        (triples.find? fun triple => found triple.stored).map
          Triple.stored := by
    calc
      (findEntry conf sectionName key).map content
          = (conf.entries.find? (found ∘ content)).map content := by
            rw [findEntry, whole]
            rfl
      _ = (triples.map Triple.stored).find? found := by
            rw [← List.find?_map, entries]
      _ = (triples.find? (found ∘ Triple.stored)).map Triple.stored :=
            List.find?_map ..
  change _ = match triples.find? (fun triple => found triple.stored) with
    | some triple => some triple.value
    | none => fallback
  rw [confGetStr]
  cases left : findEntry conf sectionName key with
  | none =>
      cases right : triples.find? (fun triple => found triple.stored) with
      | none => rfl
      | some triple =>
          rw [left, right] at search
          cases search
  | some entry =>
      cases right : triples.find? (fun triple => found triple.stored) with
      | none =>
          rw [left, right] at search
          cases search
      | some triple =>
          rw [left, right] at search
          have same : content entry = triple.stored := Option.some.inj search
          exact congrArg (fun stored => some stored.2.2) same

/-- Loading a document gives its first 512 triples back. -/
theorem confLoad_document
    (path : Bytes) (sourceName : Option Bytes) (blocks : List Block)
    (trailing : List IdleLine) :
    let conf := confLoad path (some (document blocks trailing)) sourceName
    conf.entries.map content =
        (blocks.map fun block => block.triple.stored).take 512 ∧
      (conf.lastErrorMsg = entryLimitMsg sourceName ↔ 512 < blocks.length) ∧
      ∀ (sectionName key : Bytes) (fallback : Option Bytes),
        key.length ≤ 63 →
        confGetStr conf sectionName key fallback =
          match
            ((blocks.map Block.triple).take 512).find? fun triple =>
              decide (lower triple.sectionName = lower sectionName) &&
                decide (lower triple.key = lower key) with
          | some triple => some triple.value
          | none => fallback := by
  intro conf
  have loaded :
      conf =
        outcome
          (run sourceName { conf := confAlloc, curSection := [], lineN := 0 }
            (blocks.flatMap Block.lines ++ trailing.map IdleLine.text)) :=
    loadLoop_unlines sourceName (document_readable blocks trailing)
      (Nat.le_refl _) _
  rcases outcome_blocks sourceName trailing blocks
      { conf := confAlloc, curSection := [], lineN := 0 }
    with ⟨entries, message⟩
  rw [← loaded] at entries message
  have initial : confAlloc.entries = [] := rfl
  simp only [initial, List.map_nil, List.nil_append, List.length_nil,
    Nat.zero_add, confMaxEntries] at entries message
  constructor
  · exact entries
  constructor
  · rw [message]
    constructor
    · intro limit
      by_contra few
      rw [if_neg few] at limit
      exact entryLimitMsg_ne_nil sourceName limit.symm
    · intro many
      rw [if_pos many]
  · intro sectionName key fallback short
    apply confGetStr_of_content _ sectionName short
    rw [entries, List.map_take, List.map_map]
    rfl

/-- A value with everything that means something outside of quotes. -/
def sampleTriple : Triple where
  sectionName := ascii "mqtt"
  key := ascii "Topic"
  value := ascii " a # \"b\" = [c] "
  section_length := by decide
  section_bare := { front := by decide +kernel, back := by decide +kernel }
  section_bytes := by decide +kernel
  key_length := by decide
  key_ne_nil := by decide
  key_bare := { front := by decide +kernel, back := by decide +kernel }
  key_bytes := by decide +kernel
  key_first := by decide +kernel
  value_length := by decide
  value_bytes := by decide +kernel

/-- It is found under either case of the section and of the key. -/
theorem confLoad_document_sample :
    confGetStr
        (confLoad (ascii "app.conf")
          (some
            (document
              [{ before := [], between := [], triple := sampleTriple }] []))
          none)
        (ascii "MQTT") (ascii "TOPIC") none =
      some (ascii " a # \"b\" = [c] ") :=
  (confLoad_document (ascii "app.conf") none
    [{ before := [], between := [], triple := sampleTriple }] []).2.2
    (ascii "MQTT") (ascii "TOPIC") none (by decide)

end AccelObserver.Shared.ConfDocument
