import AccelObserver.Library.TextLines
import AccelObserver.Shared.ConfDocument
import AccelObserver.Shared.ConfPieces

/-!
# Lines and pieces

`conf_load` takes each piece that `fgets` gives for a line of its own.  A line
of more than 1022 bytes comes in several pieces: each can store an entry, the
later ones also where the line is a comment, and from there on the numbers of
the lines are wrong.  `linesAreUnits_iff` says when none of this shows in what
is stored.
-/

namespace AccelObserver.Shared.ConfLines

open AccelObserver.Library
open AccelObserver.Library.CNumber (isSpace)
open AccelObserver.Library.CString
open AccelObserver.Library.TextLines
  (lines lines_append_cons exists_lines_append)
open AccelObserver.Shared.ConfParser
open AccelObserver.Shared.ConfDocument
  (head_trim head_dropWhile_takeWhile head_dropWhile_lineFeed)
open AccelObserver.Shared.ConfLookup (newEntry)
open AccelObserver.Shared.ConfPieces

/-! ## Where an entry comes from -/

/-- The settings among the pieces, with the line each was read from. -/
def origins (curSection : Bytes) (lineN line : Nat) :
    List Bytes → List (Nat × ConfEntry)
  | [] => []
  | piece :: more =>
      let later :=
        origins (nextSection curSection piece) (lineN + 1)
          (line + piece.count 10) more
      match pieceSetting piece with
      | none => later
      | some (key, value) =>
          (line, newEntry curSection key value (lineN + 1)) :: later

/-- What is stored of a file, with the line each entry was read from. -/
def storedFrom (file : Bytes) : List (Nat × ConfEntry) :=
  (origins [] 0 1 (filePieces file)).take confMaxEntries

theorem map_snd_origins
    (curSection : Bytes) (lineN line : Nat) (pieces : List Bytes) :
    (origins curSection lineN line pieces).map Prod.snd =
      settings curSection lineN pieces := by
  induction pieces generalizing curSection lineN line with
  | nil => rfl
  | cons piece more induction =>
      rw [origins, settings]
      cases pieceSetting piece with
      | none => exact induction _ _ _
      | some pair =>
          rw [List.map_cons, induction]

/-- These are the entries that `conf_load` stores. -/
theorem map_snd_storedFrom (file : Bytes) (sourceName : Option Bytes) :
    (storedFrom file).map Prod.snd = (confLoadFp file sourceName).entries := by
  rw [storedFrom, List.map_take, map_snd_origins, entries_confLoadFp]

theorem origins_append
    (curSection : Bytes) (lineN line : Nat) (front behind : List Bytes) :
    origins curSection lineN line (front ++ behind) =
      origins curSection lineN line front ++
        origins (front.foldl nextSection curSection) (lineN + front.length)
          (line + front.flatten.count 10) behind := by
  induction front generalizing curSection lineN line with
  | nil => rfl
  | cons piece front induction =>
      rw [List.cons_append, origins, origins, induction, List.foldl_cons,
        List.length_cons, List.flatten_cons, List.count_append,
        Nat.add_assoc, Nat.add_assoc, Nat.add_comm 1]
      cases pieceSetting piece with
      | none => rfl
      | some pair => rfl

theorem origins_eq_nil_iff
    (curSection : Bytes) (lineN line : Nat) (pieces : List Bytes) :
    origins curSection lineN line pieces = [] ↔
      ∀ piece ∈ pieces, pieceSetting piece = none := by
  rw [← List.length_eq_zero_iff, ← List.length_map (f := Prod.snd),
    map_snd_origins, length_settings, List.length_eq_zero_iff,
    List.filterMap_eq_nil_iff]

/-! ## The law -/

/-- A line whose first byte that is not white space begins a comment. -/
def IsCommentLine (text : Bytes) : Prop :=
  ∃ byte ∈ (text.dropWhile isSpace).head?, isCommentMark byte = true

/--
At most one entry comes from a line, each comes from a line that is not a
comment, and each has the number of its line.
-/
structure LinesAreUnits (file : Bytes) : Prop where
  oneEach : ((storedFrom file).map Prod.fst).Nodup
  noComment :
    ∀ stored ∈ storedFrom file,
      ∃ text ∈ (lines file)[stored.1 - 1]?, ¬ IsCommentLine text
  lineN : ∀ stored ∈ storedFrom file, stored.2.lineN = stored.1

/-- A piece that ends a line. -/
def endsLine (piece : Bytes) : Bool :=
  piece.getLast? == some 10

/-- The pieces up to the first that does not end its line. -/
def frontPieces (file : Bytes) : List Bytes :=
  (filePieces file).takeWhile endsLine ++
    ((filePieces file).dropWhile endsLine).take 1

/-- The pieces behind it: the rest of a line of more than 1022 bytes, and
the lines that follow. -/
def cutPieces (file : Bytes) : List Bytes :=
  ((filePieces file).dropWhile endsLine).drop 1

/-- No piece behind the first cut stores an entry. -/
def CutIsSilent (file : Bytes) : Prop :=
  (∀ piece ∈ cutPieces file, pieceSetting piece = none) ∨
    confMaxEntries ≤ ((frontPieces file).filterMap pieceSetting).length

instance (file : Bytes) : Decidable (CutIsSilent file) :=
  inferInstanceAs (Decidable (_ ∨ _))

theorem filePieces_eq (file : Bytes) :
    filePieces file = frontPieces file ++ cutPieces file := by
  rw [frontPieces, cutPieces, List.append_assoc, List.take_append_drop,
    List.takeWhile_append_dropWhile]

/-! ## Pieces -/

/-- A part of one line, perhaps with its line feed. -/
structure IsPiece (piece : Bytes) : Prop where
  notEmpty : piece ≠ []
  split : ∃ text feed,
    piece = text ++ feed ∧ 10 ∉ text ∧ (feed = [] ∨ feed = [10])

theorem isPiece_of_mem_pieces
    {rounds : Nat} {file piece : Bytes} (member : piece ∈ pieces rounds file) :
    IsPiece piece := by
  induction rounds generalizing file with
  | zero => cases member
  | succ rounds induction =>
      cases file with
      | nil => cases member
      | cons c file =>
          rw [pieces_cons] at member
          rcases List.mem_cons.mp member with rfl | later
          · refine ⟨takeLine_ne_nil (by decide) (List.cons_ne_nil _ _), ?_⟩
            rcases exists_takeLine_eq (confMaxLine - 1) (c :: file)
              with ⟨text, feed, read, noFeed, isFeed, _⟩
            exact ⟨text, feed, read, noFeed, isFeed⟩
          · exact induction later

/-- The whole file is read. -/
theorem flatten_pieces
    {rounds : Nat} {file : Bytes} (enough : file.length ≤ rounds) :
    (pieces rounds file).flatten = file := by
  induction rounds generalizing file with
  | zero =>
      rw [List.length_eq_zero_iff.mp (Nat.le_zero.mp enough)]
      rfl
  | succ rounds induction =>
      cases file with
      | nil => rfl
      | cons c file =>
          rcases exists_takeLine_eq (confMaxLine - 1) (c :: file)
            with ⟨text, feed, _, _, _, whole⟩
          have notEmpty :=
            takeLine_ne_nil (by decide : 0 < confMaxLine - 1)
              (List.cons_ne_nil c file)
          have shorter :
              (takeLine (confMaxLine - 1) (c :: file)).2.length ≤ rounds := by
            have lengths := congrArg List.length whole
            have positive := List.length_pos_iff.mpr notEmpty
            rw [List.length_append] at lengths
            omega
          rw [pieces_cons, List.flatten_cons, induction shorter, ← whole]

/-- A piece ends at most one line. -/
theorem IsPiece.count {piece : Bytes} (isPiece : IsPiece piece) :
    piece.count 10 = if endsLine piece then 1 else 0 := by
  rcases isPiece.split with ⟨text, feed, rfl, noFeed, rfl | rfl⟩
  · have goesOn : endsLine (text ++ []) = false := by
      rw [List.append_nil, endsLine, beq_eq_false_iff_ne]
      exact fun last => noFeed (List.mem_of_getLast? last)
    rw [goesOn, List.append_nil]
    exact List.count_eq_zero.mpr noFeed
  · have ends : endsLine (text ++ [10]) = true := by
      simp [endsLine]
    rw [ends, List.count_append, List.count_eq_zero.mpr noFeed]
    rfl

/-- A setting does not begin with a mark. -/
theorem exists_head_of_setting
    {piece : Bytes} (setting : (pieceSetting piece).isSome) :
    ∃ byte ∈ (piece.dropWhile isSpace).head?, isCommentMark byte = false := by
  rw [pieceSetting] at setting
  split at setting
  · cases setting
  case h_2 c rest trimmed =>
    have first : c ∈ (trim (cutNewline piece)).head? := by
      rw [trimmed]
      rfl
    refine
      ⟨c, head_dropWhile_takeWhile
        (head_dropWhile_takeWhile (head_trim first)), ?_⟩
    by_contra isMark
    rw [if_pos (Or.inl (by simpa using isMark))] at setting
    cases setting

/-- What follows in the line does not change its first byte. -/
theorem not_isCommentLine_append
    {text : Bytes}
    (begins :
      ∃ byte ∈ (text.dropWhile isSpace).head?, isCommentMark byte = false)
    (follows : Bytes) : ¬ IsCommentLine (text ++ follows) := by
  rcases begins with ⟨byte, first, noMark⟩
  rintro ⟨other, firstOther, isMark⟩
  rw [List.dropWhile_append] at firstOther
  cases dropped : text.dropWhile isSpace with
  | nil =>
      rw [dropped] at first
      cases first
  | cons c more =>
      rw [dropped] at first firstOther
      cases first
      cases firstOther
      rw [noMark] at isMark
      cases isMark

/-- The line that begins with a piece. -/
theorem exists_lines_of_piece
    {piece : Bytes} (isPiece : IsPiece piece) (behind : Bytes) :
    ∃ text more,
      lines (piece ++ behind) = text :: more ∧
        (endsLine piece = true → more = lines behind) ∧
        ((pieceSetting piece).isSome → ¬ IsCommentLine text) := by
  rcases isPiece.split with ⟨text, feed, split, noFeed, rfl | rfl⟩
  · rw [List.append_nil] at split
    subst split
    rcases exists_lines_append isPiece.notEmpty noFeed behind
      with ⟨follows, more, linesEq⟩
    refine ⟨piece ++ follows, more, linesEq, ?_, ?_⟩
    · intro ends
      rw [endsLine, beq_iff_eq] at ends
      exact absurd (List.mem_of_getLast? ends) noFeed
    · intro setting
      exact not_isCommentLine_append (exists_head_of_setting setting) follows
  · refine ⟨text, lines behind, ?_, fun _ => rfl, ?_⟩
    · rw [split, List.append_assoc]
      exact lines_append_cons noFeed behind
    · intro setting
      rcases exists_head_of_setting setting with ⟨byte, first, noMark⟩
      rw [split] at first
      have begins :
          ∃ byte ∈ (text.dropWhile isSpace).head?,
            isCommentMark byte = false :=
        ⟨byte, head_dropWhile_lineFeed first, noMark⟩
      rw [← List.append_nil text]
      exact not_isCommentLine_append begins []

/-! ## The pieces before the first cut -/

/-- An entry of the first piece, or of a later one. -/
theorem mem_origins_cons
    {curSection piece : Bytes} {lineN line : Nat} {more : List Bytes}
    {stored : Nat × ConfEntry}
    (member : stored ∈ origins curSection lineN line (piece :: more)) :
    ((pieceSetting piece).isSome ∧ stored.1 = line ∧
        stored.2.lineN = lineN + 1) ∨
      stored ∈
        origins (nextSection curSection piece) (lineN + 1)
          (line + piece.count 10) more := by
  rw [origins] at member
  cases setting : pieceSetting piece with
  | none =>
      rw [setting] at member
      exact Or.inr member
  | some pair =>
      rw [setting] at member
      rcases List.mem_cons.mp member with rfl | later
      · exact Or.inl ⟨rfl, rfl, rfl⟩
      · exact Or.inr later

/-- The place of an entry: its number, and a line that is not a comment. -/
def InPlace (lineN : Nat) (text : Bytes) (stored : Nat × ConfEntry) : Prop :=
  lineN < stored.1 ∧ stored.2.lineN = stored.1 ∧
    ∃ line ∈ (lines text)[stored.1 - (lineN + 1)]?, ¬ IsCommentLine line

theorem inPlace_of_first
    {lineN : Nat} {piece : Bytes} (isPiece : IsPiece piece) (behind : Bytes)
    {stored : Nat × ConfEntry} (setting : (pieceSetting piece).isSome)
    (origin : stored.1 = lineN + 1) (number : stored.2.lineN = lineN + 1) :
    InPlace lineN (piece ++ behind) stored := by
  rcases exists_lines_of_piece isPiece behind
    with ⟨line, more, split, _, noComment⟩
  refine ⟨?_, number.trans origin.symm, line, ?_, noComment setting⟩
  · rw [origin]
    exact Nat.lt_succ_self lineN
  · rw [origin, Nat.sub_self, split]
    rfl

/-- A line in front shifts the places. -/
theorem inPlace_of_later
    {lineN : Nat} {piece : Bytes} (isPiece : IsPiece piece)
    (ends : endsLine piece = true) (behind : Bytes) {stored : Nat × ConfEntry}
    (later : InPlace (lineN + 1) behind stored) :
    InPlace lineN (piece ++ behind) stored := by
  rcases exists_lines_of_piece isPiece behind
    with ⟨first, more, split, whole, _⟩
  rcases later with ⟨beyond, number, line, found, noComment⟩
  refine ⟨Nat.lt_of_succ_lt beyond, number, line, ?_, noComment⟩
  have index : stored.1 - (lineN + 1) = stored.1 - (lineN + 1 + 1) + 1 := by
    omega
  rw [split, whole ends, index, List.getElem?_cons_succ]
  exact found

/--
The pieces are whole lines, but the last one need not be.  So each has the
number of its line.
-/
theorem origins_inPlace
    {whole last : List Bytes} (isPiece : ∀ piece ∈ whole ++ last, IsPiece piece)
    (ends : ∀ piece ∈ whole, endsLine piece = true)
    (atMostOne : last.length ≤ 1) (behind : Bytes)
    (curSection : Bytes) (lineN : Nat) :
    ∀ stored ∈ origins curSection lineN (lineN + 1) (whole ++ last),
      InPlace lineN ((whole ++ last).flatten ++ behind) stored := by
  induction whole generalizing curSection lineN with
  | nil =>
      intro stored member
      rcases last with _ | ⟨piece, _ | ⟨other, more⟩⟩
      · cases member
      · rcases mem_origins_cons member with ⟨setting, origin, number⟩ | none
        · rw [List.nil_append, List.flatten_singleton]
          exact inPlace_of_first (isPiece piece List.mem_cons_self) behind
            setting origin number
        · cases none
      · simp at atMostOne
  | cons piece whole induction =>
      intro stored member
      rw [List.cons_append] at isPiece member ⊢
      rcases List.forall_mem_cons.mp isPiece with ⟨first, others⟩
      rcases List.forall_mem_cons.mp ends with ⟨endsFirst, endsOthers⟩
      rw [List.flatten_cons, List.append_assoc]
      rcases mem_origins_cons member with ⟨setting, origin, number⟩ | later
      · exact inPlace_of_first first _ setting origin number
      · rw [first.count, if_pos endsFirst] at later
        exact inPlace_of_later first endsFirst _
          (induction others endsOthers _ _ stored later)

/-! ## The pieces behind it -/

/-- Behind a cut the numbers are too great. -/
theorem origins_behind
    {pieces : List Bytes} (isPiece : ∀ piece ∈ pieces, IsPiece piece)
    {lineN line : Nat} (cut : line ≤ lineN) (curSection : Bytes) :
    ∀ stored ∈ origins curSection lineN line pieces,
      stored.1 < stored.2.lineN := by
  induction pieces generalizing curSection lineN line with
  | nil =>
      intro stored member
      cases member
  | cons piece more induction =>
      intro stored member
      rcases List.forall_mem_cons.mp isPiece with ⟨first, others⟩
      rcases mem_origins_cons member with ⟨_, origin, number⟩ | later
      · rw [origin, number]
        exact Nat.lt_succ_of_le cut
      · refine induction others ?_ _ stored later
        rw [first.count]
        split_ifs
        · exact Nat.succ_le_succ cut
        · exact Nat.le_succ_of_le cut

/-- Whole lines have as many line feeds as there are of them. -/
theorem count_flatten
    {whole : List Bytes} (isPiece : ∀ piece ∈ whole, IsPiece piece)
    (ends : ∀ piece ∈ whole, endsLine piece = true) :
    whole.flatten.count 10 = whole.length := by
  induction whole with
  | nil => rfl
  | cons piece whole induction =>
      rcases List.forall_mem_cons.mp isPiece with ⟨first, others⟩
      rcases List.forall_mem_cons.mp ends with ⟨endsFirst, endsOthers⟩
      rw [List.flatten_cons, List.count_append, first.count,
        if_pos endsFirst, induction others endsOthers, List.length_cons,
        Nat.add_comm]

/-- The line that is cut is counted twice. -/
theorem count_frontPieces
    {file : Bytes} (cut : cutPieces file ≠ []) :
    1 + (frontPieces file).flatten.count 10 ≤ (frontPieces file).length := by
  have isPiece : ∀ piece ∈ filePieces file, IsPiece piece :=
    fun _ member => isPiece_of_mem_pieces member
  have isWhole : ∀ piece ∈ (filePieces file).takeWhile endsLine,
      IsPiece piece :=
    fun piece member => isPiece piece (List.takeWhile_prefix _ |>.subset member)
  have ends : ∀ piece ∈ (filePieces file).takeWhile endsLine,
      endsLine piece = true :=
    fun _ member => List.mem_takeWhile_imp member
  cases rest : (filePieces file).dropWhile endsLine with
  | nil =>
      rw [cutPieces, rest] at cut
      exact absurd rfl cut
  | cons piece more =>
      have goesOn : endsLine piece = false := by
        have stops := List.head?_dropWhile_not endsLine (filePieces file)
        rw [rest] at stops
        simpa using stops
      have member : piece ∈ filePieces file := by
        apply (List.dropWhile_suffix endsLine).subset
        rw [rest]
        exact List.mem_cons_self
      have noFeed : piece.count 10 = 0 := by
        rw [(isPiece piece member).count, goesOn]
        rfl
      rw [frontPieces, rest, List.take_succ_cons, List.take_zero,
        List.flatten_append, List.count_append, count_flatten isWhole ends,
        List.flatten_singleton, noFeed, List.length_append,
        List.length_singleton]
      omega

/-! ## The law and the cut -/

/-- The entries of the pieces behind the first cut. -/
def cutOrigins (file : Bytes) : List (Nat × ConfEntry) :=
  origins ((frontPieces file).foldl nextSection []) (frontPieces file).length
    (1 + (frontPieces file).flatten.count 10) (cutPieces file)

/-- They are stored as far as the entries before leave room. -/
theorem storedFrom_eq (file : Bytes) :
    storedFrom file =
      (origins [] 0 1 (frontPieces file)).take confMaxEntries ++
        (cutOrigins file).take
          (confMaxEntries -
            ((frontPieces file).filterMap pieceSetting).length) := by
  have length :
      (origins [] 0 1 (frontPieces file)).length =
        ((frontPieces file).filterMap pieceSetting).length := by
    rw [← length_settings [] 0, ← map_snd_origins [] 0 1, List.length_map]
  rw [storedFrom, filePieces_eq, origins_append, Nat.zero_add,
    List.take_append, length]
  rfl

theorem cutIsSilent_iff (file : Bytes) :
    CutIsSilent file ↔
      (cutOrigins file).take
          (confMaxEntries -
            ((frontPieces file).filterMap pieceSetting).length) =
        [] := by
  rw [CutIsSilent, List.take_eq_nil_iff, Nat.sub_eq_zero_iff_le, cutOrigins,
    origins_eq_nil_iff]
  exact or_comm

/-- What is stored behind the cut has the number of a later line. -/
theorem cutOrigins_number {file : Bytes} {stored : Nat × ConfEntry}
    (member : stored ∈ cutOrigins file) : stored.1 < stored.2.lineN := by
  have isPiece : ∀ piece ∈ cutPieces file, IsPiece piece := by
    intro piece inCut
    have inFile : piece ∈ filePieces file := by
      rw [filePieces_eq]
      exact List.mem_append_right _ inCut
    exact isPiece_of_mem_pieces inFile
  have cut : cutPieces file ≠ [] := by
    intro empty
    rw [cutOrigins, empty] at member
    cases member
  exact origins_behind isPiece (count_frontPieces cut) _ stored member

/-- What is stored before it is in its place. -/
theorem front_inPlace (file : Bytes) :
    ∀ stored ∈ origins [] 0 1 (frontPieces file), InPlace 0 file stored := by
  have whole :
      (frontPieces file).flatten ++ (cutPieces file).flatten = file := by
    rw [← List.flatten_append, ← filePieces_eq]
    exact flatten_pieces (Nat.le_refl _)
  have isPiece : ∀ piece ∈ frontPieces file, IsPiece piece := by
    intro piece inFront
    have inFile : piece ∈ filePieces file := by
      rw [filePieces_eq]
      exact List.mem_append_left _ inFront
    exact isPiece_of_mem_pieces inFile
  have ends : ∀ piece ∈ (filePieces file).takeWhile endsLine,
      endsLine piece = true :=
    fun _ member => List.mem_takeWhile_imp member
  have inPlace :=
    origins_inPlace isPiece ends (List.length_take_le _ _)
      (cutPieces file).flatten [] 0
  rw [← frontPieces, whole] at inPlace
  exact inPlace

/-- Entries with increasing numbers that are those of their lines. -/
theorem nodup_of_lineN
    {file : Bytes} (lineN : ∀ stored ∈ storedFrom file,
      stored.2.lineN = stored.1) : ((storedFrom file).map Prod.fst).Nodup := by
  have increasing :
      (storedFrom file).Pairwise fun before after =>
        before.2.lineN < after.2.lineN := by
    have settingsIncrease := lineN_increasing [] 0 (filePieces file)
    rw [← map_snd_origins [] 0 1, List.pairwise_map] at settingsIncrease
    exact settingsIncrease.take
  rw [List.Nodup, List.pairwise_map]
  refine increasing.imp_of_mem ?_
  intro before after inBefore inAfter less
  rw [lineN before inBefore, lineN after inAfter] at less
  exact Nat.ne_of_lt less

/--
`conf_load` takes a file line by line, at most one entry from each line, none
from a comment, and each with the number of its line, exactly when nothing is
stored behind the first 1023 bytes of the first line that is longer than the
buffer.
-/
theorem linesAreUnits_iff
    (path file : Bytes) (sourceName : Option Bytes) :
    (storedFrom file).map Prod.snd =
        (confLoad path (some file) sourceName).entries ∧
      (LinesAreUnits file ↔ CutIsSilent file) := by
  refine ⟨map_snd_storedFrom file sourceName, ?_⟩
  rw [cutIsSilent_iff]
  constructor
  · intro units
    by_contra loud
    rcases List.exists_mem_of_ne_nil _ loud with ⟨stored, member⟩
    have inFile : stored ∈ storedFrom file := by
      rw [storedFrom_eq]
      exact List.mem_append_right _ member
    have number := units.lineN stored inFile
    have greater := cutOrigins_number (List.mem_of_mem_take member)
    rw [number] at greater
    exact Nat.lt_irrefl _ greater
  · intro silent
    have inPlace : ∀ stored ∈ storedFrom file, InPlace 0 file stored := by
      intro stored member
      rw [storedFrom_eq, silent, List.append_nil] at member
      exact front_inPlace file stored (List.mem_of_mem_take member)
    have lineN : ∀ stored ∈ storedFrom file,
        stored.2.lineN = stored.1 :=
      fun stored member => (inPlace stored member).2.1
    exact
      { oneEach := nodup_of_lineN lineN
        noComment := fun stored member => (inPlace stored member).2.2
        lineN := lineN }

/-- A comment whose text goes on with a setting behind the buffer. -/
def longComment : Bytes :=
  35 :: List.replicate 1022 120 ++ ascii "key = v\n"

/-- The comment is its only line, and stores an entry for a second line. -/
theorem longComment_stores :
    (confLoad (ascii "a.conf") (some longComment) none).entries =
        [{ sectionName := [], key := ascii "key", value := ascii "v",
           lineN := 2 }] ∧
      lines longComment = [longComment.dropLast] ∧
      IsCommentLine longComment.dropLast ∧ ¬ LinesAreUnits longComment := by
  have stored :
      storedFrom longComment =
        [(1, { sectionName := [], key := ascii "key", value := ascii "v",
               lineN := 2 })] := by
    decide +kernel
  refine ⟨by decide +kernel, by decide +kernel, ⟨35, rfl, rfl⟩, ?_⟩
  intro units
  have number := units.lineN _ (by rw [stored]; exact List.mem_cons_self)
  exact absurd number (by decide)

end AccelObserver.Shared.ConfLines
