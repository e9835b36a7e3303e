import AccelObserver.Shared.ConfLookup

/-!
# What the pieces of a file store

`conf_load` reads a file in the pieces that `fgets` gives.  Each piece is
looked at alone: it is a setting, or changes the section, or is passed over.
`entries_confLoadFp` says what the loop leaves behind, which is the settings
among the pieces, numbered as they are read, as far as 512 entries go.
-/

namespace AccelObserver.Shared.ConfPieces

open AccelObserver.Library
open AccelObserver.Library.CNumber (isSpace)
open AccelObserver.Library.CString
open AccelObserver.Shared.ConfParser
open AccelObserver.Shared.ConfLookup (newEntry)

/-- The pieces that `fgets` reads in at most so many rounds. -/
def pieces : Nat → Bytes → List Bytes
  | 0, _ => []
  | rounds + 1, file =>
      match fgets confMaxLine file with
      | none => []
      | some (piece, file) => piece :: pieces rounds file

/-- All pieces of a file. -/
def filePieces (file : Bytes) : List Bytes :=
  pieces file.length file

theorem pieces_cons (rounds : Nat) (c : UInt8) (file : Bytes) :
    pieces (rounds + 1) (c :: file) =
      (takeLine (confMaxLine - 1) (c :: file)).1 ::
        pieces rounds (takeLine (confMaxLine - 1) (c :: file)).2 :=
  rfl

/-! ## One piece -/

/-- The key and the value of a piece that is a setting. -/
def pieceSetting (piece : Bytes) : Option (Bytes × Bytes) :=
  let p := trim (cutNewline piece)
  match p with
  | [] => none
  | c :: _ =>
      if isCommentMark c ∨ c = 91 then none
      else if 61 ∈ p then
        let keyRaw := trim (p.takeWhile (· != 61))
        let valRaw := trim ((p.dropWhile (· != 61)).drop 1)
        if keyRaw = [] then none
        else some (keyRaw, strUnquote (stripComment valRaw))
      else none

/-- The section behind a piece. -/
def nextSection (curSection piece : Bytes) : Bytes :=
  let p := trim (cutNewline piece)
  if p.head? = some 91 ∧ 93 ∈ p then
    copyInto confMaxSection (trim ((p.drop 1).takeWhile (· != 93)))
  else curSection

/-- What the body of the loop does with a piece. -/
inductive Step (sourceName : Option Bytes) (loader : Loader) (piece : Bytes) :
    Except ConfResult Loader → Prop
  | pass
      (next : Loader)
      (noSetting : pieceSetting piece = none)
      (entries : next.conf.entries = loader.conf.entries)
      (curSection : next.curSection = nextSection loader.curSection piece)
      (lineN : next.lineN = loader.lineN + 1) :
      Step sourceName loader piece (.ok next)
  | push
      (next : Loader) (key value : Bytes)
      (setting : pieceSetting piece = some (key, value))
      (pushed :
        confPush loader.conf loader.curSection key value (loader.lineN + 1) =
          some next.conf)
      (curSection : next.curSection = nextSection loader.curSection piece)
      (lineN : next.lineN = loader.lineN + 1) :
      Step sourceName loader piece (.ok next)
  | full
      (conf : ConfResult) (key value : Bytes)
      (setting : pieceSetting piece = some (key, value))
      (filled : loader.conf.entries.length = confMaxEntries)
      (entries : conf.entries = loader.conf.entries) :
      Step sourceName loader piece (.error conf)

section Step

variable {loader : Loader} {piece : Bytes}

theorem nextSection_of_head
    (noBracket : (trim (cutNewline piece)).head? ≠ some 91)
    (curSection : Bytes) : nextSection curSection piece = curSection :=
  if_neg fun both => noBracket both.1

/-- A line that begins with a bracket sets the section, or nothing. -/
theorem loadSection_eq
    (loader : Loader) {p : Bytes} (bracket : p.head? = some 91)
    (cut : trim (cutNewline piece) = p) (sourceName : Option Bytes) :
    (loadSection sourceName loader p).conf.entries = loader.conf.entries ∧
      (loadSection sourceName loader p).curSection =
        nextSection loader.curSection piece ∧
      (loadSection sourceName loader p).lineN = loader.lineN := by
  rw [loadSection, nextSection, cut]
  by_cases closed : 93 ∈ p
  · rw [if_pos closed, if_pos ⟨bracket, closed⟩]
    exact ⟨rfl, rfl, rfl⟩
  · rw [if_neg closed, if_neg fun both => closed both.2]
    exact ⟨rfl, rfl, rfl⟩

/-- A line that is neither a comment nor a section. -/
theorem step_loadPair
    {c : UInt8} {rest : Bytes} (cut : trim (cutNewline piece) = c :: rest)
    (mark : isCommentMark c = false) (bracket : c ≠ 91)
    (sourceName : Option Bytes) :
    Step sourceName loader piece
      (loadPair sourceName { loader with lineN := loader.lineN + 1 }
        (c :: rest)) := by
  have sameSection :
      loader.curSection = nextSection loader.curSection piece := by
    refine (nextSection_of_head ?_ _).symm
    rw [cut, List.head?_cons]
    exact fun same => bracket (Option.some.inj same)
  have noMark : ¬ (isCommentMark c = true ∨ c = 91) := by
    simp [mark, bracket]
  by_cases equals : 61 ∈ c :: rest
  · by_cases keyless : trim ((c :: rest).takeWhile (· != 61)) = []
    · have noSetting : pieceSetting piece = none := by
        simp only [pieceSetting, cut, if_neg noMark, if_pos equals,
          if_pos keyless]
      simp only [loadPair, if_pos equals, if_pos keyless]
      exact .pass _ noSetting rfl sameSection rfl
    · have setting :
          pieceSetting piece =
            some
              (trim ((c :: rest).takeWhile (· != 61)),
                strUnquote
                  (stripComment
                    (trim (((c :: rest).dropWhile (· != 61)).drop 1)))) := by
        simp only [pieceSetting, cut, if_neg noMark, if_pos equals,
          if_neg keyless]
      simp only [loadPair, if_pos equals, if_neg keyless]
      split
      case h_1 conf pushed =>
        exact .push _ _ _ setting pushed sameSection rfl
      case h_2 pushed =>
        exact .full _ _ _ setting
          ((confPush_eq_none_iff _ _ _ _ _).mp pushed) rfl
  · have noSetting : pieceSetting piece = none := by
      simp only [pieceSetting, cut, if_neg noMark, if_neg equals]
    simp only [loadPair, if_neg equals]
    split
    · exact .pass _ noSetting rfl sameSection rfl
    · exact .pass _ noSetting rfl sameSection rfl

/-- The body of the loop does one of these. -/
theorem step_loadLine
    (sourceName : Option Bytes) (loader : Loader) (piece : Bytes) :
    Step sourceName loader piece (loadLine sourceName loader piece) := by
  cases cut : trim (cutNewline piece) with
  | nil =>
      have sameSection :
          nextSection loader.curSection piece = loader.curSection :=
        nextSection_of_head (by simp [cut]) _
      simp only [loadLine, cut]
      exact .pass _ (by simp [pieceSetting, cut]) rfl sameSection.symm rfl
  | cons c rest =>
      by_cases mark : isCommentMark c = true
      · have noBracket : (trim (cutNewline piece)).head? ≠ some 91 := by
          rw [cut, List.head?_cons]
          rintro same
          rw [Option.some.inj same] at mark
          exact absurd mark (by decide)
        simp only [loadLine, cut, if_pos mark]
        exact .pass _ (by simp [pieceSetting, cut, mark]) rfl
          (nextSection_of_head noBracket _).symm rfl
      · by_cases bracket : c = 91
        · rcases loadSection_eq { loader with lineN := loader.lineN + 1 }
              (by rw [bracket]; rfl) cut sourceName
            with ⟨entries, curSection, lineN⟩
          simp only [loadLine, cut, if_neg mark, if_pos bracket]
          exact .pass _ (by simp [pieceSetting, cut, bracket]) entries
            curSection lineN
        · simp only [loadLine, cut, if_neg mark, if_neg bracket]
          exact step_loadPair cut (by simpa using mark) bracket sourceName

end Step

/-! ## All pieces -/

/-- The entries for the settings among the pieces. -/
def settings (curSection : Bytes) (lineN : Nat) : List Bytes → List ConfEntry
  | [] => []
  | piece :: more =>
      let later := settings (nextSection curSection piece) (lineN + 1) more
      match pieceSetting piece with
      | none => later
      | some (key, value) =>
          newEntry curSection key value (lineN + 1) :: later

/-- The loop over pieces, up to the `break`. -/
def runPieces
    (sourceName : Option Bytes) (loader : Loader) :
    List Bytes → ConfResult
  | [] => loader.conf
  | piece :: more =>
      match loadLine sourceName loader piece with
      | .error conf => conf
      | .ok loader => runPieces sourceName loader more

theorem loadLoop_eq_runPieces
    (sourceName : Option Bytes) (rounds : Nat) (loader : Loader)
    (file : Bytes) :
    loadLoop sourceName rounds loader file =
      runPieces sourceName loader (pieces rounds file) := by
  induction rounds generalizing loader file with
  | zero => rfl
  | succ rounds induction =>
      rw [loadLoop, pieces]
      cases fgets confMaxLine file with
      | none => rfl
      | some read =>
          simp only [runPieces]
          cases loadLine sourceName loader read.1 with
          | error conf => rfl
          | ok next => exact induction next read.2

/-- The loop stores the settings among the pieces, as far as there is room. -/
theorem entries_runPieces
    (sourceName : Option Bytes) (loader : Loader) (pieces : List Bytes) :
    (runPieces sourceName loader pieces).entries =
      loader.conf.entries ++
        (settings loader.curSection loader.lineN pieces).take
          (confMaxEntries - loader.conf.entries.length) := by
  induction pieces generalizing loader with
  | nil => simp [runPieces, settings]
  | cons piece more induction =>
      have step := step_loadLine sourceName loader piece
      rw [runPieces, settings]
      cases result : loadLine sourceName loader piece with
      | error conf =>
          rw [result] at step
          cases step with
          | full _ _ _ setting filled entries =>
              rw [filled, Nat.sub_self, List.take_zero, List.append_nil]
              exact entries
      | ok next =>
          rw [result] at step
          simp only
          rw [induction next]
          cases step with
          | pass _ noSetting entries curSection lineN =>
              rw [noSetting, entries, curSection, lineN]
          | push _ key value setting pushed curSection lineN =>
              have entries := (confPush_spec pushed).1
              have room :
                  loader.conf.entries.length < confMaxEntries := by
                have bound := next.conf.filled_le.trans next.conf.capacity_le
                rw [entries, List.length_append, List.length_singleton]
                  at bound
                exact bound
              rw [setting, entries, curSection, lineN, List.length_append,
                List.length_singleton, List.append_assoc, ← Nat.sub_sub]
              rw [List.take_cons (Nat.sub_pos_of_lt room)]
              rfl

/-- What `conf_load` leaves behind. -/
theorem entries_confLoadFp (file : Bytes) (sourceName : Option Bytes) :
    (confLoadFp file sourceName).entries =
      (settings [] 0 (filePieces file)).take confMaxEntries := by
  rw [confLoadFp, loadLoop_eq_runPieces, entries_runPieces]
  rfl

/-- There is one entry for each setting. -/
theorem length_settings
    (curSection : Bytes) (lineN : Nat) (pieces : List Bytes) :
    (settings curSection lineN pieces).length =
      (pieces.filterMap pieceSetting).length := by
  induction pieces generalizing curSection lineN with
  | nil => rfl
  | cons piece more induction =>
      rw [settings]
      cases setting : pieceSetting piece with
      | none => rw [List.filterMap_cons_none setting, induction]
      | some pair =>
          rw [List.filterMap_cons_some setting, List.length_cons,
            List.length_cons, induction]

/-- Their numbers are those of pieces that were read. -/
theorem lineN_of_mem_settings
    {curSection : Bytes} {lineN : Nat} {pieces : List Bytes} {e : ConfEntry}
    (member : e ∈ settings curSection lineN pieces) : lineN < e.lineN := by
  induction pieces generalizing curSection lineN with
  | nil => cases member
  | cons piece more induction =>
      rw [settings] at member
      cases setting : pieceSetting piece with
      | none =>
          rw [setting] at member
          exact Nat.lt_of_succ_lt (induction member)
      | some pair =>
          rw [setting] at member
          rcases List.mem_cons.mp member with rfl | later
          · exact Nat.lt_succ_self lineN
          · exact Nat.lt_of_succ_lt (induction later)

/-- Each entry has a greater number than the ones before. -/
theorem lineN_increasing
    (curSection : Bytes) (lineN : Nat) (pieces : List Bytes) :
    (settings curSection lineN pieces).Pairwise fun before after =>
      before.lineN < after.lineN := by
  induction pieces generalizing curSection lineN with
  | nil => exact List.Pairwise.nil
  | cons piece more induction =>
      rw [settings]
      cases pieceSetting piece with
      | none => exact induction _ _
      | some pair =>
          refine List.pairwise_cons.mpr ⟨?_, induction _ _⟩
          intro e member
          exact lineN_of_mem_settings member

end AccelObserver.Shared.ConfPieces
