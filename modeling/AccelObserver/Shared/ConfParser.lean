import AccelObserver.Library.CString
import AccelObserver.Library.Decimal

/-!
# The configuration parser

`confparser.h`, which client and server share: the loop of `conf_load` with
its helpers, and the search for an entry.  The strings are C strings, and the
functions that write into them are functions on lists.

Memory is assumed to suffice, and a file to have fewer lines than an `int`
can count.
-/

namespace AccelObserver.Shared.ConfParser

open AccelObserver.Library
open AccelObserver.Library.CNumber (isSpace)
open AccelObserver.Library.CString

def confMaxEntries : Nat := 512

def confMaxSection : Nat := 64

def confMaxKey : Nat := 64

def confMaxValue : Nat := 512

def confMaxLine : Nat := 1024

/-- `conf_entry_t` -/
structure ConfEntry where
  sectionName : Bytes
  key : Bytes
  value : Bytes
  lineN : Nat
  deriving DecidableEq

/-- `conf_result_t`; the length of the list is `filled_count`. -/
structure ConfResult where
  entries : List ConfEntry
  capacity : Nat
  lastErrorMsg : Bytes
  errorLine : Nat
  capacity_pos : 0 < capacity
  capacity_le : capacity ≤ confMaxEntries
  filled_le : entries.length ≤ capacity

/-- `conf_alloc` -/
def confAlloc : ConfResult where
  entries := []
  capacity := 64
  lastErrorMsg := []
  errorLine := 0
  capacity_pos := by decide
  capacity_le := by decide
  filled_le := by decide

/-! ## Adding an entry -/

/-- The capacity after `conf_push` has made room for an entry. -/
def newCapacity (capacity filledCount : Nat) : Option Nat :=
  if capacity ≤ filledCount then
    if confMaxEntries ≤ capacity then none
    else some (min (capacity * 2) confMaxEntries)
  else some capacity

theorem newCapacity_spec
    {capacity filledCount room : Nat} (positive : 0 < capacity)
    (bounded : capacity ≤ confMaxEntries) (filled : filledCount ≤ capacity)
    (grown : newCapacity capacity filledCount = some room) :
    filledCount < room ∧ room ≤ confMaxEntries := by
  rw [newCapacity] at grown
  split_ifs at grown with full limit
  · cases grown
    omega
  · cases grown
    omega

/-- There is room until 512 entries are filled. -/
theorem newCapacity_eq_none_iff
    {capacity filledCount : Nat}
    (bounded : capacity ≤ confMaxEntries) (filled : filledCount ≤ capacity) :
    newCapacity capacity filledCount = none ↔
      filledCount = confMaxEntries := by
  rw [newCapacity]
  split_ifs with full limit
  · simp only [true_iff]
    omega
  · simp only [false_iff]
    omega
  · simp only [false_iff]
    omega

/-- `conf_push`; `none` is false, which leaves the result as it was. -/
def confPush
    (conf : ConfResult) (sectionName key value : Bytes) (lineN : Nat) :
    Option ConfResult :=
  match grown : newCapacity conf.capacity conf.entries.length with
  | none => none
  | some capacity =>
      have spec :=
        newCapacity_spec conf.capacity_pos conf.capacity_le conf.filled_le
          grown
      some
        { conf with
          entries :=
            conf.entries ++
              [{ sectionName := copyInto confMaxSection sectionName
                 key := lower (copyInto confMaxKey key)
                 value := copyInto confMaxValue value
                 lineN := lineN }]
          capacity := capacity
          capacity_pos := Nat.zero_lt_of_lt spec.1
          capacity_le := spec.2
          filled_le := by
            rw [List.length_append]
            exact spec.1 }

/-- It fails when 512 entries are filled, and only then. -/
theorem confPush_eq_none_iff
    (conf : ConfResult) (sectionName key value : Bytes) (lineN : Nat) :
    confPush conf sectionName key value lineN = none ↔
      conf.entries.length = confMaxEntries := by
  rw [← newCapacity_eq_none_iff conf.capacity_le conf.filled_le, confPush]
  split
  · simp [*]
  · simp [*]

/-- Otherwise the entry is behind the others, and nothing else changes. -/
theorem confPush_spec
    {conf pushed : ConfResult} {sectionName key value : Bytes} {lineN : Nat}
    (push : confPush conf sectionName key value lineN = some pushed) :
    pushed.entries =
        conf.entries ++
          [{ sectionName := copyInto confMaxSection sectionName
             key := lower (copyInto confMaxKey key)
             value := copyInto confMaxValue value
             lineN := lineN }] ∧
      pushed.lastErrorMsg = conf.lastErrorMsg ∧
      pushed.errorLine = conf.errorLine := by
  rw [confPush] at push
  split at push
  · cases push
  · cases push
    exact ⟨rfl, rfl, rfl⟩

/-! ## One line -/

/-- `str_unquote` -/
def strUnquote (s : Bytes) : Bytes :=
  if 2 ≤ s.length ∧ s.head? = some 34 ∧ s.getLast? = some 34 then
    s.tail.dropLast
  else s

/-- The bytes that begin a comment. -/
def isCommentMark (byte : UInt8) : Bool :=
  byte == 35 || byte == 59

/-- The value without its comment.  Only the first mark is looked at. -/
def stripComment (valRaw : Bytes) : Bytes :=
  if valRaw.head? = some 34 then valRaw
  else
    let before := valRaw.takeWhile (!isCommentMark ·)
    if before.length < valRaw.length ∧ before.getLast?.any isSpace then
      trim before
    else valRaw

/-- The variables of the loop. -/
structure Loader where
  conf : ConfResult
  curSection : Bytes
  lineN : Nat

/-- `snprintf` into `last_error_msg`, behind the name of the source. -/
def errorMsg (sourceName : Option Bytes) (tail : Bytes) : Bytes :=
  copyInto 256 (sourceName.getD (ascii "?") ++ tail)

/-- The message for a line of the file. -/
def lineErrorMsg (sourceName : Option Bytes) (lineN : Nat) (tail : Bytes) :
    Bytes :=
  errorMsg sourceName (ascii ":" ++ Decimal.decimal lineN ++ tail)

/-- The message when `conf_push` fails. -/
def entryLimitMsg (sourceName : Option Bytes) : Bytes :=
  errorMsg sourceName
    (ascii ": reached maximum entry limit (" ++
      Decimal.decimal confMaxEntries ++ ascii ")")

/-- A line that begins with a bracket. -/
def loadSection (sourceName : Option Bytes) (loader : Loader) (p : Bytes) :
    Loader :=
  if 93 ∈ p then
    { loader with
      curSection :=
        copyInto confMaxSection (trim ((p.drop 1).takeWhile (· != 93))) }
  else
    { loader with
      conf :=
        { loader.conf with
          lastErrorMsg :=
            lineErrorMsg sourceName loader.lineN
              (ascii ": unclosed '[' in section header")
          errorLine := loader.lineN } }

/-- A line with a key; `error` is the `break` out of the loop. -/
def loadPair (sourceName : Option Bytes) (loader : Loader) (p : Bytes) :
    Except ConfResult Loader :=
  if 61 ∈ p then
    let keyRaw := trim (p.takeWhile (· != 61))
    let valRaw := trim ((p.dropWhile (· != 61)).drop 1)
    let valRaw := strUnquote (stripComment valRaw)
    if keyRaw = [] then .ok loader
    else
      match
        confPush loader.conf loader.curSection keyRaw valRaw loader.lineN with
      | some conf => .ok { loader with conf := conf }
      | none =>
          .error
            { loader.conf with lastErrorMsg := entryLimitMsg sourceName }
  else if loader.conf.errorLine = 0 then
    .ok
      { loader with
        conf :=
          { loader.conf with
            lastErrorMsg :=
              lineErrorMsg sourceName loader.lineN
                (ascii ": line has no '=', ignored")
            errorLine := loader.lineN } }
  else .ok loader

/-- The C string that `fgets` has read, cut at the end of the line. -/
def cutNewline (line : Bytes) : Bytes :=
  (cText line).takeWhile fun byte => byte != 13 && byte != 10

/-- The body of the loop. -/
def loadLine (sourceName : Option Bytes) (loader : Loader) (line : Bytes) :
    Except ConfResult Loader :=
  let loader := { loader with lineN := loader.lineN + 1 }
  let p := trim (cutNewline line)
  match p with
  | [] => .ok loader
  | c :: _ =>
      if isCommentMark c then .ok loader
      else if c = 91 then .ok (loadSection sourceName loader p)
      else loadPair sourceName loader p

/-! ## The file -/

/-- The loop; a round reads at least one byte, so these rounds are enough. -/
def loadLoop (sourceName : Option Bytes) :
    Nat → Loader → Bytes → ConfResult
  | 0, loader, _ => loader.conf
  | rounds + 1, loader, file =>
      match fgets confMaxLine file with
      | none => loader.conf
      | some (line, file) =>
          match loadLine sourceName loader line with
          | .error conf => conf
          | .ok loader => loadLoop sourceName rounds loader file

/-- `conf_load_fp` -/
def confLoadFp (file : Bytes) (sourceName : Option Bytes) : ConfResult :=
  loadLoop sourceName file.length
    { conf := confAlloc, curSection := [], lineN := 0 } file

/-- `conf_load`; there is no content when `fopen` fails. -/
def confLoad
    (path : Bytes) (content : Option Bytes) (sourceName : Option Bytes) :
    ConfResult :=
  match content with
  | none =>
      { confAlloc with
        lastErrorMsg :=
          copyInto 256 (ascii "conf_load: cannot open '" ++ path ++ ascii "'") }
  | some file => confLoadFp file sourceName

/-! ## Looking up -/

/-- `find_entry` -/
def findEntry (conf : ConfResult) (sectionName key : Bytes) :
    Option ConfEntry :=
  let keyLc := lower (copyInto confMaxKey key)
  conf.entries.find? fun e =>
    decide (lower e.sectionName = lower sectionName) && decide (e.key = keyLc)

/-- `conf_has_key` -/
def confHasKey (conf : ConfResult) (sectionName key : Bytes) : Bool :=
  (findEntry conf sectionName key).isSome

/-- `conf_get_str`; the fallback can be a null pointer. -/
def confGetStr
    (conf : ConfResult) (sectionName key : Bytes) (fallback : Option Bytes) :
    Option Bytes :=
  match findEntry conf sectionName key with
  | some e => some e.value
  | none => fallback

end AccelObserver.Shared.ConfParser
