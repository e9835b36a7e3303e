import AccelObserver.Library.CNumber
import Mathlib.Data.List.DropRight
import Mathlib.Data.List.Induction

/-!
# C strings and lines of a file

A C string is the list of the bytes before its NUL; a function that writes a
NUL into a string cuts the list.  `fgets` gives a line with its line feed, or
the part of it that its buffer holds.
-/

namespace AccelObserver.Library.CString

open AccelObserver.Library.CNumber

/-- The C string at the beginning of a buffer. -/
def cText (buffer : Bytes) : Bytes :=
  buffer.takeWhile (· != 0)

/-- A text in lower case. -/
def lower (text : Bytes) : Bytes :=
  text.map toLower

/-- `strncpy` into a buffer of the size, with a NUL as its last byte. -/
def copyInto (size : Nat) (text : Bytes) : Bytes :=
  text.take (size - 1)

/-- The text without the white space around it. -/
def trim (text : Bytes) : Bytes :=
  (text.dropWhile isSpace).rdropWhile isSpace

/-- At most `room` bytes up to a line feed, and what is behind them. -/
def takeLine : Nat → Bytes → Bytes × Bytes
  | 0, stream => ([], stream)
  | _ + 1, [] => ([], [])
  | room + 1, c :: stream =>
      if c = 10 then ([c], stream)
      else
        let (line, rest) := takeLine room stream
        (c :: line, rest)

/-- `fgets` with a buffer of the size; `none` at the end of the file. -/
def fgets (size : Nat) : Bytes → Option (Bytes × Bytes)
  | [] => none
  | c :: stream => some (takeLine (size - 1) (c :: stream))

/-! ## Lines -/

theorem takeLine_of_append
    {line : Bytes} (oneLine : 10 ∉ line) {room : Nat}
    (fits : line.length < room) (rest : Bytes) :
    takeLine room (line ++ 10 :: rest) = (line ++ [10], rest) := by
  induction line generalizing room with
  | nil =>
      cases room with
      | zero => exact absurd fits (Nat.not_lt_zero _)
      | succ room => rfl
  | cons c line induction =>
      cases room with
      | zero => exact absurd fits (Nat.not_lt_zero _)
      | succ room =>
          simp only [List.mem_cons, not_or] at oneLine
          rcases oneLine with ⟨different, oneLineLater⟩
          rw [List.cons_append, takeLine, if_neg (Ne.symm different),
            induction oneLineLater (Nat.lt_of_succ_lt_succ fits)]
          rfl

/-- A line that fits the buffer is read whole. -/
theorem fgets_of_append
    {line : Bytes} (oneLine : 10 ∉ line) {size : Nat}
    (fits : line.length + 1 < size) (rest : Bytes) :
    fgets size (line ++ 10 :: rest) = some (line ++ [10], rest) := by
  have room : line.length < size - 1 := Nat.lt_sub_of_add_lt fits
  rw [← takeLine_of_append oneLine room rest]
  cases line with
  | nil => rfl
  | cons c line => rfl

/-- What is read is a part of one line, perhaps with its line feed. -/
theorem exists_takeLine_eq (room : Nat) (stream : Bytes) :
    ∃ text feed,
      (takeLine room stream).1 = text ++ feed ∧ 10 ∉ text ∧
        (feed = [] ∨ feed = [10]) ∧
        stream = (takeLine room stream).1 ++ (takeLine room stream).2 := by
  induction room generalizing stream with
  | zero => exact ⟨[], [], rfl, by simp, Or.inl rfl, rfl⟩
  | succ room induction =>
      cases stream with
      | nil => exact ⟨[], [], rfl, by simp, Or.inl rfl, rfl⟩
      | cons c stream =>
          rw [takeLine]
          split_ifs with feed
          · refine ⟨[], [10], ?_, by simp, Or.inr rfl, rfl⟩
            rw [feed, List.nil_append]
          · rcases induction stream with
              ⟨text, feed', read, noFeed, isFeed, whole⟩
            refine ⟨c :: text, feed', ?_, ?_, isFeed, ?_⟩
            · rw [List.cons_append, ← read]
            · simp [Ne.symm feed, noFeed]
            · rw [List.cons_append, ← whole]

/-- Something is read when there is room. -/
theorem takeLine_ne_nil
    {room : Nat} (positive : 0 < room) {stream : Bytes}
    (notEmpty : stream ≠ []) : (takeLine room stream).1 ≠ [] := by
  cases room with
  | zero => exact absurd positive (Nat.lt_irrefl 0)
  | succ room =>
      cases stream with
      | nil => exact absurd rfl notEmpty
      | cons c stream =>
          rw [takeLine]
          split_ifs
          · simp
          · simp

/-! ## White space around a text -/

/-- A text without white space around it. -/
structure Bare (text : Bytes) : Prop where
  front : ∀ byte ∈ text.head?, isSpace byte = false
  back : ∀ byte ∈ text.getLast?, isSpace byte = false

/-- What is dropped from the front ends where the text begins. -/
theorem dropWhile_append_of_head
    {drop : UInt8 → Bool} {front text : Bytes}
    (dropped : ∀ byte ∈ front, drop byte = true)
    (kept : ∀ byte ∈ text.head?, drop byte = false) :
    (front ++ text).dropWhile drop = text := by
  rw [List.dropWhile_append_of_pos dropped]
  cases text with
  | nil => rfl
  | cons c text =>
      have keptFirst : drop c = false := kept c rfl
      rw [List.dropWhile_cons_of_neg (by simp [keptFirst])]

theorem rdropWhile_append_of_getLast
    {drop : UInt8 → Bool} {text back : Bytes}
    (dropped : ∀ byte ∈ back, drop byte = true)
    (kept : ∀ byte ∈ text.getLast?, drop byte = false) :
    (text ++ back).rdropWhile drop = text := by
  rw [List.rdropWhile, List.reverse_append,
    dropWhile_append_of_head, List.reverse_reverse]
  · intro byte member
    exact dropped byte (List.mem_reverse.mp member)
  · intro byte member
    rw [List.head?_reverse] at member
    exact kept byte member

theorem trim_of_space
    {text : Bytes} (space : ∀ byte ∈ text, isSpace byte = true) :
    trim text = [] := by
  have dropped : text.dropWhile isSpace = [] :=
    List.dropWhile_eq_nil_iff.mpr space
  rw [trim, dropped, List.rdropWhile_nil]

/-- What is trimmed is the white space around a bare text. -/
theorem trim_of_bare
    {front text back : Bytes} (bare : Bare text)
    (frontSpace : ∀ byte ∈ front, isSpace byte = true)
    (backSpace : ∀ byte ∈ back, isSpace byte = true) :
    trim (front ++ (text ++ back)) = text := by
  cases text with
  | nil =>
      apply trim_of_space
      intro byte member
      rcases List.mem_append.mp member with inFront | inBack
      · exact frontSpace byte inFront
      · exact backSpace byte inBack
  | cons c text =>
      rw [trim, dropWhile_append_of_head frontSpace,
        rdropWhile_append_of_getLast backSpace bare.back]
      intro byte member
      exact bare.front byte member

theorem trim_bare {text : Bytes} (bare : Bare text) : trim text = text := by
  have none : ∀ byte ∈ ([] : Bytes), isSpace byte = true := by simp
  simpa using trim_of_bare bare none none

/-- Nothing is dropped from the end beyond a byte that is kept. -/
theorem rdropWhile_append_cons
    {drop : UInt8 → Bool} {stop : UInt8} (kept : drop stop = false)
    (front back : Bytes) :
    (front ++ stop :: back).rdropWhile drop =
      front ++ stop :: back.rdropWhile drop := by
  have split :
      (front ++ stop :: back).reverse =
        back.reverse ++ ([stop] ++ front.reverse) := by
    simp
  rw [List.rdropWhile, List.rdropWhile, split, List.dropWhile_append]
  cases dropped : back.reverse.dropWhile drop with
  | nil =>
      rw [List.isEmpty_nil, if_pos rfl, List.singleton_append,
        List.dropWhile_cons_of_neg (by simp [kept])]
      simp
  | cons last more =>
      rw [List.isEmpty_cons, if_neg (by decide)]
      simp

/-- A text is trimmed on both sides of a byte that is not white space. -/
theorem trim_append_cons
    {stop : UInt8} (kept : isSpace stop = false) (front back : Bytes) :
    trim (front ++ stop :: back) =
      front.dropWhile isSpace ++ stop :: back.rdropWhile isSpace := by
  have dropped :
      (front ++ stop :: back).dropWhile isSpace =
        front.dropWhile isSpace ++ stop :: back := by
    rw [List.dropWhile_append]
    split_ifs with allSpace
    · rw [List.isEmpty_iff.mp allSpace, List.nil_append,
        List.dropWhile_cons_of_neg (by simp [kept])]
    · rfl
  rw [trim, dropped, rdropWhile_append_cons kept]

/-- The end of a text that is dropped only shortens it. -/
theorem rdropWhile_prefix_append
    (drop : UInt8 → Bool) (text more : Bytes) :
    text.rdropWhile drop <+: (text ++ more).rdropWhile drop := by
  induction more using List.reverseRecOn with
  | nil => simp
  | append_singleton more last induction =>
      rw [← List.append_assoc]
      cases dropped : drop last with
      | true =>
          rw [List.rdropWhile_concat_pos _ _ _ dropped]
          exact induction
      | false =>
          rw [List.rdropWhile_concat_neg _ _ _ (by simp [dropped])]
          refine (List.rdropWhile_prefix drop text).trans ?_
          rw [List.append_assoc]
          exact List.prefix_append _ _

/-- A longer text is trimmed to a longer text. -/
theorem trim_prefix_append (text more : Bytes) :
    trim text <+: trim (text ++ more) := by
  rw [trim, trim, List.dropWhile_append]
  split_ifs with allSpace
  · rw [List.isEmpty_iff.mp allSpace, List.rdropWhile_nil]
    exact List.nil_prefix
  · exact rdropWhile_prefix_append isSpace _ more

/-- White space behind a text is trimmed. -/
theorem trim_append_space
    {back : Bytes} (space : ∀ byte ∈ back, isSpace byte = true)
    (text : Bytes) : trim (text ++ back) = trim text := by
  rw [trim, trim, List.dropWhile_append]
  split_ifs with allSpace
  · rw [List.isEmpty_iff.mp allSpace, List.dropWhile_eq_nil_iff.mpr space]
  · rw [List.rdropWhile, List.rdropWhile, List.reverse_append,
      List.dropWhile_append_of_pos fun byte member =>
        space byte (List.mem_reverse.mp member)]

theorem trim_rdropWhile (text : Bytes) :
    trim (text.rdropWhile isSpace) = trim text := by
  have space : ∀ byte ∈ text.rtakeWhile isSpace, isSpace byte = true :=
    fun _ member => List.mem_rtakeWhile_imp member
  rw [← trim_append_space space, List.rdropWhile_append_rtakeWhile]

/-! ## Cutting at a byte -/

/-- Nothing is cut off a text without a NUL. -/
theorem cText_of_not_mem {text : Bytes} (noNul : 0 ∉ text) :
    cText text = text := by
  rw [cText, List.takeWhile_eq_self_iff]
  intro byte member
  simpa using ne_of_mem_of_not_mem member noNul

/-- The part before the first byte that stops. -/
theorem takeWhile_append_cons
    {keep : UInt8 → Bool} {before : Bytes} {stop : UInt8}
    (kept : ∀ byte ∈ before, keep byte = true) (stops : keep stop = false)
    (after : Bytes) :
    (before ++ stop :: after).takeWhile keep = before := by
  rw [List.takeWhile_append_of_pos kept,
    List.takeWhile_cons_of_neg (by simp [stops]), List.append_nil]

end AccelObserver.Library.CString
