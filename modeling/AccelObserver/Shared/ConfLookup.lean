import AccelObserver.Shared.ConfParser

/-!
# Storing and finding

`conf_push` cuts the name of a section and a key to the 63 bytes that an entry
holds, and writes the key in lower case.  `find_entry` does the same to the
key that it looks for, but compares the whole name of the section.  A section
whose name is longer can be stored, and is not found again.
-/

namespace AccelObserver.Shared.ConfLookup

open AccelObserver.Library
open AccelObserver.Library.CString
open AccelObserver.Shared.ConfParser

/-- An entry that a lookup accepts. -/
def Answers (sectionName key : Bytes) (e : ConfEntry) : Bool :=
  decide (lower e.sectionName = lower sectionName) &&
    decide (e.key = lower (copyInto confMaxKey key))

theorem findEntry_eq_find (conf : ConfResult) (sectionName key : Bytes) :
    findEntry conf sectionName key =
      conf.entries.find? (Answers sectionName key) :=
  rfl

theorem confGetStr_of_found
    {conf : ConfResult} {sectionName key : Bytes} {e : ConfEntry}
    (found : findEntry conf sectionName key = some e)
    (fallback : Option Bytes) :
    confGetStr conf sectionName key fallback = some e.value := by
  rw [confGetStr, found]

theorem confGetStr_of_absent
    {conf : ConfResult} {sectionName key : Bytes}
    (absent : findEntry conf sectionName key = none)
    (fallback : Option Bytes) :
    confGetStr conf sectionName key fallback = fallback := by
  rw [confGetStr, absent]

/-- The entry that `conf_push` adds. -/
def newEntry (sectionName key value : Bytes) (lineN : Nat) : ConfEntry where
  sectionName := copyInto confMaxSection sectionName
  key := lower (copyInto confMaxKey key)
  value := copyInto confMaxValue value
  lineN := lineN

/-- A cut name is the whole name, in lower case, when nothing was cut. -/
theorem lower_copyInto_eq_iff {size : Nat} (text : Bytes) :
    lower (copyInto size text) = lower text ↔ text.length ≤ size - 1 := by
  constructor
  · intro same
    have lengths := congrArg List.length same
    rw [lower, lower, List.length_map, List.length_map, copyInto,
      List.length_take] at lengths
    omega
  · intro fits
    rw [copyInto, List.take_of_length_le fits]

/-- The new entry answers a lookup of its own names when the section fits. -/
theorem answers_newEntry_iff
    (sectionName key value : Bytes) (lineN : Nat) :
    Answers sectionName key (newEntry sectionName key value lineN) = true ↔
      sectionName.length < confMaxSection := by
  rw [Answers, newEntry, decide_eq_true rfl, Bool.and_true,
    decide_eq_true_iff, lower_copyInto_eq_iff]
  exact (Nat.lt_iff_le_pred (by decide)).symm

section Push

variable {conf pushed : ConfResult} {sectionName key value : Bytes}
  {lineN : Nat}

/-- After a push a lookup finds what it found, or else the new entry. -/
theorem findEntry_push
    (push : confPush conf sectionName key value lineN = some pushed)
    (otherSection otherKey : Bytes) :
    findEntry pushed otherSection otherKey =
      (findEntry conf otherSection otherKey).or
        ([newEntry sectionName key value lineN].find?
          (Answers otherSection otherKey)) := by
  rw [findEntry_eq_find, findEntry_eq_find, (confPush_spec push).1,
    List.find?_append]
  rfl

/-- What was found is found again, with its value and its line. -/
theorem findEntry_push_of_found
    (push : confPush conf sectionName key value lineN = some pushed)
    {otherSection otherKey : Bytes} {e : ConfEntry}
    (found : findEntry conf otherSection otherKey = some e) :
    findEntry pushed otherSection otherKey = some e := by
  rw [findEntry_push push, found, Option.some_or]

/-- The value of the new entry, when it was absent and its section fits. -/
theorem confGetStr_push_of_fits
    (absent : findEntry conf sectionName key = none)
    (push : confPush conf sectionName key value lineN = some pushed)
    (fits : sectionName.length < confMaxSection) (fallback : Option Bytes) :
    confGetStr pushed sectionName key fallback = some (value.take 511) := by
  have answers :=
    (answers_newEntry_iff sectionName key value lineN).mpr fits
  have found :
      findEntry pushed sectionName key =
        some (newEntry sectionName key value lineN) := by
    rw [findEntry_push push, absent, Option.none_or,
      List.find?_cons_of_pos answers]
  exact confGetStr_of_found found fallback

/-- The new entry is not found when its section does not fit. -/
theorem findEntry_push_of_long
    (absent : findEntry conf sectionName key = none)
    (push : confPush conf sectionName key value lineN = some pushed)
    (long : ¬ sectionName.length < confMaxSection) :
    findEntry pushed sectionName key = none := by
  have silent :=
    (answers_newEntry_iff sectionName key value lineN).not.mpr long
  rw [findEntry_push push, absent, Option.none_or,
    List.find?_cons_of_neg silent, List.find?_nil]

/--
What `conf_push` stores is found under its names, with its first 511 bytes,
and all that was found before stays, exactly when the name of the section is
shorter than the buffer of an entry.
-/
theorem stored_can_be_found_iff
    (conf : ConfResult) (sectionName key value : Bytes) (lineN : Nat)
    (pushed : ConfResult)
    (absent : findEntry conf sectionName key = none)
    (push : confPush conf sectionName key value lineN = some pushed) :
    ((∀ fallback,
        confGetStr pushed sectionName key fallback =
          some (value.take 511)) ∧
      ∀ otherSection otherKey fallback,
        (findEntry conf otherSection otherKey).isSome →
        findEntry pushed otherSection otherKey =
            findEntry conf otherSection otherKey ∧
          confGetStr pushed otherSection otherKey fallback =
            confGetStr conf otherSection otherKey fallback) ↔
      sectionName.length < confMaxSection := by
  constructor
  · rintro ⟨stored, _⟩
    by_contra long
    have lost := findEntry_push_of_long absent push long
    have fromFallback := stored none
    rw [confGetStr_of_absent lost] at fromFallback
    cases fromFallback
  · intro fits
    refine ⟨confGetStr_push_of_fits absent push fits, ?_⟩
    intro otherSection otherKey fallback found
    rcases Option.isSome_iff_exists.mp found with ⟨e, isEntry⟩
    have kept := findEntry_push_of_found push isEntry
    rw [confGetStr_of_found kept, confGetStr_of_found isEntry, kept, isEntry]
    exact ⟨rfl, rfl⟩

end Push

/-- An empty document with one setting. -/
def portDocument : Option ConfResult :=
  confPush confAlloc (ascii "net") (ascii "Port") (ascii "80") 2

theorem port_is_found :
    confGetStr (portDocument.get rfl) (ascii "net") (ascii "Port") none =
      some ((ascii "80").take 511) :=
  ((stored_can_be_found_iff confAlloc (ascii "net") (ascii "Port")
    (ascii "80") 2 (portDocument.get rfl) rfl
    (Option.some_get rfl).symm).mpr (by decide)).1 none

/-- A name of 64 bytes, for which `conf_push` has 63. -/
def longSection : Bytes :=
  List.replicate 64 97

/-- The document with one setting in the section of the long name. -/
def longSectionDocument : Option ConfResult :=
  confPush confAlloc longSection (ascii "key") (ascii "v") 2

/-- A pair is stored in an empty document, and a lookup does not find it. -/
theorem longSection_is_lost :
    findEntry confAlloc longSection (ascii "key") = none ∧
      ∃ pushed,
        longSectionDocument = some pushed ∧
          confGetStr pushed longSection (ascii "key") none ≠
            some ((ascii "v").take 511) := by
  refine ⟨rfl, _, rfl, ?_⟩
  decide

/-- So it is for a file whose section has this name. -/
example :
    confGetStr
      (confLoadFp
        (ascii "[" ++ longSection ++ ascii "]\nkey = v\n") none)
      longSection (ascii "key") none = none := by
  decide +kernel

end AccelObserver.Shared.ConfLookup
