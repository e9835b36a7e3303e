import AccelObserver.Library.CString
import AccelObserver.Library.Lines

/-!
# Responses of HTTP

A response is a status line, fields up to an empty line, and a body.  How long
the body is, a field says; so the reader knows where a response ends, and what
is behind it on the stream.
-/

namespace AccelObserver.Library.HttpMessage

open AccelObserver.Library.CString (lower takeWhile_append_cons trim)
open AccelObserver.Library.Decimal
open AccelObserver.Library.Lines

/-- A field as its line spells it: the name in small letters, and the value
without the white space around it. -/
def field (line : Bytes) : Bytes × Bytes :=
  (lower (line.takeWhile (· != 58)),
    trim ((line.dropWhile (· != 58)).drop 1))

theorem field_of_colon
    {name : Bytes} (noColon : 58 ∉ name) (value : Bytes) :
    field (name ++ 58 :: value) = (lower name, trim value) := by
  have kept : ∀ byte ∈ name, (byte != 58) = true := fun byte member =>
    bne_iff_ne.mpr (ne_of_mem_of_not_mem member noColon)
  rw [field, takeWhile_append_cons kept rfl,
    List.dropWhile_append_of_pos kept]
  rfl

/-- The values of the fields of a name. -/
def valuesOf (name : Bytes) (fields : List (Bytes × Bytes)) : List Bytes :=
  (fields.filter fun entry => entry.1 == name).map Prod.snd

structure Response where
  status : Bytes
  fields : List (Bytes × Bytes)
  body : Bytes
  deriving DecidableEq

/-- One field says how long the body is. -/
def Response.Measured (response : Response) : Prop :=
  valuesOf (ascii "content-length") response.fields =
    [decimal response.body.length]

/-- The stream begins with the response, and goes on with the rest. -/
def Reads (stream : Bytes) (response : Response) (rest : Bytes) : Prop :=
  response.Measured ∧
    ∃ behind lines,
      wholeLine stream = some (response.status, behind) ∧
        Block wholeLine behind lines (response.body ++ rest) ∧
        lines.map field = response.fields

theorem decimal_injective {first second : Nat}
    (same : decimal first = decimal second) : first = second := by
  have read (n : Nat) :
      (decimal n).map (digitValue 10) = (digits n).map some := by
    rw [decimal, List.map_map]
    exact List.map_congr_left fun digit member =>
      digitValue_digitByte digit (digits_small n digit member)
  have equal : digits first = digits second := by
    apply List.map_injective_iff.mpr (Option.some_injective Nat)
    rw [← read first, same, read second]
  rw [← positional_digits first, equal, positional_digits]

/-- A stream begins with one response at most. -/
theorem Reads.unique
    {stream rest other : Bytes} {response another : Response}
    (reads : Reads stream response rest)
    (readsToo : Reads stream another other) :
    response = another ∧ rest = other := by
  rcases reads with ⟨measured, behind, lines, status, block, fields⟩
  rcases readsToo with
    ⟨measuredToo, behindToo, linesToo, statusToo, blockToo, fieldsToo⟩
  rw [status, Option.some.injEq, Prod.mk.injEq] at statusToo
  rcases statusToo with ⟨sameStatus, rfl⟩
  rcases block.unique blockToo with ⟨rfl, sameRest⟩
  have sameFields : response.fields = another.fields :=
    fields.symm.trans fieldsToo
  rw [Response.Measured, sameFields] at measured
  have lengths := decimal_injective
    (List.singleton_injective (measured.symm.trans measuredToo))
  rcases List.append_inj sameRest lengths with ⟨sameBody, sameOther⟩
  refine ⟨?_, sameOther⟩
  cases response
  cases another
  cases sameStatus
  cases sameFields
  cases sameBody
  rfl

/-- What is sent line by line, with a field for the length, is read back. -/
theorem reads_iff
    {status : Bytes} (statusLine : 10 ∉ status) {lines : List Bytes}
    (oneLine : ∀ line ∈ lines, 10 ∉ line)
    (nonempty : ∀ line ∈ lines, line ≠ []) {body : Bytes}
    (measured : Response.Measured ⟨status, lines.map field, body⟩)
    (response : Response) (rest : Bytes) :
    Reads (crlf status ++ (lines.flatMap crlf ++ (crlf [] ++ body))) response
        rest ↔
      response = ⟨status, lines.map field, body⟩ ∧ rest = [] := by
  have reads :
      Reads (crlf status ++ (lines.flatMap crlf ++ (crlf [] ++ body)))
        ⟨status, lines.map field, body⟩ [] := by
    refine ⟨measured, _, lines, wholeLine_crlf statusLine _, ?_, rfl⟩
    rw [List.append_nil]
    exact block_crlf oneLine nonempty body
  constructor
  · intro readsToo
    exact readsToo.unique reads
  · rintro ⟨rfl, rfl⟩
    exact reads

end AccelObserver.Library.HttpMessage
