import AccelObserver.Server.LossCounting
import AccelObserver.Server.RangeGate

/-!
# Numbering Android packets

Android packets carry no sequence number, so the validator counts them.  The
counter goes up before the values are read, whatever becomes of the packet:
a rejected packet takes a number with it, and the loss count finds it missing
among the numbers of the accepted ones.
-/

namespace AccelObserver.Server.AndroidSequence

open AccelObserver.Library
open AccelObserver.Server.PacketValidator
open StatsAnalyzer (Reception lostAlong)

/-! ## One call -/

/-- Three values can be read, and none of them is outside the limit. -/
def ValuesInRange (cfg : ValidatorConfig) (payload : Bytes) : Prop :=
  ∃ x y z,
    extractArrayDoubles payload (ascii "values") 3 = [x, y, z] ∧
      outside cfg.maxAccMs2 x = false ∧ outside cfg.maxAccMs2 y = false ∧
        outside cfg.maxAccMs2 z = false

/-- The counter goes up at every Android packet and at no other. -/
theorem parse_counter
    (cfg : ValidatorConfig) (clock : UInt64) (counter : UInt32)
    (payload : Bytes) :
    (parse cfg clock counter payload).2 =
      if detectAndroidFormat payload then counter + 1 else counter := by
  rw [parse]
  split_ifs
  · rw [parseAndroid]
    split <;> rfl
  · rfl

theorem parseAndroid_ok_iff
    (cfg : ValidatorConfig) (clock : UInt64) (counter : UInt32)
    (payload : Bytes) :
    (parseAndroid cfg clock counter payload).1.result = .ok ↔
      ValuesInRange cfg payload := by
  rw [parseAndroid, ValuesInRange]
  split
  · next x y z values =>
      rw [RangeGate.checked_ok_iff, RangeGate.validateRange_eq_true_iff,
        values]
      simp
  · next values =>
      constructor
      · intro ok
        cases ok
      · rintro ⟨x, y, z, read, _⟩
        exact (values x y z read).elim

/-- An Android packet gets the number that the counter had before. -/
theorem parseAndroid_sequenceId
    (cfg : ValidatorConfig) (clock : UInt64) (counter : UInt32)
    (payload : Bytes) :
    (parseAndroid cfg clock counter payload).1.packet.sequenceId =
      counter := by
  rw [parseAndroid]
  split
  · rw [RangeGate.checked_packet]
  · rfl

/-- A call that does not accept its payload leaves the counter alone. -/
def LeavesNoTrace (cfg : ValidatorConfig) (clock : UInt64) (counter : UInt32)
    (payload : Bytes) : Prop :=
  (parse cfg clock counter payload).1.result ≠ .ok →
    (parse cfg clock counter payload).2 = counter

theorem leavesNoTrace_iff
    (cfg : ValidatorConfig) (clock : UInt64) (counter : UInt32)
    (payload : Bytes) :
    LeavesNoTrace cfg clock counter payload ↔
      (detectAndroidFormat payload = true → ValuesInRange cfg payload) := by
  rw [LeavesNoTrace, parse_counter]
  by_cases android : detectAndroidFormat payload = true
  · rw [parse, if_pos android, if_pos android, ne_eq, parseAndroid_ok_iff]
    have moved : counter + 1 ≠ counter := by simp
    simp only [android, moved, imp_false, true_implies]
    exact Classical.not_not
  · simp [android]

/-! ## A sequence of calls -/

/-- What one call of `parse` saw and gave. -/
structure Call where
  clock : UInt64
  counter : UInt32
  payload : Bytes

/-- The calls that a sequence of payloads leads to, each with its clock. -/
def calls (cfg : ValidatorConfig) :
    UInt32 → List (UInt64 × Bytes) → List Call
  | _, [] => []
  | counter, (clock, payload) :: rest =>
      ⟨clock, counter, payload⟩ ::
        calls cfg (parse cfg clock counter payload).2 rest

/-- The verdict on a call. -/
def Call.parsed (cfg : ValidatorConfig) (call : Call) : ParsedPacket :=
  (parse cfg call.clock call.counter call.payload).1

/-- The sequence numbers of the accepted packets. -/
def acceptedIds (cfg : ValidatorConfig) (calls : List Call) : List UInt32 :=
  (calls.filter fun call => (call.parsed cfg).result = .ok).map
    fun call => (call.parsed cfg).packet.sequenceId

/--
No rejected payload of the sequence leaves a trace: neither in the counter,
nor in the numbers of the accepted packets, nor in the loss count.
-/
structure NoTrace (cfg : ValidatorConfig) (counter : UInt32)
    (payloads : List (UInt64 × Bytes)) (stats : StatsAnalyzer) : Prop where
  counterKept :
    ∀ call ∈ calls cfg counter payloads,
      LeavesNoTrace cfg call.clock call.counter call.payload
  consecutive :
    (acceptedIds cfg (calls cfg counter payloads)).IsChain
      fun previous next => next = previous + 1
  noLoss :
    ∀ receptions : List Reception,
      receptions.map Reception.seq =
        acceptedIds cfg (calls cfg counter payloads) →
      (stats.recordAll receptions).packetsLost = 0

/-- Each payload of the sequence is the payload of a call. -/
theorem exists_call_of_mem
    (cfg : ValidatorConfig) (counter : UInt32)
    {payloads : List (UInt64 × Bytes)} {entry : UInt64 × Bytes}
    (member : entry ∈ payloads) :
    ∃ call ∈ calls cfg counter payloads, call.payload = entry.2 := by
  induction payloads generalizing counter with
  | nil => cases member
  | cons first rest induction =>
      rcases List.mem_cons.mp member with rfl | later
      · exact ⟨_, List.mem_cons_self, rfl⟩
      · rcases induction _ later with ⟨call, found, same⟩
        exact ⟨call, List.mem_cons_of_mem _ found, same⟩

theorem payload_mem_of_call
    {cfg : ValidatorConfig} {counter : UInt32}
    {payloads : List (UInt64 × Bytes)} {call : Call}
    (member : call ∈ calls cfg counter payloads) :
    ∃ entry ∈ payloads, call.payload = entry.2 := by
  induction payloads generalizing counter with
  | nil => cases member
  | cons first rest induction =>
      rcases List.mem_cons.mp member with rfl | later
      · exact ⟨first, List.mem_cons_self, rfl⟩
      · rcases induction later with ⟨entry, found, same⟩
        exact ⟨entry, List.mem_cons_of_mem _ found, same⟩

/-- So many numbers, counting up. -/
def numbersFrom : UInt32 → Nat → List UInt32
  | _, 0 => []
  | number, count + 1 => number :: numbersFrom (number + 1) count

theorem numbersFrom_isChain (number : UInt32) (count : Nat) :
    (numbersFrom number count).IsChain
      fun previous next => next = previous + 1 := by
  induction count generalizing number with
  | zero => exact .nil
  | succ count induction =>
      cases count with
      | zero => exact .singleton number
      | succ count => exact .cons_cons rfl (induction (number + 1))

/-- Between consecutive numbers nothing is lost. -/
theorem lostAlong_numbersFrom (previous : UInt32) (count : Nat) :
    lostAlong previous (numbersFrom (previous + 1) count) = 0 := by
  induction count generalizing previous with
  | zero => rfl
  | succ count induction =>
      have next : StatsAnalyzer.lost previous (previous + 1) = 0 := by
        simp [StatsAnalyzer.lost]
      rw [numbersFrom, lostAlong, next, induction]

/-- When every payload is accepted, the numbers count up from the counter. -/
theorem acceptedIds_of_inRange
    {cfg : ValidatorConfig} {payloads : List (UInt64 × Bytes)}
    (android : ∀ entry ∈ payloads, detectAndroidFormat entry.2 = true)
    (inRange : ∀ entry ∈ payloads, ValuesInRange cfg entry.2)
    (counter : UInt32) :
    acceptedIds cfg (calls cfg counter payloads) =
      numbersFrom counter payloads.length := by
  induction payloads generalizing counter with
  | nil => rfl
  | cons first rest induction =>
      rcases List.forall_mem_cons.mp android with ⟨isAndroid, restAndroid⟩
      rcases List.forall_mem_cons.mp inRange with ⟨valid, restInRange⟩
      have next :
          (parse cfg first.1 counter first.2).2 = counter + 1 := by
        rw [parse_counter, if_pos isAndroid]
      have parsed :
          Call.parsed cfg ⟨first.1, counter, first.2⟩ =
            (parseAndroid cfg first.1 counter first.2).1 := by
        rw [Call.parsed, parse, if_pos isAndroid]
      have ok :
          (Call.parsed cfg ⟨first.1, counter, first.2⟩).result = .ok := by
        rw [parsed, parseAndroid_ok_iff]
        exact valid
      rw [calls, next, acceptedIds, List.filter_cons_of_pos (by simp [ok]),
        List.map_cons, ← acceptedIds, induction restAndroid restInRange,
        parsed, parseAndroid_sequenceId, List.length_cons, numbersFrom]

theorem noTrace_of_inRange
    {cfg : ValidatorConfig} {payloads : List (UInt64 × Bytes)}
    (android : ∀ entry ∈ payloads, detectAndroidFormat entry.2 = true)
    (inRange : ∀ entry ∈ payloads, ValuesInRange cfg entry.2)
    (counter : UInt32) {stats : StatsAnalyzer}
    (fresh : LossCounting.Fresh stats) :
    NoTrace cfg counter payloads stats where
  counterKept := by
    intro call member
    rcases payload_mem_of_call member with ⟨entry, found, same⟩
    rw [leavesNoTrace_iff, same]
    exact fun _ => inRange entry found
  consecutive := by
    rw [acceptedIds_of_inRange android inRange]
    exact numbersFrom_isChain counter _
  noLoss := by
    intro receptions numbered
    rw [fresh.packetsLost_recordAll, numbered,
      acceptedIds_of_inRange android inRange]
    cases payloads.length with
    | zero => rfl
    | succ count =>
        rw [numbersFrom, lostAlong, StatsAnalyzer.lost_uint32Max,
          lostAlong_numbersFrom]

/--
A call of `parse` that does not accept its payload leaves the counter alone
if and only if the payload is not an Android one whose values cannot be read
or are out of range; and rejected payloads leave no trace in a sequence of
Android payloads if and only if it has none.
-/
theorem noTrace_iff
    (cfg : ValidatorConfig) {stats : StatsAnalyzer}
    (fresh : LossCounting.Fresh stats) :
    (∀ clock counter payload,
      LeavesNoTrace cfg clock counter payload ↔
        (detectAndroidFormat payload = true →
          ValuesInRange cfg payload)) ∧
    ∀ counter payloads,
      (∀ entry ∈ payloads, detectAndroidFormat entry.2 = true) →
        (NoTrace cfg counter payloads stats ↔
          ∀ entry ∈ payloads, ValuesInRange cfg entry.2) := by
  constructor
  · exact leavesNoTrace_iff cfg
  · intro counter payloads android
    constructor
    · intro noTrace entry member
      rcases exists_call_of_mem cfg counter member
        with ⟨call, found, same⟩
      have kept := noTrace.counterKept call found
      rw [leavesNoTrace_iff, same] at kept
      exact kept (android entry member)
    · intro inRange
      exact noTrace_of_inRange android inRange counter fresh

/-- A message at rest. -/
def restingPayload : Bytes :=
  ascii
    "\x7b\"type\":\"android.sensor.accelerometer\",\"values\":[0,0,9]\x7d"

/-- A message cut off within its values. -/
def truncatedPayload : Bytes :=
  ascii "\x7b\"type\":\"android.sensor.accelerometer\",\"values\":[0,0"

/-- The cut message comes between two whole ones. -/
def interruptedPayloads : List (UInt64 × Bytes) :=
  [(1000, restingPayload), (1020, truncatedPayload), (1040, restingPayload)]

theorem interruptedPayloads_android :
    ∀ entry ∈ interruptedPayloads, detectAndroidFormat entry.2 = true := by
  decide +kernel

theorem interruptedPayloads_acceptedIds :
    acceptedIds .default (calls .default 0 interruptedPayloads) = [0, 2] := by
  decide +kernel

/-- The cut message moves the counter, and one packet is reported lost. -/
theorem interruptedPayloads_leave_trace :
    ¬ LeavesNoTrace .default 1020 1 truncatedPayload ∧
      LossCounting.Fresh (StatsAnalyzer.new 200 1000) ∧
      (∀ entry ∈ interruptedPayloads, detectAndroidFormat entry.2 = true) ∧
      ¬ NoTrace .default 0 interruptedPayloads
        (StatsAnalyzer.new 200 1000) := by
  refine ⟨?_, .inl ⟨200, 1000, rfl⟩, interruptedPayloads_android, ?_⟩
  · unfold LeavesNoTrace
    decide +kernel
  · intro noTrace
    have noLoss :=
      noTrace.noLoss [⟨1001, 1000, 0⟩, ⟨1041, 1040, 2⟩]
        interruptedPayloads_acceptedIds.symm
    rw [StatsAnalyzer.recordAll_packetsLost] at noLoss
    exact absurd noLoss (by decide)

theorem noTrace_iff_interruptedPayloads :
    NoTrace .default 0 interruptedPayloads (StatsAnalyzer.new 200 1000) ↔
      ∀ entry ∈ interruptedPayloads, ValuesInRange .default entry.2 :=
  (noTrace_iff .default (.inl ⟨200, 1000, rfl⟩)).2 0 interruptedPayloads
    interruptedPayloads_android

end AccelObserver.Server.AndroidSequence
