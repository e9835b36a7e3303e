import AccelObserver.Server.WsFrameLoop
import AccelObserver.Server.WsHandshake

/-!
# The WebSocket subscriber: one connection after another

The outer loop of `run`.  It takes a connection, lets `do_handshake` read the
request from it and the frame loop what is behind the request, and closes it.
A `select` that times out, an `accept` that fails and a handshake that fails
lead to the next turn; an exception from the frame loop leaves `run`.

A stream that is cut is read to its end: when the cut lies in the request,
nothing is left for the frame loop.
-/

namespace AccelObserver.Server.WsServer

open AccelObserver.Library
open AccelObserver.Library.Lines (crlf)
open AccelObserver.Server.WsSubscriber
open AccelObserver.Server.WsHandshake

/-! ## The loop -/

/-- What `run` does with one connection; `ending` is `none` where the handshake
fails. -/
structure Served where
  callbacks : List Bytes
  ending : Option LoopEnd
  sock : Socket

/-- The handshake and the frame loop on one connection. -/
def serve (loads : Nat) (client : Socket) : Served :=
  match doHandshake client with
  | (false, client) => { callbacks := [], ending := none, sock := client }
  | (true, client) =>
      let result := frameLoop loads client
      { callbacks := result.callbacks
        ending := some result.ending
        sock := result.sock }

/-- A turn of the outer loop.  `loads` says how often the frame loop reads
`running_` as true. -/
inductive Turn
  | idle
  | accepted (client : Socket) (loads : Nat)

/-- What `run` has done when it ends. -/
structure RunResult where
  callbacks : List Bytes
  closed : List Socket
  threw : Bool

/-- `run`, whose flag is true for these turns.  Once the frame loop has read
it as false, so does the outer loop. -/
def run : List Turn → RunResult
  | [] => { callbacks := [], closed := [], threw := false }
  | .idle :: more => run more
  | .accepted client loads :: more =>
      let served := serve loads client
      match served.ending with
      | some .lengthError =>
          { callbacks := served.callbacks, closed := [], threw := true }
      | some .stopped =>
          { callbacks := served.callbacks
            closed := [served.sock]
            threw := false }
      | some .disconnected | none =>
          let rest := run more
          { callbacks := served.callbacks ++ rest.callbacks
            closed := served.sock :: rest.closed
            threw := rest.threw }

/-! ## Connections that end by themselves -/

/-- The connection ends without an exception and before `stop`. -/
def Served.EndsItself (served : Served) : Prop :=
  served.ending = none ∨ served.ending = some .disconnected

instance (served : Served) : Decidable served.EndsItself :=
  inferInstanceAs (Decidable (_ ∨ _))

/-- The turns of a run that accepts these connections, with idle turns
between them. -/
inductive Accepts : List Turn → List (Socket × Nat) → Prop
  | nil : Accepts [] []
  | idle {turns : List Turn} {clients : List (Socket × Nat)} :
      Accepts turns clients → Accepts (.idle :: turns) clients
  | accepted {turns : List Turn} {clients : List (Socket × Nat)}
      (client : Socket) (loads : Nat) :
      Accepts turns clients →
      Accepts (.accepted client loads :: turns) ((client, loads) :: clients)

/-- The connections that the run gets to: those up to the first that does not
end by itself. -/
def reached {α : Type} (connection : α → Socket × Nat) : List α → List α
  | [] => []
  | client :: more =>
      if (serve (connection client).2 (connection client).1).EndsItself then
        client :: reached connection more
      else [client]

/-- Only what was offered is reached. -/
theorem mem_of_mem_reached
    {α : Type} {connection : α → Socket × Nat} {clients : List α} {client : α}
    (member : client ∈ reached connection clients) : client ∈ clients := by
  induction clients with
  | nil => exact member
  | cons first more induction =>
      rw [reached] at member
      split_ifs at member
      · rcases List.mem_cons.mp member with here | later
        · exact List.mem_cons.mpr (Or.inl here)
        · exact List.mem_cons_of_mem _ (induction later)
      · exact List.mem_cons.mpr (Or.inl (List.mem_singleton.mp member))

/-- Idle turns leave no trace in a run. -/
theorem run_of_accepts_nil
    {turns : List Turn} (accepts : Accepts turns []) :
    run turns = { callbacks := [], closed := [], threw := false } := by
  generalize offered : ([] : List (Socket × Nat)) = clients at accepts
  induction accepts with
  | nil => rfl
  | idle _ induction => exact induction offered
  | accepted => cases offered

/-- A run that accepts a connection begins, but for idle turns, with it. -/
theorem run_of_accepts_cons
    {turns : List Turn} {client : Socket × Nat} {more : List (Socket × Nat)}
    (accepts : Accepts turns (client :: more)) :
    ∃ later, Accepts later more ∧
      run turns = run (.accepted client.1 client.2 :: later) := by
  generalize offered : client :: more = clients at accepts
  induction accepts with
  | nil => cases offered
  | idle _ induction => exact induction offered
  | accepted sock loads laterAccepts =>
      cases offered
      exact ⟨_, laterAccepts, rfl⟩

/-- Behind a connection that ends by itself, the run goes on. -/
theorem run_of_endsItself
    {client : Socket} {loads : Nat} (ends : (serve loads client).EndsItself)
    (more : List Turn) :
    run (.accepted client loads :: more) =
      { callbacks := (serve loads client).callbacks ++ (run more).callbacks
        closed := (serve loads client).sock :: (run more).closed
        threw := (run more).threw } := by
  rw [run]
  rcases ends with failed | disconnected
  · simp only [failed]
  · simp only [disconnected]

/-- Any other connection is the last; it is closed unless the run throws. -/
theorem run_of_not_endsItself
    {client : Socket} {loads : Nat} (ends : ¬ (serve loads client).EndsItself)
    (more : List Turn) :
    let result := run (.accepted client loads :: more)
    result.callbacks = (serve loads client).callbacks ∧
      result.closed.length + result.threw.toNat = 1 ∧
      (result.threw = true ↔
        (serve loads client).ending = some .lengthError) := by
  rw [Served.EndsItself, not_or] at ends
  intro result
  simp only [result, run]
  rcases ending : (serve loads client).ending with _ | loopEnd
  · exact absurd ending ends.1
  · cases loopEnd with
    | disconnected => exact absurd ending ends.2
    | stopped => simp
    | lengthError => simp

/-- The run serves the connections that it gets to, and closes them all but
the one on which it throws. -/
theorem run_of_accepts
    {α : Type} {connection : α → Socket × Nat} {turns : List Turn}
    {clients : List α} (accepts : Accepts turns (clients.map connection)) :
    (run turns).callbacks =
        (reached connection clients).flatMap (fun client =>
          (serve (connection client).2 (connection client).1).callbacks) ∧
      (run turns).closed.length + (run turns).threw.toNat =
        (reached connection clients).length ∧
      ((run turns).threw = true ↔
        ∃ client ∈ reached connection clients,
          (serve (connection client).2 (connection client).1).ending =
            some .lengthError) := by
  induction clients generalizing turns with
  | nil =>
      rw [run_of_accepts_nil accepts]
      simp [reached]
  | cons client more induction =>
      rcases run_of_accepts_cons accepts with ⟨later, laterAccepts, begins⟩
      rw [begins, reached]
      split_ifs with ends
      · rcases induction laterAccepts with ⟨callbacks, closed, threw⟩
        have noThrow :
            (serve (connection client).2 (connection client).1).ending ≠
              some .lengthError := by
          rcases ends with failed | disconnected
          · simp [failed]
          · simp [disconnected]
        rw [run_of_endsItself ends, List.flatMap_cons, callbacks]
        refine ⟨rfl, ?_, ?_⟩
        · simp only [List.length_cons, ← closed]
          omega
        · simp only [List.mem_cons, exists_eq_or_imp, noThrow, false_or]
          exact threw
      · rcases run_of_not_endsItself ends later with ⟨callbacks, closed, threw⟩
        refine ⟨?_, closed, ?_⟩
        · rw [List.flatMap_singleton]
          exact callbacks
        · simpa only [List.mem_singleton, exists_eq_left] using threw

/-! ## A request that is cut -/

/-- Without a line feed there is no line, and the stream is read to its end. -/
theorem recvLine_of_no_feed
    {sock : Socket} (noFeed : 10 ∉ sock.incoming) :
    ∃ recvCalls,
      recvLine sock =
        (none, { sock with incoming := [], recvCalls := recvCalls }) := by
  suffices whole : ∀ (room : Nat) (line : Bytes) (sock : Socket),
      10 ∉ sock.incoming → sock.incoming.length < room →
      ∃ recvCalls,
        Lines.recvLine (fun _ => none) room line sock =
          (none, { sock with incoming := [], recvCalls := recvCalls }) from
    whole _ [] sock noFeed (Nat.lt_succ_self _)
  intro room
  induction room with
  | zero => exact fun _ _ _ fits => absurd fits (Nat.not_lt_zero _)
  | succ room induction =>
      intro line sock noFeed fits
      cases incoming : sock.incoming with
      | nil =>
          refine ⟨sock.recvCalls + 1, ?_⟩
          simp [Lines.recvLine, Channel.recv, incoming]
      | cons c rest =>
          rw [incoming, List.mem_cons, not_or] at noFeed
          rw [incoming, List.length_cons] at fits
          rcases induction (line ++ [c])
              { sock with
                incoming := rest
                recvCalls := sock.recvCalls + 1 }
              noFeed.2 (Nat.lt_of_succ_lt_succ fits)
            with ⟨recvCalls, read⟩
          refine ⟨recvCalls, ?_⟩
          rw [Lines.recvLine, Lines.recv_one_of_cons incoming]
          simp only [if_neg (Ne.symm noFeed.1)]
          exact read

/-- Lines without their end are read to the end of the stream. -/
theorem foldLines_of_cut
    {lines : List Bytes} (oneLine : ∀ line ∈ lines, 10 ∉ line)
    (nonempty : ∀ line ∈ lines, line ≠ []) {tail : Bytes}
    (noFeed : 10 ∉ tail) (bound : Nat) (enough : lines.length < bound)
    (value : Bytes) (sock : Socket)
    (incoming : sock.incoming = lines.flatMap crlf ++ tail) :
    ∃ value' recvCalls,
      Lines.foldLines recvLine readHeader bound value sock =
        (false, value',
          { sock with incoming := [], recvCalls := recvCalls }) := by
  induction lines generalizing bound value sock with
  | nil =>
      rcases Nat.exists_eq_add_of_lt enough with ⟨spare, rfl⟩
      rw [List.flatMap_nil, List.nil_append] at incoming
      rcases recvLine_of_no_feed (incoming ▸ noFeed) with ⟨recvCalls, failed⟩
      refine ⟨value, recvCalls, ?_⟩
      rw [Lines.foldLines, failed]
  | cons line lines induction =>
      rcases Nat.exists_eq_add_of_lt enough with ⟨spare, rfl⟩
      rcases List.forall_mem_cons.mp oneLine with ⟨lineOne, oneLater⟩
      rcases List.forall_mem_cons.mp nonempty with ⟨lineNonempty, nonemptyLater⟩
      rw [List.flatMap_cons, List.append_assoc] at incoming
      rcases reads_recvLine lineOne sock _ incoming with ⟨lineCalls, read⟩
      rcases induction oneLater nonemptyLater (lines.length + 1 + spare)
          (by omega) (readHeader value line)
          { sock with
            incoming := lines.flatMap crlf ++ tail
            recvCalls := lineCalls }
          rfl
        with ⟨value', recvCalls, folded⟩
      refine ⟨value', recvCalls, ?_⟩
      rw [List.length_cons, Lines.foldLines, read]
      cases line with
      | nil => exact absurd rfl lineNonempty
      | cons c line => exact folded

/-- The first bytes of some lines are the first lines and a part of the next
one. -/
theorem exists_take_flatMap_crlf
    {lines : List Bytes} (oneLine : ∀ line ∈ lines, 10 ∉ line)
    {count : Nat} (cut : count < (lines.flatMap crlf).length) :
    ∃ whole < lines.length, ∃ tail, 10 ∉ tail ∧
      (lines.flatMap crlf).take count =
        (lines.take whole).flatMap crlf ++ tail := by
  induction lines generalizing count with
  | nil => exact absurd cut (Nat.not_lt_zero _)
  | cons line lines induction =>
      rcases List.forall_mem_cons.mp oneLine with ⟨lineOne, oneLater⟩
      rw [List.flatMap_cons] at cut ⊢
      by_cases inside : count < (crlf line).length
      · refine ⟨0, Nat.succ_pos _, (crlf line).take count, ?_, ?_⟩
        · have front : (crlf line).take count = (line ++ [13]).take count := by
            rw [crlf, show [13, 10] = [13] ++ ([10] : Bytes) from rfl,
              ← List.append_assoc]
            apply List.take_append_of_le_length
            simp only [crlf, List.length_append, List.length_cons,
              List.length_nil] at inside ⊢
            omega
          rw [front]
          intro feed
          have member := List.mem_of_mem_take feed
          simp only [List.mem_append, List.mem_singleton] at member
          rcases member with inLine | isReturn
          · exact lineOne inLine
          · exact absurd isReturn (by decide)
        · rw [List.take_append_of_le_length (Nat.le_of_lt inside)]
          rfl
      · rcases Nat.exists_eq_add_of_le (Nat.not_lt.mp inside) with ⟨more, rfl⟩
        rw [List.length_append, Nat.add_lt_add_iff_left] at cut
        rcases induction oneLater cut with ⟨whole, below, tail, noFeed, split⟩
        refine ⟨whole + 1, Nat.succ_lt_succ below, tail, noFeed, ?_⟩
        rw [List.take_length_add_append, split, List.take_succ_cons,
          List.flatMap_cons, List.append_assoc]

/-- A handshake on a request that is cut leaves nothing unread. -/
theorem doHandshake_of_cut
    {client : Socket} {requestLine : Bytes} {headers : List Bytes}
    (requestLineOne : 10 ∉ requestLine)
    (headersOne : ∀ line ∈ headers, 10 ∉ line)
    (nonempty : ∀ line ∈ headers, line ≠ []) {count : Nat}
    (cut :
      count <
        (crlf requestLine ++ (headers.flatMap crlf ++ crlf [])).length)
    (complete : client.SendsComplete)
    (incoming :
      client.incoming =
        (crlf requestLine ++ (headers.flatMap crlf ++ crlf [])).take count) :
    (doHandshake client).2.incoming = [] := by
  have asLines :
      crlf requestLine ++ (headers.flatMap crlf ++ crlf []) =
        (requestLine :: (headers ++ [[]])).flatMap crlf := by
    simp
  rw [asLines] at cut incoming
  have allOne : ∀ line ∈ requestLine :: (headers ++ [[]]), 10 ∉ line := by
    simp only [List.forall_mem_cons, List.forall_mem_append]
    exact ⟨requestLineOne, headersOne, List.not_mem_nil, by simp⟩
  rcases exists_take_flatMap_crlf allOne cut
    with ⟨whole, below, tail, noFeed, split⟩
  rw [split] at incoming
  cases whole with
  | zero =>
      rw [List.take_zero, List.flatMap_nil, List.nil_append] at incoming
      rcases recvLine_of_no_feed (incoming ▸ noFeed) with ⟨recvCalls, failed⟩
      rw [doHandshake, failed]
  | succ whole =>
      have lines :
          (requestLine :: (headers ++ [[]])).take (whole + 1) =
            requestLine :: headers.take whole := by
        simp only [List.length_cons, List.length_append, List.length_nil]
          at below
        rw [List.take_succ_cons,
          List.take_append_of_le_length (Nat.lt_succ_iff.mp
            (Nat.lt_of_succ_lt_succ below))]
      rw [lines, List.flatMap_cons, List.append_assoc] at incoming
      rcases reads_recvLine requestLineOne client _ incoming
        with ⟨firstCalls, first⟩
      have enough :
          (headers.take whole).length <
            ((headers.take whole).flatMap crlf ++ tail).length + 1 := by
        have rounds := Lines.length_le_length_flatMap_crlf (headers.take whole)
        rw [List.length_append]
        omega
      rcases foldLines_of_cut
          (fun line member => headersOne line (List.mem_of_mem_take member))
          (fun line member => nonempty line (List.mem_of_mem_take member))
          noFeed _ enough []
          { client with
            incoming := (headers.take whole).flatMap crlf ++ tail
            recvCalls := firstCalls }
          rfl
        with ⟨wsKey, recvCalls, folded⟩
      simp only [doHandshake, first, folded]
      by_cases noKey : wsKey = []
      · rw [if_pos noKey]
      · rw [if_neg noKey]
        rcases sendExact_eq
            { client with incoming := [], recvCalls := recvCalls } complete
            (responseText (computeAcceptKey wsKey))
          with ⟨sendCalls, sent⟩
        rw [sent]

/-- On a stream that has ended, the frame loop finds no frame. -/
theorem frameLoop_of_nil
    {sock : Socket} (incoming : sock.incoming = []) (loads : Nat) :
    (frameLoop (loads + 1) sock).callbacks = [] ∧
      (frameLoop (loads + 1) sock).ending = .disconnected := by
  rcases recvExact_eq_of_lt sock 2 (by simp [incoming])
    with ⟨recvCalls, failed⟩
  have disconnected :
      readFrame sock =
        (.disconnected,
          { sock with incoming := [], recvCalls := recvCalls }) := by
    rw [readFrame, failed]
  rw [frameLoop, disconnected]
  exact ⟨rfl, rfl⟩

/-- A connection whose handshake leaves nothing calls nothing back. -/
theorem serve_of_nothing_left
    {client : Socket} (nothing : (doHandshake client).2.incoming = [])
    {loads : Nat} (running : 0 < loads) :
    (serve loads client).callbacks = [] ∧
      (serve loads client).EndsItself := by
  rcases Nat.exists_eq_add_of_lt running with ⟨spare, rfl⟩
  rw [Nat.zero_add]
  rw [serve]
  cases answered : doHandshake client with
  | mk ok after =>
      rw [answered] at nothing
      cases ok with
      | false => exact ⟨rfl, Or.inl rfl⟩
      | true =>
          rcases frameLoop_of_nil nothing spare with ⟨callbacks, ending⟩
          exact ⟨callbacks, Or.inr (congrArg some ending)⟩

end AccelObserver.Server.WsServer
