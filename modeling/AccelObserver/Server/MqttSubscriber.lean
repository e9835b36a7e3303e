import AccelObserver.Library.Bytes
import Mathlib.Data.Int.Notation
import Mathlib.Tactic.Common

/-!
# The subscriber at the broker

`MqttSubscriber` is driven by libmosquitto, which calls it back on one thread:
with the answer to a connection, with the loss of one, and with a message.
The session is a clean one, so that the broker forgets the subscription with
the connection; `on_connect` makes it again.

The log lines are left out, and with them `on_subscribe` and `on_log`, which
write nothing else.
-/

namespace AccelObserver.Server

open AccelObserver.Library

/-- The members that the callbacks use. -/
structure MqttSubscriber where
  topic : Bytes
  qos : ℤ
  connected : Bool
  deriving DecidableEq

namespace MqttSubscriber

/-- `validate_qos` -/
def validateQos (qos : ℤ) : ℤ :=
  if 0 ≤ qos ∧ qos ≤ 2 then qos else 0

/-- What the constructor leaves in these members. -/
def new (topic : Bytes) (qos : ℤ) : MqttSubscriber where
  topic := topic
  qos := validateQos qos
  connected := false

/-- What libmosquitto calls back with. -/
inductive Event
  | connack (rc : ℤ)
  | disconnected (rc : ℤ)
  | message (payload : Option Bytes)
  deriving DecidableEq

/-- The calls that a callback makes: `mosquitto_subscribe`, and the callback
of the server. -/
inductive Call
  | subscribe (topic : Bytes) (qos : ℤ)
  | payload (text : Bytes)
  deriving DecidableEq

/-- `on_connect` -/
def onConnect (rc : ℤ) (self : MqttSubscriber) :
    MqttSubscriber × List Call :=
  if rc ≠ 0 then (self, [])
  else ({ self with connected := true }, [.subscribe self.topic self.qos])

/-- `on_disconnect` -/
def onDisconnect (self : MqttSubscriber) : MqttSubscriber × List Call :=
  ({ self with connected := false }, [])

/-- `on_message`; the payload of an empty message is a null pointer. -/
def onMessage (payload : Option Bytes) (self : MqttSubscriber) :
    MqttSubscriber × List Call :=
  match payload with
  | none => (self, [])
  | some text =>
      if text.length ≤ 0 then (self, []) else (self, [.payload text])

/-- One event. -/
def handle (event : Event) (self : MqttSubscriber) :
    MqttSubscriber × List Call :=
  match event with
  | .connack rc => onConnect rc self
  | .disconnected _ => onDisconnect self
  | .message payload => onMessage payload self

/-- One event after the other. -/
def handleAll : List Event → MqttSubscriber → MqttSubscriber × List Call
  | [], self => (self, [])
  | event :: more, self =>
      let (self, calls) := handle event self
      let (self, later) := handleAll more self
      (self, calls ++ later)

/-! ## What comes of a run of callbacks -/

/-- The payload of a message. -/
def Event.payload : Event → Option (Option Bytes)
  | .message payload => some payload
  | _ => none

/-- The text of a payload with something in it. -/
def textOf : Option Bytes → Option Bytes
  | some (byte :: text) => some (byte :: text)
  | _ => none

/-- What the callback of the server gets. -/
def Call.text : Call → Option Bytes
  | .payload text => some text
  | .subscribe _ _ => none

/-- The subscriptions that are asked for. -/
def Call.request : Call → Option (Bytes × ℤ)
  | .subscribe topic qos => some (topic, qos)
  | .payload _ => none

/-- No callback changes what is subscribed to. -/
theorem handle_keeps (event : Event) (self : MqttSubscriber) :
    (handle event self).1.topic = self.topic ∧
      (handle event self).1.qos = self.qos := by
  cases event with
  | connack rc =>
      simp only [handle, onConnect]
      split_ifs
      · exact ⟨rfl, rfl⟩
      · exact ⟨rfl, rfl⟩
  | disconnected rc => exact ⟨rfl, rfl⟩
  | message payload =>
      rcases payload with _ | _ | ⟨byte, text⟩ <;> exact ⟨rfl, rfl⟩

/-- A callback hands on the text of a message, if there is one. -/
theorem handle_text (event : Event) (self : MqttSubscriber) :
    (handle event self).2.filterMap Call.text =
      event.payload.toList.filterMap textOf := by
  cases event with
  | connack rc =>
      simp only [handle, onConnect]
      split_ifs <;> rfl
  | disconnected rc => rfl
  | message payload =>
      rcases payload with _ | _ | ⟨byte, text⟩ <;> rfl

/-- A callback subscribes if the broker has accepted a connection. -/
theorem handle_request (event : Event) (self : MqttSubscriber) :
    (handle event self).2.filterMap Call.request =
      if event = .connack 0 then [(self.topic, self.qos)] else [] := by
  cases event with
  | connack rc =>
      simp only [handle, onConnect]
      by_cases accepted : rc = 0
      · simp [accepted, Call.request]
      · simp [accepted]
  | disconnected rc => simp [handle, onDisconnect]
  | message payload =>
      rcases payload with _ | _ | ⟨byte, text⟩ <;>
        simp [handle, onMessage, Call.request]

/-- The callback of the server gets the messages in order. -/
theorem handleAll_text (events : List Event) (self : MqttSubscriber) :
    (handleAll events self).2.filterMap Call.text =
      (events.filterMap Event.payload).filterMap textOf := by
  induction events generalizing self with
  | nil => rfl
  | cons event more induction =>
      rw [handleAll, List.filterMap_append, handle_text, induction,
        ← List.filterMap_append]
      cases payload : event.payload with
      | none => rw [List.filterMap_cons_none payload]; rfl
      | some message => rw [List.filterMap_cons_some payload]; rfl

/-- Every connection that is accepted is subscribed on. -/
theorem handleAll_request (events : List Event) (self : MqttSubscriber) :
    (handleAll events self).2.filterMap Call.request =
      List.replicate (events.count (.connack 0)) (self.topic, self.qos) := by
  induction events generalizing self with
  | nil => rfl
  | cons event more induction =>
      rcases handle_keeps event self with ⟨topic, qos⟩
      rw [handleAll, List.filterMap_append, handle_request, induction, topic,
        qos]
      by_cases accepted : event = .connack 0
      · rw [if_pos accepted, accepted, List.count_cons_self, Nat.add_comm,
          List.replicate_add]
        rfl
      · rw [if_neg accepted, List.count_cons_of_ne accepted]
        rfl

end MqttSubscriber

end AccelObserver.Server
