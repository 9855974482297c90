import Laplace.Model.Channels

/-! # One broadcast channel and its client

Tokio's documented broadcast channel: the values are numbered in the order they were sent, the last `size` of
them are retained, where `size` is the capacity rounded up to a power of two, and every receiver has the number of
the next value it reads. A receiver that has fallen behind what is retained is told how many values it missed and
goes on with the oldest one.

A client makes the channel and calls its methods one after another.
-/

namespace Laplace.Model.Runtime

open Laplace.Machine

variable {Value : Type}

structure BroadcastRing (Value : Type) where
  size : ℕ := 1
  /-- Everything that was sent. -/
  values : List Value := []
  senders : ℕ := 0
  receivers : ℕ := 0
  /-- The number of the next value that a receiver reads. -/
  next : Handle → ℕ := fun _ => 0
  /-- The receiver that a future reads from. -/
  source : Handle → Handle := id
  nextHandle : Handle := 0

/-- `usize::MAX >> 2`. -/
def maxReceivers : ℕ := 2 ^ 62 - 1

namespace BroadcastRing

variable (ring : BroadcastRing Value)

/-- `channel`; tokio refuses a capacity of zero and one above `usize::MAX / 2`. -/
def channel (capacity : ℕ) : Option ((Handle × Handle) × BroadcastRing Value) :=
  if 0 < capacity ∧ capacity < 2 ^ 63 then
    some ((0, 1), { size := capacity.nextPowerOfTwo, senders := 1, receivers := 1, nextHandle := 2 })
  else none

def send (value : Value) : Except Value ℕ × BroadcastRing Value :=
  if ring.receivers = 0 then (.error value, ring)
  else (.ok ring.receivers, { ring with values := ring.values ++ [value] })

/-- A receiver that starts at the tail. -/
def newReceiver : Option (Handle × BroadcastRing Value) :=
  if ring.receivers = maxReceivers then none
  else some (ring.nextHandle,
    { ring with
      receivers := ring.receivers + 1
      next := Function.update ring.next ring.nextHandle ring.values.length
      nextHandle := ring.nextHandle + 1 })

/-- The ring after a receiver has moved. -/
def seek (receiver : Handle) (position : ℕ) : BroadcastRing Value :=
  { ring with next := Function.update ring.next receiver position }

/-- Read the next value of a receiver. -/
def recv (receiver : Handle) : Except BroadcastTryRecvError Value × BroadcastRing Value :=
  if ring.next receiver + ring.size < ring.values.length then
    (.error (.lagged (UInt64.ofNat (ring.values.length - ring.size - ring.next receiver))),
      ring.seek receiver (ring.values.length - ring.size))
  else
    match ring.values[ring.next receiver]? with
    | some value => (.ok value, ring.seek receiver (ring.next receiver + 1))
    | none => (.error (if ring.senders = 0 then .closed else .empty), ring)

/-- A poll is pending where `try_recv` finds nothing. -/
def polled : Except BroadcastTryRecvError Value → Poll (Except BroadcastRecvError Value)
  | .ok value => .ready (.ok value)
  | .error .empty => .pending
  | .error .closed => .ready (.error .closed)
  | .error (.lagged missed) => .ready (.error (.lagged missed))

/-- Tokio's answers. -/
def answer (ring : BroadcastRing Value) : (call : Tokio Value) → Unit → Option (call.Reply × BroadcastRing Value)
  | .broadcastChannel capacity, _ => channel capacity
  | .broadcastSend _ value, _ => some (ring.send value)
  | .broadcastSubscribe _, _ | .broadcastResubscribe _, _ => ring.newReceiver
  | .broadcastRecv receiver, _ => some (ring.nextHandle,
      { ring with
        source := Function.update ring.source ring.nextHandle receiver
        nextHandle := ring.nextHandle + 1 })
  | .poll .broadcastRecv future, _ =>
      some (polled (ring.recv (ring.source future)).1, (ring.recv (ring.source future)).2)
  | .dropFuture .broadcastRecv _, _ => some ((), ring)
  | .broadcastTryRecv receiver, _ => some (ring.recv receiver)
  | .cloneEndpoint .broadcastSender _, _ => some ((0 : Handle), { ring with senders := ring.senders + 1 })
  | .dropEndpoint .broadcastSender _, _ => some ((), { ring with senders := ring.senders - 1 })
  | .dropEndpoint .broadcastReceiver _, _ => some ((), { ring with receivers := ring.receivers - 1 })
  | _, _ => none

end BroadcastRing

/-- The endpoints that the client holds. -/
structure BroadcastClient where
  senders : List Broadcast.Sender := []
  receivers : List Broadcast.Receiver := []
deriving DecidableEq, Repr

/-- An operation, on an endpoint by its place. -/
inductive BroadcastOperation (Value : Type) where
  | send (sender : ℕ) (value : Value)
  | clone (sender : ℕ)
  | dropSender (sender : ℕ)
  | subscribe (sender : ℕ)
  | resubscribe (receiver : ℕ)
  | dropReceiver (receiver : ℕ)
  /-- `recv`, polled once and dropped. -/
  | recv (receiver : ℕ)
  | tryRecv (receiver : ℕ)
deriving DecidableEq, Repr

namespace BroadcastClient

variable (client : BroadcastClient)

/-- Call a method of a sender, if the client holds it. -/
def withSender (place : ℕ) (call : Broadcast.Sender → RuntimeM Value BroadcastClient) :
    RuntimeM Value BroadcastClient :=
  match client.senders[place]? with
  | some sender => call sender
  | none => pure client

/-- Call a method of a receiver, if the client holds it. -/
def withReceiver (place : ℕ) (call : Broadcast.Receiver → RuntimeM Value BroadcastClient) :
    RuntimeM Value BroadcastClient :=
  match client.receivers[place]? with
  | some receiver => call receiver
  | none => pure client

def perform : BroadcastOperation Value → RuntimeM Value BroadcastClient
  | .send place value => client.withSender place fun sender => do
      let _ ← sender.send value
      return client
  | .clone place => client.withSender place fun sender => do
      let cloned ← sender.clone
      return { client with senders := client.senders ++ [cloned] }
  | .dropSender place => client.withSender place fun sender => do
      sender.drop
      return { client with senders := client.senders.eraseIdx place }
  | .subscribe place => client.withSender place fun sender => do
      let receiver ← sender.subscribe
      return { client with receivers := client.receivers ++ [receiver] }
  | .resubscribe place => client.withReceiver place fun receiver => do
      let another ← receiver.resubscribe
      return { client with receivers := client.receivers ++ [another] }
  | .dropReceiver place => client.withReceiver place fun receiver => do
      receiver.drop
      return { client with receivers := client.receivers.eraseIdx place }
  | .recv place => client.withReceiver place fun receiver => do
      let future ← receiver.recv
      let (_, future) ← future.poll
      future.drop
      return client
  | .tryRecv place => client.withReceiver place fun receiver => do
      let _ ← receiver.tryRecv
      return client

def performAll : BroadcastClient → List (BroadcastOperation Value) → RuntimeM Value BroadcastClient
  | client, [] => pure client
  | client, operation :: rest => do
      let client ← client.perform operation
      performAll client rest

end BroadcastClient

/-- Make a channel and use it. -/
def broadcastProgram (capacity : ℕ) (operations : List (BroadcastOperation Value)) :
    RuntimeM Value BroadcastClient := do
  let (sender, receiver) ← Broadcast.channel capacity
  BroadcastClient.performAll { senders := [sender], receivers := [receiver] } operations

end Laplace.Model.Runtime
