import Laplace.Model.ChannelRuns

/-! # Runs of one oneshot channel

A sender that is used once, by `send` or by its drop, and a receiver that is polled, asked, closed and dropped.
The two interleave after every effect. Tokio's channel hands over the value that was sent, and reports closure
to the receiver only when the sender was dropped, the receiver closed the channel, or the value is already taken.
-/

namespace Laplace.Model.Runtime

open Laplace.Machine

variable {Value : Type}

inductive OneshotSide where
  | sender
  | receiver
deriving DecidableEq, Repr

inductive OneshotUse where
  | sender (sender : Oneshot.Sender)
  | receiver (receiver : Awaiting)
  | gone
deriving DecidableEq, Repr

inductive OneshotOperation (Value : Type) where
  | send (value : Value)
  | drop
  | tryRecv
  | poll
  | close
deriving DecidableEq, Repr

/-- The program of an operation. The receiver is not polled again after it was ready. -/
def oneshotStart : OneshotUse → OneshotOperation Value → Option (RuntimeM Value OneshotUse)
  | .sender sender, .send value => some do
      let _ ← sender.send value
      return .gone
  | .sender sender, .drop => some do
      sender.drop
      return .gone
  | .receiver receiver, .tryRecv => some do
      let _ ← Oneshot.Receiver.tryRecv receiver
      return .receiver receiver
  | .receiver receiver, .close => some do
      Oneshot.Receiver.close receiver
      return .receiver receiver
  | .receiver receiver, .poll =>
      if receiver.resolved then none
      else some do return .receiver (← Oneshot.Receiver.poll receiver).2
  | .receiver receiver, .drop => some do
      Oneshot.Receiver.drop receiver
      return .gone
  | _, _ => none

structure OneshotState where
  /-- A value was sent and not taken. -/
  stored : Bool := false
  taken : Bool := false
  senderDropped : Bool := false
  closed : Bool := false
  receiverDropped : Bool := false
deriving DecidableEq, Repr

/-- Whether the receiver may be told that the channel is closed. -/
def OneshotState.ended (state : OneshotState) : Bool := state.senderDropped || state.closed || state.taken

inductive OneshotAnswer (Value : Type) where
  | wait
  | value (value : Value)
  | closed
deriving DecidableEq, Repr

/-- Tokio's oneshot channel; the schedule decides what it answers. -/
def oneshotChannel (state : OneshotState) :
    (call : Tokio Value) → OneshotAnswer Value → Option (call.Reply × OneshotState)
  | .oneshotSend _ _, .value _ =>
      allow (!state.closed && !state.receiverDropped) (.ok ()) { state with stored := true }
  | .oneshotSend _ value, .closed => allow (state.closed || state.receiverDropped) (.error value) state
  | .dropEndpoint .oneshotSender _, _ => some ((), { state with senderDropped := true })
  | .dropEndpoint .oneshotReceiver _, _ => some ((), { state with receiverDropped := true })
  | .oneshotTryRecv _, .wait => some (.error .empty, state)
  | .oneshotTryRecv _, .value value => allow state.stored (.ok value) { state with stored := false, taken := true }
  | .oneshotTryRecv _, .closed => allow state.ended (.error .closed) state
  | .oneshotPoll _, .wait => some (.pending, state)
  | .oneshotPoll _, .value value =>
      allow state.stored (.ready (.ok value)) { state with stored := false, taken := true }
  | .oneshotPoll _, .closed => allow state.ended (.ready (.error ())) state
  | .oneshotClose _, _ => some ((), { state with closed := true })
  | _, _ => none

/-- The runs of one oneshot channel. -/
def oneshotSystem (Value : Type) :
    System (Effect Value) Effect.Reply OneshotSide OneshotUse (OneshotOperation Value) (OneshotAnswer Value)
      (World OneshotState) :=
  runtimeSystem (fun _ => oneshotStart) fun _ => oneshotChannel

end Laplace.Model.Runtime
