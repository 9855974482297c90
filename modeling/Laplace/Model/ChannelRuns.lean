import Mathlib.Data.Finset.Card
import Mathlib.Data.Fintype.Option
import Laplace.Model.Channels

/-! # Runs of one channel

An `mpsc` channel (bounded or unbounded), a `watch` channel or a `broadcast` channel, used by any number of
processes whose steps interleave. A process is one use: a call, or a future until it is dropped; only the
single `mpsc` receiver takes its calls one after another. Rust's ownership of the senders is kept in a
table: a clone borrows its source, and a sender is dropped once, when nobody borrows it.

Tokio's channel is any that reports closure to a receiver only when every sender is gone or the receiver
closed it, delivers only what was sent, and refuses a sender only when the receiver closed or is gone.
-/

namespace Laplace.Model.Runtime

open Laplace.Machine

variable {Value Process : Type}

inductive ChannelFlavor where
  | bounded
  | unbounded
  | watch
  | broadcast
deriving DecidableEq, Repr

def ChannelFlavor.isMpsc : ChannelFlavor → Bool
  | .bounded | .unbounded => true
  | .watch | .broadcast => false

/-- The endpoint that a call is made on. Only a broadcast endpoint has more than its tokio endpoint. -/
structure ChannelSelf where
  inner : Handle := 0
  receiverId : UInt64 := 0
  sendSeq : Handle := 0
deriving DecidableEq, Repr

namespace ChannelSelf

variable (self : ChannelSelf) (resource : UInt64)

def channelEnd : ChannelEnd := { inner := self.inner, resource }

def sender : Broadcast.Sender := { inner := self.inner, resource, sendSeq := self.sendSeq }

def receiver : Broadcast.Receiver :=
  { inner := self.inner, resource, id := self.receiverId, sendSeq := self.sendSeq }

end ChannelSelf

inductive ChannelFuture where
  | send (future : Awaiting)
  | recv (future : Awaiting)
  | changed (future : Awaiting)
  | broadcastRecv (future : Broadcast.ModelBroadcastRecv)
deriving DecidableEq, Repr

namespace ChannelFuture

def resolved : ChannelFuture → Bool
  | .send future | .recv future | .changed future => future.resolved
  | .broadcastRecv future => future.resolved

/-- Poll, and forget the value. -/
def poll : ChannelFuture → RuntimeM Value ChannelFuture
  | .send future => do return .send (← Mpsc.ModelMpscSend.poll future).2
  | .recv future => do return .recv (← Mpsc.ModelMpscRecv.poll future).2
  | .changed future => do return .changed (← Watch.ModelWatchChanged.poll future).2
  | .broadcastRecv future => do return .broadcastRecv (← future.poll).2

def drop : ChannelFuture → RuntimeM Value Unit
  | .send future => Mpsc.ModelMpscSend.drop future
  | .recv future => Mpsc.ModelMpscRecv.drop future
  | .changed future => Watch.ModelWatchChanged.drop future
  | .broadcastRecv future => future.drop

end ChannelFuture

namespace ChannelFlavor

variable (self : ChannelSelf) (resource : UInt64)

def cloneSender : ChannelFlavor → RuntimeM Value Unit
  | .bounded => discard (Mpsc.Sender.clone (self.channelEnd resource))
  | .unbounded => discard (Mpsc.UnboundedSender.clone (self.channelEnd resource))
  | .watch => discard (Watch.Sender.clone (self.channelEnd resource))
  | .broadcast => discard (self.sender resource).clone

def dropSender : ChannelFlavor → RuntimeM Value Unit
  | .bounded => Mpsc.Sender.drop (self.channelEnd resource)
  | .unbounded => Mpsc.UnboundedSender.drop (self.channelEnd resource)
  | .watch => Watch.Sender.drop (self.channelEnd resource)
  | .broadcast => (self.sender resource).drop

/-- The send that never waits: `try_send` of a bounded channel, `send` of the others. -/
def sendNow (value : Value) : ChannelFlavor → RuntimeM Value Unit
  | .bounded => discard (Mpsc.Sender.trySend (self.channelEnd resource) value)
  | .unbounded => discard (Mpsc.UnboundedSender.send (self.channelEnd resource) value)
  | .watch => discard (Watch.Sender.send (self.channelEnd resource) value)
  | .broadcast => discard ((self.sender resource).send value)

/-- The receiving future: `recv`, or `changed` of a watch channel. -/
def recv : ChannelFlavor → RuntimeM Value ChannelFuture
  | .bounded => do return .recv (← Mpsc.Receiver.recv (self.channelEnd resource))
  | .unbounded => do return .recv (← Mpsc.UnboundedReceiver.recv (self.channelEnd resource))
  | .watch => do return .changed (← Watch.Receiver.changed (self.channelEnd resource))
  | .broadcast => do return .broadcastRecv (← (self.receiver resource).recv)

def tryRecv : ChannelFlavor → Option (RuntimeM Value Unit)
  | .bounded => some (discard (Mpsc.Receiver.tryRecv (self.channelEnd resource)))
  | .unbounded => some (discard (Mpsc.UnboundedReceiver.tryRecv (self.channelEnd resource)))
  | .watch => none
  | .broadcast => some (discard (self.receiver resource).tryRecv)

def close : ChannelFlavor → Option (RuntimeM Value Unit)
  | .bounded => some (Mpsc.Receiver.close (self.channelEnd resource))
  | .unbounded => some (Mpsc.UnboundedReceiver.close (self.channelEnd resource))
  | .watch | .broadcast => none

def dropReceiver : ChannelFlavor → RuntimeM Value Unit
  | .bounded => Mpsc.Receiver.drop (self.channelEnd resource)
  | .unbounded => Mpsc.UnboundedReceiver.drop (self.channelEnd resource)
  | .watch => Watch.Receiver.drop (self.channelEnd resource)
  | .broadcast => (self.receiver resource).drop

def subscribe : ChannelFlavor → Option (RuntimeM Value Unit)
  | .bounded | .unbounded => none
  | .watch => some (discard (Watch.Sender.subscribe (self.channelEnd resource)))
  | .broadcast => some (discard (self.sender resource).subscribe)

/-- Another receiver from a receiver: `clone` of a watch receiver, `resubscribe` of a broadcast one. -/
def copyReceiver : ChannelFlavor → Option (RuntimeM Value Unit)
  | .bounded | .unbounded => none
  | .watch => some (discard (Watch.Receiver.clone (self.channelEnd resource)))
  | .broadcast => some (discard (self.receiver resource).resubscribe)

end ChannelFlavor

/-- A sender is named by the use that cloned it; the first one came with the channel. -/
abbrev SenderName (Process : Type) := Option Process

inductive Ownership (Process : Type) where
  | borrow (source : SenderName Process)
  | release
  | take (name : SenderName Process)
  /-- The process owns the sender that it has cloned. -/
  | put
deriving DecidableEq

abbrev Ownership.Reply : Ownership Process → Type := fun _ => Unit

abbrev OwnedEffect (Value Process : Type) := Effect Value ⊕ Ownership Process

abbrev OwnedReply : OwnedEffect Value Process → Type := Sum.elim Effect.Reply Ownership.Reply

abbrev OwnedRt (Value Process : Type) := Program (OwnedEffect Value Process) OwnedReply

abbrev own (effect : Ownership Process) : OwnedRt Value Process Unit := .call (.inr effect) .done

/-- A use of the channel. The `mpsc` receiver is the only one that lasts. -/
structure ChannelUse where
  isReceiver : Bool
  spent : Bool := false
  future : Option ChannelFuture := none
deriving DecidableEq, Repr

inductive ChannelOperation (Value Process : Type) where
  | clone (self : ChannelSelf) (source : SenderName Process)
  | dropSender (self : ChannelSelf) (name : SenderName Process)
  | send (self : ChannelSelf) (value : Value)
  | sendNow (self : ChannelSelf) (value : Value)
  | recv (self : ChannelSelf)
  | tryRecv (self : ChannelSelf)
  | close (self : ChannelSelf)
  | dropReceiver (self : ChannelSelf)
  | subscribe (self : ChannelSelf)
  | copyReceiver (self : ChannelSelf)
  | poll
  | dropFuture
deriving DecidableEq

/-- A call that returns. -/
def ChannelUse.call (use : ChannelUse) (program : RuntimeM Value Unit) : OwnedRt Value Process ChannelUse := do
  program.inject
  return { use with spent := true }

/-- Whether the use may start with a call of the receiver. -/
def ChannelUse.receives (flavor : ChannelFlavor) (use : ChannelUse) : Bool :=
  if flavor.isMpsc then use.isReceiver else !use.spent

/-- The program of an operation. A use that waits for a future does nothing else. -/
def channelStart (flavor : ChannelFlavor) (resource : UInt64) (use : ChannelUse) :
    ChannelOperation Value Process → Option (OwnedRt Value Process ChannelUse)
  | .clone self source =>
      if use.spent || use.isReceiver then none
      else some do
        own (.borrow source)
        (flavor.cloneSender self resource).inject
        own .release
        own .put
        return { use with spent := true }
  | .dropSender self name =>
      if use.spent || use.isReceiver then none
      else some do
        own (.take name)
        (flavor.dropSender self resource).inject
        return { use with spent := true }
  | .send self value =>
      if use.spent || use.isReceiver || flavor != .bounded then none
      else some do
        let future ← (Mpsc.Sender.send (self.channelEnd resource) value).inject
        return { use with spent := true, future := some (.send future) }
  | .sendNow self value =>
      if use.spent || use.isReceiver then none else some (use.call (flavor.sendNow self resource value))
  | .recv self =>
      if use.future.isNone && use.receives flavor then some do
        let future ← (flavor.recv self resource).inject
        return { use with spent := true, future := some future }
      else none
  | .tryRecv self =>
      if use.future.isNone && use.receives flavor then (flavor.tryRecv self resource).map use.call else none
  | .close self =>
      if use.future.isNone && use.receives flavor then (flavor.close self resource).map use.call else none
  | .dropReceiver self =>
      if use.future.isNone && use.receives flavor then some (use.call (flavor.dropReceiver self resource)) else none
  | .subscribe self => if use.spent then none else (flavor.subscribe self resource).map use.call
  | .copyReceiver self => if use.spent then none else (flavor.copyReceiver self resource).map use.call
  | .poll =>
      match use.future with
      | some future =>
          if future.resolved then none
          else some do
            let future ← future.poll.inject
            return { use with future := some future }
      | none => none
  | .dropFuture =>
      match use.future with
      | some future => some do
          future.drop.inject
          return { use with future := none }
      | none => none

/-- What tokio's channel holds. -/
structure ChannelState (Process : Type) where
  senders : ℕ := 1
  /-- The receiver closed the channel. -/
  closed : Bool := false
  receiverDropped : Bool := false
  queued : ℕ := 0
  /-- The uses whose send was accepted. -/
  accepted : Process → Bool := fun _ => false

namespace ChannelState

variable (state : ChannelState Process)

/-- Whether a receiver may be told that the channel is closed. -/
def ended : Bool := state.closed || state.senders == 0

/-- Whether a sender may be refused. -/
def refuses : Bool := state.closed || state.receiverDropped

/-- Whether a value is in the channel. -/
def delivers : Bool := 0 < state.queued

end ChannelState

/-- How tokio answers a call. -/
inductive ChannelAnswer (Value : Type) where
  | wait
  | value (value : Value)
  | closed
  | refused (value : Value)
  | lagged (missed : UInt64)
  | receivers (count : ℕ)
deriving DecidableEq, Repr

def Endpoint.isSender : Endpoint → Bool
  | .mpscSender | .unboundedSender | .oneshotSender | .watchSender | .broadcastSender => true
  | _ => false

def Endpoint.isMpscReceiver : Endpoint → Bool
  | .mpscReceiver | .unboundedReceiver => true
  | _ => false

/-- Answer, if the condition allows it. -/
def allow {α β : Type} (condition : Bool) (reply : α) (state : β) : Option (α × β) :=
  if condition then some (reply, state) else none

variable [DecidableEq Process]

/-- The channel takes a value from a process. -/
def ChannelState.accept (state : ChannelState Process) (process : Process) : ChannelState Process :=
  { state with queued := state.queued + 1, accepted := Function.update state.accepted process true }

/-- Tokio's channel, as far as it counts senders and values: the schedule decides what it answers. -/
def countingChannel (process : Process) (state : ChannelState Process) :
    (call : Tokio Value) → ChannelAnswer Value → Option (call.Reply × ChannelState Process)
  | .cloneEndpoint endpoint _, _ =>
      some ((0 : Handle), if endpoint.isSender then { state with senders := state.senders + 1 } else state)
  | .dropEndpoint endpoint _, _ =>
      some ((),
        if endpoint.isSender then { state with senders := state.senders - 1 }
        else if endpoint.isMpscReceiver then { state with receiverDropped := true }
        else state)
  | .send _ _, _ | .recv _, _ | .unboundedRecv _, _ | .changed _, _ | .broadcastRecv _, _ => some ((0 : Handle), state)
  | .dropFuture _ _, _ => some ((), state)
  | .poll .send _, .wait => some (.pending, state)
  | .poll .send _, .value _ => allow (!state.refuses) (.ready (.ok ())) (state.accept process)
  | .poll .send _, .refused value => allow state.refuses (.ready (.error value)) state
  | .trySend _ value, .wait => some (.error (.full value), state)
  | .trySend _ _, .value _ => allow (!state.refuses) (.ok ()) (state.accept process)
  | .trySend _ _, .refused value => allow state.refuses (.error (.closed value)) state
  | .unboundedSend _ _, .value _ => allow (!state.refuses) (.ok ()) (state.accept process)
  | .unboundedSend _ _, .refused value => allow state.refuses (.error value) state
  | .poll .recv _, .wait => some (.pending, state)
  | .poll .recv _, .value value =>
      allow state.delivers (.ready (some value)) { state with queued := state.queued - 1 }
  | .poll .recv _, .closed => allow state.ended (.ready none) state
  | .tryRecv _, .wait | .unboundedTryRecv _, .wait => some (.error .empty, state)
  | .tryRecv _, .value value | .unboundedTryRecv _, .value value =>
      allow state.delivers (.ok value) { state with queued := state.queued - 1 }
  | .tryRecv _, .closed | .unboundedTryRecv _, .closed => allow state.ended (.error .disconnected) state
  | .close _, _ | .unboundedClose _, _ => some ((), { state with closed := true })
  | .poll .changed _, .wait => some (.pending, state)
  | .poll .changed _, .value _ => some (.ready (.ok ()), state)
  | .poll .changed _, .closed => allow state.ended (.ready (.error ())) state
  | .watchSend _ _, .value _ => some (.ok (), state)
  | .watchSend _ value, .refused _ => some (.error value, state)
  | .watchSubscribe _, _ | .broadcastSubscribe _, _ | .broadcastResubscribe _, _ => some ((0 : Handle), state)
  | .broadcastSend _ _, .receivers count => some (.ok count, state)
  | .broadcastSend _ value, .refused _ => some (.error value, state)
  | .poll .broadcastRecv _, .wait => some (.pending, state)
  | .poll .broadcastRecv _, .value value => some (.ready (.ok value), state)
  | .poll .broadcastRecv _, .lagged missed => some (.ready (.error (.lagged missed)), state)
  | .poll .broadcastRecv _, .closed => allow state.ended (.ready (.error .closed)) state
  | .broadcastTryRecv _, .wait => some (.error .empty, state)
  | .broadcastTryRecv _, .value value => some (.ok value, state)
  | .broadcastTryRecv _, .lagged missed => some (.error (.lagged missed), state)
  | .broadcastTryRecv _, .closed => allow state.ended (.error .closed) state
  | _, _ => none

/-- The world around the channel, and who owns its senders. -/
structure ChannelWorld (Process : Type) where
  world : World (ChannelState Process)
  /-- The senders that are in somebody's hands. -/
  senders : Finset (SenderName Process) := {none}
  /-- The sender that a use borrows. -/
  borrowed : Process → Option (SenderName Process) := fun _ => none

variable [Fintype Process]

def ChannelWorld.answer (shared : ChannelWorld Process) (process : Process) :
    (effect : OwnedEffect Value Process) → ChannelAnswer Value → Option (OwnedReply effect × ChannelWorld Process)
  | .inl effect, choice =>
      (shared.world.answer (countingChannel process) effect choice).map fun (reply, world) =>
        (reply, { shared with world })
  | .inr (.borrow source), _ =>
      if source ∈ shared.senders then
        some ((), { shared with borrowed := Function.update shared.borrowed process (some source) })
      else none
  | .inr .release, _ => some ((), { shared with borrowed := Function.update shared.borrowed process none })
  | .inr (.take name), _ =>
      if name ∈ shared.senders ∧ ∀ other, shared.borrowed other ≠ some name then
        some ((), { shared with senders := shared.senders.erase name })
      else none
  | .inr .put, _ => some ((), { shared with senders := insert (some process) shared.senders })

/-- The runs of one channel. -/
def channelSystem (Value : Type) (flavor : ChannelFlavor) (resource : UInt64) :
    System (OwnedEffect Value Process) OwnedReply Process ChannelUse (ChannelOperation Value Process)
      (ChannelAnswer Value) (ChannelWorld Process) where
  start _ := channelStart flavor resource
  answer shared process := shared.answer process

end Laplace.Model.Runtime
