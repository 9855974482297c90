import Laplace.Machine.Run
import Laplace.Model.ProbeEvent
import Mathlib.Logic.Function.Basic

/-! # Capture sessions and event emission

The process-wide capture state of the probe SDK, as an interleaving of atomic steps of any number
of threads. Each call is cut at every point where another thread can observe it: taking
`CAPTURE_LOCK`, resetting the implicit ids, taking the `SESSION_SENDER` slot lock, writing the slot
under that lock, spawning the collector, joining it, and releasing `CAPTURE_LOCK` when the session's
fields are dropped. A thread that waits for a lock is one whose locking step is not enabled.

Assumed of the standard library: a mutex has at most one holder, and a channel delivers the sent
events to its receiver once each, in sending order. Poisoned locks are entered
(`PoisonError::into_inner`), so poisoning is not part of the state. The session's sender lives in the
slot alone, so the collector's channel is disconnected once the slot holds another value. A `log`
records, in the order they happen, the steps the properties speak about; no step reads it.
-/

namespace Laplace.Model.Capture

abbrev Tid := ℕ

/-- A session is named by the channel its `begin` creates. -/
abbrev Session := ℕ

/-- A legacy sink installed by `set_probe_sender`. -/
abbrev Legacy := ℕ

/-- Where a thread stands inside its current call. -/
inductive Pc where
  | idle
  /-- `begin` holds the capture lock. -/
  | captureLocked
  /-- `begin` has reset the implicit ids and is about to take the slot lock. -/
  | counterReset
  /-- `begin` holds the slot lock and the sender of its new channel. -/
  | slotLocked (session : Session)
  /-- `begin` has installed the sender; the collector is not spawned yet. -/
  | installed (session : Session)
  /-- `tear_down` holds the slot lock. -/
  | tearing (session : Session) (finish : Bool)
  /-- `tear_down` has cleared the slot and joins the collector. -/
  | joining (session : Session) (finish : Bool)
  /-- The collector is joined; the capture lock is still held. -/
  | joined (session : Session) (finish : Bool) (events : List ProbeEvent)
  /-- `emit` found no thread-local sink. -/
  | emitGlobal (event : ProbeEvent)
  /-- `emit` found no legacy sink at all. -/
  | emitSession (event : ProbeEvent)
  /-- `emit` holds the slot lock. -/
  | emitLocked (event : ProbeEvent)
  /-- `set_probe_sender` has written the thread-local sink. -/
  | senderStored (sink : Legacy)
  /-- `set_probe_sender` has also reset the implicit ids. -/
  | senderReset (sink : Legacy)
  /-- `clear_probe_sender` has cleared the thread-local sink. -/
  | senderCleared
deriving DecidableEq, Repr

/-- The receiving end of a session channel. -/
inductive Receiver where
  /-- Still inside `begin`. -/
  | unspawned
  /-- The collector thread has received these events so far. -/
  | running (collected : List ProbeEvent)
  /-- The collector thread has returned these events. -/
  | finished (collected : List ProbeEvent)
  /-- Dropped with the closure whose spawn failed. -/
  | dropped
deriving DecidableEq, Repr

structure Channel where
  queue : List ProbeEvent := []
  receiver : Receiver := .unspawned
deriving DecidableEq, Repr

/-- `mpsc::Sender::send`: an error, which `emit` ignores, once the receiver is gone. -/
def Channel.send (channel : Channel) (event : ProbeEvent) : Channel :=
  match channel.receiver with
  | .dropped | .finished _ => channel
  | _ => { channel with queue := channel.queue ++ [event] }

/-- The steps that the capture properties speak about. -/
inductive Entry where
  | installed (session : Session)
  | abandoned (session : Session)
  | cleared (session : Session)
  /-- An `emit` took the slot lock. -/
  | emitted (thread : Tid) (event : ProbeEvent)
  /-- `finish` returned this vector. -/
  | returned (session : Session) (events : List ProbeEvent)
deriving DecidableEq, Repr

structure State where
  /-- Holder of `CAPTURE_LOCK`. -/
  captureHolder : Option Tid := none
  nextImplicitThreadId : UInt64 := 0
  /-- `SESSION_SENDER`: the outer option is the once-lock, the inner one the sender. -/
  sessionSender : Option (Option Session) := none
  /-- Holder of the slot's mutex. -/
  slotHolder : Option Tid := none
  channels : Session → Channel := fun _ => {}
  nextSession : Session := 0
  /-- The session value a thread owns: a `CaptureSession` holds a mutex guard and cannot be sent. -/
  sessions : Tid → Option Session := fun _ => none
  pcs : Tid → Pc := fun _ => .idle
  /-- `PROBE_SENDER` of each thread. -/
  probeSender : Tid → Option Legacy := fun _ => none
  /-- `GLOBAL_PROBE_SENDER`, with its once-lock. -/
  globalProbeSender : Option (Option Legacy) := none
  legacyDelivered : List (Legacy × ProbeEvent) := []
  log : List Entry := []

/-- `OnceLock::get_or_init` on the slot: the first `begin` finds it uninitialised. -/
def getOrInit (slot : Option (Option Session)) : Option Session := slot.getD none

def State.goto (state : State) (thread : Tid) (pc : Pc) : State :=
  { state with pcs := Function.update state.pcs thread pc }

def State.record (state : State) (entry : Entry) : State :=
  { state with log := state.log ++ [entry] }

inductive Action where
  | beginLock (thread : Tid)
  | beginReset (thread : Tid)
  | beginSlotLock (thread : Tid)
  | beginInstall (thread : Tid)
  | beginSpawn (thread : Tid)
  /-- The collector's spawn fails: `expect` unwinds `begin`, which drops the guard and the receiver. -/
  | beginSpawnFailed (thread : Tid)
  /-- `finish`, or the drop of an unfinished session, takes the slot lock. -/
  | tearLock (thread : Tid) (finish : Bool)
  | tearClear (thread : Tid)
  | tearJoin (thread : Tid)
  /-- The session's fields are dropped, the capture guard first, and `finish` returns. -/
  | tearRelease (thread : Tid)
  | emitStart (thread : Tid) (event : ProbeEvent)
  | emitCheckGlobal (thread : Tid)
  | emitSlotMissing (thread : Tid)
  | emitSlotLock (thread : Tid)
  | emitSend (thread : Tid)
  | collect (session : Session)
  | collectEnd (session : Session)
  | setProbeSender (thread : Tid) (sink : Legacy)
  | setProbeSenderReset (thread : Tid)
  | setProbeSenderGlobal (thread : Tid)
  | clearProbeSender (thread : Tid)
  | clearProbeSenderGlobal (thread : Tid)
deriving DecidableEq, Repr

/-- One atomic step. A bounded legacy send is a step at the moment it completes. -/
def step (state : State) : Action → Option State
  | .beginLock thread =>
      match state.pcs thread, state.captureHolder with
      | .idle, none => some { state.goto thread .captureLocked with captureHolder := some thread }
      | _, _ => none
  | .beginReset thread =>
      match state.pcs thread with
      | .captureLocked => some { state.goto thread .counterReset with nextImplicitThreadId := 0 }
      | _ => none
  | .beginSlotLock thread =>
      match state.pcs thread, state.slotHolder with
      | .counterReset, none =>
          some { state.goto thread (.slotLocked state.nextSession) with
            sessionSender := some (getOrInit state.sessionSender)
            slotHolder := some thread
            nextSession := state.nextSession + 1 }
      | _, _ => none
  | .beginInstall thread =>
      match state.pcs thread with
      | .slotLocked session =>
          some { (state.goto thread (.installed session)).record (.installed session) with
            sessionSender := some (some session)
            slotHolder := none }
      | _ => none
  | .beginSpawn thread =>
      match state.pcs thread with
      | .installed session =>
          some { state.goto thread .idle with
            channels := Function.update state.channels session
              { state.channels session with receiver := .running [] }
            sessions := Function.update state.sessions thread (some session) }
      | _ => none
  | .beginSpawnFailed thread =>
      match state.pcs thread with
      | .installed session =>
          some { (state.goto thread .idle).record (.abandoned session) with
            captureHolder := none
            channels := Function.update state.channels session
              { state.channels session with receiver := .dropped } }
      | _ => none
  | .tearLock thread finish =>
      match state.pcs thread, state.sessions thread, state.slotHolder with
      | .idle, some session, none =>
          some { state.goto thread (.tearing session finish) with slotHolder := some thread }
      | _, _, _ => none
  | .tearClear thread =>
      match state.pcs thread with
      | .tearing session finish =>
          some { (state.goto thread (.joining session finish)).record (.cleared session) with
            sessionSender := some none
            slotHolder := none }
      | _ => none
  | .tearJoin thread =>
      match state.pcs thread with
      | .joining session finish =>
          (match (state.channels session).receiver with
          | .finished events => some (state.goto thread (.joined session finish events))
          | _ => none)
      | _ => none
  | .tearRelease thread =>
      match state.pcs thread with
      | .joined session finish events =>
          let released := { state.goto thread .idle with
            captureHolder := none
            sessions := Function.update state.sessions thread none }
          some (if finish then released.record (.returned session events) else released)
      | _ => none
  | .emitStart thread event =>
      match state.pcs thread, state.probeSender thread with
      | .idle, some sink => some { state with legacyDelivered := state.legacyDelivered ++ [(sink, event)] }
      | .idle, none => some (state.goto thread (.emitGlobal event))
      | _, _ => none
  | .emitCheckGlobal thread =>
      match state.pcs thread, state.globalProbeSender with
      | .emitGlobal event, some (some sink) =>
          some { state.goto thread .idle with
            legacyDelivered := state.legacyDelivered ++ [(sink, event)] }
      | .emitGlobal event, _ => some (state.goto thread (.emitSession event))
      | _, _ => none
  | .emitSlotMissing thread =>
      match state.pcs thread, state.sessionSender with
      | .emitSession _, none => some (state.goto thread .idle)
      | _, _ => none
  | .emitSlotLock thread =>
      match state.pcs thread, state.sessionSender, state.slotHolder with
      | .emitSession event, some _, none =>
          some { (state.goto thread (.emitLocked event)).record (.emitted thread event) with
            slotHolder := some thread }
      | _, _, _ => none
  | .emitSend thread =>
      match state.pcs thread, state.sessionSender with
      | .emitLocked event, some (some session) =>
          some { state.goto thread .idle with
            slotHolder := none
            channels := Function.update state.channels session ((state.channels session).send event) }
      | .emitLocked _, _ => some { state.goto thread .idle with slotHolder := none }
      | _, _ => none
  | .collect session =>
      match state.channels session with
      | ⟨event :: rest, .running collected⟩ =>
          some { state with
            channels := Function.update state.channels session ⟨rest, .running (collected ++ [event])⟩ }
      | _ => none
  | .collectEnd session =>
      if state.sessionSender = some (some session) then none
      else match state.channels session with
        | ⟨[], .running collected⟩ =>
            some { state with
              channels := Function.update state.channels session ⟨[], .finished collected⟩ }
        | _ => none
  | .setProbeSender thread sink =>
      match state.pcs thread with
      | .idle => some { state.goto thread (.senderStored sink) with
          probeSender := Function.update state.probeSender thread (some sink) }
      | _ => none
  | .setProbeSenderReset thread =>
      match state.pcs thread with
      | .senderStored sink => some { state.goto thread (.senderReset sink) with nextImplicitThreadId := 0 }
      | _ => none
  | .setProbeSenderGlobal thread =>
      match state.pcs thread with
      | .senderReset sink => some { state.goto thread .idle with globalProbeSender := some (some sink) }
      | _ => none
  | .clearProbeSender thread =>
      match state.pcs thread with
      | .idle => some { state.goto thread .senderCleared with
          probeSender := Function.update state.probeSender thread none }
      | _ => none
  | .clearProbeSenderGlobal thread =>
      match state.pcs thread with
      | .senderCleared => some { state.goto thread .idle with
          globalProbeSender := state.globalProbeSender.map fun _ => none }
      | _ => none

abbrev run? := Machine.run? step

/-- The process before any call. -/
def State.initial : State := {}

/-- The step that begins `set_probe_sender`, the only way to install a legacy sink. -/
def Action.installsLegacy : Action → Bool
  | .setProbeSender .. => true
  | _ => false

end Laplace.Model.Capture
