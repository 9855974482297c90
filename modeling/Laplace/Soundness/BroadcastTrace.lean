import Laplace.Model.BroadcastRing
import Laplace.Soundness.RuntimeRuns

/-! # The outcomes of a broadcast trace

A reference ring that sees only the reported events: the capacity of `broadcast_created`, a cursor for every
`subscribed`, a slot for every `Send` that was resolved `Ok`, and the sender ledger. It predicts the outcome of every
receive, with the capacity rounded up as tokio does. The position that the wrapper counts beside the channel never
wraps, since every send draws an id and the ids run out first.
-/

namespace Laplace.Soundness

open Laplace.Machine Laplace.Model Laplace.Model.Runtime

variable {Value : Type}

/-- The ring that is driven by the reported events alone. -/
structure ReferenceRing where
  capacity : ℕ := 0
  sent : ℕ := 0
  senders : ℕ := 0
  cursor : UInt64 → ℕ := fun _ => 0

namespace ReferenceRing

variable (size : ℕ → ℕ) (ring : ReferenceRing)

/-- What a receive must find; `size` is the number of slots for a capacity. -/
def predict (receiver : UInt64) : BroadcastOutcome :=
  if ring.cursor receiver + size ring.capacity < ring.sent then
    .lagged (UInt64.ofNat (ring.sent - size ring.capacity - ring.cursor receiver))
  else if ring.cursor receiver < ring.sent then .ok 1
  else if ring.senders = 0 then .closed
  else .empty

/-- Where the cursor stands after a receive. -/
def after (receiver : UInt64) : ℕ :=
  if ring.cursor receiver + size ring.capacity < ring.sent then ring.sent - size ring.capacity
  else if ring.cursor receiver < ring.sent then ring.cursor receiver + 1
  else ring.cursor receiver

def seek (receiver : UInt64) (position : ℕ) : ReferenceRing :=
  { ring with cursor := Function.update ring.cursor receiver position }

def observe : Event → ReferenceRing
  | .broadcastCreated _ capacity => { ring with capacity, senders := 1 }
  | .broadcastSubscribed _ receiver atSeq => ring.seek receiver atSeq.toNat
  | .broadcastOpResolved _ _ _ .send (.ok _) => { ring with sent := ring.sent + 1 }
  | .broadcastOpResolved _ _ (some receiver) .recv _ | .broadcastOpResolved _ _ (some receiver) .tryRecv _ =>
      ring.seek receiver (ring.after size receiver)
  | .broadcastEndpointCloned _ .sender _ => { ring with senders := ring.senders + 1 }
  | .broadcastEndpointDropped _ .sender _ => { ring with senders := ring.senders - 1 }
  | _ => ring

end ReferenceRing

/-- The ring after a trace. -/
def referenceRing (size : ℕ → ℕ) (trace : List Event) : ReferenceRing := trace.foldl (ReferenceRing.observe size) {}

theorem referenceRing_append (size : ℕ → ℕ) (trace : List Event) (event : Event) :
    referenceRing size (trace ++ [event]) = (referenceRing size trace).observe size event := by
  simp only [referenceRing, List.foldl_append, List.foldl_cons, List.foldl_nil]

/-- The outcome that an event reports for a receive; a request that waits has found nothing. -/
def receiveOutcome : Event → Option (UInt64 × BroadcastOutcome)
  | .broadcastOpResolved _ _ (some receiver) .recv outcome | .broadcastOpResolved _ _ (some receiver) .tryRecv outcome =>
      some (receiver, outcome)
  | .broadcastOpRequested _ _ (some receiver) .recv => some (receiver, .empty)
  | _ => none

/-- Every outcome that is reported for a receive is the one that the events before it predict. -/
def Predicted (size : ℕ → ℕ) : List Event → Prop :=
  Throughout fun before event => ∀ receiver outcome, receiveOutcome event = some (receiver, outcome) →
    (referenceRing size before).predict size receiver = outcome

theorem Predicted.append {size : ℕ → ℕ} {trace : List Event} {event : Event} (predicted : Predicted size trace)
    (last : ∀ receiver outcome, receiveOutcome event = some (receiver, outcome) →
      (referenceRing size trace).predict size receiver = outcome) : Predicted size (trace ++ [event]) :=
  Throughout.append predicted last

/-- An event that reports no receive. -/
theorem Predicted.other {size : ℕ → ℕ} {trace : List Event} {event : Event} (predicted : Predicted size trace)
    (other : receiveOutcome event = none) : Predicted size (trace ++ [event]) := by
  refine predicted.append fun receiver outcome isOutcome => ?_
  rw [other] at isOutcome
  cases isOutcome

/-- What the reference ring shares with tokio's. -/
structure Mirrors (receivers : List Broadcast.Receiver) (ring : BroadcastRing Value) (reference : ReferenceRing)
    (counter : UInt64) :
    Prop where
  size : reference.capacity.nextPowerOfTwo = ring.size
  sent : reference.sent = ring.values.length
  senders : reference.senders = ring.senders
  cursor : ∀ receiver ∈ receivers, reference.cursor receiver.id = ring.next receiver.inner
  drawn : ∀ receiver ∈ receivers, receiver.id < counter
  named : ∀ receiver ∈ receivers, receiver.inner < ring.nextHandle
  apart : ∀ receiver ∈ receivers, ∀ other ∈ receivers, other.id = receiver.id ↔ other.inner = receiver.inner
  bounded : ring.values.length ≤ counter.toNat

/-- What holds between two operations of the client. -/
structure BroadcastInvariant (sendSeq : Handle) (client : BroadcastClient) (world : World (BroadcastRing Value)) :
    Prop where
  hooked : world.hooked = fun _ => true
  predicted : Predicted Nat.nextPowerOfTwo world.trace
  mirrors : Mirrors client.receivers world.inner (referenceRing Nat.nextPowerOfTwo world.trace) world.nextWaiter
  sequence : world.atomics sendSeq = UInt64.ofNat world.inner.values.length
  senders : ∀ sender ∈ client.senders, sender.sendSeq = sendSeq
  receivers : ∀ receiver ∈ client.receivers, receiver.sendSeq = sendSeq

/-- The reference ring predicts what tokio's ring answers, and moves as it does. -/
theorem predict_recv {ring : BroadcastRing Value} {reference : ReferenceRing} {receiver : Handle} {id : UInt64}
    (size : reference.capacity.nextPowerOfTwo = ring.size) (sent : reference.sent = ring.values.length)
    (senders : reference.senders = ring.senders) (cursor : reference.cursor id = ring.next receiver) :
    reference.predict Nat.nextPowerOfTwo id = Broadcast.tryRecvOutcome (ring.recv receiver).1 ∧
      (ring.recv receiver).2 = ring.seek receiver (reference.after Nat.nextPowerOfTwo id) := by
  simp only [ReferenceRing.predict, ReferenceRing.after, BroadcastRing.recv, size, sent, senders, cursor]
  split
  · exact ⟨rfl, rfl⟩
  · cases found : ring.values[ring.next receiver]? with
    | some value =>
      obtain ⟨inside, -⟩ := List.getElem?_eq_some_iff.mp found
      rw [if_pos inside, if_pos inside]
      exact ⟨rfl, rfl⟩
    | none =>
      have outside := List.getElem?_eq_none_iff.mp found
      have unread : ¬ ring.next receiver < ring.values.length := by omega
      rw [if_neg unread, if_neg unread]
      refine ⟨?_, ?_⟩
      · split <;> rfl
      · simp only [BroadcastRing.seek, Function.update_eq_self]

theorem lt_next {counter : UInt64} (room : counter.toNat + 1 < 2 ^ 64) : counter < counter + 1 := by
  rw [UInt64.lt_iff_toNat_lt, UInt64.toNat_add, UInt64.toNat_one, Nat.mod_eq_of_lt room]
  omega

namespace Mirrors

variable {receivers : List Broadcast.Receiver} {ring : BroadcastRing Value} {reference : ReferenceRing} {counter : UInt64}

/-- Another id is drawn. -/
theorem draw (mirrors : Mirrors receivers ring reference counter) (room : counter.toNat + 1 < 2 ^ 64) :
    Mirrors receivers ring reference (counter + 1) := by
  have more := lt_next room
  refine { mirrors with drawn := fun receiver member => ?_, bounded := ?_ }
  · exact UInt64.lt_trans (mirrors.drawn receiver member) more
  · have bounded := mirrors.bounded
    rw [UInt64.lt_iff_toNat_lt] at more
    omega

/-- A value is sent under an id of its own. -/
theorem send (mirrors : Mirrors receivers ring reference counter) (room : counter.toNat + 1 < 2 ^ 64)
    (value : Value) :
    Mirrors receivers { ring with values := ring.values ++ [value] } { reference with sent := reference.sent + 1 }
      (counter + 1) := by
  refine { mirrors.draw room with sent := ?_, bounded := ?_ }
  · rw [List.length_append, ← mirrors.sent]
    rfl
  · have bounded := mirrors.bounded
    rw [List.length_append, UInt64.toNat_add, UInt64.toNat_one, Nat.mod_eq_of_lt room]
    exact Nat.add_le_add_right bounded 1

/-- The number of senders changes. -/
theorem endpoints (mirrors : Mirrors receivers ring reference counter) (senders count : ℕ) :
    Mirrors receivers { ring with senders, receivers := count } { reference with senders } counter :=
  { mirrors with senders := rfl }

/-- A receiver subscribes at the tail, under a fresh id. -/
theorem subscribe (mirrors : Mirrors receivers ring reference counter) (room : counter.toNat + 1 < 2 ^ 64)
    {receiver : Broadcast.Receiver} {later : BroadcastRing Value}
        (isNew : ring.newReceiver = some (receiver.inner, later))
    (isId : receiver.id = counter) :
    Mirrors (receivers ++ [receiver]) later
      (reference.seek receiver.id ring.values.length) (counter + 1) := by
  have more := lt_next room
  unfold BroadcastRing.newReceiver at isNew
  split at isNew
  · cases isNew
  obtain ⟨isHandle, rfl⟩ := Prod.mk.inj (Option.some.inj isNew)
  have otherId : ∀ other ∈ receivers, other.id ≠ receiver.id := by
    intro other member same
    have before := mirrors.drawn other member
    rw [same, isId] at before
    exact absurd before (UInt64.lt_irrefl counter)
  have otherHandle : ∀ other ∈ receivers, other.inner ≠ receiver.inner := by
    intro other member same
    have before := mirrors.named other member
    rw [same, ← isHandle] at before
    exact absurd before (Nat.lt_irrefl _)
  refine ⟨mirrors.size, mirrors.sent, mirrors.senders, ?_, ?_, ?_, ?_, ?_⟩
  · intro other member
    rcases List.mem_append.mp member with old | new
    · rw [ReferenceRing.seek, isHandle]
      dsimp only
      rw [Function.update_of_ne (otherId other old), Function.update_of_ne (otherHandle other old)]
      exact mirrors.cursor other old
    · obtain rfl := List.mem_singleton.mp new
      rw [ReferenceRing.seek, isHandle]
      dsimp only
      rw [Function.update_self, Function.update_self]
  · intro other member
    rcases List.mem_append.mp member with old | new
    · exact UInt64.lt_trans (mirrors.drawn other old) more
    · obtain rfl := List.mem_singleton.mp new
      rw [isId]
      exact more
  · intro other member
    rcases List.mem_append.mp member with old | new
    · exact Nat.lt_succ_of_lt (mirrors.named other old)
    · obtain rfl := List.mem_singleton.mp new
      rw [← isHandle]
      exact Nat.lt_succ_self _
  · intro one member two member'
    rcases List.mem_append.mp member with old | new <;> rcases List.mem_append.mp member' with old' | new'
    · exact mirrors.apart one old two old'
    · obtain rfl := List.mem_singleton.mp new'
      exact iff_of_false (fun same => otherId one old same.symm) fun same => otherHandle one old same.symm
    · obtain rfl := List.mem_singleton.mp new
      exact iff_of_false (otherId two old') (otherHandle two old')
    · obtain rfl := List.mem_singleton.mp new
      obtain rfl := List.mem_singleton.mp new'
      exact iff_of_true rfl rfl
  · exact (mirrors.draw room).bounded

/-- The client holds fewer receivers. -/
theorem fewer (mirrors : Mirrors receivers ring reference counter) {kept : List Broadcast.Receiver}
    (subset : kept ⊆ receivers) (count : ℕ) : Mirrors kept { ring with receivers := count } reference counter :=
  { mirrors with
    cursor := fun receiver member => mirrors.cursor receiver (subset member)
    drawn := fun receiver member => mirrors.drawn receiver (subset member)
    named := fun receiver member => mirrors.named receiver (subset member)
    apart := fun one member two member' => mirrors.apart one (subset member) two (subset member') }

/-- A receiver moves, in both rings. -/
theorem seek (mirrors : Mirrors receivers ring reference counter) {receiver : Broadcast.Receiver}
    (member : receiver ∈ receivers) (position : ℕ) :
    Mirrors receivers (ring.seek receiver.inner position) (reference.seek receiver.id position) counter := by
  refine { mirrors with cursor := fun other isMember => ?_ }
  have same := mirrors.apart receiver member other isMember
  simp only [ReferenceRing.seek, BroadcastRing.seek, Function.update_apply]
  split
  · next isSame => rw [if_pos (same.mp isSame)]
  · next different =>
    rw [if_neg fun isSame => different (same.mpr isSame)]
    exact mirrors.cursor other isMember

/-- A future is made. -/
theorem future (mirrors : Mirrors receivers ring reference counter) (source : Handle → Handle) :
    Mirrors receivers { ring with source, nextHandle := ring.nextHandle + 1 } reference counter :=
  { mirrors with named := fun receiver member => Nat.lt_succ_of_lt (mirrors.named receiver member) }

end Mirrors

/-- What is left of the invariant where the thread panics. -/
abbrev Sound (world : World (BroadcastRing Value)) : Prop := Predicted Nat.nextPowerOfTwo world.trace

/-- A program that keeps the invariant. -/
abbrev Keeping {α : Type} (sendSeq : Handle) (held : α → BroadcastClient) (program : RuntimeM Value α)
    (world : World (BroadcastRing Value)) : Prop :=
  program.Ensures (World.handle BroadcastRing.answer) (fun value later => BroadcastInvariant sendSeq (held value) later)
    Sound world

section Methods

variable {sendSeq : Handle} {client : BroadcastClient} {world : World (BroadcastRing Value)}

theorem send_keeps (invariant : BroadcastInvariant sendSeq client world) {sender : Broadcast.Sender}
    (member : sender ∈ client.senders) (value : Value) :
        Keeping sendSeq (fun _ => client) (sender.send value) world := by
  obtain ⟨hooked, predicted, mirrors, sequence, senders, receivers⟩ := invariant
  refine ensures_nextWaiter (fun room => ?_) predicted
  refine (ensures_withHook (by exact hooked)).mpr (ensures_report.mpr ?_)
  have requested : Predicted Nat.nextPowerOfTwo
      (world.trace ++ [.broadcastOpRequested sender.resource world.nextWaiter none .send]) := predicted.other rfl
  have same : referenceRing Nat.nextPowerOfTwo
      (world.trace ++ [.broadcastOpRequested sender.resource world.nextWaiter none .send]) =
      referenceRing Nat.nextPowerOfTwo world.trace := referenceRing_append _ _ _
  rcases eq_or_ne world.inner.receivers 0 with nobody | somebody
  · -- nobody listens: the value comes back, and no slot is written
    have answered : world.inner.answer (.broadcastSend sender.inner value) () = some (.error value, world.inner) := by
      simp only [BroadcastRing.answer, BroadcastRing.send, if_pos nobody]
    refine (ensures_tokio (by exact answered)).mpr ?_
    refine (ensures_withHook (by exact hooked)).mpr (ensures_report.mpr ?_)
    refine ⟨hooked, requested.other rfl, ?_, sequence, senders, receivers⟩
    rw [referenceRing_append, same]
    exact mirrors.draw room
  · have answered : world.inner.answer (.broadcastSend sender.inner value) () =
        some (.ok world.inner.receivers, { world.inner with values := world.inner.values ++ [value] }) := by
      simp only [BroadcastRing.answer, BroadcastRing.send, if_neg somebody]
    refine (ensures_tokio (by exact answered)).mpr ?_
    refine ensures_fetchAdd.mpr ?_
    refine (ensures_withHook (by exact hooked)).mpr (ensures_report.mpr ?_)
    refine ⟨hooked, requested.other rfl, ?_, ?_, senders, receivers⟩
    · dsimp only
      rw [referenceRing_append, same]
      exact mirrors.send room value
    · dsimp only
      rw [senders sender member, Function.update_self, sequence, List.length_append]
      exact (UInt64.ofNat_add ..).symm

/-- A report that neither the reference ring nor a receiver takes notice of. -/
theorem BroadcastInvariant.unnoticed (invariant : BroadcastInvariant sendSeq client world) {event : Event}
    (ignored : (referenceRing Nat.nextPowerOfTwo world.trace).observe Nat.nextPowerOfTwo event =
      referenceRing Nat.nextPowerOfTwo world.trace) (other : receiveOutcome event = none) (readings : ℕ) :
    BroadcastInvariant sendSeq client { world with trace := world.trace ++ [event], readings } := by
  refine { invariant with predicted := invariant.predicted.other other, mirrors := ?_ }
  dsimp only
  rw [referenceRing_append, ignored]
  exact invariant.mirrors

theorem clone_keeps (invariant : BroadcastInvariant sendSeq client world) {sender : Broadcast.Sender}
    (member : sender ∈ client.senders) :
    Keeping sendSeq (fun cloned => { client with senders := client.senders ++ [cloned] }) sender.clone world := by
  obtain ⟨hooked, predicted, mirrors, sequence, senders, receivers⟩ := invariant
  refine (ensures_withHook (by exact hooked)).mpr (ensures_report.mpr ?_)
  refine (ensures_tokio rfl).mpr ?_
  refine ⟨hooked, predicted.other rfl, ?_, sequence, fun other isMember => ?_, receivers⟩
  · dsimp only
    rw [referenceRing_append]
    simp only [ReferenceRing.observe, mirrors.senders]
    exact mirrors.endpoints _ _
  · rcases List.mem_append.mp isMember with old | new
    · exact senders other old
    · rw [List.mem_singleton.mp new]
      exact senders sender member

theorem dropSender_keeps (invariant : BroadcastInvariant sendSeq client world) (sender : Broadcast.Sender)
    (place : ℕ) :
    Keeping sendSeq (fun _ => { client with senders := client.senders.eraseIdx place })
      (sender.drop : RuntimeM Value Unit)
      world := by
  obtain ⟨hooked, predicted, mirrors, sequence, senders, receivers⟩ := invariant
  refine (ensures_withHook (by exact hooked)).mpr (ensures_report.mpr ?_)
  refine ⟨hooked, predicted.other rfl, ?_, sequence, fun other isMember => ?_, receivers⟩
  · dsimp only
    rw [referenceRing_append]
    simp only [ReferenceRing.observe, mirrors.senders]
    exact mirrors.endpoints _ _
  · exact senders other (List.mem_of_mem_eraseIdx isMember)

theorem dropReceiver_keeps (invariant : BroadcastInvariant sendSeq client world) (receiver : Broadcast.Receiver)
    (place : ℕ) :
    Keeping sendSeq (fun _ => { client with receivers := client.receivers.eraseIdx place })
      (receiver.drop : RuntimeM Value Unit) world := by
  obtain ⟨hooked, predicted, mirrors, sequence, senders, receivers⟩ := invariant
  refine (ensures_withHook (by exact hooked)).mpr (ensures_report.mpr ?_)
  refine ⟨hooked, predicted.other rfl, ?_, sequence, senders, fun other isMember => ?_⟩
  · dsimp only
    rw [referenceRing_append]
    exact mirrors.fewer (fun _ isMember => List.mem_of_mem_eraseIdx isMember) _
  · exact receivers other (List.mem_of_mem_eraseIdx isMember)

/-- The position that the wrapper has counted is the number of values sent. -/
theorem BroadcastInvariant.position (invariant : BroadcastInvariant sendSeq client world) :
    (world.atomics sendSeq).toNat = world.inner.values.length := by
  have bounded := invariant.mirrors.bounded
  have small := world.nextWaiter.toNat_lt
  rw [invariant.sequence, UInt64.toNat_ofNat']
  exact Nat.mod_eq_of_lt (by omega)

/-- A receiver is reported at the tail. -/
theorem BroadcastInvariant.subscribed (invariant : BroadcastInvariant sendSeq client world)
    (receiver : Broadcast.Receiver) (room : world.nextWaiter.toNat + 1 < 2 ^ 64) {ring : BroadcastRing Value}
    (isNew : world.inner.newReceiver = some (receiver.inner, ring)) (isId : receiver.id = world.nextWaiter)
    (own : receiver.sendSeq = sendSeq) (readings : ℕ) :
    BroadcastInvariant sendSeq { client with receivers := client.receivers ++ [receiver] }
      { world with
        inner := ring
        trace := world.trace ++ [.broadcastEndpointCloned receiver.resource .receiver (some receiver.id)] ++
          [.broadcastSubscribed receiver.resource receiver.id (world.atomics sendSeq)]
        nextWaiter := world.nextWaiter + 1
        readings } := by
  have position := invariant.position
  obtain ⟨hooked, predicted, mirrors, sequence, senders, receivers⟩ := invariant
  have values : ring.values = world.inner.values := by
    unfold BroadcastRing.newReceiver at isNew
    split at isNew
    · cases isNew
    · obtain ⟨-, rfl⟩ := Prod.mk.inj (Option.some.inj isNew)
      rfl
  refine ⟨hooked, (predicted.other rfl).other rfl, ?_, ?_, senders, fun other member => ?_⟩
  · dsimp only
    rw [referenceRing_append, referenceRing_append]
    simp only [ReferenceRing.observe, position]
    exact mirrors.subscribe room isNew isId
  · dsimp only
    rw [values]
    exact sequence
  · rcases List.mem_append.mp member with old | new
    · exact receivers other old
    · rw [List.mem_singleton.mp new]
      exact own

theorem subscribe_keeps (invariant : BroadcastInvariant sendSeq client world) {sender : Broadcast.Sender}
    (member : sender ∈ client.senders) :
    Keeping sendSeq (fun receiver => { client with receivers := client.receivers ++ [receiver] }) sender.subscribe world := by
  have own := invariant.senders sender member
  cases isNew : world.inner.newReceiver with
  | none => exact (ensures_tokio_refused isNew).mpr invariant.predicted
  | some made =>
    obtain ⟨handle, ring⟩ := made
    refine (ensures_tokio (by exact isNew)).mpr (ensures_nextWaiter (fun room => ?_) invariant.predicted)
    refine (ensures_withHook (by exact invariant.hooked)).mpr ?_
    rw [Program.bind_bind]
    refine ensures_report.mpr ?_
    rw [Program.bind_bind]
    refine ensures_load.mpr (ensures_report.mpr ?_)
    dsimp only
    rw [own]
    exact invariant.subscribed ⟨handle, sender.resource, world.nextWaiter, sendSeq⟩ room isNew rfl rfl _

theorem resubscribe_keeps (invariant : BroadcastInvariant sendSeq client world) {receiver : Broadcast.Receiver}
    (member : receiver ∈ client.receivers) :
    Keeping sendSeq (fun another => { client with receivers := client.receivers ++ [another] }) receiver.resubscribe
      world := by
  have own := invariant.receivers receiver member
  refine ensures_nextWaiter (fun room => ?_) invariant.predicted
  have drawn : BroadcastInvariant sendSeq client { world with nextWaiter := world.nextWaiter + 1 } :=
    { invariant with mirrors := invariant.mirrors.draw room }
  cases isNew : world.inner.newReceiver with
  | none => exact (ensures_tokio_refused isNew).mpr invariant.predicted
  | some made =>
    obtain ⟨handle, ring⟩ := made
    refine (ensures_tokio (by exact isNew)).mpr (ensures_nextWaiter (fun room => ?_) invariant.predicted)
    refine (ensures_withHook (by exact invariant.hooked)).mpr ?_
    rw [Program.bind_bind]
    refine ensures_report.mpr ?_
    rw [Program.bind_bind]
    refine ensures_load.mpr ?_
    rw [Program.bind_bind]
    refine ensures_report.mpr (ensures_report.mpr ?_)
    dsimp only at room ⊢
    rw [own]
    have subscribed := drawn.subscribed ⟨handle, receiver.resource, world.nextWaiter + 1, sendSeq⟩ room isNew rfl rfl
      (world.readings + 1)
    exact subscribed.unnoticed rfl rfl _

/-- The report of a receive, after tokio has answered it. -/
theorem BroadcastInvariant.received (invariant : BroadcastInvariant sendSeq client world)
    {receiver : Broadcast.Receiver}
    (member : receiver ∈ client.receivers) {event : Event}
    (reports : receiveOutcome event = some (receiver.id,
        Broadcast.tryRecvOutcome (world.inner.recv receiver.inner).1))
    (moves : ∀ reference : ReferenceRing, reference.observe Nat.nextPowerOfTwo event =
      reference.seek receiver.id (reference.after Nat.nextPowerOfTwo receiver.id)) (readings : ℕ) :
    BroadcastInvariant sendSeq client
      { world with inner := (world.inner.recv receiver.inner).2, trace := world.trace ++ [event], readings } := by
  obtain ⟨hooked, predicted, mirrors, sequence, senders, receivers⟩ := invariant
  obtain ⟨outcome, moved⟩ := predict_recv mirrors.size mirrors.sent mirrors.senders (mirrors.cursor receiver member)
  refine ⟨hooked, predicted.append ?_, ?_, ?_, senders, receivers⟩
  · intro id reported isReported
    rw [reports] at isReported
    obtain ⟨rfl, rfl⟩ := Prod.mk.inj (Option.some.inj isReported)
    exact outcome
  · dsimp only
    rw [referenceRing_append, moves, moved]
    exact mirrors.seek member _
  · dsimp only
    rw [moved]
    exact sequence

theorem tryRecv_keeps (invariant : BroadcastInvariant sendSeq client world) {receiver : Broadcast.Receiver}
    (member : receiver ∈ client.receivers) :
    Keeping sendSeq (fun _ => client)
      (receiver.tryRecv : RuntimeM Value (Except BroadcastTryRecvError Value)) world := by
  refine ensures_nextWaiter (fun room => ?_) invariant.predicted
  have drawn : BroadcastInvariant sendSeq client { world with nextWaiter := world.nextWaiter + 1 } :=
    { invariant with mirrors := invariant.mirrors.draw room }
  refine (ensures_tokio rfl).mpr ?_
  refine (ensures_withHook (by exact invariant.hooked)).mpr (ensures_report.mpr ?_)
  exact drawn.received member rfl (fun _ => rfl) _

/-- A receive that finds nothing leaves tokio's ring alone. -/
theorem recv_empty {ring : BroadcastRing Value} {receiver : Handle} (empty : (ring.recv receiver).1 = .error .empty) :
    (ring.recv receiver).2 = ring := by
  unfold BroadcastRing.recv at empty ⊢
  split
  · next behind =>
    rw [if_pos behind] at empty
    cases empty
  · next inside =>
    rw [if_neg inside] at empty
    split
    · next value found =>
      rw [found] at empty
      cases empty
    · rfl

/-- The first poll of a receive. -/
theorem poll_keeps (invariant : BroadcastInvariant sendSeq client world) {receiver : Broadcast.Receiver}
    (member : receiver ∈ client.receivers) {future : Broadcast.ModelBroadcastRecv}
        (isId : future.receiverId = receiver.id)
    (unpolled : future.requestedEmitted = false) (source : world.inner.source future.inner = receiver.inner) :
    Keeping sendSeq (fun _ => client)
      (future.poll : RuntimeM Value (Poll (Except BroadcastRecvError Value) × Broadcast.ModelBroadcastRecv)) world := by
  have answered : world.inner.answer (.poll .broadcastRecv future.inner) () =
      some (BroadcastRing.polled (world.inner.recv receiver.inner).1, (world.inner.recv receiver.inner).2) := by
    simp only [BroadcastRing.answer, source]
  refine Program.ensures_bind.mpr ((ensures_tokio answered).mpr ?_)
  have resolved (outcome : BroadcastOutcome)
      (reported : Broadcast.tryRecvOutcome (world.inner.recv receiver.inner).1 = outcome) (readings : ℕ) :
      BroadcastInvariant sendSeq client
        { world with
          inner := (world.inner.recv receiver.inner).2
          trace := world.trace ++
            [.broadcastOpResolved future.resource future.waiter (some future.receiverId) .recv outcome]
          readings } :=
    invariant.received member (by rw [reported, isId]; rfl) (by rw [isId]; exact fun _ => rfl) readings
  cases result : (world.inner.recv receiver.inner).1 with
  | ok value =>
    refine (ensures_withHook (by exact invariant.hooked)).mpr (ensures_report.mpr ?_)
    exact resolved (.ok 1) (by rw [result]; rfl) _
  | error err =>
    cases err with
    | closed =>
      refine (ensures_withHook (by exact invariant.hooked)).mpr (ensures_report.mpr ?_)
      exact resolved .closed (by rw [result]; rfl) _
    | lagged missed =>
      refine (ensures_withHook (by exact invariant.hooked)).mpr (ensures_report.mpr ?_)
      exact resolved (.lagged missed) (by rw [result]; rfl) _
    | empty =>
      simp only [BroadcastRing.polled, unpolled, Bool.false_eq_true, if_false, recv_empty result]
      refine (ensures_withHook (by exact invariant.hooked)).mpr (ensures_report.mpr ?_)
      obtain ⟨hooked, predicted, mirrors, sequence, senders, receivers⟩ := invariant
      refine ⟨hooked, predicted.append fun id outcome isOutcome => ?_, ?_, sequence, senders, receivers⟩
      · obtain ⟨rfl, rfl⟩ := Prod.mk.inj (Option.some.inj isOutcome)
        rw [isId, (predict_recv mirrors.size mirrors.sent mirrors.senders (mirrors.cursor receiver member)).1, result]
        rfl
      · dsimp only
        rw [referenceRing_append]
        exact mirrors

/-- A receive is started, polled once and dropped. -/
theorem recv_keeps (invariant : BroadcastInvariant sendSeq client world) {receiver : Broadcast.Receiver}
    (member : receiver ∈ client.receivers) :
    Keeping sendSeq id (do
      let future ← receiver.recv
      let (_, future) ← future.poll
      future.drop
      return client : RuntimeM Value BroadcastClient) world := by
  have started : (receiver.recv : RuntimeM Value Broadcast.ModelBroadcastRecv).Ensures
    (World.handle BroadcastRing.answer)
      (fun future later => BroadcastInvariant sendSeq client later ∧ future.receiverId = receiver.id ∧
        future.requestedEmitted = false ∧ later.inner.source future.inner = receiver.inner) Sound world := by
    refine Program.ensures_bind.mpr (ensures_nextWaiter (fun room => ?_) invariant.predicted)
    refine (ensures_tokio rfl).mpr ⟨?_, rfl, rfl, Function.update_self ..⟩
    exact { invariant with mirrors := (invariant.mirrors.draw room).future _ }
  refine started.bind fun future later ⟨kept, isId, unpolled, source⟩ => ?_
  refine (poll_keeps kept member isId unpolled source).bind fun polled later kept => ?_
  obtain ⟨answer, future⟩ := polled
  simp only [Broadcast.ModelBroadcastRecv.drop, Awaiting.drop]
  split
  · rw [Program.bind_bind]
    refine (ensures_withHook (by exact kept.hooked)).mpr (ensures_report.mpr ?_)
    exact kept.unnoticed rfl rfl _
  · exact kept

end Methods

section Runs

variable {sendSeq : Handle} {client : BroadcastClient} {world : World (BroadcastRing Value)}

/-- Every operation keeps the invariant. -/
theorem perform_keeps (invariant : BroadcastInvariant sendSeq client world) (operation : BroadcastOperation Value) :
    Keeping sendSeq id (client.perform operation) world := by
  have sender (place : ℕ) {call : Broadcast.Sender → RuntimeM Value BroadcastClient}
      (keeps : ∀ sender ∈ client.senders, Keeping sendSeq id (call sender) world) :
      Keeping sendSeq id (client.withSender place call) world := by
    unfold BroadcastClient.withSender
    split
    · next sender found => exact keeps sender (List.mem_of_getElem? found)
    · exact invariant
  have receiver (place : ℕ) {call : Broadcast.Receiver → RuntimeM Value BroadcastClient}
      (keeps : ∀ receiver ∈ client.receivers, Keeping sendSeq id (call receiver) world) :
      Keeping sendSeq id (client.withReceiver place call) world := by
    unfold BroadcastClient.withReceiver
    split
    · next receiver found => exact keeps receiver (List.mem_of_getElem? found)
    · exact invariant
  cases operation with
  | send place value => exact sender place fun _ member => (send_keeps invariant member value).bind fun _ _ kept => kept
  | clone place => exact sender place fun _ member => (clone_keeps invariant member).bind fun _ _ kept => kept
  | dropSender place => exact sender place fun _ _ => (dropSender_keeps invariant _ place).bind fun _ _ kept => kept
  | subscribe place => exact sender place fun _ member => (subscribe_keeps invariant member).bind fun _ _ kept => kept
  | resubscribe place => exact receiver place fun _ member => (resubscribe_keeps invariant member).bind fun _ _ kept => kept
  | dropReceiver place => exact receiver place fun _ _ => (dropReceiver_keeps invariant _ place).bind fun _ _ kept => kept
  | recv place => exact receiver place fun _ member => recv_keeps invariant member
  | tryRecv place => exact receiver place fun _ member => (tryRecv_keeps invariant member).bind fun _ _ kept => kept

theorem performAll_keeps (invariant : BroadcastInvariant sendSeq client world)
    (operations : List (BroadcastOperation Value)) : Keeping sendSeq id (client.performAll operations) world := by
  induction operations generalizing client world with
  | nil => exact invariant
  | cons operation rest ih => exact (perform_keeps invariant operation).bind fun _ _ kept => ih kept

/-- A new channel satisfies the invariant. -/
theorem channel_keeps (hooked : world.hooked = fun _ => true) (silent : world.trace = []) (capacity : ℕ) :
    (Broadcast.channel capacity : RuntimeM Value (Broadcast.Sender × Broadcast.Receiver)).Ensures
      (World.handle BroadcastRing.answer)
      (fun ends later => ∃ sendSeq, BroadcastInvariant sendSeq { senders := [ends.1], receivers := [ends.2] } later)
      Sound world := by
  have sound : Predicted Nat.nextPowerOfTwo world.trace := by
    rw [silent]
    exact throughout_nil _
  by_cases fits : 0 < capacity ∧ capacity < 2 ^ 63
  case neg => exact (ensures_tokio_refused (if_neg fits)).mpr sound
  case pos =>
    refine (ensures_tokio (by exact if_pos fits)).mpr (ensures_nextResource (fun _ => ?_) sound)
    refine ensures_newAtomic.mpr (ensures_nextWaiter (fun room => ?_) sound)
    refine (ensures_withHook (by exact hooked)).mpr ?_
    rw [Program.bind_bind]
    refine ensures_report.mpr (ensures_report.mpr ?_)
    refine ⟨world.nextHandle, hooked, (sound.other rfl).other rfl, ?_, Function.update_self .., ?_, ?_⟩
    · dsimp only
      rw [referenceRing_append, referenceRing_append, silent]
      have more := lt_next room
      exact ⟨rfl, rfl, rfl, by simp [referenceRing, ReferenceRing.observe, ReferenceRing.seek],
        by simpa using more, by simp, by simp, Nat.zero_le _⟩
    · simp
    · simp

/-- **A broadcast trace determines its outcomes.** Whatever one thread does with a channel, the reference ring
with the capacity rounded up to a power of two predicts what every receive is reported to have found. -/
theorem broadcast_outcomes_predicted (hooked : world.hooked = fun _ => true) (silent : world.trace = [])
    (capacity : ℕ)
    (operations : List (BroadcastOperation Value)) :
    Predicted Nat.nextPowerOfTwo
      ((broadcastProgram capacity operations).run (World.handle BroadcastRing.answer) world).2.trace := by
  have kept : (broadcastProgram capacity operations).Ensures (World.handle BroadcastRing.answer) (fun _ => Sound) Sound
      world := by
    refine (channel_keeps hooked silent capacity).bind fun ends later ⟨sendSeq, invariant⟩ => ?_
    exact (performAll_keeps invariant operations).mono fun _ _ kept => kept.predicted
  unfold Program.Ensures at kept
  split at kept
  · next ended => rw [ended]; exact kept
  · next ended => rw [ended]; exact kept

/-- A channel of capacity three, some sends and one `try_recv`. -/
def overrun (sends : ℕ) : List Event :=
  ((broadcastProgram 3 (List.flatten [List.replicate sends (.send 0 ()), [.tryRecv 0]])).run
    (World.handle BroadcastRing.answer) ({ inner := {} } : World (BroadcastRing Unit))).2.trace

/-- Four values fit a channel of capacity three, and five do not. -/
theorem broadcast_outcomes_predicted_overrun :
    Predicted Nat.nextPowerOfTwo (overrun 5) ∧
      (overrun 5).getLast? = some (.broadcastOpResolved 1 7 (some 1) .tryRecv (.lagged 1)) ∧
      (overrun 4).getLast? = some (.broadcastOpResolved 1 6 (some 1) .tryRecv (.ok 1)) := by
  refine ⟨broadcast_outcomes_predicted rfl rfl 3 _, ?_, ?_⟩
  · decide +kernel
  · decide +kernel

/-- A ring of the reported capacity predicts that the fourth value overwrites the first one; tokio has rounded the
capacity up to four. -/
theorem broadcast_capacity_rounded : ¬ Predicted id (overrun 4) := by
  intro predicted
  have split : overrun 4 = (overrun 4).take 10 ++ .broadcastOpResolved 1 6 (some 1) .tryRecv (.ok 1) :: [] := by
    decide +kernel
  have found := predicted _ _ _ split 1 (.ok 1) rfl
  have lagged : (referenceRing id ((overrun 4).take 10)).predict id 1 = .lagged 1 := by decide +kernel
  rw [lagged] at found
  cases found

end Runs

end Laplace.Soundness
