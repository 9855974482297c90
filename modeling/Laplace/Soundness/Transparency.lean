import Laplace.Machine.Wrapping
import Laplace.Model.ClientRuns
import Laplace.Soundness.RuntimeRuns

/-! # The wrappers are transparent

Every method of a wrapper makes the one call that the tokio method of its name makes, and draws ids, turns flags, reads
hook slots and reports around it. A draw from an exhausted counter panics; apart from that a client cannot tell the
wrappers from tokio, and tokio cannot tell the clients apart.
-/

namespace Laplace.Soundness.Transparency

open Machine Machine.Wrapping Model Model.Runtime Model.Client

variable {Value : Type}

/-- The wrapper's own effects, of which only the draws of ids can end it. -/
def around : Wrapping (Effect Value) (Tokio Value) Effect.Reply where
  share := .tokio
  own
    | .tokio _ | .panic _ => False
    | _ => True
  serves
    | .nextResource, id => id ≠ none
    | .nextWaiter, id => id ≠ none
    | _, _ => True

/-- An id counter stands at its last value. -/
def Exhausted {Inner : Type} (world : World Inner) : Prop :=
  world.nextResource.toNat = u64Max ∨ world.nextWaiter.toNat = u64Max

/-! ## What the wrappers do of their own -/

section Silent

variable {slot : HookSlot} {unwind reports : RuntimeM Value Unit}

abbrev Quiet {α : Type} (program : RuntimeM Value α) : Prop := around.Silent (fun _ => True) program

theorem quiet_report (event : Event) : Quiet (report event : RuntimeM Value Unit) :=
  .own trivial (fun _ _ => .done trivial) fun _ ended => absurd trivial ended

/-- What is left to do once a counter is exhausted. -/
theorem stops_unwound (message : String) :
    (unwind >>= fun _ => (Runtime.panic message : RuntimeM Value UInt64)).Stops :=
  Program.stops_bind fun _ (reply : Empty) => reply.elim

theorem quiet_nextResource : Quiet (nextAsyncLockResourceId unwind) := by
  refine .own trivial (fun drawn serves => ?_) fun drawn ended => ?_
  · cases drawn with
    | none => exact absurd rfl serves
    | some id => exact .done trivial
  · obtain rfl := not_not.mp ended
    exact stops_unwound _

theorem quiet_nextWaiter : Quiet (nextAsyncLockWaiterId unwind) := by
  refine .own trivial (fun drawn serves => ?_) fun drawn ended => ?_
  · cases drawn with
    | none => exact absurd rfl serves
    | some id => exact .done trivial
  · obtain rfl := not_not.mp ended
    exact stops_unwound _

theorem quiet_get (resource : AsyncResourceId) : Quiet (resource.get unwind) := by
  refine Silent.bind (silent_perform trivial fun _ => trivial) fun current _ => ?_
  split
  · exact .done trivial
  · refine Silent.bind quiet_nextResource fun allocated _ => ?_
    refine Silent.bind (silent_perform trivial fun _ => trivial) fun outcome _ => ?_
    cases outcome <;> exact .done trivial

theorem quiet_withHook (silent : Quiet reports) : Quiet (withHook slot reports) := by
  refine Silent.bind (silent_perform trivial fun _ => trivial) fun installed _ => ?_
  split
  · exact silent
  · exact .done trivial

theorem quiet_announceLock (event : Event) : Quiet (announceLock event : RuntimeM Value Unit) :=
  quiet_withHook (quiet_report event)

theorem quiet_announceCreated (createdReported : Handle) (initialPermits : ℕ) (resource : UInt64) (event : Event) :
    Quiet (announceCreated createdReported initialPermits resource event : RuntimeM Value Unit) := by
  have looked : Quiet (hookWithCreated createdReported resource initialPermits : RuntimeM Value Bool) := by
    refine Silent.bind (silent_perform trivial fun _ => trivial) fun installed _ => ?_
    split
    · refine Silent.bind (silent_perform trivial fun _ => trivial) fun reported _ => ?_
      split
      · exact Silent.bind (quiet_report _) fun _ _ => .done trivial
      · exact .done trivial
    · exact .done trivial
  refine Silent.bind looked fun installed _ => ?_
  split
  · exact quiet_report event
  · exact .done trivial

end Silent

/-! ## Calls, futures and guards -/

section Forward

variable {slot : HookSlot} {self : Awaiting} {kind : Awaitable} {inner : RuntimeM Value Handle}
  {inner' : Direct Value Handle}

theorem tokio_wraps (call : Tokio Value) : around.Wraps Eq (tokio call) (direct call) := wraps_shared call

/-- A call with something before it. -/
theorem quiet_then {α β γ : Type} {first : RuntimeM Value α} {rest : α → RuntimeM Value β} {call : Direct Value γ}
    {related : β → γ → Prop} (quiet : Quiet first) (wraps : ∀ value, around.Wraps related (rest value) call) :
    around.Wraps related (first >>= rest) call := quiet.bind fun value _ => wraps value

theorem start_wraps (resource : UInt64) (wraps : around.Wraps Eq inner inner') :
    around.Wraps (fun future handle => future.inner = handle) (Awaiting.start resource inner) inner' := by
  refine quiet_then quiet_nextWaiter fun waiter => ?_
  exact wraps.after fun handle handle' same => .done same

theorem getStart_wraps (resource : AsyncResourceId) (wraps : around.Wraps Eq inner inner') :
    around.Wraps (fun future handle => future.inner = handle)
      (do let id ← resource.get (pure ()); Awaiting.start id inner) inner' :=
  quiet_then (quiet_get resource) fun id => start_wraps id wraps

/-- A poll answers what the tokio future answers. -/
theorem poll_wraps {Output : Type} {poll : RuntimeM Value (Poll Output)} {poll' : Direct Value (Poll Output)}
    {announce : Event → RuntimeM Value Unit} (announces : ∀ event, Quiet (announce event)) (requested : Event)
    (resolved : Output → Option Event) (wraps : around.Wraps Eq poll poll') :
    around.Wraps (fun result answer => result.1 = answer ∧ result.2.inner = self.inner)
      (self.poll poll announce requested resolved) poll' := by
  refine wraps.after fun answer answer' same => ?_
  cases answer with
  | pending =>
    change around.Silent _ (if self.requestedEmitted then _ else _)
    split
    · exact .done ⟨same, rfl⟩
    · exact (announces _).bind fun _ _ => .done ⟨same, rfl⟩
  | ready value =>
    cases event : resolved value with
    | none =>
      simp only [event]
      exact .done ⟨same, rfl⟩
    | some event' =>
      simp only [event]
      exact (announces _).bind fun _ _ => .done ⟨same, rfl⟩

theorem drop_wraps (dropped : Event) :
    around.Wraps Eq (self.drop kind slot dropped : RuntimeM Value Unit) (direct (.dropFuture kind self.inner)) := by
  unfold Awaiting.drop
  split
  · exact quiet_then (quiet_withHook (quiet_report _)) fun _ => tokio_wraps (.dropFuture kind self.inner)
  · exact tokio_wraps (.dropFuture kind self.inner)

theorem guardDrop_wraps (kind : AsyncAcquireKind) (guard : Guard) :
    around.Wraps Eq (guard.drop kind : RuntimeM Value Unit) (direct (.dropGuard kind guard.inner)) :=
  quiet_then (quiet_withHook (quiet_report _)) fun _ => tokio_wraps (.dropGuard kind guard.inner)

theorem tryGuard_wraps {ε : Type} {attempt : RuntimeM Value (Except ε Handle)}
    {attempt' : Direct Value (Except ε Handle)}
    {announce : UInt64 → Event → RuntimeM Value Unit} (announces : ∀ resource event, Quiet (announce resource event))
    (resource : AsyncResourceId) (kind : AsyncAcquireKind) (wraps : around.Wraps Eq attempt attempt') :
    around.Wraps (fun result result' => result.map Guard.inner = result') (tryGuard resource kind announce attempt)
      attempt' := by
  refine wraps.after fun result result' same => ?_
  subst same
  cases result with
  | error err => exact .done rfl
  | ok handle =>
    refine quiet_then (quiet_get resource) fun id => ?_
    refine quiet_then quiet_nextWaiter fun waiter => ?_
    exact quiet_then (announces _ _) fun _ => .done rfl

end Forward

/-! ## Channels -/

section Channels

variable {α : Type} {call : RuntimeM Value α} {call' : Direct Value α}

theorem resolveNow_wraps (resource : UInt64) (kind : AsyncChannelOp) (outcome : α → AsyncChannelOutcome)
    (wraps : around.Wraps Eq call call') : around.Wraps Eq (resolveNow resource kind outcome call) call' := by
  refine wraps.after fun result result' same => ?_
  refine quiet_then quiet_nextWaiter fun op => ?_
  exact quiet_then (quiet_withHook (quiet_report _)) fun _ => .done same

theorem createChannel_wraps (sender receiver : Endpoint) (kind : AsyncChannelKind)
    {inner : RuntimeM Value (Handle × Handle)}
    {inner' : Direct Value (Handle × Handle)} (wraps : around.Wraps Eq inner inner') :
    around.Wraps (fun ends inner => (ends.1.inner, ends.2.inner) = inner) (createChannel sender receiver kind inner)
      inner' := by
  refine wraps.after fun handles handles' same => ?_
  refine quiet_then quiet_nextResource fun resource => ?_
  exact quiet_then (quiet_withHook (quiet_report _)) fun _ => .done same

theorem clone_wraps (endpoint : Endpoint) (side : AsyncChannelSide) (self : ChannelEnd) :
    around.Wraps (fun cloned inner => cloned.inner = inner) (self.clone endpoint side : RuntimeM Value ChannelEnd)
      (direct (.cloneEndpoint endpoint self.inner)) := by
  refine (tokio_wraps _).after fun inner inner' same => ?_
  exact quiet_then (quiet_withHook (quiet_report _)) fun _ => .done same

theorem dropEnd_wraps (endpoint : Endpoint) (side : AsyncChannelSide) (self : ChannelEnd) :
    around.Wraps Eq (self.drop endpoint side : RuntimeM Value Unit) (direct (.dropEndpoint endpoint self.inner)) :=
  quiet_then (quiet_withHook (quiet_report _)) fun _ => tokio_wraps (.dropEndpoint endpoint self.inner)

theorem closeWith_wraps {close : RuntimeM Value Unit} {close' : Direct Value Unit}
    (wraps : around.Wraps Eq close close')
    (self : ChannelEnd) : around.Wraps Eq (self.closeWith close) close' :=
  wraps.after fun _ _ _ => (quiet_withHook (quiet_report _)).mono fun _ _ _ => rfl

end Channels

/-! ## Objects -/

/-- The tokio object of a wrapper. -/
inductive Wrapper : Wrapped → Raw → Prop
  | mutex (self : ModelAsyncMutex) : Wrapper (.mutex self) (.mutex self.inner)
  | rwLock (self : ModelAsyncRwLock) : Wrapper (.rwLock self) (.rwLock self.inner)
  | semaphore (self : ModelAsyncSemaphore) : Wrapper (.semaphore self) (.semaphore self.inner)
  | notify (self : ModelAsyncNotify) : Wrapper (.notify self) (.notify self.inner)
  | mpscSender (self : ChannelEnd) : Wrapper (.mpscSender self) (.mpscSender self.inner)
  | mpscReceiver (self : ChannelEnd) : Wrapper (.mpscReceiver self) (.mpscReceiver self.inner)
  | unboundedSender (self : ChannelEnd) : Wrapper (.unboundedSender self) (.unboundedSender self.inner)
  | unboundedReceiver (self : ChannelEnd) : Wrapper (.unboundedReceiver self) (.unboundedReceiver self.inner)
  | oneshotSender (inner : Handle) (resource : UInt64) :
      Wrapper (.oneshotSender ⟨some inner, resource⟩) (.oneshotSender inner)
  | watchSender (self : ChannelEnd) : Wrapper (.watchSender self) (.watchSender self.inner)
  | watchReceiver (self : ChannelEnd) : Wrapper (.watchReceiver self) (.watchReceiver self.inner)
  | broadcastSender (self : Broadcast.Sender) : Wrapper (.broadcastSender self) (.broadcastSender self.inner)
  | broadcastReceiver (self : Broadcast.Receiver) : Wrapper (.broadcastReceiver self) (.broadcastReceiver self.inner)
  | oneshotReceiver (self : Awaiting) (ready : Bool) :
      Wrapper (.future (.oneshot self) ready) (.oneshotReceiver self.inner ready)
  | lock (self : Awaiting) (ready : Bool) : Wrapper (.future (.lock self) ready) (.future .lock self.inner ready)
  | read (self : Awaiting) (ready : Bool) : Wrapper (.future (.read self) ready) (.future .read self.inner ready)
  | write (self : Awaiting) (ready : Bool) : Wrapper (.future (.write self) ready) (.future .write self.inner ready)
  | acquire (self : ModelSemaphoreAcquire) (ready : Bool) :
      Wrapper (.future (.acquire self) ready) (.acquire self.permits self.inner ready)
  | notified (self : Awaiting) (ready : Bool) :
      Wrapper (.future (.notified self) ready) (.future .notified self.inner ready)
  | send (self : Awaiting) (ready : Bool) : Wrapper (.future (.send self) ready) (.future .send self.inner ready)
  | recv (self : Awaiting) (ready : Bool) : Wrapper (.future (.recv self) ready) (.future .recv self.inner ready)
  | changed (self : Awaiting) (ready : Bool) :
      Wrapper (.future (.changed self) ready) (.future .changed self.inner ready)
  | broadcastRecv (self : Broadcast.ModelBroadcastRecv) (ready : Bool) :
      Wrapper (.future (.broadcastRecv self) ready) (.future .broadcastRecv self.inner ready)
  | mutexGuard (self : Guard) : Wrapper (.kept (.mutexGuard self)) (.guard .mutex self.inner)
  | readGuard (self : Guard) : Wrapper (.kept (.readGuard self)) (.guard .rwRead self.inner)
  | writeGuard (self : Guard) : Wrapper (.kept (.writeGuard self)) (.guard .rwWrite self.inner)
  | permit (inner : Handle) (resource waiter : UInt64) (permits : UInt32) :
      Wrapper (.kept (.permit ⟨some inner, resource, waiter, permits⟩)) (.guard (.semaphorePermits permits) inner)
  | gone : Wrapper .gone .gone

/-- The client gets the same answer and, of each other, wrappers and their tokio objects. -/
structure Alike (called : Called Value Wrapped) (called' : Called Value Raw) : Prop where
  answer : called.answer = called'.answer
  self : Wrapper called.self called'.self
  made : List.Forall₂ Wrapper called.made called'.made

section Calls

variable {self : Wrapped} {self' : Raw}

theorem another_wraps {make : RuntimeM Value Wrapped} {make' : Direct Value Handle} {wrap : Handle → Raw}
    (wrapper : Wrapper self self') (makes : around.Wraps (fun object inner => Wrapper object (wrap inner)) make make') :
    around.Wraps Alike (self.another make) (self'.making wrap make') :=
  makes.bind fun _ _ made => .done ⟨rfl, wrapper, .cons made .nil⟩

theorem making_wraps {make : RuntimeM Value Future} {make' : Direct Value Handle} {wrap : Handle → Raw}
    (wrapper : Wrapper self self')
    (makes : around.Wraps (fun future inner => Wrapper (.future future false) (wrap inner)) make make') :
    around.Wraps Alike (self.making make) (self'.making wrap make') :=
  another_wraps wrapper (makes.after fun _ _ made => .done made)

theorem result_wraps {α : Type} {call : RuntimeM Value α} {call' : Direct Value α} (wrapper : Wrapper self self')
    (answer : α → Answer Value) (wraps : around.Wraps Eq call call') :
    around.Wraps Alike (self.result answer call) (self'.result answer call') :=
  wraps.bind fun _ _ same => .done ⟨congrArg answer same, wrapper, .nil⟩

theorem dropping_wraps {call : RuntimeM Value Unit} {call' : Direct Value Unit} (wraps : around.Wraps Eq call call') :
    around.Wraps Alike (Wrapped.dropping call) (Raw.dropping call') := result_wraps .gone _ wraps

/-- What a non-blocking acquisition returns. -/
inductive Acquired {ε α : Type} (keep : α → Kept) (kind : AsyncAcquireKind) : Except ε α → Except ε Handle → Prop
  | error (err : ε) : Acquired keep kind (.error err) (.error err)
  | ok {guard : α} {inner : Handle} (wrapper : Wrapper (.kept (keep guard)) (.guard kind inner)) :
      Acquired keep kind (.ok guard) (.ok inner)

theorem tryGuard_acquires {ε : Type} {keep : Guard → Kept} {kind : AsyncAcquireKind} {resource : AsyncResourceId}
    {announce : UInt64 → Event → RuntimeM Value Unit} {attempt : RuntimeM Value (Except ε Handle)}
    {attempt' : Direct Value (Except ε Handle)}
    (keeps : ∀ guard : Guard, Wrapper (.kept (keep guard)) (.guard kind guard.inner))
    (announces : ∀ resource event, Quiet (announce resource event)) (wraps : around.Wraps Eq attempt attempt') :
    around.Wraps (Acquired keep kind) (tryGuard resource kind announce attempt) attempt' := by
  refine (tryGuard_wraps announces resource kind wraps).mono ?_
  rintro result _ rfl
  cases result with
  | error err => exact .error err
  | ok guard => exact .ok (keeps guard)

theorem tried_wraps {ε α : Type} {keep : α → Kept} {kind : AsyncAcquireKind} {attempt : RuntimeM Value (Except ε α)}
    {attempt' : Direct Value (Except ε Handle)} (wrapper : Wrapper self self') (answer : Except ε Unit → Answer Value)
    (wraps : around.Wraps (Acquired keep kind) attempt attempt') :
    around.Wraps Alike (self.tried answer keep attempt) (self'.tried answer kind attempt') := by
  refine wraps.bind fun result result' acquired => ?_
  cases acquired with
  | error err => exact .done ⟨rfl, wrapper, .nil⟩
  | ok kept => exact .done ⟨rfl, wrapper, .cons kept .nil⟩

theorem polledGuard_wraps {keep : Guard → Kept} {wrap : Awaiting → Future} {kind : AsyncAcquireKind}
    {wrap' : Bool → Raw} {poll : RuntimeM Value (Poll Guard × Awaiting)} {poll' : Direct Value (Poll Handle)}
    (wraps : around.Wraps (fun result answer => result.1.map Guard.inner = answer ∧
      ∀ ready, Wrapper (.future (wrap result.2) ready) (wrap' ready)) poll poll')
    (keeps : ∀ guard : Guard, Wrapper (.kept (keep guard)) (.guard kind guard.inner)) :
    around.Wraps Alike (Wrapped.polledGuard keep wrap poll) (Raw.polledGuard kind wrap' poll') := by
  refine wraps.bind fun result answer same => ?_
  obtain ⟨polled, later⟩ := result
  obtain ⟨rfl, wrapper⟩ := same
  cases polled with
  | pending => exact .done ⟨rfl, wrapper false, .nil⟩
  | ready guard => exact .done ⟨rfl, wrapper true, .cons (keeps guard) .nil⟩

theorem polledValue_wraps {α : Type} {wrap : Awaiting → Future} {wrap' : Bool → Raw}
    {poll : RuntimeM Value (Poll α × Awaiting)} {poll' : Direct Value (Poll α)} (answer : Poll α → Answer Value)
    (wraps : around.Wraps (fun result answer => result.1 = answer ∧
      ∀ ready, Wrapper (.future (wrap result.2) ready) (wrap' ready)) poll poll') :
    around.Wraps Alike (Wrapped.polledValue answer wrap poll) (Raw.polledValue answer wrap' poll') := by
  refine wraps.bind fun result polled same => ?_
  obtain ⟨rfl, wrapper⟩ := same
  exact .done ⟨rfl, wrapper _, .nil⟩

end Calls

/-! ## Methods -/

/-- Both sides have the method, and the wrapper's call is the tokio call; or neither has it. -/
abbrev SameCall : Option (RuntimeM Value (Called Value Wrapped)) → Option (Direct Value (Called Value Raw)) → Prop :=
  Option.Rel (around.Wraps Alike)

section Methods

variable (method : Method Value)

theorem mutex_wraps (self : ModelAsyncMutex) :
    SameCall ((Wrapped.mutex self).call method) ((Raw.mutex self.inner).call method) := by
  have wrapper := Wrapper.mutex self
  cases method with
  | lock =>
    refine .some (making_wraps wrapper ((getStart_wraps self.resource (tokio_wraps (.lock self.inner))).after ?_))
    rintro future _ rfl
    exact .done (.lock future false)
  | tryLock =>
    have attempt := tokio_wraps (.tryLock self.inner : Tokio Value)
    exact .some (tried_wraps wrapper _ (tryGuard_acquires .mutexGuard (fun _ => quiet_announceLock) attempt))
  | drop => exact .some (dropping_wraps (tokio_wraps (.dropPrimitive self.inner)))
  | _ => exact .none

theorem rwLock_wraps (self : ModelAsyncRwLock) :
    SameCall ((Wrapped.rwLock self).call method) ((Raw.rwLock self.inner).call method) := by
  have wrapper := Wrapper.rwLock self
  cases method with
  | read =>
    refine .some (making_wraps wrapper ((getStart_wraps self.resource (tokio_wraps (.read self.inner))).after ?_))
    rintro future _ rfl
    exact .done (.read future false)
  | write =>
    refine .some (making_wraps wrapper ((getStart_wraps self.resource (tokio_wraps (.write self.inner))).after ?_))
    rintro future _ rfl
    exact .done (.write future false)
  | tryRead =>
    have attempt := tokio_wraps (.tryRead self.inner : Tokio Value)
    exact .some (tried_wraps wrapper _ (tryGuard_acquires .readGuard (fun _ => quiet_announceLock) attempt))
  | tryWrite =>
    have attempt := tokio_wraps (.tryWrite self.inner : Tokio Value)
    exact .some (tried_wraps wrapper _ (tryGuard_acquires .writeGuard (fun _ => quiet_announceLock) attempt))
  | drop => exact .some (dropping_wraps (tokio_wraps (.dropPrimitive self.inner)))
  | _ => exact .none

/-- The future of so many permits. -/
theorem acquireWith_wraps (self : ModelAsyncSemaphore) (permits : UInt32) {inner : RuntimeM Value Handle}
  {inner' : Direct Value Handle} (wraps : around.Wraps Eq inner inner') :
    around.Wraps (fun future handle => Wrapper (.future (.acquire future) false) (.acquire permits handle false))
      (self.acquireWith permits inner) inner' := by
  refine quiet_then (quiet_get self.resource) fun id => (start_wraps id wraps).after ?_
  rintro future _ rfl
  exact .done (.acquire { future with permits, createdReported := _, initialPermits := _ } false)

theorem tryAcquireWith_wraps (self : ModelAsyncSemaphore) (permits : UInt32)
    {attempt : RuntimeM Value (Except TryAcquireError Handle)} {attempt' : Direct Value (Except TryAcquireError Handle)}
    (wraps : around.Wraps Eq attempt attempt') :
    around.Wraps (Acquired .permit (.semaphorePermits permits)) (self.tryAcquireWith permits attempt) attempt' := by
  have announces (resource : UInt64) (event : Event) :
      Quiet (announceCreated self.createdReported self.initialPermits resource event : RuntimeM Value Unit) :=
    quiet_announceCreated _ _ _ _
  refine (tryGuard_wraps announces self.resource (.semaphorePermits permits) wraps).after ?_
  rintro result _ rfl
  cases result with
  | error err => exact .done (.error err)
  | ok guard => exact .done (.ok (.permit guard.inner guard.resource guard.waiter permits))

theorem semaphore_wraps (self : ModelAsyncSemaphore) :
    SameCall ((Wrapped.semaphore self).call method) ((Raw.semaphore self.inner).call method) := by
  have wrapper := Wrapper.semaphore self
  cases method with
  | acquire =>
    refine .some (making_wraps wrapper ((acquireWith_wraps self 1 (tokio_wraps (.acquire self.inner))).after ?_))
    exact fun _ _ made => .done made
  | acquireMany n =>
    refine .some (making_wraps wrapper ((acquireWith_wraps self n (tokio_wraps (.acquireMany self.inner n))).after ?_))
    exact fun _ _ made => .done made
  | tryAcquire =>
    exact .some (tried_wraps wrapper _ (tryAcquireWith_wraps self 1 (tokio_wraps (.tryAcquire self.inner))))
  | tryAcquireMany n =>
    exact .some (tried_wraps wrapper _ (tryAcquireWith_wraps self n (tokio_wraps (.tryAcquireMany self.inner n))))
  | addPermits n =>
    refine .some (result_wraps wrapper _ ((tokio_wraps (.addPermits self.inner n)).after fun _ _ _ => ?_))
    refine quiet_then (quiet_get self.resource) fun resource => ?_
    exact (quiet_announceCreated _ _ _ _).mono fun _ _ _ => rfl
  | drop => exact .some (dropping_wraps (tokio_wraps (.dropPrimitive self.inner)))
  | _ => exact .none

theorem notify_wraps (self : ModelAsyncNotify) :
    SameCall ((Wrapped.notify self).call method) ((Raw.notify self.inner).call method) := by
  have wrapper := Wrapper.notify self
  cases method with
  | notified =>
    refine .some (making_wraps wrapper ((getStart_wraps self.resource (tokio_wraps (.notified self.inner))).after ?_))
    rintro future _ rfl
    exact .done (.notified future false)
  | notifyOne =>
    refine .some (result_wraps wrapper _ (quiet_then (quiet_get self.resource) fun resource => ?_))
    exact quiet_then (quiet_withHook (quiet_report _)) fun _ => tokio_wraps (.notifyOne self.inner)
  | notifyWaiters =>
    refine .some (result_wraps wrapper _ (quiet_then (quiet_get self.resource) fun resource => ?_))
    exact quiet_then (quiet_withHook (quiet_report _)) fun _ => tokio_wraps (.notifyWaiters self.inner)
  | drop => exact .some (dropping_wraps (tokio_wraps (.dropPrimitive self.inner)))
  | _ => exact .none

theorem mpscSender_wraps (self : ChannelEnd) :
    SameCall ((Wrapped.mpscSender self).call method) ((Raw.mpscSender self.inner).call method) := by
  have wrapper := Wrapper.mpscSender self
  cases method with
  | send value =>
    refine .some (making_wraps wrapper ((start_wraps self.resource (tokio_wraps (.send self.inner value))).after ?_))
    rintro future _ rfl
    exact .done (.send future false)
  | trySend value =>
    exact .some (result_wraps wrapper _ (resolveNow_wraps _ _ _ (tokio_wraps (.trySend self.inner value))))
  | clone =>
    refine .some (another_wraps wrapper ((clone_wraps .mpscSender .sender self).after ?_))
    rintro cloned _ rfl
    exact .done (.mpscSender cloned)
  | drop => exact .some (dropping_wraps (dropEnd_wraps .mpscSender .sender self))
  | _ => exact .none

theorem mpscReceiver_wraps (self : ChannelEnd) :
    SameCall ((Wrapped.mpscReceiver self).call method) ((Raw.mpscReceiver self.inner).call method) := by
  have wrapper := Wrapper.mpscReceiver self
  cases method with
  | recv =>
    refine .some (making_wraps wrapper ((start_wraps self.resource (tokio_wraps (.recv self.inner))).after ?_))
    rintro future _ rfl
    exact .done (.recv future false)
  | tryRecv => exact .some (result_wraps wrapper _ (resolveNow_wraps _ _ _ (tokio_wraps (.tryRecv self.inner))))
  | close => exact .some (result_wraps wrapper _ (closeWith_wraps (tokio_wraps (.close self.inner)) self))
  | drop => exact .some (dropping_wraps (dropEnd_wraps .mpscReceiver .receiver self))
  | _ => exact .none

theorem unboundedSender_wraps (self : ChannelEnd) :
    SameCall ((Wrapped.unboundedSender self).call method) ((Raw.unboundedSender self.inner).call method) := by
  have wrapper := Wrapper.unboundedSender self
  cases method with
  | send value =>
    exact .some (result_wraps wrapper _ (resolveNow_wraps _ _ _ (tokio_wraps (.unboundedSend self.inner value))))
  | clone =>
    refine .some (another_wraps wrapper ((clone_wraps .unboundedSender .sender self).after ?_))
    rintro cloned _ rfl
    exact .done (.unboundedSender cloned)
  | drop => exact .some (dropping_wraps (dropEnd_wraps .unboundedSender .sender self))
  | _ => exact .none

theorem unboundedReceiver_wraps (self : ChannelEnd) :
    SameCall ((Wrapped.unboundedReceiver self).call method) ((Raw.unboundedReceiver self.inner).call method) := by
  have wrapper := Wrapper.unboundedReceiver self
  cases method with
  | recv =>
    refine .some (making_wraps wrapper ((start_wraps self.resource (tokio_wraps (.unboundedRecv self.inner))).after ?_))
    rintro future _ rfl
    exact .done (.recv future false)
  | tryRecv =>
    exact .some (result_wraps wrapper _ (resolveNow_wraps _ _ _ (tokio_wraps (.unboundedTryRecv self.inner))))
  | close => exact .some (result_wraps wrapper _ (closeWith_wraps (tokio_wraps (.unboundedClose self.inner)) self))
  | drop => exact .some (dropping_wraps (dropEnd_wraps .unboundedReceiver .receiver self))
  | _ => exact .none

theorem oneshotSender_wraps (inner : Handle) (resource : UInt64) :
    SameCall ((Wrapped.oneshotSender ⟨some inner, resource⟩).call method) ((Raw.oneshotSender inner).call method) := by
  cases method with
  | send value =>
    refine .some (result_wraps .gone _ ?_)
    refine (resolveNow_wraps resource .send _ (tokio_wraps (.oneshotSend inner value))).after fun _ _ same => ?_
    exact .done same
  | drop =>
    refine .some (dropping_wraps (quiet_then (quiet_withHook (quiet_report _)) fun _ => ?_))
    exact tokio_wraps (.dropEndpoint .oneshotSender inner)
  | _ => exact .none

theorem watchSender_wraps (self : ChannelEnd) :
    SameCall ((Wrapped.watchSender self).call method) ((Raw.watchSender self.inner).call method) := by
  have wrapper := Wrapper.watchSender self
  cases method with
  | send value =>
    exact .some (result_wraps wrapper _ (resolveNow_wraps _ _ _ (tokio_wraps (.watchSend self.inner value))))
  | clone =>
    refine .some (another_wraps wrapper ((clone_wraps .watchSender .sender self).after ?_))
    rintro cloned _ rfl
    exact .done (.watchSender cloned)
  | subscribe =>
    have subscribes : around.Wraps (fun receiver inner => receiver.inner = inner)
        (Watch.Sender.subscribe self : RuntimeM Value ChannelEnd) (direct (.watchSubscribe self.inner)) :=
      (tokio_wraps (.watchSubscribe self.inner)).after fun inner inner' same =>
        quiet_then (quiet_withHook (quiet_report _)) fun _ => .done same
    refine .some (another_wraps wrapper (subscribes.after ?_))
    rintro receiver _ rfl
    exact .done (.watchReceiver receiver)
  | drop => exact .some (dropping_wraps (dropEnd_wraps .watchSender .sender self))
  | _ => exact .none

theorem watchReceiver_wraps (self : ChannelEnd) :
    SameCall ((Wrapped.watchReceiver self).call method) ((Raw.watchReceiver self.inner).call method) := by
  have wrapper := Wrapper.watchReceiver self
  cases method with
  | changed =>
    refine .some (making_wraps wrapper ((start_wraps self.resource (tokio_wraps (.changed self.inner))).after ?_))
    rintro future _ rfl
    exact .done (.changed future false)
  | clone =>
    refine .some (another_wraps wrapper ((clone_wraps .watchReceiver .receiver self).after ?_))
    rintro cloned _ rfl
    exact .done (.watchReceiver cloned)
  | drop => exact .some (dropping_wraps (dropEnd_wraps .watchReceiver .receiver self))
  | _ => exact .none

theorem broadcastSender_wraps (self : Broadcast.Sender) :
    SameCall ((Wrapped.broadcastSender self).call method) ((Raw.broadcastSender self.inner).call method) := by
  have wrapper := Wrapper.broadcastSender self
  cases method with
  | send value =>
    refine .some (result_wraps wrapper _ (quiet_then quiet_nextWaiter fun op => ?_))
    refine quiet_then (quiet_withHook (quiet_report _)) fun _ => ?_
    refine (tokio_wraps (.broadcastSend self.inner value)).after fun result result' same => ?_
    cases result with
    | ok receivers =>
      have counts : Quiet (discard (perform (.fetchAdd self.sendSeq 1)) : RuntimeM Value Unit) :=
        .own trivial (fun _ _ => .done trivial) fun _ ended => absurd trivial ended
      exact quiet_then counts fun _ => quiet_then (quiet_withHook (quiet_report _)) fun _ => .done same
    | error err => exact quiet_then (quiet_withHook (quiet_report _)) fun _ => .done same
  | clone =>
    have clones : around.Wraps (fun sender inner => sender.inner = inner) (self.clone : RuntimeM Value Broadcast.Sender)
        (direct (.cloneEndpoint .broadcastSender self.inner)) :=
      quiet_then (quiet_withHook (quiet_report _)) fun _ =>
        (tokio_wraps (.cloneEndpoint .broadcastSender self.inner)).after fun _ _ same => .done same
    refine .some (another_wraps wrapper (clones.after ?_))
    rintro sender _ rfl
    exact .done (.broadcastSender sender)
  | subscribe =>
    have subscribes : around.Wraps (fun receiver inner => receiver.inner = inner)
        (self.subscribe : RuntimeM Value Broadcast.Receiver) (direct (.broadcastSubscribe self.inner)) := by
      refine (tokio_wraps (.broadcastSubscribe self.inner)).after fun inner inner' same => ?_
      refine quiet_then quiet_nextWaiter fun id => quiet_then (quiet_withHook ?_) fun _ => .done same
      refine quiet_then (quiet_report _) fun _ => ?_
      exact quiet_then (silent_perform trivial fun _ => trivial) fun atSeq => quiet_report _
    refine .some (another_wraps wrapper (subscribes.after ?_))
    rintro receiver _ rfl
    exact .done (.broadcastReceiver receiver)
  | drop =>
    refine .some (dropping_wraps (quiet_then (quiet_withHook (quiet_report _)) fun _ => ?_))
    exact tokio_wraps (.dropEndpoint .broadcastSender self.inner)
  | _ => exact .none

theorem broadcastReceiver_wraps (self : Broadcast.Receiver) :
    SameCall ((Wrapped.broadcastReceiver self).call method) ((Raw.broadcastReceiver self.inner).call method) := by
  have wrapper := Wrapper.broadcastReceiver self
  cases method with
  | recv =>
    have receives : around.Wraps (fun future inner => future.inner = inner)
        (self.recv : RuntimeM Value Broadcast.ModelBroadcastRecv) (direct (.broadcastRecv self.inner)) :=
      (start_wraps self.resource (tokio_wraps (.broadcastRecv self.inner))).after fun _ _ same => .done same
    refine .some (making_wraps wrapper (receives.after ?_))
    rintro future _ rfl
    exact .done (.broadcastRecv future false)
  | tryRecv =>
    refine .some (result_wraps wrapper _ (quiet_then quiet_nextWaiter fun op => ?_))
    refine (tokio_wraps (.broadcastTryRecv self.inner)).after fun result result' same => ?_
    exact quiet_then (quiet_withHook (quiet_report _)) fun _ => .done same
  | resubscribe =>
    have resubscribes : around.Wraps (fun receiver inner => receiver.inner = inner)
        (self.resubscribe : RuntimeM Value Broadcast.Receiver) (direct (.broadcastResubscribe self.inner)) := by
      refine quiet_then quiet_nextWaiter fun op => ?_
      refine (tokio_wraps (.broadcastResubscribe self.inner)).after fun inner inner' same => ?_
      refine quiet_then quiet_nextWaiter fun id => quiet_then (quiet_withHook ?_) fun _ => .done same
      refine quiet_then (quiet_report _) fun _ => ?_
      refine quiet_then (silent_perform trivial fun _ => trivial) fun atSeq => ?_
      exact quiet_then (quiet_report _) fun _ => quiet_report _
    refine .some (another_wraps wrapper (resubscribes.after ?_))
    rintro receiver _ rfl
    exact .done (.broadcastReceiver receiver)
  | drop =>
    refine .some (dropping_wraps (quiet_then (quiet_withHook (quiet_report _)) fun _ => ?_))
    exact tokio_wraps (.dropEndpoint .broadcastReceiver self.inner)
  | _ => exact .none

/-- A future but a oneshot receiver can be polled until it was ready, and dropped. -/
theorem future_wraps {operation : Future} {kind : Awaitable} {inner : Handle} {ready : Bool}
    {poll' : Direct Value (Called Value Raw)} (boxed : ∀ receiver, operation ≠ .oneshot receiver)
    (polled : Raw.poll kind inner = some poll') (polls : around.Wraps Alike (Wrapped.poll operation) poll')
    (drops : around.Wraps Eq (operation.drop : RuntimeM Value Unit) (direct (.dropFuture kind inner))) :
    SameCall ((Wrapped.future operation ready).call method) ((Raw.future kind inner ready).call method) := by
  cases operation with
  | oneshot receiver => exact absurd rfl (boxed receiver)
  | _ =>
    cases method with
    | poll =>
      cases ready with
      | true => exact .none
      | false =>
        change SameCall _ (Raw.poll kind inner)
        rw [polled]
        exact .some polls
    | drop => cases ready <;> exact .some (dropping_wraps drops)
    | _ => cases ready <;> exact .none

/-- A poll of a lock future returns the guard of what tokio's returned. -/
theorem guardPoll_wraps {self : Awaiting} {wrap : Awaiting → Future} {keep : Guard → Kept} {future : Awaitable}
    {kind : AsyncAcquireKind} {poll : RuntimeM Value (Poll Handle)} {poll' : Direct Value (Poll Handle)}
    (requested : Event)
    (resolved : Handle → Option Event)
    (wrapper : ∀ later ready, Wrapper (.future (wrap later) ready) (.future future later.inner ready))
    (keeps : ∀ guard : Guard, Wrapper (.kept (keep guard)) (.guard kind guard.inner))
    (wraps : around.Wraps Eq poll poll') :
    around.Wraps Alike
      (Wrapped.polledGuard keep wrap do
        let (answer, self) ← self.poll poll announceLock requested resolved
        return (answer.map self.guard, self))
      (Raw.polledGuard kind (.future future self.inner) poll') := by
  refine polledGuard_wraps ((poll_wraps quiet_announceLock requested resolved wraps).after ?_) keeps
  rintro ⟨answer, later⟩ _ ⟨rfl, same⟩
  rw [← same]
  refine .done ⟨?_, wrapper later⟩
  cases answer <;> rfl

theorem lockFuture_wraps (self : Awaiting) (ready : Bool) :
    SameCall ((Wrapped.future (.lock self) ready).call method) ((Raw.future .lock self.inner ready).call method) :=
  have polls := guardPoll_wraps _ _ .lock .mutexGuard (tokio_wraps (.poll .lock self.inner))
  future_wraps method nofun rfl polls (drop_wraps _)

theorem readFuture_wraps (self : Awaiting) (ready : Bool) :
    SameCall ((Wrapped.future (.read self) ready).call method) ((Raw.future .read self.inner ready).call method) :=
  have polls := guardPoll_wraps _ _ .read .readGuard (tokio_wraps (.poll .read self.inner))
  future_wraps method nofun rfl polls (drop_wraps _)

theorem writeFuture_wraps (self : Awaiting) (ready : Bool) :
    SameCall ((Wrapped.future (.write self) ready).call method) ((Raw.future .write self.inner ready).call method) :=
  have polls := guardPoll_wraps _ _ .write .writeGuard (tokio_wraps (.poll .write self.inner))
  future_wraps method nofun rfl polls (drop_wraps _)

/-- A poll of another future returns tokio's value. -/
theorem valuePoll_wraps {self : Awaiting} {wrap : Awaiting → Future} {α : Type} {wrap' : Handle → Bool → Raw}
    {poll : RuntimeM Value (Poll α × Awaiting)} {poll' : Direct Value (Poll α)} (answer : Poll α → Answer Value)
    (wrapper : ∀ later ready, Wrapper (.future (wrap later) ready) (wrap' later.inner ready))
    (polls : around.Wraps (fun result answer => result.1 = answer ∧ result.2.inner = self.inner) poll poll') :
    around.Wraps Alike (Wrapped.polledValue answer wrap poll) (Raw.polledValue answer (wrap' self.inner) poll') := by
  refine polledValue_wraps answer (polls.mono ?_)
  rintro ⟨value, later⟩ _ ⟨rfl, same⟩
  rw [← same]
  exact ⟨rfl, wrapper later⟩

theorem pollOp_wraps (kind : Awaitable) (op : AsyncChannelOp) (outcome : kind.Output Value → AsyncChannelOutcome)
    (self : Awaiting) :
    around.Wraps (fun result answer => result.1 = answer ∧ result.2.inner = self.inner)
      (ChannelEnd.pollOp kind op outcome self)
      (direct (.poll kind self.inner) : Direct Value (Poll (kind.Output Value))) :=
  poll_wraps (fun event => quiet_withHook (quiet_report event)) _ _ (tokio_wraps (.poll kind self.inner))

theorem notifiedFuture_wraps (self : Awaiting) (ready : Bool) :
    SameCall ((Wrapped.future (.notified self) ready).call method)
      ((Raw.future .notified self.inner ready).call method) := by
  have polls := tokio_wraps (.poll .notified self.inner : Tokio Value)
  refine future_wraps method nofun rfl (valuePoll_wraps _ .notified ?_) (drop_wraps _)
  exact poll_wraps (fun _ => quiet_withHook (quiet_report _)) _ _ polls

theorem sendFuture_wraps (self : Awaiting) (ready : Bool) :
    SameCall ((Wrapped.future (.send self) ready).call method) ((Raw.future .send self.inner ready).call method) :=
  future_wraps method nofun rfl (valuePoll_wraps _ .send (pollOp_wraps .send .send closedOutcome self)) (drop_wraps _)

theorem recvFuture_wraps (self : Awaiting) (ready : Bool) :
    SameCall ((Wrapped.future (.recv self) ready).call method) ((Raw.future .recv self.inner ready).call method) :=
  future_wraps method nofun rfl (valuePoll_wraps _ .recv (pollOp_wraps .recv .recv Mpsc.recvOutcome self))
    (drop_wraps _)

theorem changedFuture_wraps (self : Awaiting) (ready : Bool) :
    SameCall ((Wrapped.future (.changed self) ready).call method)
      ((Raw.future .changed self.inner ready).call method) :=
  future_wraps method nofun rfl (valuePoll_wraps _ .changed (pollOp_wraps .changed .changed closedOutcome self))
    (drop_wraps _)

theorem broadcastRecvFuture_wraps (self : Broadcast.ModelBroadcastRecv) (ready : Bool) :
    SameCall ((Wrapped.future (.broadcastRecv self) ready).call method)
      ((Raw.future .broadcastRecv self.inner ready).call method) := by
  refine future_wraps method nofun rfl ?_ (drop_wraps _)
  have answers := tokio_wraps (.poll .broadcastRecv self.inner : Tokio Value)
  have polls : around.Wraps (fun result answer => result.1 = answer ∧ result.2.inner = self.inner)
      (self.poll : RuntimeM Value _) (direct (.poll .broadcastRecv self.inner)) :=
    (poll_wraps (fun _ => quiet_withHook (quiet_report _)) _ _ answers).after fun _ _ same => .done same
  refine polls.bind ?_
  rintro ⟨value, later⟩ _ ⟨rfl, same⟩
  rw [← same]
  exact .done ⟨rfl, .broadcastRecv later _, .nil⟩

/-- A poll of an acquisition returns the permit of what tokio's returned. -/
theorem acquirePoll_wraps (self : ModelSemaphoreAcquire) :
    around.Wraps (fun result answer => result.2.inner = self.inner ∧ result.2.permits = self.permits ∧
        result.1 = answer.map (·.map fun inner => ⟨some inner, self.resource, self.waiter, self.permits⟩))
      (self.poll : RuntimeM Value _) (direct (.poll .acquire self.inner)) := by
  refine (poll_wraps (fun _ => quiet_announceCreated _ _ _ _) _ _ (tokio_wraps (.poll .acquire self.inner))).after ?_
  rintro ⟨answer, later⟩ _ ⟨rfl, same⟩
  exact .done ⟨same, rfl, rfl⟩

theorem acquireFuture_wraps (self : ModelSemaphoreAcquire) (ready : Bool) :
    SameCall ((Wrapped.future (.acquire self) ready).call method)
      ((Raw.acquire self.permits self.inner ready).call method) := by
  cases method with
  | poll =>
    cases ready with
    | true => exact .none
    | false =>
      refine .some ((acquirePoll_wraps self).bind ?_)
      rintro ⟨_, later⟩ answer ⟨same, permits, rfl⟩
      have wrapper (ready : Bool) :
          Wrapper (.future (.acquire later) ready) (.acquire self.permits self.inner ready) := by
        rw [← same, ← permits]
        exact .acquire later ready
      cases answer with
      | pending => exact .done ⟨rfl, wrapper false, .nil⟩
      | ready result =>
        cases result with
        | error err => exact .done ⟨rfl, wrapper true, .nil⟩
        | ok inner => exact .done ⟨rfl, wrapper true, .cons (.permit inner _ _ _) .nil⟩
  | drop => cases ready <;> exact .some (dropping_wraps (drop_wraps _))
  | _ => cases ready <;> exact .none

theorem oneshotReceiver_wraps (self : Awaiting) (ready : Bool) :
    SameCall ((Wrapped.future (.oneshot self) ready).call method)
      ((Raw.oneshotReceiver self.inner ready).call method) := by
  cases method with
  | poll =>
    cases ready with
    | true => exact .none
    | false =>
      have polls := tokio_wraps (.oneshotPoll self.inner : Tokio Value)
      refine .some (valuePoll_wraps _ .oneshotReceiver ?_)
      exact poll_wraps (fun _ => quiet_withHook (quiet_report _)) _ _ polls
  | tryRecv =>
    have wrapper := Wrapper.oneshotReceiver self ready
    cases ready <;>
      exact .some (result_wraps wrapper _ (resolveNow_wraps _ _ _ (tokio_wraps (.oneshotTryRecv self.inner))))
  | close =>
    have wrapper := Wrapper.oneshotReceiver self ready
    cases ready <;> exact .some (result_wraps wrapper _ (closeWith_wraps (tokio_wraps (.oneshotClose self.inner)) _))
  | drop =>
    have drops : around.Wraps Eq (Oneshot.Receiver.drop self : RuntimeM Value Unit)
        (direct (.dropEndpoint .oneshotReceiver self.inner)) := by
      refine quiet_then (quiet_withHook ?_) fun _ => tokio_wraps (.dropEndpoint .oneshotReceiver self.inner)
      split
      · exact quiet_then (quiet_report _) fun _ => quiet_report _
      · exact quiet_report _
    cases ready <;> exact .some (dropping_wraps drops)
  | _ => cases ready <;> exact .none

theorem permit_wraps (inner : Handle) (resource waiter : UInt64) (permits : UInt32) :
    SameCall ((Wrapped.kept (.permit ⟨some inner, resource, waiter, permits⟩)).call method)
      ((Raw.guard (.semaphorePermits permits) inner).call method) := by
  cases method with
  | forget =>
    refine .some (dropping_wraps ((tokio_wraps (.forgetPermit inner)).after fun _ _ _ => ?_))
    exact .done rfl
  | drop =>
    refine .some (dropping_wraps (quiet_then (quiet_withHook (quiet_report _)) fun _ => ?_))
    exact tokio_wraps (.dropGuard (.semaphorePermits permits) inner)
  | _ => exact .none

/-- A method of a wrapper is the tokio object's method. -/
theorem call_wraps {self : Wrapped} {self' : Raw} (wrapper : Wrapper self self') :
    SameCall (self.call method) (self'.call method) := by
  cases wrapper with
  | mutex self => exact mutex_wraps method self
  | rwLock self => exact rwLock_wraps method self
  | semaphore self => exact semaphore_wraps method self
  | notify self => exact notify_wraps method self
  | mpscSender self => exact mpscSender_wraps method self
  | mpscReceiver self => exact mpscReceiver_wraps method self
  | unboundedSender self => exact unboundedSender_wraps method self
  | unboundedReceiver self => exact unboundedReceiver_wraps method self
  | oneshotSender inner resource => exact oneshotSender_wraps method inner resource
  | watchSender self => exact watchSender_wraps method self
  | watchReceiver self => exact watchReceiver_wraps method self
  | broadcastSender self => exact broadcastSender_wraps method self
  | broadcastReceiver self => exact broadcastReceiver_wraps method self
  | oneshotReceiver self ready => exact oneshotReceiver_wraps method self ready
  | lock self ready => exact lockFuture_wraps method self ready
  | read self ready => exact readFuture_wraps method self ready
  | write self ready => exact writeFuture_wraps method self ready
  | acquire self ready => exact acquireFuture_wraps method self ready
  | notified self ready => exact notifiedFuture_wraps method self ready
  | send self ready => exact sendFuture_wraps method self ready
  | recv self ready => exact recvFuture_wraps method self ready
  | changed self ready => exact changedFuture_wraps method self ready
  | broadcastRecv self ready => exact broadcastRecvFuture_wraps method self ready
  | mutexGuard guard =>
    cases method with
    | drop => exact .some (dropping_wraps (guardDrop_wraps .mutex guard))
    | _ => exact .none
  | readGuard guard =>
    cases method with
    | drop => exact .some (dropping_wraps (guardDrop_wraps .rwRead guard))
    | _ => exact .none
  | writeGuard guard =>
    cases method with
    | drop => exact .some (dropping_wraps (guardDrop_wraps .rwWrite guard))
    | _ => exact .none
  | permit inner resource waiter permits => exact permit_wraps method inner resource waiter permits
  | gone => exact .none

end Methods

/-! ## Constructors -/

section Constructors

variable {inner : RuntimeM Value Handle} {inner' : Direct Value Handle}

theorem quiet_newAtomic (value : UInt64) : Quiet (perform (.newAtomic value) : RuntimeM Value Handle) :=
  .own trivial (fun _ _ => .done trivial) fun _ ended => absurd trivial ended

theorem quiet_newEager : Quiet (AsyncResourceId.newEager : RuntimeM Value AsyncResourceId) :=
  quiet_then quiet_nextResource quiet_newAtomic

theorem new_wraps (wraps : around.Wraps Eq inner inner') :
    around.Wraps (fun primitive handle => primitive.inner = handle) (Primitive.new inner) inner' :=
  quiet_then quiet_newEager fun _ => wraps.after fun _ _ same => .done same

theorem constNew_wraps (wraps : around.Wraps Eq inner inner') :
    around.Wraps (fun primitive handle => primitive.inner = handle) (Primitive.constNew inner) inner' :=
  quiet_then (quiet_newAtomic 0) fun _ => wraps.after fun _ _ same => .done same

/-- Both constructors of the semaphore go on like this. -/
theorem semaphore_made (resource : AsyncResourceId) (permits : ℕ) :
    around.Wraps (fun semaphore handle => semaphore.inner = handle)
      (do
        let inner ← tokio (.semaphoreNew permits)
        return { resource, inner, initialPermits := permits, createdReported := ← perform .newFlag } :
        RuntimeM Value ModelAsyncSemaphore)
      (direct (.semaphoreNew permits)) := by
  have flagged : Quiet (perform .newFlag : RuntimeM Value Handle) :=
    .own trivial (fun _ _ => .done trivial) fun _ ended => absurd trivial ended
  exact (tokio_wraps (.semaphoreNew permits)).after fun _ _ same => quiet_then flagged fun _ => .done same

theorem oneshotChannel_wraps :
    around.Wraps (fun ends inner => ends.1.inner = some inner.1 ∧ ends.2.inner = inner.2)
      (Oneshot.channel : RuntimeM Value (Oneshot.Sender × Awaiting)) (direct .oneshotChannel) := by
  refine (tokio_wraps .oneshotChannel).after fun inner inner' same => ?_
  refine quiet_then quiet_nextResource fun resource => quiet_then (quiet_withHook (quiet_report _)) fun _ => ?_
  refine quiet_then quiet_nextWaiter fun op => .done ?_
  rw [same]
  exact ⟨rfl, rfl⟩

theorem broadcastChannel_wraps (capacity : ℕ) :
    around.Wraps (fun ends inner => (ends.1.inner, ends.2.inner) = inner)
      (Broadcast.channel capacity : RuntimeM Value (Broadcast.Sender × Broadcast.Receiver))
      (direct (.broadcastChannel capacity)) := by
  refine (tokio_wraps (.broadcastChannel capacity)).after fun inner inner' same => ?_
  refine quiet_then quiet_nextResource fun resource => quiet_then (quiet_newAtomic 0) fun sendSeq => ?_
  refine quiet_then quiet_nextWaiter fun receiverId => quiet_then (quiet_withHook ?_) fun _ => .done same
  exact quiet_then (quiet_report _) fun _ => quiet_report _

theorem construct_wraps (what : Construct Value) :
    around.Wraps (List.Forall₂ Wrapper) (Wrapped.construct what) (Raw.construct what) := by
  cases what with
  | mutexNew value =>
    refine (new_wraps (tokio_wraps (.mutexNew value))).bind ?_
    rintro primitive _ rfl
    exact .done (.cons (.mutex primitive) .nil)
  | mutexConstNew value =>
    refine (constNew_wraps (tokio_wraps (.mutexNew value))).bind ?_
    rintro primitive _ rfl
    exact .done (.cons (.mutex primitive) .nil)
  | rwLockNew value =>
    refine (new_wraps (tokio_wraps (.rwLockNew value))).bind ?_
    rintro primitive _ rfl
    exact .done (.cons (.rwLock primitive) .nil)
  | rwLockConstNew value =>
    refine (constNew_wraps (tokio_wraps (.rwLockNew value))).bind ?_
    rintro primitive _ rfl
    exact .done (.cons (.rwLock primitive) .nil)
  | semaphoreNew permits =>
    refine Wraps.bind (quiet_then quiet_newEager fun resource => semaphore_made resource permits) ?_
    rintro semaphore _ rfl
    exact .done (.cons (.semaphore semaphore) .nil)
  | semaphoreConstNew permits =>
    refine Wraps.bind (quiet_then (quiet_newAtomic 0) fun resource => semaphore_made resource permits) ?_
    rintro semaphore _ rfl
    exact .done (.cons (.semaphore semaphore) .nil)
  | notifyNew =>
    refine (new_wraps (tokio_wraps .notifyNew)).bind ?_
    rintro primitive _ rfl
    exact .done (.cons (.notify primitive) .nil)
  | notifyConstNew =>
    refine (constNew_wraps (tokio_wraps .notifyNew)).bind ?_
    rintro primitive _ rfl
    exact .done (.cons (.notify primitive) .nil)
  | mpscChannel buffer =>
    refine (createChannel_wraps .mpscSender .mpscReceiver _ (tokio_wraps (.mpscChannel buffer))).bind ?_
    rintro ⟨sender, receiver⟩ _ rfl
    exact .done (.cons (.mpscSender sender) (.cons (.mpscReceiver receiver) .nil))
  | unboundedChannel =>
    refine (createChannel_wraps .unboundedSender .unboundedReceiver _ (tokio_wraps .unboundedChannel)).bind ?_
    rintro ⟨sender, receiver⟩ _ rfl
    exact .done (.cons (.unboundedSender sender) (.cons (.unboundedReceiver receiver) .nil))
  | oneshotChannel =>
    refine oneshotChannel_wraps.bind ?_
    rintro ⟨⟨_, resource⟩, receiver⟩ ⟨inner, handle⟩ ⟨rfl, same⟩
    obtain rfl : receiver.inner = handle := same
    exact .done (.cons (.oneshotSender inner resource) (.cons (.oneshotReceiver receiver false) .nil))
  | watchChannel init =>
    refine (createChannel_wraps .watchSender .watchReceiver _ (tokio_wraps (.watchChannel init))).bind ?_
    rintro ⟨sender, receiver⟩ _ rfl
    exact .done (.cons (.watchSender sender) (.cons (.watchReceiver receiver) .nil))
  | broadcastChannel capacity =>
    refine (broadcastChannel_wraps capacity).bind ?_
    rintro ⟨sender, receiver⟩ _ rfl
    exact .done (.cons (.broadcastSender sender) (.cons (.broadcastReceiver receiver) .nil))

end Constructors

/-! ## Runs -/

section Runs

variable {Inner : Type} (spec : Inner → (call : Tokio Value) → Unit → Option (call.Reply × Inner))

/-- A counter that is exhausted stays so. -/
theorem Exhausted.answer {world later : World Inner} {effect : Effect Value} {reply : effect.Reply}
    (exhausted : Exhausted world) (answered : world.answer spec effect () = some (reply, later)) : Exhausted later := by
  cases effect with
  | nextResource =>
    cases answered
    refine exhausted.imp_left fun last => ?_
    rw [fetchNext_exhausted last]
    exact last
  | nextWaiter =>
    cases answered
    refine exhausted.imp_right fun last => ?_
    rw [fetchNext_exhausted last]
    exact last
  | tokio call =>
    obtain ⟨⟨reply', inner⟩, -, same⟩ := Option.map_eq_some_iff.mp answered
    cases same
    exact exhausted
  | compareExchange atomic expected new =>
    simp only [World.answer] at answered
    split at answered <;> cases answered <;> exact exhausted
  | panic message => cases answered
  | newAtomic | load | fetchAdd | newFlag | swapFlag | hook | report =>
    cases answered
    exact exhausted

theorem implements :
    Implements around (World.handle spec) (fun call inner => spec inner call ()) World.inner Exhausted where
  own := by
    intro effect world isOwn
    cases effect with
    | tokio | panic => exact isOwn.elim
    | nextResource =>
      refine ⟨_, _, rfl, rfl, ?_⟩
      by_cases drawn : (fetchNext world.nextResource).1 = none
      · right
        left
        change (fetchNext world.nextResource).2.toNat = _
        rw [fetchNext_none drawn]
        exact toNat_of_fetchNext_none drawn
      · exact .inl drawn
    | nextWaiter =>
      refine ⟨_, _, rfl, rfl, ?_⟩
      by_cases drawn : (fetchNext world.nextWaiter).1 = none
      · right
        right
        change (fetchNext world.nextWaiter).2.toNat = _
        rw [fetchNext_none drawn]
        exact toNat_of_fetchNext_none drawn
      · exact .inl drawn
    | compareExchange atomic expected new =>
      by_cases found : world.atomics atomic = expected
      · exact ⟨_, _, if_pos found, rfl, .inl trivial⟩
      · exact ⟨_, _, if_neg found, rfl, .inl trivial⟩
    | newAtomic | load | fetchAdd | newFlag | swapFlag | hook | report =>
      exact ⟨_, _, rfl, rfl, .inl trivial⟩
  shared := by
    intro call world
    change ((spec world.inner call ()).map _).map _ = _
    cases answered : spec world.inner call () with
    | none => rfl
    | some answer => rfl
  spent := by
    intro effect world reply later exhausted answered
    exact exhausted.answer spec answered

/-- The client got the same answer and holds, of each other, wrappers and their tokio objects. -/
def Matched (result : Answer Value × List Wrapped) (result' : Answer Value × List Raw) : Prop :=
  result.1 = result'.1 ∧ List.Forall₂ Wrapper result.2 result'.2

theorem held_at {objects : List Wrapped} {objects' : List Raw} (held : List.Forall₂ Wrapper objects objects')
    (object : ℕ) : Option.Rel Wrapper objects[object]? objects'[object]? := by
  induction held generalizing object with
  | nil => exact .none
  | cons wrapper _ ih =>
    cases object with
    | zero => exact .some wrapper
    | succ object => exact ih object

theorem held_set {objects : List Wrapped} {objects' : List Raw} (held : List.Forall₂ Wrapper objects objects')
    (object : ℕ) {self : Wrapped} {self' : Raw} (wrapper : Wrapper self self') :
    List.Forall₂ Wrapper (objects.set object self) (objects'.set object self') := by
  induction held generalizing object with
  | nil => exact .nil
  | cons other rest ih =>
    cases object with
    | zero => exact .cons wrapper rest
    | succ object => exact .cons other (ih object)

theorem program_wraps {objects : List Wrapped} {objects' : List Raw} (held : List.Forall₂ Wrapper objects objects')
    (operation : Operation Value) :
    Option.Rel (around.Wraps Matched) (wrappers.program objects operation)
      (tokioObjects.program objects' operation) := by
  cases operation with
  | construct what =>
    exact .some ((construct_wraps what).bind fun made made' added => .done ⟨rfl, List.rel_append held added⟩)
  | call object method =>
    have self := held_at held object
    simp only [Side.program]
    generalize objects[object]? = found, objects'[object]? = found' at self ⊢
    cases self with
    | none => exact .none
    | some wrapper =>
      have same := call_wraps method wrapper
      change Option.Rel _ (Option.map _ (Wrapped.call _ method)) (Option.map _ (Raw.call _ method))
      generalize Wrapped.call _ method = call, Raw.call _ method = call' at same ⊢
      cases same with
      | none => exact .none
      | some wraps =>
        refine .some (wraps.bind fun called called' alike => .done ⟨alike.answer, ?_⟩)
        exact List.rel_append (held_set held object alike.self) alike.made

/-- What a run on the wrappers shows next to the same run on tokio: the same outcomes and inner states, or the same
outcomes up to an operation that found a counter exhausted and panicked. -/
def Transparent (wrapped : List (Observed Value) × World Inner) (real : List (Observed Value) × Inner) : Prop :=
  (wrapped.1 = real.1 ∧ wrapped.2.inner = real.2) ∨
    (Exhausted wrapped.2 ∧ ∃ before rest, real.1 = before ++ rest ∧ rest ≠ [] ∧ wrapped.1 = before ++ [.panicked])

theorem Transparent.cons {wrapped : List (Observed Value) × World Inner} {real : List (Observed Value) × Inner}
    (outcome : Observed Value) (transparent : Transparent wrapped real) :
    Transparent (outcome :: wrapped.1, wrapped.2) (outcome :: real.1, real.2) := by
  obtain ⟨same, inner⟩ | ⟨exhausted, before, rest, parts, panics, ends⟩ := transparent
  · exact .inl ⟨congrArg _ same, inner⟩
  · exact .inr ⟨exhausted, outcome :: before, rest, congrArg _ parts, panics, congrArg _ ends⟩

theorem run_transparent {objects : List Wrapped} {objects' : List Raw} (operations : List (Operation Value))
    (held : List.Forall₂ Wrapper objects objects') (world : World Inner) :
    Transparent (wrappers.run (World.handle spec) operations objects world)
      (tokioObjects.run (fun call inner => spec inner call ()) operations objects' world.inner) := by
  induction operations generalizing objects objects' world with
  | nil => exact .inl ⟨rfl, rfl⟩
  | cons operation operations ih =>
    have same := program_wraps held operation
    simp only [Side.run]
    generalize wrappers.program objects operation = program at same ⊢
    generalize tokioObjects.program objects' operation = program' at same ⊢
    cases same with
    | none => exact ih held world
    | @some program program' wraps =>
      have agree : Agree Matched World.inner Exhausted (program.run (World.handle spec) world)
          (program'.run (fun call inner => spec inner call ()) world.inner) := wraps.run (implements spec) world
      simp only
      generalize program.run (World.handle spec) world = ran at agree ⊢
      generalize program'.run (fun call inner => spec inner call ()) world.inner = ran' at agree ⊢
      cases agree with
      | @returned value value' later matched =>
        obtain ⟨answer, objects⟩ := value
        obtain ⟨answer', objects'⟩ := value'
        obtain ⟨rfl, held⟩ := matched
        exact (ih held later).cons (.answered answer)
      | refused => exact .inl ⟨rfl, rfl⟩
      | ended spent =>
        refine .inr ⟨spent, [], _, rfl, ?_, rfl⟩
        obtain ⟨returned, inner⟩ := ran'
        cases returned <;> exact List.cons_ne_nil _ _

/-- Whatever one client does and whichever readings find a hook, the wrappers show what tokio shows. -/
theorem wrappers_transparent (operations : List (Operation Value)) (world : World Inner) :
    Transparent (wrappers.run (World.handle spec) operations [] world)
      (tokioObjects.run (fun call inner => spec inner call ()) operations [] world.inner) :=
  run_transparent spec operations .nil world

end Runs

/-! ## An exhausted counter -/

section Exhaustion

/-- A tokio that only makes notifies. -/
def notifies (_ : Unit) : (call : Tokio Unit) → Unit → Option (call.Reply × Unit)
  | .notifyNew, _ => some ((0 : Handle), ())
  | _, _ => none

/-- A notify takes the next resource id, where there is one. -/
theorem notifyNew_ensures (objects : List Wrapped) (world : World Unit) :
    Program.Ensures (World.handle notifies)
      (fun _ later => later.nextResource.toNat = world.nextResource.toNat + 1) (fun _ => True)
      (wrappers.construct .notifyNew >>= fun made => .done ((.done : Answer Unit), objects ++ made)) world := by
  simp only [wrappers, Wrapped.construct, ModelAsyncNotify.new, Primitive.new, AsyncResourceId.newEager,
    Program.bind_bind]
  refine ensures_nextResource (fun room => ?_) trivial
  change (world.nextResource + 1).toNat = world.nextResource.toNat + 1
  rw [UInt64.toNat_add, UInt64.toNat_one, Nat.mod_eq_of_lt room]

theorem notifies_panic (count : ℕ) (objects : List Wrapped) (world : World Unit)
    (enough : u64Max < world.nextResource.toNat + count) :
    .panicked ∈
      (wrappers.run (World.handle notifies) (List.replicate count (.construct .notifyNew)) objects world).1 := by
  induction count generalizing objects world with
  | zero =>
    have bound := world.nextResource.toNat_lt
    rw [u64Max] at enough
    omega
  | succ count ih =>
    have next := notifyNew_ensures objects world
    rw [List.replicate_succ]
    simp only [Side.run, Side.program]
    unfold Program.Ensures at next
    generalize Program.run _ _ world = ran at next ⊢
    obtain ⟨value, later⟩ := ran
    cases value with
    | none => exact List.mem_singleton_self _
    | some made =>
      obtain ⟨answer, held⟩ := made
      refine List.mem_cons_of_mem _ (ih held later ?_)
      have counted : later.nextResource.toNat = world.nextResource.toNat + 1 := next
      omega

theorem notifies_answered (count : ℕ) (objects : List Raw) :
    .panicked ∉ (tokioObjects.run (fun call inner => notifies inner call ())
      (List.replicate count (.construct .notifyNew)) objects ()).1 := by
  induction count generalizing objects with
  | zero => exact List.not_mem_nil
  | succ count ih =>
    rw [List.replicate_succ]
    exact List.not_mem_cons_of_ne_of_not_mem nofun (ih _)

/-- A client that builds notifies runs out of resource ids, and tokio builds one more. -/
theorem wrappers_not_transparent :
    (wrappers.run (World.handle notifies) (List.replicate (2 ^ 64 - 1) (.construct .notifyNew)) []
        { inner := () }).1 ≠
      (tokioObjects.run (fun call inner => notifies inner call ())
        (List.replicate (2 ^ 64 - 1) (.construct .notifyNew)) [] ()).1 := by
  have panics := notifies_panic (2 ^ 64 - 1) [] { inner := () } (by decide)
  intro same
  rw [same] at panics
  exact notifies_answered (2 ^ 64 - 1) [] panics

end Exhaustion

end Laplace.Soundness.Transparency
