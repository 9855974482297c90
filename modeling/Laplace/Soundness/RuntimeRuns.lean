import Laplace.Machine.Attribution
import Laplace.Model.Runtime

/-! # Facts about every run of the model runtime

The recorded trace grows by one event at a time, so each of its prefixes was the whole trace at some
point of the run; a counter only moves forward and never hands out an id twice; and while a hook is
installed every reading of a slot finds it.
-/

namespace Laplace.Soundness

open Laplace.Machine Laplace.Model Laplace.Model.Runtime

variable {Value Inner Choice Process Local Operation : Type}

theorem fetchNext_some {counter id : UInt64} (fetched : (fetchNext counter).1 = some id) :
    id = counter ∧ counter < (fetchNext counter).2 := by
  unfold fetchNext at fetched ⊢
  split at fetched
  · next room =>
    rw [if_pos room]
    refine ⟨(Option.some.inj fetched).symm, ?_⟩
    rw [UInt64.lt_iff_toNat_lt, UInt64.toNat_add, UInt64.toNat_one, Nat.mod_eq_of_lt room]
    omega
  · cases fetched

theorem fetchNext_none {counter : UInt64} (exhausted : (fetchNext counter).1 = none) :
    (fetchNext counter).2 = counter := by
  unfold fetchNext at exhausted ⊢
  split at exhausted
  · cases exhausted
  · next full => rw [if_neg full]

theorem toNat_of_fetchNext_none {counter : UInt64} (exhausted : (fetchNext counter).1 = none) :
    counter.toNat = u64Max := by
  unfold fetchNext at exhausted
  split at exhausted
  · cases exhausted
  · have bound := counter.toNat_lt
    rw [u64Max]
    omega

theorem fetchNext_exhausted {counter : UInt64} (last : counter.toNat = u64Max) :
    fetchNext counter = (none, counter) := by
  rw [fetchNext, if_neg]
  rw [last, u64Max]
  omega

theorem le_fetchNext (counter : UInt64) : counter ≤ (fetchNext counter).2 := by
  unfold fetchNext
  split
  · next room =>
    rw [UInt64.le_iff_toNat_le, UInt64.toNat_add, UInt64.toNat_one, Nat.mod_eq_of_lt room]
    omega
  · exact UInt64.le_refl counter

theorem fetchNext_ne_zero {counter : UInt64} (positive : counter ≠ 0) : (fetchNext counter).2 ≠ 0 := by
  intro zero
  have least := le_fetchNext counter
  rw [zero, UInt64.le_iff_toNat_le] at least
  refine positive (UInt64.toNat_inj.mp ?_)
  simpa only [UInt64.toNat_zero, Nat.le_zero] using least

/-- What an effect can do to the trace. -/
theorem answer_trace {spec : Inner → (call : Tokio Value) → Choice → Option (call.Reply × Inner)}
    {world next : World Inner} {effect : Effect Value} {choice : Choice} {reply : effect.Reply}
    (answered : world.answer spec effect choice = some (reply, next)) :
    next.trace = world.trace ∨ ∃ event, effect = .report event ∧ next.trace = world.trace ++ [event] := by
  cases effect with
  | report event =>
    cases answered
    exact .inr ⟨event, rfl, rfl⟩
  | tokio call =>
    obtain ⟨⟨reply', inner⟩, -, same⟩ := Option.map_eq_some_iff.mp answered
    cases same
    exact .inl rfl
  | compareExchange atomic expected new =>
    simp only [World.answer] at answered
    split at answered <;> cases answered <;> exact .inl rfl
  | panic message => cases answered
  | newAtomic | load | fetchAdd | newFlag | swapFlag | nextResource | nextWaiter | hook =>
    cases answered
    exact .inl rfl

/-- An effect after which the trace has one more event reported this event. -/
theorem answer_reports {spec : Inner → (call : Tokio Value) → Choice → Option (call.Reply × Inner)}
    {world next : World Inner} {effect : Effect Value} {choice : Choice} {reply : effect.Reply} {event : Event}
    (answered : world.answer spec effect choice = some (reply, next))
    (appended : next.trace = world.trace ++ [event]) : effect = .report event := by
  rcases answer_trace answered with same | ⟨other, isReport, appended'⟩
  · rw [same] at appended
    simp at appended
  · rw [appended', List.append_cancel_left_eq] at appended
    rw [isReport, (List.cons.inj appended).1]

variable [DecidableEq Process] {start : Process → Local → Operation → Option (RuntimeM Value Local)}
  {spec : Process → Inner → (call : Tokio Value) → Choice → Option (call.Reply × Inner)}

/-- Every prefix of the trace was the whole trace at some point of the run. -/
theorem trace_prefix_reached {initial final : System.Config (Effect Value) Effect.Reply Process Local (World Inner)}
    {actions : List (System.Action Process Operation Choice)} (empty : initial.shared.trace = [])
    (reached : run? (runtimeSystem start spec).step initial actions = some final)
    {part : List Event} (isPart : part <+: final.shared.trace) :
    ∃ past config, run? (runtimeSystem start spec).step initial past = some config ∧
      config.shared.trace = part := by
  refine run?_record (fun config => config.shared.trace) (fun config action next stepped => ?_) empty
    reached isPart
  obtain ⟨_, _, _, _, -, -, -, rfl⟩ | ⟨_, _, _, _, _, _, -, -, answered, rfl⟩ := System.step_cases stepped
  · exact .inl rfl
  · exact (answer_trace answered).imp id fun ⟨event, _, appended⟩ => ⟨event, appended⟩

/-- What the replies of a world with an installed hook can be. -/
def hookedReply : (effect : Effect Value) → effect.Reply → Prop
  | .hook _, installed => installed = true
  | .nextResource, id => id ≠ some 0
  | _, _ => True

/-- A hook is installed for the whole run, and resource ids start from one. -/
structure Hooked (world : World Inner) : Prop where
  installed : world.hooked = fun _ => true
  positive : world.nextResource ≠ 0

theorem Hooked.answer {spec : Inner → (call : Tokio Value) → Choice → Option (call.Reply × Inner)}
    {world next : World Inner} (hooked : Hooked world) {effect : Effect Value} {choice : Choice}
    {reply : effect.Reply} (answered : world.answer spec effect choice = some (reply, next)) :
    hookedReply effect reply ∧ Hooked next := by
  cases effect with
  | hook slot =>
    cases answered
    exact ⟨congrFun hooked.installed _, hooked.installed, hooked.positive⟩
  | nextResource =>
    cases answered
    refine ⟨fun zero => ?_, hooked.installed, fetchNext_ne_zero hooked.positive⟩
    exact hooked.positive (fetchNext_some zero).1.symm
  | tokio call =>
    obtain ⟨⟨reply', inner⟩, -, same⟩ := Option.map_eq_some_iff.mp answered
    cases same
    exact ⟨trivial, hooked.installed, hooked.positive⟩
  | compareExchange atomic expected new =>
    simp only [World.answer] at answered
    split at answered <;> cases answered <;> exact ⟨trivial, hooked.installed, hooked.positive⟩
  | panic message => cases answered
  | newAtomic | load | fetchAdd | newFlag | swapFlag | nextWaiter | report =>
    cases answered
    exact ⟨trivial, hooked.installed, hooked.positive⟩

section Bookkeeping

variable {Phase α : Type} {protocol : Protocol (Effect Value) Effect.Reply Phase} {phase : Phase}

/-- The effects that find a resource id, look for a hook, or end the program. -/
def bookkeeping : Effect Value → Bool
  | .load _ | .compareExchange .. | .nextResource | .hook _ | .panic _ => true
  | _ => false

/-- In this phase the protocol takes no notice of bookkeeping. -/
def Ignores (protocol : Protocol (Effect Value) Effect.Reply Phase) (phase : Phase) : Prop :=
  ∀ effect, bookkeeping effect = true → protocol.permits phase effect ∧
    ∀ reply, protocol.possible effect reply → protocol.after phase effect reply = some phase

theorem Ignores.perform (ignores : Ignores protocol phase) {effect : Effect Value}
    (books : bookkeeping effect = true) :
    (Runtime.perform effect).Conforms protocol (fun later _ => later = phase) phase :=
  ⟨(ignores effect books).1, fun reply isPossible => ⟨phase, (ignores effect books).2 reply isPossible, rfl⟩⟩

theorem Ignores.panic (ignores : Ignores protocol phase) {rest : Phase → α → Prop} (message : String) :
    (Runtime.panic message : RuntimeM Value α).Conforms protocol rest phase :=
  ⟨(ignores (.panic message) rfl).1, nofun⟩

/-- Nothing to drop while unwinding. -/
theorem Ignores.unwound (ignores : Ignores protocol phase) :
    (pure () : RuntimeM Value Unit).Conforms protocol (fun later _ => Ignores protocol later) phase := ignores

/-- Drawing a waiter id; what unwinding drops must be permitted. -/
theorem nextWaiter_conforms {drawn : Phase → UInt64 → Prop} {unwind : RuntimeM Value Unit}
    (draws : (Runtime.perform .nextWaiter : RuntimeM Value (Option UInt64)).Conforms protocol
      (fun later id => match id with
      | some id => drawn later id
      | none => later = phase) phase)
    (unwinds : unwind.Conforms protocol (fun later _ => Ignores protocol later) phase) :
    (nextAsyncLockWaiterId unwind).Conforms protocol drawn phase := by
  refine draws.bind ?_
  intro later id moved
  cases id with
  | some id => exact moved
  | none =>
    subst moved
    exact unwinds.bind fun later _ still => still.panic _

theorem Ignores.nextResource (ignores : Ignores protocol phase) {unwind : RuntimeM Value Unit}
    (unwinds : unwind.Conforms protocol (fun later _ => Ignores protocol later) phase) :
    (nextAsyncLockResourceId unwind).Conforms protocol (fun later _ => later = phase) phase := by
  refine (ignores.perform rfl).bind ?_
  rintro _ drawn rfl
  cases drawn with
  | some id => exact rfl
  | none => exact unwinds.bind fun later _ still => still.panic _

/-- Reading the resource id goes unnoticed. -/
theorem Ignores.get (ignores : Ignores protocol phase) {resource : AsyncResourceId} {unwind : RuntimeM Value Unit}
    (unwinds : unwind.Conforms protocol (fun later _ => Ignores protocol later) phase) :
    (resource.get unwind).Conforms protocol (fun later _ => later = phase) phase := by
  refine (ignores.perform rfl).bind ?_
  rintro _ current rfl
  split
  · exact rfl
  · refine (ignores.nextResource unwinds).bind ?_
    rintro _ allocated rfl
    refine (ignores.perform rfl).bind ?_
    rintro _ result rfl
    cases result <;> exact rfl

/-- A future draws its id before tokio makes the inner future. -/
theorem startFuture_conforms {drawn : Phase → UInt64 → Prop} {made : Phase → UInt64 → Prop} {resource : UInt64}
    {inner : RuntimeM Value Handle} (ignores : Ignores protocol phase)
    (draws : (Runtime.perform .nextWaiter : RuntimeM Value (Option UInt64)).Conforms protocol
      (fun later id => match id with
      | some id => drawn later id
      | none => later = phase) phase)
    (makes : ∀ later id, drawn later id → inner.Conforms protocol (fun later _ => made later id) later) :
    (Awaiting.start resource inner).Conforms protocol
      (fun later future => made later future.waiter ∧ future.resolved = false ∧ future.requestedEmitted = false)
      phase := by
  refine (nextWaiter_conforms draws ignores.unwound).bind ?_
  intro later waiter isDrawn
  exact (makes later waiter isDrawn).bind fun later handle isMade => ⟨isMade, rfl, rfl⟩

end Bookkeeping

section Alone

variable {α : Type} {spec : Inner → (call : Tokio Value) → Unit → Option (call.Reply × Inner)} {world : World Inner}
  {post : α → World Inner → Prop} {stopped : World Inner → Prop}

theorem ensures_tokio {call : Tokio Value} {rest : call.Reply → RuntimeM Value α} {reply : call.Reply} {inner : Inner}
    (answered : spec world.inner call () = some (reply, inner)) :
    (tokio call >>= rest).Ensures (World.handle spec) post stopped world ↔
      (rest reply).Ensures (World.handle spec) post stopped { world with inner } := by
  refine Program.ensures_call ?_
  simp only [World.handle, World.answer, answered, Option.map_some]

theorem ensures_tokio_refused {call : Tokio Value} {rest : call.Reply → RuntimeM Value α}
    (refused : spec world.inner call () = none) :
    (tokio call >>= rest).Ensures (World.handle spec) post stopped world ↔ stopped world := by
  refine Program.ensures_refused ?_
  simp only [World.handle, World.answer, refused, Option.map_none]

theorem ensures_report {event : Event} {rest : Unit → RuntimeM Value α} :
    (report event >>= rest).Ensures (World.handle spec) post stopped world ↔
      (rest ()).Ensures (World.handle spec) post stopped { world with trace := world.trace ++ [event] } := Iff.rfl

theorem ensures_newAtomic {value : UInt64} {rest : Handle → RuntimeM Value α} :
    (perform (.newAtomic value) >>= rest).Ensures (World.handle spec) post stopped world ↔
      (rest world.nextHandle).Ensures (World.handle spec) post stopped
        { world with
          atomics := Function.update world.atomics world.nextHandle value
          nextHandle := world.nextHandle + 1 } := Iff.rfl

theorem ensures_load {atomic : Handle} {rest : UInt64 → RuntimeM Value α} :
    (perform (.load atomic) >>= rest).Ensures (World.handle spec) post stopped world ↔
      (rest (world.atomics atomic)).Ensures (World.handle spec) post stopped world := Iff.rfl

theorem ensures_fetchAdd {atomic : Handle} {amount : UInt64} {rest : RuntimeM Value α} :
    ((discard (perform (.fetchAdd atomic amount)) : RuntimeM Value Unit) >>= fun _ => rest).Ensures (World.handle spec)
        post stopped world ↔
      rest.Ensures (World.handle spec) post stopped
        { world with atomics := Function.update world.atomics atomic (world.atomics atomic + amount) } := Iff.rfl

/-- A hook is installed, so that the reports are made. -/
theorem ensures_withHook {slot : HookSlot} {reports : RuntimeM Value Unit} {rest : Unit → RuntimeM Value α}
    (hooked : world.hooked = fun _ => true) :
    (withHook slot reports >>= rest).Ensures (World.handle spec) post stopped world ↔
      (reports >>= rest).Ensures (World.handle spec) post stopped { world with readings := world.readings + 1 } := by
  have reading : World.handle spec (.hook slot : Effect Value) world =
      some (true, { world with readings := world.readings + 1 }) := by
    simp only [World.handle, World.answer, hooked]
  exact Program.ensures_call reading

/-- Where a counter is exhausted, what was built is dropped and the program stops. -/
theorem ensures_exhausted {unwind : RuntimeM Value Unit} {message : String} {rest : UInt64 → RuntimeM Value α}
    (exhausted : unwind.Ensures (World.handle spec) (fun _ => stopped) stopped world) :
    ((unwind >>= fun _ => Runtime.panic message) >>= rest).Ensures (World.handle spec) post stopped world := by
  rw [Program.bind_bind]
  exact exhausted.bind fun _ _ isStopped => isStopped

/-- An id is drawn, or the counter is exhausted and what was built is dropped. -/
theorem ensures_nextWaiter {unwind : RuntimeM Value Unit} {rest : UInt64 → RuntimeM Value α}
    (drawn : world.nextWaiter.toNat + 1 < 2 ^ 64 → (rest world.nextWaiter).Ensures (World.handle spec) post stopped
      { world with nextWaiter := world.nextWaiter + 1 })
    (exhausted : unwind.Ensures (World.handle spec) (fun _ => stopped) stopped world) :
    (nextAsyncLockWaiterId unwind >>= rest).Ensures (World.handle spec) post stopped world := by
  rcases Nat.lt_or_ge (world.nextWaiter.toNat + 1) (2 ^ 64) with room | full
  · have draws : World.handle spec (.nextWaiter : Effect Value) world =
        some (some world.nextWaiter, { world with nextWaiter := world.nextWaiter + 1 }) := by
      simp only [World.handle, World.answer, fetchNext, if_pos room]
    exact (Program.ensures_call draws).mpr (drawn room)
  · have refuses : World.handle spec (.nextWaiter : Effect Value) world = some (none, world) := by
      simp only [World.handle, World.answer, fetchNext, if_neg (Nat.not_lt.mpr full)]
    exact (Program.ensures_call refuses).mpr (ensures_exhausted exhausted)

/-- The same for the ids of resources. -/
theorem ensures_nextResource {unwind : RuntimeM Value Unit} {rest : UInt64 → RuntimeM Value α}
    (drawn : world.nextResource.toNat + 1 < 2 ^ 64 →
        (rest world.nextResource).Ensures (World.handle spec) post stopped
      { world with nextResource := world.nextResource + 1 })
    (exhausted : unwind.Ensures (World.handle spec) (fun _ => stopped) stopped world) :
    (nextAsyncLockResourceId unwind >>= rest).Ensures (World.handle spec) post stopped world := by
  rcases Nat.lt_or_ge (world.nextResource.toNat + 1) (2 ^ 64) with room | full
  · have draws : World.handle spec (.nextResource : Effect Value) world =
        some (some world.nextResource, { world with nextResource := world.nextResource + 1 }) := by
      simp only [World.handle, World.answer, fetchNext, if_pos room]
    exact (Program.ensures_call draws).mpr (drawn room)
  · have refuses : World.handle spec (.nextResource : Effect Value) world = some (none, world) := by
      simp only [World.handle, World.answer, fetchNext, if_neg (Nat.not_lt.mpr full)]
    exact (Program.ensures_call refuses).mpr (ensures_exhausted exhausted)

end Alone

end Laplace.Soundness
