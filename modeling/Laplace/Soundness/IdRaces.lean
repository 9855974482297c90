import Laplace.Model.IdAllocation
import Laplace.Soundness.RuntimeRuns

/-! # Ids drawn by racing threads

A counter hands out each of its values once and stops at the last. Two threads that find a lazy id unassigned both
draw one; the first `compare_exchange` publishes its own, the other thread adopts it and drops what it drew. An id in
a thread's hands is in no object, in no other thread's hands and was returned by no allocator, so objects never share
one, and no allocator returns one twice.
-/

namespace Laplace.Soundness.IdAllocation

open Machine Model.Runtime Model.IdAllocation

/-- The allocator of a counter. -/
def allocator : Counter → Operation
  | .asyncResource => .nextAsyncLockResourceId
  | .asyncWaiter => .nextAsyncLockWaiterId
  | .lockResource => .nextLockResourceId
  | .nativeTask => .nextNativeDynamicTaskId

/-- All callers of `get` on one object obtain one nonzero id, different objects have different ids, no allocator
returns a value twice, or one that an object has, no constructor returns an object twice, no counter hands out a value
twice or falls below its first one, and at `u64::MAX` its allocator fails and changes nothing. -/
structure IdsDistinct (first : Counter → UInt64) (shared : Shared) : Prop where
  agree : ∀ object id, (object, id) ∈ shared.obtained → id ≠ 0 ∧ ∀ id', (object, id') ∈ shared.obtained → id' = id
  differ : ∀ object other id, object ≠ other → (object, id) ∈ shared.obtained → (other, id) ∉ shared.obtained
  unique : ∀ counter, (shared.allocated counter).Nodup
  apart : ∀ object id, (object, id) ∈ shared.obtained → id ∉ shared.allocated .asyncResource
  made : shared.made.Nodup
  drawnOnce : ∀ counter, (shared.handedOut counter).Nodup
  rising : ∀ counter, first counter ≤ shared.counter counter
  exhausted : ∀ counter, (shared.counter counter).toNat = u64Max →
    (allocator counter).program.run (fun effect shared => shared.answer effect) shared = (none, shared)

/-! ## Counters -/

/-- What a counter handed out lies between its first value and its present one, each value once. -/
structure Ledger (first counter : UInt64) (given : List UInt64) : Prop where
  rising : first ≤ counter
  nodup : given.Nodup
  between : ∀ id ∈ given, first ≤ id ∧ id < counter

theorem ledger_start (first : UInt64) : Ledger first first [] where
  rising := UInt64.le_refl first
  nodup := .nil
  between := by simp

theorem Ledger.fetchNext {first counter : UInt64} {given : List UInt64} (ledger : Ledger first counter given) :
    Ledger first (fetchNext counter).2 (given ++ (fetchNext counter).1.toList) := by
  cases drawn : (Model.Runtime.fetchNext counter).1 with
  | none =>
    rw [fetchNext_none drawn, Option.toList_none, List.append_nil]
    exact ledger
  | some id =>
    obtain ⟨rfl, greater⟩ := fetchNext_some drawn
    rw [Option.toList_some]
    constructor
    · exact UInt64.le_trans ledger.rising (UInt64.le_of_lt greater)
    · apply List.nodup_append.mpr
      refine ⟨ledger.nodup, List.nodup_singleton _, ?_⟩
      intro earlier member last same
      obtain rfl := List.mem_singleton.mp same
      exact UInt64.ne_of_lt (ledger.between earlier member).2
    · intro other member
      rcases List.mem_append.mp member with earlier | last
      · have ⟨above, below⟩ := ledger.between other earlier
        exact ⟨above, UInt64.lt_trans below greater⟩
      · obtain rfl := List.mem_singleton.mp last
        exact ⟨ledger.rising, greater⟩

/-! ## Objects -/

/-- The id is in no object yet. -/
structure Unpublished (world : World Unit) (id : UInt64) : Prop where
  nonzero : id ≠ 0
  drawn : id < world.nextResource
  absent : ∀ object, world.atomics object ≠ id

/-- The object has the id. -/
structure Known (world : World Unit) (object : AsyncResourceId) (id : UInt64) : Prop where
  made : object < world.nextHandle
  assigned : world.atomics object = id
  nonzero : id ≠ 0

/-- What is not made is unassigned, every assigned id was drawn, and no two objects share one. -/
structure Objects (world : World Unit) : Prop where
  vacant : ∀ object, world.nextHandle ≤ object → world.atomics object = 0
  drawn : ∀ object, world.atomics object < world.nextResource
  injective : ∀ object other, world.atomics object ≠ 0 → world.atomics object = world.atomics other → object = other

/-- What is made and assigned stays so. -/
structure Later (world world' : World Unit) : Prop where
  resource : world.nextResource ≤ world'.nextResource
  handle : world.nextHandle ≤ world'.nextHandle
  kept : ∀ object, world.atomics object ≠ 0 → world'.atomics object = world.atomics object

/-- At most the counter of resources has moved. -/
structure Draws (world world' : World Unit) : Prop where
  resource : world.nextResource ≤ world'.nextResource
  handle : world'.nextHandle = world.nextHandle
  atomics : world'.atomics = world.atomics

/-- An unassigned object, which may be new, is given an id that is in no object, or none. -/
structure Publishes (world world' : World Unit) (object : AsyncResourceId) (id : UInt64) : Prop where
  vacant : world.atomics object = 0
  fresh : id = 0 ∨ Unpublished world id
  made : object < world'.nextHandle
  handle : world.nextHandle ≤ world'.nextHandle
  resource : world'.nextResource = world.nextResource
  atomics : world'.atomics = Function.update world.atomics object id

variable {world world' : World Unit} {object : AsyncResourceId} {id : UInt64}

theorem Known.later (known : Known world object id) (later : Later world world') : Known world' object id where
  made := Nat.lt_of_lt_of_le known.made later.handle
  assigned := by
    rw [later.kept object (by rw [known.assigned]; exact known.nonzero), known.assigned]
  nonzero := known.nonzero

namespace Draws

theorem later (draws : Draws world world') : Later world world' where
  resource := draws.resource
  handle := Nat.le_of_eq draws.handle.symm
  kept := by
    intro object _
    rw [draws.atomics]

theorem objects (draws : Draws world world') (objects : Objects world) : Objects world' where
  vacant := by
    rw [draws.handle, draws.atomics]
    exact objects.vacant
  drawn := by
    intro object
    rw [draws.atomics]
    exact UInt64.lt_of_lt_of_le (objects.drawn object) draws.resource
  injective := by
    rw [draws.atomics]
    exact objects.injective

theorem unpublished (draws : Draws world world') (unpublished : Unpublished world id) : Unpublished world' id where
  nonzero := unpublished.nonzero
  drawn := UInt64.lt_of_lt_of_le unpublished.drawn draws.resource
  absent := by
    rw [draws.atomics]
    exact unpublished.absent

end Draws

namespace Publishes

theorem later (publishes : Publishes world world' object id) : Later world world' where
  resource := by
    rw [publishes.resource]
    exact UInt64.le_refl _
  handle := publishes.handle
  kept := by
    intro other assigned
    rw [publishes.atomics, Function.update_of_ne]
    rintro rfl
    exact assigned publishes.vacant

/-- An id that another thread holds is in no object afterwards either. -/
theorem unpublished {other : UInt64} (publishes : Publishes world world' object id) (different : other ≠ id)
    (unpublished : Unpublished world other) : Unpublished world' other where
  nonzero := unpublished.nonzero
  drawn := by
    rw [publishes.resource]
    exact unpublished.drawn
  absent := by
    intro place
    rw [publishes.atomics]
    by_cases own : place = object
    · rw [own, Function.update_self]
      exact different.symm
    · rw [Function.update_of_ne own]
      exact unpublished.absent place

theorem objects (publishes : Publishes world world' object id) (objects : Objects world) : Objects world' where
  vacant := by
    intro other above
    have made := publishes.made
    rw [publishes.atomics, Function.update_of_ne (Nat.ne_of_gt (Nat.lt_of_lt_of_le made above))]
    exact objects.vacant other (Nat.le_trans publishes.handle above)
  drawn := by
    intro other
    rw [publishes.atomics, publishes.resource]
    by_cases own : other = object
    · rw [own, Function.update_self]
      rcases publishes.fresh with rfl | unpublished
      · exact UInt64.lt_of_le_of_lt UInt64.zero_le (objects.drawn object)
      · exact unpublished.drawn
    · rw [Function.update_of_ne own]
      exact objects.drawn other
  injective := by
    intro one other
    rw [publishes.atomics]
    intro nonzero same
    by_cases own : one = object <;> by_cases own' : other = object
    · rw [own, own']
    · rw [own, Function.update_self] at nonzero same
      rw [Function.update_of_ne own'] at same
      rcases publishes.fresh with rfl | unpublished
      · exact absurd rfl nonzero
      · exact absurd same.symm (unpublished.absent other)
    · rw [Function.update_of_ne own] at nonzero same
      rw [own', Function.update_self] at same
      rcases publishes.fresh with rfl | unpublished
      · exact absurd same nonzero
      · exact absurd same (unpublished.absent one)
    · rw [Function.update_of_ne own] at nonzero same
      rw [Function.update_of_ne own'] at same
      exact objects.injective one other nonzero same

end Publishes

/-! ## Threads -/

/-- What a thread has to itself. -/
inductive Token where
  | id (counter : Counter) (id : UInt64)
  | object (object : AsyncResourceId)

/-- Where a thread stands. -/
inductive Phase where
  /-- In no `get`, with nothing of its own. -/
  | free
  /-- In a `get` that has not drawn. -/
  | looking (object : AsyncResourceId)
  /-- In a `get` that has drawn this id and has not tried to publish it. -/
  | holding (object : AsyncResourceId) (id : UInt64)
  /-- With an id that is to be returned, or put into an object that is to be made. -/
  | carrying (counter : Counter) (id : UInt64)
  /-- With a new object that is to be returned. -/
  | made (object : AsyncResourceId)
  /-- At the end of a `get`. -/
  | found (object : AsyncResourceId) (id : UInt64)
deriving DecidableEq

namespace Phase

/-- What is in this thread's hands only. -/
def owned : Phase → Option Token
  | .holding _ id => some (.id .asyncResource id)
  | .carrying counter id => some (.id counter id)
  | .made object => some (.object object)
  | .free | .looking _ | .found .. => none

/-- What the world must be like for a thread that stands here. -/
def Suits (world : World Unit) : Phase → Prop
  | .looking object | .holding object _ => object < world.nextHandle
  | .found object id => Known world object id
  | .free | .carrying .. | .made _ => True

def permits (phase : Phase) : Effects → Prop
  | .inl (.newAtomic id) => phase = .free ∧ id = 0 ∨ phase = .carrying .asyncResource id
  | .inl (.load object) => phase = .looking object
  | .inl (.compareExchange object expected id) => phase = .holding object id ∧ expected = 0
  | .inl .nextResource => phase = .free ∨ ∃ object, phase = .looking object
  | .inl .nextWaiter | .inr .nextLockResource | .inr .nextNativeTask => phase = .free
  | .inl (.panic _) => True
  | .inl _ => False
  | .inr (.returned (.allocated counter id)) => phase = .carrying counter id
  | .inr (.returned (.made object)) => phase = .made object
  | .inr (.returned (.obtained object id)) => phase = .found object id

/-- A `get` that loads an id is at its end. -/
def loaded (id : UInt64) : Phase → Phase
  | .looking object => if id = 0 then .looking object else .found object id
  | phase => phase

def drew (counter : Counter) (drawn : Option UInt64) (phase : Phase) : Phase :=
  match phase, drawn with
  | .free, some id => .carrying counter id
  | .looking object, some id => .holding object id
  | phase, _ => phase

/-- The id that was published, by this thread or by another one. -/
def exchanged (outcome : Except UInt64 UInt64) (phase : Phase) : Phase :=
  match phase, outcome with
  | .holding object id, .ok _ => .found object id
  | .holding object _, .error id => .found object id
  | phase, _ => phase

theorem drew_none (phase : Phase) (counter : Counter) : phase.drew counter none = phase := by
  cases phase <;> rfl

def after (phase : Phase) : (effect : Effects) → Replies effect → Option Phase
  | .inl (.newAtomic _), object => some (.made object)
  | .inl (.load _), id => some (phase.loaded id)
  | .inl (.compareExchange ..), outcome => some (phase.exchanged outcome)
  | .inl .nextResource, drawn => some (phase.drew .asyncResource drawn)
  | .inl .nextWaiter, drawn => some (phase.drew .asyncWaiter drawn)
  | .inl _, _ => some phase
  | .inr .nextLockResource, drawn => some (phase.drew .lockResource drawn)
  | .inr .nextNativeTask, drawn => some (phase.drew .nativeTask drawn)
  | .inr (.returned _), _ => some .free

end Phase

def protocol : Protocol Effects Replies Phase where
  permits := Phase.permits
  possible _ _ := True
  after := Phase.after

abbrev DrawConforms {α : Type} (rest : Phase → α → Prop) (phase : Phase) (program : Drawing α) : Prop :=
  program.Conforms protocol rest phase

/-! ## Invariant -/

variable {Thread : Type} {first : Counter → UInt64} {shared shared' : Shared} {phases : Thread → Phase}
  {counter : Counter} {token : Token}

/-- A thread keeps its place in whatever comes later. -/
theorem Phase.Suits.later {phase : Phase} (suits : phase.Suits world) (later : Later world world') :
    phase.Suits world' := by
  cases phase with
  | looking | holding => exact Nat.lt_of_lt_of_le suits later.handle
  | found => exact Known.later suits later
  | free | carrying | made => trivial

/-- It was drawn or made, nobody was given it, and no object has it. -/
def Drawn (shared : Shared) : Token → Prop
  | .id counter id => id < shared.counter counter ∧ id ∉ shared.allocated counter ∧
      (counter = .asyncResource → Unpublished shared.world id)
  | .object object => object < shared.world.nextHandle ∧ object ∉ shared.made

/-- It is still to be drawn or made. -/
def Fresh (shared : Shared) : Token → Prop
  | .id counter id => shared.counter counter ≤ id
  | .object object => shared.world.nextHandle ≤ object

theorem Fresh.not_drawn (fresh : Fresh shared token) : ¬ Drawn shared token := by
  intro drawn
  cases token with
  | id => exact UInt64.lt_irrefl _ (UInt64.lt_of_lt_of_le drawn.1 fresh)
  | object => exact Nat.not_lt_of_le fresh drawn.1

/-- The counters and the objects agree with what the calls returned. -/
structure Accounted (first : Counter → UInt64) (shared : Shared) : Prop where
  ledgers : ∀ counter, Ledger (first counter) (shared.counter counter) (shared.handedOut counter)
  objects : Objects shared.world
  positive : shared.world.nextResource ≠ 0
  unique : ∀ counter, (shared.allocated counter).Nodup
  drawn : ∀ counter, ∀ id ∈ shared.allocated counter, id < shared.counter counter
  withheld : ∀ id ∈ shared.allocated .asyncResource, Unpublished shared.world id
  distinct : shared.made.Nodup
  made : ∀ object ∈ shared.made, object < shared.world.nextHandle
  obtained : ∀ object id, (object, id) ∈ shared.obtained → Known shared.world object id

theorem counter_record (shared : Shared) (value : Returned) : (shared.record value).counter = shared.counter := by
  funext counter
  cases value <;> cases counter <;> rfl

theorem allocated_record (shared : Shared) (counter : Counter) (id : UInt64) :
    (shared.record (.allocated counter id)).allocated counter = shared.allocated counter ++ [id] :=
  Function.update_self ..

theorem allocated_record_of_ne {other : Counter} (different : other ≠ counter) (shared : Shared) (id : UInt64) :
    (shared.record (.allocated counter id)).allocated other = shared.allocated other :=
  Function.update_of_ne different ..

/-- What a thread has to itself was given to nobody, and no other thread has it. -/
structure Sound (first : Counter → UInt64) (shared : Shared) (phases : Thread → Phase) : Prop where
  accounted : Accounted first shared
  suits : ∀ thread, (phases thread).Suits shared.world
  owned : ∀ thread token, (phases thread).owned = some token → Drawn shared token
  apart : ∀ thread other token, thread ≠ other → (phases thread).owned = some token → (phases other).owned ≠ some token

/-- A counter is drawn from, and nothing else happens. -/
structure Draw (counter : Counter) (shared shared' : Shared) : Prop where
  counted : shared'.counter = Function.update shared.counter counter (fetchNext (shared.counter counter)).2
  noted : shared'.handedOut = Function.update shared.handedOut counter
    (shared.handedOut counter ++ (fetchNext (shared.counter counter)).1.toList)
  handle : shared'.world.nextHandle = shared.world.nextHandle
  atomics : shared'.world.atomics = shared.world.atomics
  allocated : shared'.allocated = shared.allocated
  made : shared'.made = shared.made
  obtained : shared'.obtained = shared.obtained

namespace Draw

theorem le_counter (draw : Draw counter shared shared') (other : Counter) :
    shared.counter other ≤ shared'.counter other := by
  rw [draw.counted]
  by_cases same : other = counter
  · rw [same, Function.update_self]
    exact le_fetchNext _
  · rw [Function.update_of_ne same]
    exact UInt64.le_refl _

theorem draws (draw : Draw counter shared shared') : Draws shared.world shared'.world :=
  ⟨draw.le_counter .asyncResource, draw.handle, draw.atomics⟩

theorem drawn (draw : Draw counter shared shared') (drawn : Drawn shared token) : Drawn shared' token := by
  cases token with
  | id other id =>
    obtain ⟨below, notGiven, unpublished⟩ := drawn
    refine ⟨UInt64.lt_of_lt_of_le below (draw.le_counter other), ?_, fun same => ?_⟩
    · rw [draw.allocated]
      exact notGiven
    · exact draw.draws.unpublished (unpublished same)
  | object object =>
    rw [Drawn, draw.handle, draw.made]
    exact drawn

theorem ne_zero (draw : Draw counter shared shared') (positive : shared.world.nextResource ≠ 0) :
    shared'.world.nextResource ≠ 0 := by
  intro zero
  have least := draw.draws.resource
  rw [zero, UInt64.le_iff_toNat_le, UInt64.toNat_zero, Nat.le_zero, ← UInt64.toNat_zero] at least
  exact positive (UInt64.toNat_inj.mp least)

theorem accounted (draw : Draw counter shared shared') (accounted : Accounted first shared) :
    Accounted first shared' where
  ledgers := by
    intro other
    rw [draw.counted, draw.noted]
    by_cases same : other = counter
    · subst same
      rw [Function.update_self, Function.update_self]
      exact (accounted.ledgers other).fetchNext
    · rw [Function.update_of_ne same, Function.update_of_ne same]
      exact accounted.ledgers other
  objects := draw.draws.objects accounted.objects
  positive := draw.ne_zero accounted.positive
  unique := by
    rw [draw.allocated]
    exact accounted.unique
  drawn := by
    intro other id given
    rw [draw.allocated] at given
    exact UInt64.lt_of_lt_of_le (accounted.drawn other id given) (draw.le_counter other)
  withheld := by
    rw [draw.allocated]
    exact fun id given => draw.draws.unpublished (accounted.withheld id given)
  distinct := by
    rw [draw.made]
    exact accounted.distinct
  made := by
    rw [draw.made, draw.handle]
    exact accounted.made
  obtained := by
    rw [draw.obtained]
    exact fun object id returned => (accounted.obtained object id returned).later draw.draws.later

/-- What comes out of a counter is nobody's yet. -/
theorem fresh (draw : Draw counter shared shared') (accounted : Accounted first shared) {id : UInt64}
    (fetched : (fetchNext (shared.counter counter)).1 = some id) :
    Fresh shared (.id counter id) ∧ Drawn shared' (.id counter id) := by
  obtain ⟨rfl, greater⟩ := fetchNext_some fetched
  refine ⟨UInt64.le_refl _, ?_, ?_, ?_⟩
  · rw [draw.counted, Function.update_self]
    exact greater
  · rw [draw.allocated]
    exact fun given => UInt64.lt_irrefl _ (accounted.drawn counter _ given)
  · rintro rfl
    constructor
    · exact accounted.positive
    · have moved : shared'.world.nextResource = _ := congrFun draw.counted .asyncResource
      rw [moved, Function.update_self]
      exact greater
    · intro object
      rw [draw.atomics]
      exact UInt64.ne_of_lt (accounted.objects.drawn object)

end Draw

namespace Publishes

variable {first : Counter → UInt64} {shared : Shared}

theorem drawn {token : Token} (publishes : Publishes shared.world world' object id)
    (waiter : world'.nextWaiter = shared.world.nextWaiter) (other : token ≠ .id .asyncResource id)
    (drawn : Drawn shared token) : Drawn { shared with world := world' } token := by
  cases token with
  | id counter own =>
    obtain ⟨below, notGiven, unpublished⟩ := drawn
    refine ⟨?_, notGiven, ?_⟩
    · cases counter with
      | asyncResource =>
        change own < world'.nextResource
        rw [publishes.resource]
        exact below
      | asyncWaiter =>
        change own < world'.nextWaiter
        rw [waiter]
        exact below
      | lockResource | nativeTask => exact below
    · rintro rfl
      refine publishes.unpublished ?_ (unpublished rfl)
      rintro rfl
      exact other rfl
  | object own => exact ⟨Nat.lt_of_lt_of_le drawn.1 publishes.handle, drawn.2⟩

theorem accounted (publishes : Publishes shared.world world' object id)
    (waiter : world'.nextWaiter = shared.world.nextWaiter) (withheld : id ∉ shared.allocated .asyncResource)
    (accounted : Accounted first shared) : Accounted first { shared with world := world' } := by
  have same : ({ shared with world := world' } : Shared).counter = shared.counter := by
    funext counter
    cases counter with
    | asyncResource => exact publishes.resource
    | asyncWaiter => exact waiter
    | lockResource | nativeTask => rfl
  constructor
  · rw [same]
    exact accounted.ledgers
  · exact publishes.objects accounted.objects
  · change world'.nextResource ≠ 0
    rw [publishes.resource]
    exact accounted.positive
  · exact accounted.unique
  · rw [same]
    exact accounted.drawn
  · intro given member
    refine publishes.unpublished ?_ (accounted.withheld given member)
    rintro rfl
    exact withheld member
  · exact accounted.distinct
  · exact fun made member => Nat.lt_of_lt_of_le (accounted.made made member) publishes.handle
  · exact fun place given returned => (accounted.obtained place given returned).later publishes.later

end Publishes

namespace Sound

variable [DecidableEq Thread] {thread : Thread} {later : Phase}

/-- One thread moves: what the others have to themselves stays theirs, and the thread has nothing else than it had, or
something that nobody had before. -/
theorem move (sound : Sound first shared phases) (accounted : Accounted first shared')
    (grown : Later shared.world shared'.world) (suits : later.Suits shared'.world)
    (others : ∀ token, (phases thread).owned ≠ some token → Drawn shared token → Drawn shared' token)
    (owned : ∀ token, later.owned = some token →
      ((phases thread).owned = some token ∨ Fresh shared token) ∧ Drawn shared' token) :
    Sound first shared' (Function.update phases thread later) := by
  have alone : ∀ other token, other ≠ thread → (phases other).owned = some token → later.owned ≠ some token := by
    intro other token different owns owns'
    rcases (owned token owns').1 with before | fresh
    · exact sound.apart other thread token different owns before
    · exact fresh.not_drawn (sound.owned other token owns)
  constructor
  · exact accounted
  · intro other
    by_cases same : other = thread
    · rw [same, Function.update_self]
      exact suits
    · rw [Function.update_of_ne same]
      exact (sound.suits other).later grown
  · intro other token owns
    by_cases same : other = thread
    · rw [same, Function.update_self] at owns
      exact (owned token owns).2
    · rw [Function.update_of_ne same] at owns
      exact others token (sound.apart other thread token same owns) (sound.owned other token owns)
  · intro one other token different owns owns'
    by_cases same : one = thread <;> by_cases same' : other = thread
    · exact different (same.trans same'.symm)
    · rw [same, Function.update_self] at owns
      rw [Function.update_of_ne same'] at owns'
      exact alone other token same' owns' owns
    · rw [Function.update_of_ne same] at owns
      rw [same', Function.update_self] at owns'
      exact alone one token same owns owns'
    · rw [Function.update_of_ne same] at owns
      rw [Function.update_of_ne same'] at owns'
      exact sound.apart one other token different owns owns'

/-- A thread with nothing of its own draws an id; a `get` draws none but its object's. -/
theorem draw (sound : Sound first shared phases)
    (stands : phases thread = .free ∨ counter = .asyncResource ∧ ∃ object, phases thread = .looking object)
    (draw : Draw counter shared shared') :
    Sound first shared'
      (Function.update phases thread ((phases thread).drew counter (fetchNext (shared.counter counter)).1)) := by
  have place := sound.suits thread
  have accounted := sound.accounted
  cases fetched : (fetchNext (shared.counter counter)).1 with
  | none =>
    rw [Phase.drew_none]
    apply sound.move (draw.accounted accounted) draw.draws.later (place.later draw.draws.later)
    · exact fun token _ => draw.drawn
    · exact fun token owns => ⟨.inl owns, draw.drawn (sound.owned thread token owns)⟩
  | some id =>
    have ⟨fresh, drawn⟩ := draw.fresh accounted fetched
    have named : ((phases thread).drew counter (some id)).owned = some (.id counter id) := by
      rcases stands with stands | ⟨rfl, object, stands⟩
      · rw [stands]
        rfl
      · rw [stands]
        rfl
    apply sound.move (draw.accounted accounted) draw.draws.later
    · rcases stands with stands | ⟨-, object, stands⟩
      · rw [stands]
        trivial
      · rw [stands] at place ⊢
        exact Phase.Suits.later place draw.draws.later
    · exact fun token _ => draw.drawn
    · intro token owns
      obtain rfl := Option.some.inj (named.symm.trans owns)
      exact ⟨.inr fresh, drawn⟩

/-- A thread looks at the object of its `get`. -/
theorem load (sound : Sound first shared phases) (stands : phases thread = .looking object) :
    Sound first shared (Function.update phases thread ((phases thread).loaded (shared.world.atomics object))) := by
  have made := sound.suits thread
  rw [stands] at made ⊢
  apply sound.move sound.accounted ⟨UInt64.le_refl _, Nat.le_refl _, fun _ _ => rfl⟩
  · by_cases unassigned : shared.world.atomics object = 0
    · rw [Phase.loaded, if_pos unassigned]
      exact made
    · rw [Phase.loaded, if_neg unassigned]
      exact ⟨made, rfl, unassigned⟩
  · exact fun token _ drawn => drawn
  · intro token owns
    rw [Phase.loaded] at owns
    split at owns <;> cases owns

/-- The first thread publishes its id. -/
theorem compareExchange_won (sound : Sound first shared phases) (stands : phases thread = .holding object id)
    (unassigned : shared.world.atomics object = 0) :
    Sound first { shared with world := { shared.world with atomics := Function.update shared.world.atomics object id } }
      (Function.update phases thread (.found object id)) := by
  have place := sound.suits thread
  rw [stands] at place
  have owns : (phases thread).owned = some (.id .asyncResource id) := by rw [stands, Phase.owned]
  obtain ⟨-, notGiven, unpublished⟩ := sound.owned thread _ owns
  have publishes : Publishes shared.world
      { shared.world with atomics := Function.update shared.world.atomics object id } object id :=
    ⟨unassigned, .inr (unpublished rfl), place, Nat.le_refl _, rfl, rfl⟩
  apply sound.move (publishes.accounted rfl notGiven sound.accounted) publishes.later
  · exact ⟨place, Function.update_self .., (unpublished rfl).nonzero⟩
  · intro token notOwned
    refine publishes.drawn rfl ?_
    rintro rfl
    exact notOwned owns
  · intro token owns
    cases owns

/-- A later one adopts what it finds, and drops its own. -/
theorem compareExchange_lost (sound : Sound first shared phases) (stands : phases thread = .holding object id)
    (assigned : shared.world.atomics object ≠ 0) :
    Sound first shared (Function.update phases thread (.found object (shared.world.atomics object))) := by
  have place := sound.suits thread
  rw [stands] at place
  apply sound.move sound.accounted ⟨UInt64.le_refl _, Nat.le_refl _, fun _ _ => rfl⟩
  · exact ⟨place, rfl, assigned⟩
  · exact fun token _ drawn => drawn
  · intro token owns
    cases owns

/-- A new object has the id that its thread drew for it, or none. -/
theorem newAtomic (sound : Sound first shared phases)
    (stands : phases thread = .free ∧ id = 0 ∨ phases thread = .carrying .asyncResource id) :
    Sound first
      { shared with
        world :=
          { shared.world with
            atomics := Function.update shared.world.atomics shared.world.nextHandle id
            nextHandle := shared.world.nextHandle + 1 } }
      (Function.update phases thread (.made shared.world.nextHandle)) := by
  have own : id = 0 ∨ (phases thread).owned = some (.id .asyncResource id) := by
    rcases stands with ⟨-, zero⟩ | stands
    · exact .inl zero
    · right
      rw [stands, Phase.owned]
  have vacant := sound.accounted.objects.vacant shared.world.nextHandle (Nat.le_refl _)
  have publishes : Publishes shared.world
      { shared.world with
        atomics := Function.update shared.world.atomics shared.world.nextHandle id
        nextHandle := shared.world.nextHandle + 1 } shared.world.nextHandle id :=
    ⟨vacant, own.imp_right fun owns => (sound.owned thread (.id .asyncResource id) owns).2.2 rfl,
      Nat.lt_succ_self _, Nat.le_succ _, rfl, rfl⟩
  have notGiven : id ∉ shared.allocated .asyncResource := by
    rcases own with rfl | owns
    · exact fun given => (sound.accounted.withheld 0 given).nonzero rfl
    · exact (sound.owned thread (.id .asyncResource id) owns).2.1
  apply sound.move (publishes.accounted rfl notGiven sound.accounted) publishes.later
  · trivial
  · rintro token notOwned drawn
    refine publishes.drawn rfl ?_ drawn
    rintro rfl
    rcases own with rfl | owns
    · exact (drawn.2.2 rfl).nonzero rfl
    · exact notOwned owns
  · intro token owns
    obtain rfl := Option.some.inj owns
    refine ⟨.inr (Nat.le_refl _), Nat.lt_succ_self _, fun member => ?_⟩
    exact Nat.lt_irrefl _ (sound.accounted.made _ member)

/-- An allocator returns what its thread drew. -/
theorem allocated (sound : Sound first shared phases) (stands : phases thread = .carrying counter id) :
    Sound first (shared.record (.allocated counter id)) (Function.update phases thread .free) := by
  have owns : (phases thread).owned = some (.id counter id) := by rw [stands, Phase.owned]
  obtain ⟨below, notGiven, unpublished⟩ := sound.owned thread _ owns
  have accounted := sound.accounted
  have given_cases : ∀ {other own}, own ∈ (shared.record (.allocated counter id)).allocated other →
      own ∈ shared.allocated other ∨ other = counter ∧ own = id := by
    intro other own given
    by_cases same : other = counter
    · subst same
      rw [allocated_record] at given
      rcases List.mem_append.mp given with before | last
      · exact .inl before
      · exact .inr ⟨rfl, List.mem_singleton.mp last⟩
    · rw [allocated_record_of_ne same] at given
      exact .inl given
  apply sound.move
  · constructor
    · rw [counter_record]
      exact accounted.ledgers
    · exact accounted.objects
    · exact accounted.positive
    · intro other
      by_cases same : other = counter
      · subst same
        rw [allocated_record]
        refine List.nodup_append.mpr ⟨accounted.unique other, List.nodup_singleton _, ?_⟩
        intro earlier before last isLast
        obtain rfl := List.mem_singleton.mp isLast
        exact ne_of_mem_of_not_mem before notGiven
      · rw [allocated_record_of_ne same]
        exact accounted.unique other
    · intro other own given
      rw [counter_record]
      rcases given_cases given with before | ⟨rfl, rfl⟩
      · exact accounted.drawn other own before
      · exact below
    · intro own given
      rcases given_cases given with before | ⟨isResource, rfl⟩
      · exact accounted.withheld own before
      · exact unpublished isResource.symm
    · exact accounted.distinct
    · exact accounted.made
    · exact accounted.obtained
  · exact ⟨UInt64.le_refl _, Nat.le_refl _, fun _ _ => rfl⟩
  · trivial
  · intro token notOwned drawn
    cases token with
    | id other own =>
      refine ⟨?_, fun given => ?_, drawn.2.2⟩
      · rw [counter_record]
        exact drawn.1
      · rcases given_cases given with before | ⟨rfl, rfl⟩
        · exact drawn.2.1 before
        · exact notOwned owns
    | object own => exact drawn
  · intro token owns
    cases owns

/-- A constructor returns its object. -/
theorem made (sound : Sound first shared phases) (stands : phases thread = .made object) :
    Sound first (shared.record (.made object)) (Function.update phases thread .free) := by
  have owns : (phases thread).owned = some (.object object) := by rw [stands, Phase.owned]
  obtain ⟨isMade, notGiven⟩ := sound.owned thread _ owns
  have accounted := sound.accounted
  apply sound.move
  · constructor
    · rw [counter_record]
      exact accounted.ledgers
    · exact accounted.objects
    · exact accounted.positive
    · exact accounted.unique
    · rw [counter_record]
      exact accounted.drawn
    · exact accounted.withheld
    · refine List.nodup_append.mpr ⟨accounted.distinct, List.nodup_singleton _, ?_⟩
      intro earlier before last isLast
      obtain rfl := List.mem_singleton.mp isLast
      exact ne_of_mem_of_not_mem before notGiven
    · intro own member
      rcases List.mem_append.mp member with before | last
      · exact accounted.made own before
      · obtain rfl := List.mem_singleton.mp last
        exact isMade
    · exact accounted.obtained
  · exact ⟨UInt64.le_refl _, Nat.le_refl _, fun _ _ => rfl⟩
  · trivial
  · intro token notOwned drawn
    cases token with
    | id other own =>
      refine ⟨?_, drawn.2⟩
      rw [counter_record]
      exact drawn.1
    | object own =>
      refine ⟨drawn.1, fun member => ?_⟩
      rcases List.mem_append.mp member with before | last
      · exact drawn.2 before
      · obtain rfl := List.mem_singleton.mp last
        exact notOwned owns
  · intro token owns
    cases owns

/-- A `get` returns what its object has. -/
theorem obtained (sound : Sound first shared phases) (stands : phases thread = .found object id) :
    Sound first (shared.record (.obtained object id)) (Function.update phases thread .free) := by
  have place := sound.suits thread
  rw [stands] at place
  have accounted := sound.accounted
  apply sound.move
  · constructor
    · rw [counter_record]
      exact accounted.ledgers
    · exact accounted.objects
    · exact accounted.positive
    · exact accounted.unique
    · rw [counter_record]
      exact accounted.drawn
    · exact accounted.withheld
    · exact accounted.distinct
    · exact accounted.made
    · intro other own member
      rcases List.mem_append.mp member with before | last
      · exact accounted.obtained other own before
      · obtain ⟨rfl, rfl⟩ := Prod.mk.inj (List.mem_singleton.mp last)
        exact place
  · exact ⟨UInt64.le_refl _, Nat.le_refl _, fun _ _ => rfl⟩
  · trivial
  · intro token _ drawn
    cases token with
    | id other own =>
      refine ⟨?_, drawn.2⟩
      rw [counter_record]
      exact drawn.1
    | object own => exact drawn
  · intro token owns
    cases owns

end Sound

/-! ## Runs -/

theorem answer_won (shared : Shared) (id : UInt64) (unassigned : shared.world.atomics object = 0) :
    shared.answer (.inl (.compareExchange object 0 id)) = some (.ok 0,
      { shared with world := { shared.world with atomics := Function.update shared.world.atomics object id } }) :=
  congrArg (Option.map _) (if_pos unassigned)

theorem answer_lost (shared : Shared) (id : UInt64) (assigned : shared.world.atomics object ≠ 0) :
    shared.answer (.inl (.compareExchange object 0 id)) = some (.error (shared.world.atomics object), shared) :=
  congrArg (Option.map _) (if_neg assigned)

theorem keeps [DecidableEq Thread] (first : Counter → UInt64) :
    (allocation Thread).Keeps protocol (Sound first) := by
  intro shared phases thread effect choice reply next sound answered
  refine ⟨trivial, fun later permitted moved => ?_⟩
  cases effect with
  | inl effect =>
    cases effect with
    | newAtomic id =>
      cases answered
      cases moved
      exact sound.newAtomic permitted
    | load object =>
      cases answered
      cases moved
      exact sound.load permitted
    | compareExchange object expected id =>
      obtain ⟨stands, rfl⟩ := permitted
      by_cases unassigned : shared.world.atomics object = 0
      · cases (answer_won shared id unassigned).symm.trans answered
        cases moved
        rw [stands]
        exact sound.compareExchange_won stands unassigned
      · cases (answer_lost shared id unassigned).symm.trans answered
        cases moved
        rw [stands]
        exact sound.compareExchange_lost stands unassigned
    | nextResource =>
      cases answered
      cases moved
      exact sound.draw (permitted.imp_right fun looks => ⟨rfl, looks⟩)
        ⟨by funext counter; cases counter <;> rfl, rfl, rfl, rfl, rfl, rfl, rfl⟩
    | nextWaiter =>
      cases answered
      cases moved
      exact sound.draw (.inl permitted) ⟨by funext counter; cases counter <;> rfl, rfl, rfl, rfl, rfl, rfl, rfl⟩
    | panic message => cases answered
    | tokio | fetchAdd | newFlag | swapFlag | hook | report => cases permitted
  | inr effect =>
    cases effect with
    | nextLockResource =>
      cases answered
      cases moved
      exact sound.draw (.inl permitted) ⟨by funext counter; cases counter <;> rfl, rfl, rfl, rfl, rfl, rfl, rfl⟩
    | nextNativeTask =>
      cases answered
      cases moved
      exact sound.draw (.inl permitted) ⟨by funext counter; cases counter <;> rfl, rfl, rfl, rfl, rfl, rfl, rfl⟩
    | returned value =>
      cases answered
      cases moved
      cases value with
      | allocated counter id => exact sound.allocated permitted
      | made object => exact sound.made permitted
      | obtained object id => exact sound.obtained permitted

/-! ## Programs -/

/-- The phase in which an operation starts. -/
def Phase.entry : Operation → Phase
  | .get object => .looking object
  | _ => .free

theorem nextAsyncLockResourceId_conforms {phase : Phase} (stands : phase = .free ∨ ∃ object, phase = .looking object) :
    (nextAsyncLockResourceId (pure ()) : RuntimeM Unit UInt64).Conforms protocol.left
      (fun later id => later = phase.drew .asyncResource (some id)) phase := by
  refine ⟨stands, fun drawn _ => ⟨phase.drew .asyncResource drawn, rfl, ?_⟩⟩
  cases drawn with
  | some id => exact rfl
  | none => exact ⟨trivial, fun reply => reply.elim⟩

theorem nextAsyncLockWaiterId_conforms :
    (nextAsyncLockWaiterId (pure ()) : RuntimeM Unit UInt64).Conforms protocol.left
      (fun later id => later = .carrying .asyncWaiter id) .free := by
  refine ⟨rfl, fun drawn _ => ⟨Phase.drew .asyncWaiter drawn .free, rfl, ?_⟩⟩
  cases drawn with
  | some id => exact rfl
  | none => exact ⟨trivial, fun reply => reply.elim⟩

theorem nextId_conforms {fetch : Drawing (Option UInt64)} {message : String}
    (fetches : DrawConforms (fun later drawn => later = Phase.drew counter drawn .free) .free fetch) :
    DrawConforms (fun later id => later = .carrying counter id) .free (nextId fetch message) := by
  refine fetches.bind ?_
  rintro _ drawn rfl
  cases drawn with
  | some id => exact rfl
  | none => exact ⟨trivial, fun reply => reply.elim⟩

theorem nextLockResourceId_conforms :
    DrawConforms (fun later id => later = .carrying .lockResource id) .free nextLockResourceId :=
  nextId_conforms ⟨rfl, fun _ _ => ⟨_, rfl, rfl⟩⟩

theorem nextNativeDynamicTaskId_conforms :
    DrawConforms (fun later id => later = .carrying .nativeTask id) .free nextNativeDynamicTaskId :=
  nextId_conforms ⟨rfl, fun _ _ => ⟨_, rfl, rfl⟩⟩

theorem newEager_conforms :
    (AsyncResourceId.newEager : RuntimeM Unit AsyncResourceId).Conforms protocol.left
      (fun later object => later = .made object) .free := by
  refine (nextAsyncLockResourceId_conforms (.inl rfl)).bind ?_
  rintro _ id rfl
  exact ⟨.inr rfl, fun object _ => ⟨.made object, rfl, rfl⟩⟩

/-- A `get` ends with what it found in its object, or with what it put there. -/
theorem get_conforms {object : AsyncResourceId} :
    (object.get (pure ()) : RuntimeM Unit UInt64).Conforms protocol.left (fun later id => later = .found object id)
      (.looking object) := by
  refine Program.conforms_perform_bind.mpr ⟨rfl, fun current _ => ⟨Phase.loaded current (.looking object), rfl, ?_⟩⟩
  by_cases assigned : current ≠ 0
  · rw [Phase.loaded, if_neg assigned, if_pos assigned]
    exact rfl
  · rw [Phase.loaded, if_pos (not_not.mp assigned), if_neg assigned]
    refine (nextAsyncLockResourceId_conforms (.inr ⟨object, rfl⟩)).bind ?_
    rintro _ allocated rfl
    refine ⟨⟨rfl, rfl⟩, fun outcome _ => ⟨Phase.exchanged outcome (.holding object allocated), rfl, ?_⟩⟩
    cases outcome with
    | ok expected => exact rfl
    | error existing => exact rfl

theorem returning_conforms {value : Returned} {phase : Phase} (stands : phase.permits (.inr (.returned value))) :
    DrawConforms (fun _ _ => True) phase (returning value) :=
  ⟨stands, fun _ _ => ⟨.free, rfl, trivial⟩⟩

theorem operation_conforms (operation : Operation) :
    DrawConforms (fun _ _ => True) (Phase.entry operation) operation.program := by
  cases operation with
  | nextAsyncLockResourceId =>
    refine (Program.conforms_inject.mpr (nextAsyncLockResourceId_conforms (.inl rfl))).bind ?_
    rintro _ id rfl
    exact returning_conforms rfl
  | nextAsyncLockWaiterId =>
    refine (Program.conforms_inject.mpr nextAsyncLockWaiterId_conforms).bind ?_
    rintro _ id rfl
    exact returning_conforms rfl
  | nextLockResourceId =>
    refine nextLockResourceId_conforms.bind ?_
    · rintro _ id rfl
      exact returning_conforms rfl
  | nextNativeDynamicTaskId =>
    refine nextNativeDynamicTaskId_conforms.bind ?_
    · rintro _ id rfl
      exact returning_conforms rfl
  | newEager =>
    refine (Program.conforms_inject.mpr newEager_conforms).bind ?_
    rintro _ object rfl
    exact returning_conforms rfl
  | newLazy => exact ⟨.inl ⟨rfl, rfl⟩, fun object _ => ⟨.made object, rfl, returning_conforms rfl⟩⟩
  | get object =>
    refine (Program.conforms_inject.mpr get_conforms).bind ?_
    rintro _ id rfl
    exact returning_conforms rfl

theorem enters [DecidableEq Thread] (first : Counter → UInt64) :
    (allocation Thread).Enters OnMade protocol (fun _ _ => True) (Sound first) := by
  intro config phases thread operation value program holds made _ started
  obtain rfl := Option.some.inj started
  refine ⟨Phase.entry operation, ?_, operation_conforms operation⟩
  refine holds.1.move holds.1.accounted ⟨UInt64.le_refl _, Nat.le_refl _, fun _ _ => rfl⟩ ?_ ?_ ?_
  · cases operation with
    | get object => exact made
    | _ => trivial
  · exact fun token _ drawn => drawn
  · intro token owns
    cases operation <;> cases owns

theorem initial_sound {counters : Counter → UInt64} (positive : counters .asyncResource ≠ 0) (statics : ℕ) :
    Sound counters (initial counters statics : System.Config Effects Replies Thread Unit Shared).shared
      fun _ : Thread => .free := by
  constructor
  · constructor
    · intro counter
      cases counter <;> exact ledger_start _
    · constructor
      · intro object _
        rfl
      · intro object
        exact UInt64.pos_iff_ne_zero.mpr positive
      · intro object other assigned
        exact absurd rfl assigned
    · exact positive
    · intro counter
      exact .nil
    · intro counter id given
      cases given
    · intro id given
      cases given
    · exact .nil
    · intro object member
      cases member
    · intro object id returned
      cases returned
  · intro thread
    trivial
  · intro thread token owns
    cases owns
  · intro thread other token _ owns
    cases owns

/-- A program that draws from an exhausted counter, and panics when it gets nothing. -/
theorem run_refused {counter : Counter} {effect : Effects} {next : Replies effect → Drawing Unit}
    {reply : Replies effect}
    (answered : shared.answer effect = some (reply, shared.note counter none))
    (panics : (next reply).run (fun effect shared => shared.answer effect) shared = (none, shared)) :
    (Program.call effect next).run (fun effect shared => shared.answer effect) shared = (none, shared) := by
  have unnoted : shared.note counter none = shared := by
    rw [Shared.note, Option.toList_none, List.append_nil, Function.update_eq_self]
  rw [unnoted] at answered
  rw [Program.run, answered]
  exact panics

theorem exhausted (counter : Counter) (last : (shared.counter counter).toNat = u64Max) :
    (allocator counter).program.run (fun effect shared => shared.answer effect) shared = (none, shared) := by
  have refused : fetchNext (shared.counter counter) = (none, shared.counter counter) := fetchNext_exhausted last
  cases counter with
  | asyncResource =>
    change fetchNext shared.world.nextResource = (none, shared.world.nextResource) at refused
    have answered : shared.answer (.inl .nextResource) = some (none, shared.note .asyncResource none) := by
      simp only [Shared.answer, Shared.perform, World.answer, Option.map_some, refused]
      rfl
    exact run_refused answered rfl
  | asyncWaiter =>
    change fetchNext shared.world.nextWaiter = (none, shared.world.nextWaiter) at refused
    have answered : shared.answer (.inl .nextWaiter) = some (none, shared.note .asyncWaiter none) := by
      simp only [Shared.answer, Shared.perform, World.answer, Option.map_some, refused]
      rfl
    exact run_refused answered rfl
  | lockResource =>
    change fetchNext shared.nextLockResource = (none, shared.nextLockResource) at refused
    have answered : shared.answer (.inr .nextLockResource) = some (none, shared.note .lockResource none) := by
      simp only [Shared.answer, refused]
      rfl
    exact run_refused answered rfl
  | nativeTask =>
    change fetchNext shared.nextNativeTask = (none, shared.nextNativeTask) at refused
    have answered : shared.answer (.inr .nextNativeTask) = some (none, shared.note .nativeTask none) := by
      simp only [Shared.answer, refused]
      rfl
    exact run_refused answered rfl

theorem Accounted.idsDistinct (accounted : Accounted first shared) : IdsDistinct first shared where
  agree := by
    intro object id returned
    have known := accounted.obtained object id returned
    refine ⟨known.nonzero, fun other returned' => ?_⟩
    rw [← known.assigned]
    exact (accounted.obtained object other returned').assigned.symm
  differ := by
    intro object other id different returned returned'
    have known := accounted.obtained object id returned
    have known' := accounted.obtained other id returned'
    apply different
    apply accounted.objects.injective
    · rw [known.assigned]
      exact known.nonzero
    · rw [known.assigned, known'.assigned]
  unique := accounted.unique
  apart := by
    intro object id returned given
    exact (accounted.withheld id given).absent object (accounted.obtained object id returned).assigned
  made := accounted.distinct
  drawnOnce counter := (accounted.ledgers counter).nodup
  rising counter := (accounted.ledgers counter).rising
  exhausted counter := IdAllocation.exhausted counter

/-- **Racing threads draw distinct ids.** In every interleaving, whatever the operations and the objects. -/
theorem idsDistinct_of_run [DecidableEq Thread] {counters : Counter → UInt64} {statics : ℕ}
    {final : System.Config Effects Replies Thread Unit Shared} {actions : List (System.Action Thread Operation Unit)}
    (positive : counters .asyncResource ≠ 0)
    (reached : run? (allocation Thread).step (initial counters statics) actions = some final)
    (made : Along (allocation Thread).step OnMade (initial counters statics) actions) :
    IdsDistinct counters final.shared := by
  obtain ⟨phases, sound, -⟩ := System.phases_of_entered_run (enters counters) (keeps counters).always
    ⟨initial_sound positive statics, fun _ => trivial⟩ reached made
  exact sound.accounted.idsDistinct

/-- Both threads find the static unassigned and draw; the first publishes its id and the second adopts it. Then each of
them calls the allocator. -/
def race : List (System.Action Bool Operation Unit) :=
  [.start false (.get 0), .start true (.get 0), .advance false (), .advance true (), .advance false (),
    .advance true (), .advance true (), .advance false (), .advance true (), .advance false (),
    .start false .nextAsyncLockResourceId, .start true .nextAsyncLockResourceId, .advance true (), .advance false (),
    .advance false (), .advance true ()]

theorem idsDistinct_race :
    ∃ final, run? (allocation Bool).step (initial (fun _ => 1) 1) race = some final ∧
      final.shared.handedOut .asyncResource = [1, 2, 3, 4] ∧ final.shared.obtained = [(0, 2), (0, 2)] ∧
      final.shared.allocated .asyncResource = [4, 3] ∧ IdsDistinct (fun _ => 1) final.shared := by
  have made : Along (allocation Bool).step OnMade (initial (fun _ => 1) 1) race :=
    ⟨Nat.one_pos, Nat.one_pos, trivial, trivial, trivial, trivial, trivial, trivial, trivial, trivial, trivial, trivial,
      trivial, trivial, trivial, trivial, trivial⟩
  exact ⟨_, rfl, rfl, rfl, rfl, idsDistinct_of_run (by decide) rfl made⟩

end Laplace.Soundness.IdAllocation
