import Laplace.Model.ProbeWire

/-! # What survives the cloud wire

The two tables of event codes agree, and the decoder keeps thread and address of every event. The encoder knows
three of the twelve kinds that a lock, an atomic or a semaphore reports, and it writes no resource for any of them.
-/

namespace Laplace.Soundness.Wire

open Model Model.Wire

/-- A reported event that the wire has a code for. -/
structure Coded where
  kind : ProbeEventType
  threadId : UInt64
  resource : String
deriving DecidableEq, Repr

def coded? : ProbeEvent → Option Coded
  | .threadBlocked threadId blockedOn => some ⟨.lockContention, threadId, blockedOn⟩
  | .lockAcquired threadId resource => some ⟨.lockAcquired, threadId, resource⟩
  | .lockReleased threadId resource => some ⟨.lockRelease, threadId, resource⟩
  | .rwLockReadAcquired threadId resource => some ⟨.rwLockReadAcquire, threadId, resource⟩
  | .rwLockReadReleased threadId resource => some ⟨.rwLockReadRelease, threadId, resource⟩
  | .rwLockWriteAcquired threadId resource => some ⟨.rwLockWriteAcquire, threadId, resource⟩
  | .rwLockWriteReleased threadId resource => some ⟨.rwLockWriteRelease, threadId, resource⟩
  | .atomicLoad threadId resource => some ⟨.atomicLoad, threadId, resource⟩
  | .atomicStore threadId resource => some ⟨.atomicStore, threadId, resource⟩
  | .atomicRmw threadId resource => some ⟨.atomicRmw, threadId, resource⟩
  | .semaphoreAcquired threadId resource => some ⟨.semaphoreAcquire, threadId, resource⟩
  | .semaphoreReleased threadId resource => some ⟨.semaphoreRelease, threadId, resource⟩
  | _ => none

/-- Kind, thread and address of a decoded event; a network or a scheduling event has no address of a lock. -/
structure Reading where
  kind : ProbeEventType
  tid : UInt32
  addr : Option UInt64
deriving DecidableEq, Repr

def reading : DecodedProbeEvent → Reading
  | .networkRequest tid .. => ⟨.netRequest, tid, none⟩
  | .networkResponse tid .. => ⟨.netResponse, tid, none⟩
  | .lockAcquire tid _ addr _ => ⟨.lockAcquire, tid, some addr⟩
  | .lockAcquired tid _ addr _ => ⟨.lockAcquired, tid, some addr⟩
  | .lockRelease tid _ addr => ⟨.lockRelease, tid, some addr⟩
  | .lockContention tid _ addr => ⟨.lockContention, tid, some addr⟩
  | .schedSwitch prevTid .. => ⟨.schedSwitch, prevTid, none⟩
  | .threadSpawn _ childTid _ => ⟨.threadSpawn, childTid, none⟩
  | .threadExit tid _ => ⟨.threadExit, tid, none⟩
  | .connOpen tid .. => ⟨.connOpen, tid, none⟩
  | .connClose tid .. => ⟨.connClose, tid, none⟩
  | .rwLockReadAcquire tid _ addr => ⟨.rwLockReadAcquire, tid, some addr⟩
  | .rwLockReadRelease tid _ addr => ⟨.rwLockReadRelease, tid, some addr⟩
  | .rwLockWriteAcquire tid _ addr => ⟨.rwLockWriteAcquire, tid, some addr⟩
  | .rwLockWriteRelease tid _ addr => ⟨.rwLockWriteRelease, tid, some addr⟩
  | .atomicLoad tid _ addr => ⟨.atomicLoad, tid, some addr⟩
  | .atomicStore tid _ addr => ⟨.atomicStore, tid, some addr⟩
  | .atomicRmw tid _ addr => ⟨.atomicRmw, tid, some addr⟩
  | .semaphoreAcquire tid _ addr => ⟨.semaphoreAcquire, tid, some addr⟩
  | .semaphoreRelease tid _ addr => ⟨.semaphoreRelease, tid, some addr⟩
  | .channelSend tid _ addr => ⟨.channelSend, tid, some addr⟩
  | .channelRecv tid _ addr => ⟨.channelRecv, tid, some addr⟩

/-- What the decoder reads off the encoded event. -/
def wireReading (event : ProbeEvent) : Option Reading := ((probeEventToRaw event).bind decode).map reading

/-! ## The decoder -/

theorem parseEventType_discriminant (kind : ProbeEventType) : parseEventType kind.discriminant = some kind := by
  cases kind <;> rfl

/-- A code is taken for no type but its own. -/
theorem discriminant_of_parseEventType {raw : UInt8} {kind : ProbeEventType} (parsed : parseEventType raw = some kind) :
    kind.discriminant = raw := by
  simp only [parseEventType] at parsed
  split at parsed <;> cases parsed <;> apply UInt8.toNat_inj.mp <;> symm <;> assumption

/-- The decoder keeps the type and the thread of every event, and the resource as the address. -/
theorem decode_keeps {raw : RawProbeEvent} {decoded : DecodedProbeEvent} (parsed : decode raw = some decoded) :
    (reading decoded).kind.discriminant = raw.eventType ∧ (reading decoded).tid = raw.tid ∧
      ∀ addr, (reading decoded).addr = some addr → addr = raw.resourceId := by
  obtain ⟨kind, known, rfl⟩ := Option.map_eq_some_iff.mp parsed
  rw [← discriminant_of_parseEventType known]
  cases kind <;> simp [decodeAs, reading]

/-! ## The encoder -/

/-- The types of the three kinds that the encoder has a branch for. -/
def encodedTypes : List ProbeEventType := [.lockAcquired, .lockRelease, .lockContention]

theorem tryFrom_of_lt {n : UInt64} (small : n.toNat < UInt32.size) : tryFrom n = some n.toUInt32 := by
  rw [tryFrom, if_pos small]

theorem toNat_toUInt32_of_lt {n : UInt64} (small : n.toNat < UInt32.size) : n.toUInt32.toNat = n.toNat := by
  rw [UInt64.toNat_toUInt32]
  exact Nat.mod_eq_of_lt small

theorem probeEventToRaw_coded {event : ProbeEvent} {coded : Coded} (hasCode : coded? event = some coded)
    (small : coded.threadId.toNat < UInt32.size) :
    probeEventToRaw event =
      if coded.kind ∈ encodedTypes then
        some { RawProbeEvent.zeroed with eventType := coded.kind.discriminant, tid := coded.threadId.toUInt32 }
      else none := by
  have fits := tryFrom_of_lt small
  cases event <;> cases hasCode <;> simp [probeEventToRaw, fits, encodedTypes, ProbeEventType.discriminant]

theorem wireReading_coded {event : ProbeEvent} {coded : Coded} (hasCode : coded? event = some coded)
    (small : coded.threadId.toNat < UInt32.size) :
    wireReading event =
      if coded.kind ∈ encodedTypes then some ⟨coded.kind, coded.threadId.toUInt32, some 0⟩ else none := by
  rw [wireReading, probeEventToRaw_coded hasCode small]
  by_cases encoded : coded.kind ∈ encodedTypes
  · rw [if_pos encoded, if_pos encoded, Option.bind_some, decode, parseEventType_discriminant]
    simp only [encodedTypes, List.mem_cons, List.not_mem_nil, or_false] at encoded
    rcases encoded with kind | kind | kind <;> rw [kind] <;> rfl
  · rw [if_neg encoded, if_neg encoded, Option.bind_none, Option.map_none]

/-! ## There and back -/

/-- The event is sent, and arrives as one of its kind on its thread. -/
def RoundTrips (event : ProbeEvent) (coded : Coded) : Prop :=
  ∃ arrived, wireReading event = some arrived ∧ arrived.kind = coded.kind ∧
    arrived.tid.toNat = coded.threadId.toNat

/-- The address that the event arrives with. -/
def wireAddr (event : ProbeEvent) : Option UInt64 := (wireReading event).bind Reading.addr

theorem roundTrips_iff {event : ProbeEvent} {coded : Coded} (hasCode : coded? event = some coded)
    (small : coded.threadId.toNat < UInt32.size) : RoundTrips event coded ↔ coded.kind ∈ encodedTypes := by
  rw [RoundTrips, wireReading_coded hasCode small]
  constructor
  · rintro ⟨arrived, sent, -⟩
    by_contra missing
    rw [if_neg missing] at sent
    cases sent
  · intro encoded
    exact ⟨_, if_pos encoded, rfl, toNat_toUInt32_of_lt small⟩

/-- **What the wire carries.** Two events of coded kinds, on threads below 2³², arrive with kind and thread, and
with addresses that tell their resources apart, exactly if each is a lock acquisition, a lock release or a blocked
thread, and they are of one resource. -/
theorem wire_round_trip_exact {one other : ProbeEvent} {coded coded' : Coded} (hasCode : coded? one = some coded)
    (hasCode' : coded? other = some coded') (small : coded.threadId.toNat < UInt32.size)
    (small' : coded'.threadId.toNat < UInt32.size) :
    (RoundTrips one coded ∧ RoundTrips other coded' ∧
        (coded.resource ≠ coded'.resource → wireAddr one ≠ wireAddr other)) ↔
      coded.kind ∈ encodedTypes ∧ coded'.kind ∈ encodedTypes ∧ coded.resource = coded'.resource := by
  rw [roundTrips_iff hasCode small, roundTrips_iff hasCode' small']
  apply and_congr_right
  intro encoded
  apply and_congr_right
  intro encoded'
  have addr : wireAddr one = some 0 := by
    rw [wireAddr, wireReading_coded hasCode small, if_pos encoded, Option.bind_some]
  have addr' : wireAddr other = some 0 := by
    rw [wireAddr, wireReading_coded hasCode' small', if_pos encoded', Option.bind_some]
  rw [addr, addr']
  constructor
  · intro apart
    by_contra different
    exact apart different rfl
  · intro same different
    exact absurd same different

/-- A lock of thread 7, taken and released. -/
theorem wire_round_trip_exact_lock :
    RoundTrips (.lockAcquired 7 "a") ⟨.lockAcquired, 7, "a"⟩ ∧ RoundTrips (.lockReleased 7 "a") ⟨.lockRelease, 7, "a"⟩ ∧
      ("a" ≠ "a" → wireAddr (.lockAcquired 7 "a") ≠ wireAddr (.lockReleased 7 "a")) :=
  (wire_round_trip_exact rfl rfl (by decide) (by decide)).mpr ⟨by decide, by decide, rfl⟩

/-- Two locks arrive at one address, and a reader is not sent at all. -/
theorem names_lost_on_wire :
    wireAddr (.lockAcquired 0 "a") = wireAddr (.lockAcquired 0 "b") ∧
      coded? (.rwLockReadAcquired 0 "a") = some ⟨.rwLockReadAcquire, 0, "a"⟩ ∧
      ¬ RoundTrips (.rwLockReadAcquired 0 "a") ⟨.rwLockReadAcquire, 0, "a"⟩ := by
  refine ⟨by decide, rfl, ?_⟩
  rw [roundTrips_iff rfl (by decide)]
  decide

end Laplace.Soundness.Wire
