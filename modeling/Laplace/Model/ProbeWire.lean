import Laplace.Model.ProbeEvent

/-! # The cloud wire ABI

The encoder of the SDK and the decoder of the probe tools, each with its own table of event codes. A raw event
keeps the fields that the decoder reads; the encoder zeroes the whole record before it sets any of them.
-/

namespace Laplace.Model.Wire

/-- Probe event type discriminant. -/
inductive ProbeEventType where
  | netRequest
  | netResponse
  | lockAcquire
  | lockAcquired
  | lockRelease
  | lockContention
  | schedSwitch
  | threadSpawn
  | threadExit
  | connOpen
  | connClose
  | rwLockReadAcquire
  | rwLockReadRelease
  | rwLockWriteAcquire
  | rwLockWriteRelease
  | atomicLoad
  | atomicStore
  | atomicRmw
  | semaphoreAcquire
  | semaphoreRelease
  | channelSend
  | channelRecv
deriving DecidableEq, Repr

def ProbeEventType.discriminant : ProbeEventType → UInt8
  | netRequest => 1
  | netResponse => 2
  | lockAcquire => 3
  | lockAcquired => 4
  | lockRelease => 5
  | lockContention => 6
  | schedSwitch => 7
  | threadSpawn => 8
  | threadExit => 9
  | connOpen => 10
  | connClose => 11
  | rwLockReadAcquire => 12
  | rwLockReadRelease => 13
  | rwLockWriteAcquire => 14
  | rwLockWriteRelease => 15
  | atomicLoad => 16
  | atomicStore => 17
  | atomicRmw => 18
  | semaphoreAcquire => 19
  | semaphoreRelease => 20
  | channelSend => 21
  | channelRecv => 22

structure RawProbeEvent where
  timestampNs : UInt64 := 0
  tid : UInt32 := 0
  eventType : UInt8 := 0
  statusCode : UInt16 := 0
  resourceId : UInt64 := 0
  peerAddr : UInt64 := 0
  peerPort : UInt32 := 0
  payloadHash : UInt64 := 0
  payloadLen : UInt32 := 0
  operationHash : UInt32 := 0
  latencyNs : UInt64 := 0
  cpuId : UInt32 := 0
  parentTid : UInt64 := 0
deriving DecidableEq, Repr

/-- `bytemuck::Zeroable::zeroed`. -/
def RawProbeEvent.zeroed : RawProbeEvent := {}

inductive DecodedProbeEvent where
  | networkRequest (tid : UInt32) (timestampNs resourceId : UInt64) (operationHash : UInt32) (payloadHash : UInt64)
      (payloadLen : UInt32) (statusCode : UInt16) (latencyNs peerAddr : UInt64) (peerPort : UInt32)
  | networkResponse (tid : UInt32) (timestampNs resourceId : UInt64) (operationHash : UInt32) (payloadHash : UInt64)
      (payloadLen : UInt32) (statusCode : UInt16) (latencyNs : UInt64)
  | lockAcquire (tid : UInt32) (timestampNs mutexAddr contentionNs : UInt64)
  | lockAcquired (tid : UInt32) (timestampNs mutexAddr contentionNs : UInt64)
  | lockRelease (tid : UInt32) (timestampNs mutexAddr : UInt64)
  | lockContention (tid : UInt32) (timestampNs mutexAddr : UInt64)
  | schedSwitch (prevTid nextTid : UInt32) (timestampNs : UInt64) (cpuId : UInt32)
  | threadSpawn (parentTid childTid : UInt32) (timestampNs : UInt64)
  | threadExit (tid : UInt32) (timestampNs : UInt64)
  | connOpen (tid : UInt32) (timestampNs resourceId peerAddr : UInt64) (peerPort : UInt32)
  | connClose (tid : UInt32) (timestampNs resourceId : UInt64)
  | rwLockReadAcquire (tid : UInt32) (timestampNs rwlockAddr : UInt64)
  | rwLockReadRelease (tid : UInt32) (timestampNs rwlockAddr : UInt64)
  | rwLockWriteAcquire (tid : UInt32) (timestampNs rwlockAddr : UInt64)
  | rwLockWriteRelease (tid : UInt32) (timestampNs rwlockAddr : UInt64)
  | atomicLoad (tid : UInt32) (timestampNs addr : UInt64)
  | atomicStore (tid : UInt32) (timestampNs addr : UInt64)
  | atomicRmw (tid : UInt32) (timestampNs addr : UInt64)
  | semaphoreAcquire (tid : UInt32) (timestampNs semAddr : UInt64)
  | semaphoreRelease (tid : UInt32) (timestampNs semAddr : UInt64)
  | channelSend (tid : UInt32) (timestampNs channelAddr : UInt64)
  | channelRecv (tid : UInt32) (timestampNs channelAddr : UInt64)
deriving DecidableEq, Repr

/-- Converts a raw `u8` discriminant. -/
def parseEventType (raw : UInt8) : Option ProbeEventType :=
  match raw.toNat with
  | 1 => some .netRequest
  | 2 => some .netResponse
  | 3 => some .lockAcquire
  | 4 => some .lockAcquired
  | 5 => some .lockRelease
  | 6 => some .lockContention
  | 7 => some .schedSwitch
  | 8 => some .threadSpawn
  | 9 => some .threadExit
  | 10 => some .connOpen
  | 11 => some .connClose
  | 12 => some .rwLockReadAcquire
  | 13 => some .rwLockReadRelease
  | 14 => some .rwLockWriteAcquire
  | 15 => some .rwLockWriteRelease
  | 16 => some .atomicLoad
  | 17 => some .atomicStore
  | 18 => some .atomicRmw
  | 19 => some .semaphoreAcquire
  | 20 => some .semaphoreRelease
  | 21 => some .channelSend
  | 22 => some .channelRecv
  | _ => none

/-- The `match` of `decode` over the parsed type. -/
def decodeAs (raw : RawProbeEvent) : ProbeEventType → DecodedProbeEvent
  | .netRequest => .networkRequest raw.tid raw.timestampNs raw.resourceId raw.operationHash raw.payloadHash
      raw.payloadLen raw.statusCode raw.latencyNs raw.peerAddr raw.peerPort
  | .netResponse => .networkResponse raw.tid raw.timestampNs raw.resourceId raw.operationHash raw.payloadHash
      raw.payloadLen raw.statusCode raw.latencyNs
  | .lockAcquire => .lockAcquire raw.tid raw.timestampNs raw.resourceId raw.latencyNs
  | .lockAcquired => .lockAcquired raw.tid raw.timestampNs raw.resourceId raw.latencyNs
  | .lockRelease => .lockRelease raw.tid raw.timestampNs raw.resourceId
  | .lockContention => .lockContention raw.tid raw.timestampNs raw.resourceId
  -- `sched_switch` carries the incoming thread in `parent_tid`
  | .schedSwitch => .schedSwitch raw.tid raw.parentTid.toUInt32 raw.timestampNs raw.cpuId
  | .threadSpawn => .threadSpawn raw.parentTid.toUInt32 raw.tid raw.timestampNs
  | .threadExit => .threadExit raw.tid raw.timestampNs
  | .connOpen => .connOpen raw.tid raw.timestampNs raw.resourceId raw.peerAddr raw.peerPort
  | .connClose => .connClose raw.tid raw.timestampNs raw.resourceId
  | .rwLockReadAcquire => .rwLockReadAcquire raw.tid raw.timestampNs raw.resourceId
  | .rwLockReadRelease => .rwLockReadRelease raw.tid raw.timestampNs raw.resourceId
  | .rwLockWriteAcquire => .rwLockWriteAcquire raw.tid raw.timestampNs raw.resourceId
  | .rwLockWriteRelease => .rwLockWriteRelease raw.tid raw.timestampNs raw.resourceId
  | .atomicLoad => .atomicLoad raw.tid raw.timestampNs raw.resourceId
  | .atomicStore => .atomicStore raw.tid raw.timestampNs raw.resourceId
  | .atomicRmw => .atomicRmw raw.tid raw.timestampNs raw.resourceId
  | .semaphoreAcquire => .semaphoreAcquire raw.tid raw.timestampNs raw.resourceId
  | .semaphoreRelease => .semaphoreRelease raw.tid raw.timestampNs raw.resourceId
  | .channelSend => .channelSend raw.tid raw.timestampNs raw.resourceId
  | .channelRecv => .channelRecv raw.tid raw.timestampNs raw.resourceId

/-- `ProbeEventDecoder::decode`: nothing for an unknown event type. -/
def decode (raw : RawProbeEvent) : Option DecodedProbeEvent :=
  (parseEventType raw.eventType).map (decodeAs raw)

/-- `u32::try_from` of a `u64`. -/
def tryFrom (n : UInt64) : Option UInt32 := if n.toNat < UInt32.size then some n.toUInt32 else none

/-- Converts a public probe event into the wire ABI. -/
def probeEventToRaw : ProbeEvent → Option RawProbeEvent
  | .lockAcquired threadId _ => (tryFrom threadId).map fun tid => { RawProbeEvent.zeroed with eventType := 4, tid }
  | .lockReleased threadId _ => (tryFrom threadId).map fun tid => { RawProbeEvent.zeroed with eventType := 5, tid }
  | .threadBlocked threadId _ => (tryFrom threadId).map fun tid => { RawProbeEvent.zeroed with eventType := 6, tid }
  | _ => none

end Laplace.Model.Wire
