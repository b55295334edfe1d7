import Mathlib

/-!
# Data model of the TDMA MAC

The types of `tdma_types.h`, `tdma_packet.h` and `tdma_config.h`. A frame is addressed by its
identity. The header of a packet is kept as the values loaded from memory (little-endian), the
payload union as its bytes.
-/

namespace TdmaTypes

open Function

def tdmaMaxSlots : Nat := 50
def macTdmaMaxFrames : Nat := 10
def tdmaBeaconBackoffCount : UInt8 := 1
def tdmaSlotDurationFactorUs : Nat := 100
def tdmaStartupDelayMs : Nat := 100
def softTimerFrequency : Nat := 32768

/-- `soft_timer_us_to_ticks`, on the non-negative durations the MAC passes to it. -/
def softTimerUsToTicks (us : Nat) : Nat := us * softTimerFrequency / 1000000

/-- `soft_timer_ms_to_ticks`, on the non-negative durations the MAC passes to it. -/
def softTimerMsToTicks (ms : Nat) : Nat := ms * softTimerFrequency / 1000

def packerUint16Hton (v : UInt16) : UInt16 :=
  (v >>> 8 &&& (0x00ff : UInt16)) ||| (v <<< 8 &&& (0xff00 : UInt16))

def packerUint32Hton (v : UInt32) : UInt32 :=
  (v >>> 24 &&& (0x000000ff : UInt32)) ||| (v >>> 8 &&& (0x0000ff00 : UInt32)) |||
    (v <<< 8 &&& (0x00ff0000 : UInt32)) ||| (v <<< 24 &&& (0xff000000 : UInt32))

def tdmaPktMagic : UInt32 := 0x54444D41
def tdmaVersion : UInt8 := 1
def tdmaPktSizePayload : Nat := 100
def tdmaPktSizeHeader : Nat := 11
def tdmaPktSizeBeacon : Nat := 4
def tdmaPktSizeAssoc : Nat := 1
def packetMaxSize : Nat := 128

/-- `enum tdma_type`; `reserved` stands for the values the switches send to `default`. -/
inductive TdmaType
  | data
  | beacon
  | assoc
  | reserved
  deriving DecidableEq

def TdmaType.code : TdmaType → UInt8
  | .data => 0
  | .beacon => 1
  | .assoc => 2
  | .reserved => 7

/-- The part of a `phy_packet_t` the MAC uses, its data seen as a `tdma_packet`. -/
structure Packet where
  length : UInt8
  timestamp : UInt32
  magic : UInt32
  panid : UInt16
  src : UInt16
  dst : UInt16
  vt : UInt8
  payload : Nat → UInt8

namespace Packet

def empty : Packet := ⟨0, 0, 0, 0, 0, 0, 0, fun _ => 0⟩

def headerType (p : Packet) : TdmaType :=
  match (p.vt &&& 0x7).toNat with
  | 0 => .data
  | 1 => .beacon
  | 2 => .assoc
  | _ => .reserved

def headerVersion (p : Packet) : UInt8 := p.vt >>> 3

def headerPrepare (p : Packet) (type : TdmaType) (panid src dst : UInt16) : Packet :=
  { p with
    magic := packerUint32Hton tdmaPktMagic
    panid := packerUint16Hton panid
    src := packerUint16Hton src
    dst := packerUint16Hton dst
    vt := (tdmaVersion <<< 3) ||| type.code }

theorem headerType_of_vt {p : Packet} {type : TdmaType}
    (h : p.vt = (tdmaVersion <<< 3) ||| type.code) (hr : type ≠ .reserved) :
    p.headerType = type := by
  rw [headerType, h]
  cases type with
  | reserved => exact absurd rfl hr
  | _ => simp [TdmaType.code, tdmaVersion]

def headerDecode (p : Packet) : Packet :=
  { p with
    magic := packerUint32Hton p.magic
    panid := packerUint16Hton p.panid
    src := packerUint16Hton p.src
    dst := packerUint16Hton p.dst }

def isOk (p : Packet) (panid addr : UInt16) : Bool :=
  p.magic == tdmaPktMagic && p.panid == panid && p.headerVersion == tdmaVersion &&
    (p.dst == addr || p.dst == 0xffff)

/-- The payload is a union: `assoc.slots` and `beacon.slot_count` are the same byte. -/
def assocSlots (p : Packet) : UInt8 := p.payload 0
def slotCount (p : Packet) : UInt8 := p.payload 0
def slotDuration (p : Packet) : UInt8 := p.payload 1
def slotDescCnt (p : Packet) : UInt8 := p.payload 2
def slotDescOff (p : Packet) : UInt8 := p.payload 3

def slotDescOwn (p : Packet) (i : Nat) : UInt16 :=
  (p.payload (4 + 2 * i)).toUInt16 ||| ((p.payload (5 + 2 * i)).toUInt16 <<< 8)

def setByte (p : Packet) (k : Nat) (v : UInt8) : Packet :=
  { p with payload := update p.payload k v }

def setSlotDescOwn (p : Packet) (i : Nat) (v : UInt16) : Packet :=
  (p.setByte (4 + 2 * i) v.toUInt8).setByte (5 + 2 * i) (v >>> 8).toUInt8

theorem slotDescOwn_set_self (p : Packet) (i : Nat) (v : UInt16) :
    (p.setSlotDescOwn i v).slotDescOwn i = v := by
  have ne : 4 + 2 * i ≠ 5 + 2 * i := by omega
  simp only [slotDescOwn, setSlotDescOwn, setByte, update_self, update_of_ne ne]
  apply UInt16.toNat_inj.mp
  have hv := v.toNat_lt
  have lo : v.toUInt8.toUInt16.toNat = v.toNat % 256 := by simp
  have hi : ((v >>> 8).toUInt8.toUInt16 <<< 8).toNat = (v.toNat / 256) <<< 8 := by
    simp [Nat.shiftRight_eq_div_pow, Nat.shiftLeft_eq]
    omega
  rw [UInt16.toNat_or, lo, hi, Nat.or_comm, ← Nat.shiftLeft_add_eq_or_of_lt (by omega),
    Nat.shiftLeft_eq]
  omega

theorem slotDescOwn_setByte (p : Packet) {k} (hk : k < 4) (v : UInt8) (i : Nat) :
    (p.setByte k v).slotDescOwn i = p.slotDescOwn i := by
  have low : 4 + 2 * i ≠ k := by omega
  have high : 5 + 2 * i ≠ k := by omega
  simp [slotDescOwn, setByte, update_of_ne low, update_of_ne high]

theorem slotDescOwn_set_of_ne (p : Packet) {i j} (h : j ≠ i) (v : UInt16) :
    (p.setSlotDescOwn i v).slotDescOwn j = p.slotDescOwn j := by
  have low : 4 + 2 * j ≠ 4 + 2 * i := by omega
  have low' : 4 + 2 * j ≠ 5 + 2 * i := by omega
  have high : 5 + 2 * j ≠ 4 + 2 * i := by omega
  have high' : 5 + 2 * j ≠ 5 + 2 * i := by omega
  simp [slotDescOwn, setSlotDescOwn, setByte, update_of_ne low,
    update_of_ne low', update_of_ne high, update_of_ne high']

def beaconLength (p : Packet) : Nat :=
  tdmaPktSizeHeader + tdmaPktSizeBeacon + 2 * p.slotDescCnt.toNat

end Packet

/-- What the radio delivers; the buffer of a frame holds `PHY_MAX_RX_LENGTH` bytes. -/
structure RxPacket where
  pkt : Packet
  fits : pkt.length ≤ 127

inductive TdmaStatus
  | idle
  | tx
  | rx
  | sent
  | recv
  | failed
  deriving DecidableEq

inductive FrameId
  | pool (i : Fin macTdmaMaxFrames)
  | node
  | beacon
  deriving DecidableEq

def FrameId.isPool : FrameId → Bool
  | .pool _ => true
  | _ => false

/-- `tdma_frame_t`; callbacks and their arguments are opaque numbers. -/
structure Frame where
  status : TdmaStatus
  next : Option FrameId
  cb : Option Nat
  arg : Nat
  pkt : Packet

inductive TdmaResult
  | ok
  | failed
  deriving DecidableEq

inductive TdmaState
  | idle
  | scan
  | wait
  | assoc
  | node
  | coord
  deriving DecidableEq

inductive RxHandler
  | coordRx
  | nodeRx
  | scan
  deriving DecidableEq

inductive TxHandler
  | coordTx
  | nodeTx
  deriving DecidableEq

structure Tdma where
  addr : UInt16
  panid : UInt16
  coord : UInt16
  slotDuration : UInt8
  slotCount : UInt8
  channel : UInt8
  bandwidth : UInt8
  state : TdmaState
  txFrames : Option FrameId
  beaconFrame : Option FrameId
  rxHandler : RxHandler
  txHandler : TxHandler
  txSlots : UInt8
  slots : Nat → UInt16

/-- `struct tdma_slotsframe`; the slot timer is kept with the other timers. -/
structure SlotsFrame where
  frameDuration : UInt32
  frameStart : UInt32
  slotTime : UInt32
  frame : Option FrameId
  nextIndex : UInt8
  beaconBackoff : UInt8
  deriving DecidableEq

end TdmaTypes
