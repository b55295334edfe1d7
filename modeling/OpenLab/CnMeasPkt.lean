import OpenLab.ByteFields
import OpenLab.CnConsumption
import OpenLab.IotlabTime

/-!
# Measure packets

`cn_meas_pkt.c` with its callers `poll_time` and `consumption_measure_handler`. Packets are always
available, with any content; the byte order is the one of the processor.
-/

namespace CnMeasPkt

open ByteFields IotlabSerial Schedules
open CnConsumption (Config measureSize packetMaxSize)
open IotlabTime (Timeval)

def second : UInt32 := 1000000

def timeOffset : Nat := 1

def iotlabPacketAppendData (pkt : Packet) (bytes : List UInt8) : Packet :=
  let start := pkt.offset + pkt.length.toNat
  { pkt with
    rawData := fun i =>
      if start ≤ i ∧ i < start + bytes.length then bytes.getD (i - start) 0 else pkt.rawData i
    length := pkt.length + UInt16.ofNat bytes.length }

/-- `iotlab_serial_packet_free_space`, as the unsigned number it is compared as. -/
def freeSpace (pkt : Packet) : UInt32 :=
  UInt32.ofNat (iotlabSerialDataMaxSize packetMaxSize) - pkt.length.toUInt32

def newPacket (memory : Packet) (timestamp : Timeval) : Packet :=
  let pkt := packetReset memory iotlabSerialHeaderSize
  iotlabPacketAppendData
    { pkt with rawData := Function.update pkt.rawData pkt.offset 0, length := 1 }
    (leBytes 4 timestamp.tvSec.toNat)

def cnMeasPktLazyAlloc (memory : Packet) (currentPacket : Option Packet) (timestamp : Timeval) :
    Packet :=
  currentPacket.getD (newPacket memory timestamp)

def tRef (pkt : Packet) : UInt32 :=
  UInt32.ofNat (leValue ((List.range 4).map fun i => pkt.rawData (pkt.offset + timeOffset + i)))

def usSincePacketRef (pkt : Packet) (timestamp : Timeval) : UInt32 :=
  timestamp.tvUsec + (timestamp.tvSec - tRef pkt) * second

def pktIncMeasureCount (pkt : Packet) : Packet :=
  { pkt with rawData := Function.update pkt.rawData pkt.offset (pkt.rawData pkt.offset + 1) }

def pktAddMeasureTime (pkt : Packet) (timestamp : Timeval) : Packet :=
  iotlabPacketAppendData pkt (leBytes 4 (usSincePacketRef pkt timestamp).toNat)

def pktShouldSend (pkt : Packet) (measureSize : Nat) (timestamp : Timeval) : Bool :=
  freeSpace pkt < UInt32.ofNat measureSize || usSincePacketRef pkt timestamp > 2 * second

def cnMeasPktAddMeasure (pkt : Packet) (timestamp : Timeval) (measureSize : Nat)
    (measures : List (List UInt8)) : Bool × Packet :=
  let pkt := pktIncMeasureCount pkt
  let pkt := pktAddMeasureTime pkt timestamp
  let pkt := measures.foldl iotlabPacketAppendData pkt
  (pktShouldSend pkt measureSize timestamp, pkt)

/-- A configuration that `parse_consumption_config` has filled. -/
structure Parsed where
  conf : Config
  sized : conf.measureSize = measureSize conf.p conf.v conf.c

inductive Caller
  | pollTime
  | consumptionMeasureHandler (config : Parsed)

def rssiMeasureSize : Nat := 1 + 4

/-- The arguments of the callers: the energy detected, or the bits of three floats. -/
inductive Reading
  | rssi (channel : UInt8) (ed : UInt32)
  | power (v c p : UInt32)
  deriving DecidableEq

def Caller.measureSize : Caller → Nat
  | .pollTime => rssiMeasureSize
  | .consumptionMeasureHandler config => config.conf.measureSize

def active (wanted : Bool) (x : UInt32) : List (List UInt8) :=
  if wanted then [leBytes 4 x.toNat] else []

def Caller.measures : Caller → Reading → Option (List (List UInt8))
  | .pollTime, .rssi channel ed => some [[channel], [ed.toUInt8]]
  | .consumptionMeasureHandler config, .power v c p =>
    some (active config.conf.p p ++ active config.conf.v v ++ active config.conf.c c)
  | _, _ => none

def Caller.frame : Caller → UInt8
  | .pollTime => 0xF1
  | .consumptionMeasureHandler _ => 0xFC

structure Measure where
  timestamp : Timeval
  data : List UInt8
  deriving DecidableEq

structure Flushed where
  caller : Caller
  payload : List UInt8
  ret : Nat

structure Recorder where
  caller : Caller
  /-- `radio.rssi.serial_pkt` or `cur_config.pkt` -/
  pkt : Option Packet := none
  flushed : List Flushed := []
  recorded : List Measure := []

def cnMeasPktFlush (s : Recorder) : Recorder :=
  match s.pkt with
  | none => s
  | some pkt =>
    { s with
      pkt := none
      flushed := s.flushed ++
        [⟨s.caller, pkt.payload, (iotlabSerialInitTxPacket packetMaxSize s.caller.frame pkt).1⟩] }

def record (s : Recorder) (memory : Packet) (timestamp : Timeval) (measures : List (List UInt8)) :
    Recorder :=
  let pkt := cnMeasPktLazyAlloc memory s.pkt timestamp
  let (send, pkt) := cnMeasPktAddMeasure pkt timestamp s.caller.measureSize measures
  let s := { s with
    pkt := some pkt
    recorded := s.recorded ++ [⟨timestamp, measures.flatten⟩] }
  if send then cnMeasPktFlush s else s

inductive Action
  | measure (memory : Packet) (timestamp : Timeval) (reading : Reading)
  | flush
  /-- `do_config_consumption_measures` -/
  | configure (config : Parsed)

def step (s : Recorder) : Action → Option Recorder
  | .measure memory timestamp reading =>
    (s.caller.measures reading).map (record s memory timestamp)
  | .flush => some (cnMeasPktFlush s)
  | .configure config =>
    match s.caller with
    | .pollTime => none
    | .consumptionMeasureHandler _ =>
      some { cnMeasPktFlush s with caller := .consumptionMeasureHandler config }

def Caller.dataSize : Caller → Nat
  | .pollTime => 2
  | .consumptionMeasureHandler config =>
    4 * (config.conf.p.toNat + config.conf.v.toNat + config.conf.c.toNat)

/-- Seconds, microseconds and data of a measure. -/
structure Decoded where
  sec : Nat
  usec : Nat
  data : List UInt8
  deriving DecidableEq

def decodeMeasure (base : Nat) (bytes : List UInt8) : Decoded :=
  let offset := leValue (bytes.take 4)
  ⟨base + offset / 1000000, offset % 1000000, bytes.drop 4⟩

def decodePacket (dataSize : Nat) (payload : List UInt8) : List Decoded :=
  records (4 + dataSize) (decodeMeasure (leValue ((payload.drop 1).take 4)))
    (payload.headD 0).toNat (payload.drop 5)

def decodeAll (flushed : List Flushed) : List Decoded :=
  flushed.flatMap fun f => decodePacket f.caller.dataSize f.payload

def Measure.plain (m : Measure) : Decoded :=
  ⟨m.timestamp.tvSec.toNat, m.timestamp.tvUsec.toNat, m.data⟩

end CnMeasPkt
