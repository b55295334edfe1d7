import OpenLab.CnMeasPkt

/-!
# Measure packets are decoded

What a packet holds after each call, that the free-space test leaves room for one more measure,
and when the offset of a measure determines its time.
-/

namespace CnMeasPkt

open ByteFields IotlabSerial Schedules List Option
open CnConsumption (Config measureSize packetMaxSize)
open IotlabTime (Timeval)

structure Holds (pkt : Packet) (l : List UInt8) : Prop where
  offset : pkt.offset = 3
  length : pkt.length.toNat = l.length
  bytes : ∀ i (h : i < l.length), pkt.rawData (3 + i) = l[i]

section Bytes

variable {pkt : Packet} {l : List UInt8}

theorem Holds.payload (h : Holds pkt l) : pkt.payload = l := by
  apply ext_getElem
  · simp [Packet.payload, h.length]
  · intro i hi hl
    simp [Packet.payload, h.offset, h.bytes i hl]

theorem Holds.append (h : Holds pkt l) (bytes : List UInt8)
    (small : l.length + bytes.length < 2 ^ 16) :
    Holds (iotlabPacketAppendData pkt bytes) (l ++ bytes) := by
  constructor
  case offset => exact h.offset
  case length =>
    have := h.length
    simp only [iotlabPacketAppendData, UInt16.toNat_add, UInt16.toNat_ofNat', length_append]
    omega
  case bytes =>
    intro i hi
    rw [length_append] at hi
    simp only [iotlabPacketAppendData, h.offset, h.length]
    by_cases old : i < l.length
    · rw [if_neg (by omega), getElem_append_left old]
      exact h.bytes i old
    · rw [if_pos (by omega), getElem_append_right (by omega), getD_eq_getElem _ _ (by omega)]
      congr 1
      omega

theorem Holds.appendAll (h : Holds pkt l) (measures : List (List UInt8))
    (small : l.length + measures.flatten.length < 2 ^ 16) :
    Holds (measures.foldl iotlabPacketAppendData pkt) (l ++ measures.flatten) := by
  induction measures generalizing pkt l with
  | nil => simpa using h
  | cons first rest ih =>
    rw [flatten_cons, length_append] at small
    have next : Holds (iotlabPacketAppendData pkt first) (l ++ first) := h.append first (by omega)
    have all := ih next (by rw [length_append]; omega)
    simpa using all

theorem Holds.increment {n} (h : Holds pkt (n :: l)) :
    Holds (pktIncMeasureCount pkt) ((n + 1) :: l) := by
  constructor
  case offset => exact h.offset
  case length => exact h.length
  case bytes =>
    intro i hi
    have first : pkt.rawData 3 = n := h.bytes 0 (by simp)
    cases i with
    | zero => simp [pktIncMeasureCount, h.offset, first]
    | succ i =>
      have other := h.bytes (i + 1) (by simpa using hi)
      simpa [pktIncMeasureCount, h.offset] using other

theorem Holds.tRef {n} {base}
    (h : Holds pkt (n :: leBytes 4 base.toNat ++ l)) : tRef pkt = base := by
  have field : (range 4).map (fun i => pkt.rawData (pkt.offset + timeOffset + i)) =
      leBytes 4 base.toNat := by
    apply ext_getElem
    · simp
    · intro i hi hl
      rw [length_leBytes] at hl
      have byte := h.bytes (1 + i) (by simp; omega)
      simp only [getElem_map, getElem_range, h.offset, timeOffset, Nat.add_assoc]
      rw [byte]
      simp [Nat.add_comm 1 i, getElem_append_left, hl]
  rw [CnMeasPkt.tRef, field, leValue_leBytes_of_lt base.toNat_lt, UInt32.ofNat_toNat]

end Bytes

def entryBytes (entry : UInt32 × List UInt8) : List UInt8 := leBytes 4 entry.1.toNat ++ entry.2

def decodedEntry (base : UInt32) (entry : UInt32 × List UInt8) : Decoded :=
  ⟨base.toNat + entry.1.toNat / 1000000, entry.1.toNat % 1000000, entry.2⟩

structure Filled (caller : Caller) (pkt : Packet) (base : UInt32)
    (entries : List (UInt32 × List UInt8)) : Prop where
  holds : Holds pkt (UInt8.ofNat entries.length :: leBytes 4 base.toNat ++
    entries.flatMap entryBytes)
  sized : ∀ entry ∈ entries, (entryBytes entry).length = 4 + caller.dataSize

def Room (caller : Caller) (n : Nat) : Prop :=
  5 + (4 + caller.dataSize) * n ≤ iotlabSerialDataMaxSize packetMaxSize

theorem dataMaxSize_eq : iotlabSerialDataMaxSize packetMaxSize = 253 := by decide

section Entries

variable {caller : Caller} {pkt memory : Packet} {base : UInt32} {timestamp : Timeval}
  {entries : List (UInt32 × List UInt8)} {reading : Reading} {measures : List (List UInt8)}

theorem active_length (wanted : Bool) (x : UInt32) :
    (active wanted x).flatten.length = 4 * wanted.toNat := by
  cases wanted <;> simp [active]

theorem measures_sized (passed : caller.measures reading = some measures) :
    measures.flatten.length = caller.dataSize := by
  cases caller with
  | pollTime =>
    cases reading with
    | rssi channel ed =>
      obtain rfl := some.inj passed
      rfl
    | power => cases passed
  | consumptionMeasureHandler config =>
    cases reading with
    | rssi => cases passed
    | power v c p =>
      obtain rfl := some.inj passed
      simp only [flatten_append, length_append, active_length, Caller.dataSize]
      omega

/-- A packet that passes the free-space test has room for one more measure, also with the
size that `poll_time` passes, which is one byte too small. -/
theorem room_of_free {n} (room : Room caller n)
    (free : caller.measureSize ≤ 253 - (5 + (4 + caller.dataSize) * n)) : Room caller (n + 1) := by
  rw [Room, dataMaxSize_eq] at room ⊢
  cases caller with
  | pollTime =>
    simp only [Caller.measureSize, rssiMeasureSize, Caller.dataSize] at free room ⊢
    omega
  | consumptionMeasureHandler config =>
    have size : Caller.measureSize (.consumptionMeasureHandler config) =
      4 + Caller.dataSize (.consumptionMeasureHandler config) := config.sized
    rw [Nat.mul_add, Nat.mul_one]
    generalize (4 + Caller.dataSize (.consumptionMeasureHandler config)) * n = used at free room ⊢
    omega

theorem Room.count {n} (room : Room caller n) : n ≤ 62 := by
  rw [Room, dataMaxSize_eq] at room
  have each : 4 * n ≤ (4 + caller.dataSize) * n := Nat.mul_le_mul_right n (Nat.le_add_right 4 _)
  omega

theorem measureSize_small (caller : Caller) : caller.measureSize ≤ 16 := by
  cases caller with
  | pollTime => decide
  | consumptionMeasureHandler config =>
    simp only [Caller.measureSize, config.sized, measureSize]
    cases config.conf.p <;> cases config.conf.v <;> cases config.conf.c <;> decide

theorem Filled.length (h : Filled caller pkt base entries) :
    pkt.payload.length = 5 + (4 + caller.dataSize) * entries.length := by
  rw [h.holds.payload, length_append, length_flatMap_of_sized h.sized]
  simp

theorem newPacket_filled : Filled caller (newPacket memory timestamp) timestamp.tvSec [] where
  holds := by
    have start : Holds { packetReset memory 3 with
        rawData := Function.update memory.rawData 3 0, length := 1 } [0] := by
      refine ⟨rfl, rfl, fun i hi => ?_⟩
      obtain rfl : i = 0 := by simpa using hi
      simp
    have time := start.append (leBytes 4 timestamp.tvSec.toNat) (by simp)
    simpa [newPacket, packetReset, iotlabSerialHeaderSize] using time
  sized := by simp

theorem Filled.tRef (h : Filled caller pkt base entries) : tRef pkt = base := h.holds.tRef

def offsetOf (base : UInt32) (timestamp : Timeval) : UInt32 :=
  timestamp.tvUsec + (timestamp.tvSec - base) * second

section

variable (h : Filled caller pkt base entries)

include h

theorem Filled.add (timestamp : Timeval) (room : Room caller (entries.length + 1))
    (passed : measures.flatten.length = caller.dataSize) :
    Filled caller (cnMeasPktAddMeasure pkt timestamp caller.measureSize measures).2 base
      (entries ++ [(offsetOf base timestamp, measures.flatten)]) := by
  have length := h.length
  rw [h.holds.payload] at length
  rw [Room, dataMaxSize_eq, Nat.mul_add] at room
  have counted : Holds (pktIncMeasureCount pkt)
      (UInt8.ofNat (entries.length + 1) :: leBytes 4 base.toNat ++ entries.flatMap entryBytes) := by
    rw [UInt8.ofNat_add]
    exact h.holds.increment
  have usecs : usSincePacketRef (pktIncMeasureCount pkt) timestamp = offsetOf base timestamp := by
    rw [usSincePacketRef, counted.tRef, offsetOf]
  have timed := counted.append (leBytes 4 (offsetOf base timestamp).toNat) (by
    simp only [length_append, length_cons, length_leBytes] at length ⊢
    omega)
  have all := timed.appendAll measures (by
    simp only [length_append, length_cons, length_leBytes, passed] at length ⊢
    omega)
  constructor
  case holds =>
    simpa [cnMeasPktAddMeasure, pktAddMeasureTime, usecs, entryBytes] using all
  case sized =>
    intro entry mem
    rcases mem_append.mp mem with old | new
    · exact h.sized entry old
    · rw [mem_singleton.mp new]
      simp [entryBytes, passed]

theorem Filled.room_next (room : Room caller entries.length)
    (stays : pktShouldSend pkt caller.measureSize timestamp = false) :
    Room caller (entries.length + 1) := by
  refine room_of_free room ?_
  have length := h.length
  have small := measureSize_small caller
  have bound := room
  rw [h.holds.payload, ← h.holds.length] at length
  rw [Room, dataMaxSize_eq] at bound
  simp only [pktShouldSend, Bool.or_eq_false_iff, decide_eq_false_iff_not, UInt32.not_lt] at stays
  have free := UInt32.le_iff_toNat_le.mp stays.1
  have space : (freeSpace pkt).toNat = 253 - pkt.length.toNat := by
    rw [freeSpace, dataMaxSize_eq, UInt32.toNat_sub]
    simp
    omega
  rw [space, UInt32.toNat_ofNat', Nat.mod_eq_of_lt (by omega)] at free
  omega

theorem Filled.decode (room : Room caller entries.length) :
    decodePacket caller.dataSize pkt.payload = entries.map (decodedEntry base) := by
  have count : (UInt8.ofNat entries.length).toNat = entries.length := by
    have := room.count
    rw [UInt8.toNat_ofNat', Nat.mod_eq_of_lt (by omega)]
  have base_eq : leValue (leBytes 4 base.toNat) = base.toNat := leValue_leBytes_of_lt base.toNat_lt
  have time : (leBytes 4 base.toNat ++ entries.flatMap entryBytes).take 4 = leBytes 4 base.toNat :=
    take_left' (length_leBytes 4 _)
  have data : (leBytes 4 base.toNat ++ entries.flatMap entryBytes).drop 4 =
      entries.flatMap entryBytes := drop_left' (length_leBytes 4 _)
  have all := records_flatMap (decodeMeasure base.toNat) entryBytes h.sized []
  rw [append_nil] at all
  have each : decodeMeasure base.toNat ∘ entryBytes = decodedEntry base := by
    funext entry
    have offset : (entryBytes entry).take 4 = leBytes 4 entry.1.toNat :=
      take_left' (length_leBytes 4 _)
    have rest : (entryBytes entry).drop 4 = entry.2 := drop_left' (length_leBytes 4 _)
    have value : leValue (leBytes 4 entry.1.toNat) = entry.1.toNat :=
      leValue_leBytes_of_lt entry.1.toNat_lt
    simp [decodeMeasure, decodedEntry, offset, rest, value]
  rw [h.holds.payload, decodePacket, cons_append, headD_cons, count, drop_one,
    tail_cons, time, base_eq, drop_succ_cons, data, all, each]

theorem Filled.accepted (room : Room caller entries.length) (type : UInt8) :
    (iotlabSerialInitTxPacket packetMaxSize type pkt).1 = 0 := by
  have length := h.length
  rw [h.holds.payload, ← h.holds.length] at length
  rw [Room, dataMaxSize_eq] at room
  have max : payloadMax packetMaxSize = 253 := rfl
  have header : iotlabSerialHeaderSize = 3 := rfl
  have offset := h.holds.offset
  rw [iotlabSerialInitTxPacket, if_neg (by omega), if_neg (by omega)]

end

end Entries

def Good (s : Recorder) : Prop :=
  (∀ f ∈ (cnMeasPktFlush s).flushed,
    f.payload.length ≤ iotlabSerialDataMaxSize packetMaxSize ∧ f.ret = 0) ∧
  decodeAll (cnMeasPktFlush s).flushed = s.recorded.map Measure.plain

/-- Normalised timestamps that do not decrease. -/
def Valid (s : Recorder) : Action → Prop
  | .measure _ timestamp _ => timestamp.tvUsec < second ∧ ∀ m ∈ s.recorded,
      m.timestamp.tvSec < timestamp.tvSec ∨
        m.timestamp.tvSec = timestamp.tvSec ∧ m.timestamp.tvUsec ≤ timestamp.tvUsec
  | _ => True

def baseOf (s : Recorder) (timestamp : Timeval) : UInt32 := (s.pkt.map tRef).getD timestamp.tvSec

/-- The measure is less than 2³² microseconds later than the base of the packet it goes to. -/
def Near (s : Recorder) : Action → Prop
  | .measure _ timestamp _ =>
    (timestamp.tvSec.toNat - (baseOf s timestamp).toNat) * 1000000 + timestamp.tvUsec.toNat < 2 ^ 32
  | _ => True

structure Sound (s : Recorder) : Prop where
  fits : ∀ f ∈ s.flushed, f.payload.length ≤ iotlabSerialDataMaxSize packetMaxSize ∧ f.ret = 0
  empty : s.pkt = none → decodeAll s.flushed = s.recorded.map Measure.plain
  filled : ∀ pkt, s.pkt = some pkt → ∃ base entries, Filled s.caller pkt base entries ∧
    Room s.caller (entries.length + 1) ∧
    decodeAll s.flushed ++ entries.map (decodedEntry base) = s.recorded.map Measure.plain ∧
    ∃ m ∈ s.recorded, base ≤ m.timestamp.tvSec

section Steps

variable {s : Recorder} {pkt memory : Packet} {base : UInt32} {timestamp : Timeval}
  {entries : List (UInt32 × List UInt8)} {measures : List (List UInt8)}

theorem Room.less {caller} {n} (room : Room caller (n + 1)) : Room caller n := by
  rw [Room, Nat.mul_add] at room
  rw [Room]
  omega

theorem flush_filled (current : s.pkt = some pkt) (h : Filled s.caller pkt base entries)
    (room : Room s.caller entries.length)
    (fits : ∀ f ∈ s.flushed, f.payload.length ≤ iotlabSerialDataMaxSize packetMaxSize ∧ f.ret = 0) :
    (∀ f ∈ (cnMeasPktFlush s).flushed,
      f.payload.length ≤ iotlabSerialDataMaxSize packetMaxSize ∧ f.ret = 0) ∧
    decodeAll (cnMeasPktFlush s).flushed =
      decodeAll s.flushed ++ entries.map (decodedEntry base) := by
  have flushed : (cnMeasPktFlush s).flushed = s.flushed ++ [⟨s.caller, pkt.payload,
      (iotlabSerialInitTxPacket packetMaxSize s.caller.frame pkt).1⟩] := by
    simp [cnMeasPktFlush, current]
  rw [flushed]
  constructor
  · intro f mem
    rcases mem_append.mp mem with old | new
    · exact fits f old
    · rw [mem_singleton.mp new]
      exact ⟨h.length.trans_le room, h.accepted room _⟩
  · simp [decodeAll, h.decode room]

theorem Sound.good (h : Sound s) : Good s := by
  cases current : s.pkt with
  | none =>
    have same : cnMeasPktFlush s = s := by simp [cnMeasPktFlush, current]
    rw [Good, same]
    exact ⟨h.fits, h.empty current⟩
  | some pkt =>
    obtain ⟨base, entries, filled, room, decoded, -⟩ := h.filled pkt current
    have flushed := flush_filled current filled room.less h.fits
    exact ⟨flushed.1, flushed.2.trans decoded⟩

theorem flush_pkt : (cnMeasPktFlush s).pkt = none := by
  cases current : s.pkt <;> simp [cnMeasPktFlush, current]

theorem flush_recorded : (cnMeasPktFlush s).recorded = s.recorded := by
  cases current : s.pkt <;> simp [cnMeasPktFlush, current]

theorem flush_flush : cnMeasPktFlush (cnMeasPktFlush s) = cnMeasPktFlush s := by
  cases current : s.pkt <;> simp [cnMeasPktFlush, current]

theorem Good.flushed (h : Good s) (caller : Caller) :
    Sound { cnMeasPktFlush s with caller := caller } where
  fits := h.1
  empty _ := h.2.trans (congrArg _ flush_recorded.symm)
  filled pkt current := by
    rw [show ({ cnMeasPktFlush s with caller := caller } : Recorder).pkt = none from flush_pkt]
      at current
    cases current

def added (s : Recorder) (memory : Packet) (timestamp : Timeval) (measures : List (List UInt8)) :
    Recorder :=
  { s with
    pkt := some (cnMeasPktAddMeasure (cnMeasPktLazyAlloc memory s.pkt timestamp) timestamp
      s.caller.measureSize measures).2
    recorded := s.recorded ++ [⟨timestamp, measures.flatten⟩] }

theorem record_eq : record s memory timestamp measures =
    if (cnMeasPktAddMeasure (cnMeasPktLazyAlloc memory s.pkt timestamp) timestamp
      s.caller.measureSize measures).1
    then cnMeasPktFlush (added s memory timestamp measures)
    else added s memory timestamp measures := rfl

theorem Sound.current (h : Sound s) (memory : Packet) (timestamp : Timeval) : ∃ entries,
    Filled s.caller (cnMeasPktLazyAlloc memory s.pkt timestamp) (baseOf s timestamp) entries ∧
    Room s.caller (entries.length + 1) ∧
    decodeAll s.flushed ++ entries.map (decodedEntry (baseOf s timestamp)) =
      s.recorded.map Measure.plain := by
  cases current : s.pkt with
  | none =>
    have base : baseOf s timestamp = timestamp.tvSec := by simp [baseOf, current]
    rw [base]
    refine ⟨[], newPacket_filled, ?_, ?_⟩
    · refine room_of_free (n := 0) ?_ ?_
      · rw [Room, dataMaxSize_eq]
        omega
      · have := measureSize_small s.caller
        omega
    · simpa using h.empty current
  | some pkt =>
    obtain ⟨base, entries, filled, room, decoded, -⟩ := h.filled pkt current
    have same : baseOf s timestamp = base := by simp [baseOf, current, filled.tRef]
    rw [same]
    exact ⟨entries, filled, room, decoded⟩

variable {reading : Reading}

theorem Sound.base_le (h : Sound s) (valid : Valid s (.measure memory timestamp reading)) :
    baseOf s timestamp ≤ timestamp.tvSec := by
  cases current : s.pkt with
  | none => simp [baseOf, current]
  | some pkt =>
    obtain ⟨base, entries, filled, -, -, m, mem, earlier⟩ := h.filled pkt current
    have same : baseOf s timestamp = base := by simp [baseOf, current, filled.tRef]
    rw [same]
    rcases valid.2 m mem with before | ⟨equal, -⟩
    · exact UInt32.le_trans earlier (UInt32.le_of_lt before)
    · exact equal ▸ earlier

theorem decodedEntry_eq_iff (data : List UInt8) (normalised : timestamp.tvUsec < second)
    (later : base ≤ timestamp.tvSec) :
    decodedEntry base (offsetOf base timestamp, data) = Measure.plain ⟨timestamp, data⟩ ↔
      (timestamp.tvSec.toNat - base.toNat) * 1000000 + timestamp.tvUsec.toNat < 2 ^ 32 := by
  have small : timestamp.tvUsec.toNat < 1000000 := UInt32.lt_iff_toNat_lt.mp normalised
  have order : base.toNat ≤ timestamp.tvSec.toNat := UInt32.le_iff_toNat_le.mp later
  have offset : (offsetOf base timestamp).toNat =
      ((timestamp.tvSec.toNat - base.toNat) * 1000000 + timestamp.tvUsec.toNat) % 2 ^ 32 := by
    have million : second.toNat = 1000000 := rfl
    rw [offsetOf, UInt32.toNat_add, UInt32.toNat_mul, UInt32.toNat_sub_of_le _ _ later, million]
    omega
  obtain ⟨d, sec⟩ := Nat.exists_eq_add_of_le order
  simp only [decodedEntry, Measure.plain, offset, Decoded.mk.injEq, and_true, sec,
    Nat.add_sub_cancel_left]
  generalize timestamp.tvUsec.toNat = usec at small ⊢
  constructor
  · rintro ⟨seconds, rest⟩
    omega
  · intro less
    rw [Nat.mod_eq_of_lt less]
    omega

theorem Sound.record_decodes (h : Sound s) (memory : Packet) (timestamp : Timeval)
    (passed : measures.flatten.length = s.caller.dataSize) :
    (∀ f ∈ (cnMeasPktFlush (record s memory timestamp measures)).flushed,
      f.payload.length ≤ iotlabSerialDataMaxSize packetMaxSize ∧ f.ret = 0) ∧
    decodeAll (cnMeasPktFlush (record s memory timestamp measures)).flushed =
      s.recorded.map Measure.plain ++ [decodedEntry (baseOf s timestamp)
        (offsetOf (baseOf s timestamp) timestamp, measures.flatten)] := by
  obtain ⟨entries, filled, room, decoded⟩ := h.current memory timestamp
  have next := filled.add timestamp room passed
  have both : cnMeasPktFlush (record s memory timestamp measures) =
      cnMeasPktFlush (added s memory timestamp measures) := by
    rw [record_eq]
    split
    · exact flush_flush
    · rfl
  have flushed := flush_filled (s := added s memory timestamp measures) rfl next
    (by simpa [added] using room) h.fits
  rw [both]
  refine ⟨flushed.1, ?_⟩
  rw [flushed.2, map_append, ← append_assoc]
  exact congrArg (· ++ _) decoded

theorem record_recorded : (record s memory timestamp measures).recorded =
    s.recorded ++ [⟨timestamp, measures.flatten⟩] := by
  rw [record_eq]
  split
  · exact flush_recorded
  · rfl

section

variable (h : Sound s) (passed : s.caller.measures reading = some measures)
  (valid : Valid s (.measure memory timestamp reading))

include h passed valid

theorem Sound.good_record_iff :
    Good (record s memory timestamp measures) ↔ Near s (.measure memory timestamp reading) := by
  have decodes := h.record_decodes memory timestamp (measures_sized passed)
  have same := decodedEntry_eq_iff measures.flatten valid.1 (h.base_le valid)
  rw [Near, ← same, Good, decodes.2, record_recorded, map_append]
  constructor
  · intro good
    exact singleton_inj.mp (append_cancel_left good.2)
  · intro equal
    exact ⟨decodes.1, by rw [equal]; rfl⟩

theorem Sound.record (near : Near s (.measure memory timestamp reading)) :
    Sound (CnMeasPkt.record s memory timestamp measures) := by
  have good := (h.good_record_iff passed valid).mpr near
  obtain ⟨entries, filled, room, decoded⟩ := h.current memory timestamp
  have next := filled.add timestamp room (measures_sized passed)
  rw [record_eq] at good ⊢
  split
  · -- The packet is flushed at once.
    rename_i send
    rw [if_pos send, Good, flush_flush, flush_recorded] at good
    exact Good.flushed (s := added s memory timestamp measures) good _
  · rename_i stays
    rw [if_neg stays] at good
    refine ⟨h.fits, (fun none => by cases none), fun pkt current => ?_⟩
    obtain rfl := some.inj current
    refine ⟨_, _, next, ?_, ?_, ⟨timestamp, measures.flatten⟩, by simp [added], h.base_le valid⟩
    · exact next.room_next (by simpa using room) (by simpa [cnMeasPktAddMeasure] using stays)
    · have flushed := flush_filled (s := added s memory timestamp measures) rfl next
        (by simpa [added] using room) h.fits
      exact flushed.2.symm.trans good.2

end

end Steps

theorem Sound.step {s u} {a} (h : Sound s) (valid : Valid s a) (near : Near s a)
    (hstep : step s a = some u) : Sound u := by
  cases a with
  | measure memory timestamp reading =>
    obtain ⟨measures, passed, rfl⟩ := map_eq_some_iff.mp hstep
    exact h.record passed valid near
  | flush =>
    cases hstep
    exact h.good.flushed (cnMeasPktFlush s).caller
  | configure config =>
    cases caller : s.caller with
    | pollTime => simp [CnMeasPkt.step, caller] at hstep
    | consumptionMeasureHandler old =>
      simp only [CnMeasPkt.step, caller, some.injEq] at hstep
      subst hstep
      exact h.good.flushed _

theorem sound_start (caller : Caller) : Sound { caller } where
  fits := by simp
  empty _ := rfl
  filled := by simp

/-- The packets fit, are accepted and decode to the recorded measures, at every moment of
every run in which no measure is 2³² microseconds or more after the base of its packet;
the first measure that is so late is decoded as an earlier one. -/
theorem measures_decode (caller : Caller) {s : Recorder}
    (run : Run step (fun s a => Valid s a ∧ Near s a) { caller } s) :
    Good s ∧ ∀ a u, Valid s a → step s a = some u → (Good u ↔ Near s a) := by
  have sound : Sound s := run.invariant Sound
    (fun _ _ _ h ok hstep => h.step ok.1 ok.2 hstep) (sound_start caller)
  refine ⟨sound.good, ?_⟩
  intro a u valid hstep
  cases a with
  | measure memory timestamp reading =>
    obtain ⟨measures, passed, rfl⟩ := map_eq_some_iff.mp hstep
    exact sound.good_record_iff passed valid
  | flush | configure =>
    have next : Sound u := sound.step valid trivial hstep
    exact iff_of_true next.good trivial

instance (s : Recorder) (a : Action) : Decidable (Valid s a) := by
  cases a <;> unfold Valid <;> infer_instance

instance (s : Recorder) (a : Action) : Decidable (Near s a) := by
  cases a <;> unfold Near <;> infer_instance

def blank : Packet := ⟨fun _ => 0, 0, 0, 0, 0⟩

theorem measures_decode_radio : ∃ s, Run step (fun s a => Valid s a ∧ Near s a)
    { caller := .pollTime } s ∧
    (Good s ∧ ∀ a u, Valid s a → step s a = some u → (Good u ↔ Near s a)) ∧
    s.pkt.isNone ∧ decodeAll s.flushed = [⟨1, 600000, [11, 0xD0]⟩, ⟨4, 5, [12, 0xD1]⟩] := by
  obtain ⟨s, run, seen⟩ : ∃ s,
    Run step (fun s a => Valid s a ∧ Near s a) { caller := .pollTime } s ∧
      (s.pkt.isNone, decodeAll s.flushed) =
        (true, [⟨1, 600000, [11, 0xD0]⟩, ⟨4, 5, [12, 0xD1]⟩]) :=
    execIf_observe [.measure blank ⟨1, 600000⟩ (.rssi 11 0xFFFFFFD0),
      .measure blank ⟨4, 5⟩ (.rssi 12 0xFFFFFFD1)] _ _ (by decide +kernel)
  obtain ⟨none, decoded⟩ := Prod.mk.inj seen
  exact ⟨s, run, measures_decode .pollTime run, none, decoded⟩

/-- A measure 4295 seconds after the first one of its packet is decoded as one of the same
second, and the packet is not even flushed for its age. -/
theorem late_measure_decoded_early : ∃ s, Run step Valid { caller := .pollTime } s ∧
    s.recorded.map Measure.plain = [⟨0, 0, [11, 0xD0]⟩, ⟨4295, 0, [12, 0xD1]⟩] ∧
      s.flushed.length = 0 ∧
    decodeAll (cnMeasPktFlush s).flushed = [⟨0, 0, [11, 0xD0]⟩, ⟨0, 32704, [12, 0xD1]⟩] := by
  obtain ⟨s, run, seen⟩ : ∃ s, Run step Valid { caller := .pollTime } s ∧
      decide (s.recorded.map Measure.plain = [⟨0, 0, [11, 0xD0]⟩, ⟨4295, 0, [12, 0xD1]⟩] ∧
        s.flushed.length = 0 ∧ decodeAll (cnMeasPktFlush s).flushed =
          [⟨0, 0, [11, 0xD0]⟩, ⟨0, 32704, [12, 0xD1]⟩]) = true :=
    execIf_observe [.measure blank ⟨0, 0⟩ (.rssi 11 0xFFFFFFD0),
      .measure blank ⟨4295, 0⟩ (.rssi 12 0xFFFFFFD1)] _ _ (by decide +kernel)
  exact ⟨s, run, of_decide_eq_true seen⟩

end CnMeasPkt
