import OpenLab.ByteFields

/-!
# Answers to GET_DESCRIPTOR

`drivers/stm32/usb.c`: `process_standard_device` answers a request for a descriptor, mostly put
together in `usb_local_buf` of 128 bytes; `usb_send` and its callback cut the data into packets.
What is read behind the end of an object is `beyond`, and an answer tells whether it was. Other
requests are not modelled.
-/

namespace UsbDescriptors

open List Option

open ByteFields (slice length_slice)

def usbBufSize : Nat := 128
def devDescSize : Nat := 18
def confDescSize : Nat := 9
def ifaceDescSize : Nat := 9
def endpDescSize : Nat := 7
def devQualDescSize : Nat := 10

/-- A class-specific block, whose length is an 8-bit number. -/
abbrev Block := { bytes : List UInt8 // bytes.length < 2 ^ 8 }

/-- `usb_endp_desc_t`: the bytes of the descriptor, `bLength` in number, and the block. -/
structure Endpoint where
  desc : List UInt8
  classSpecific : Block
  bLength : desc.length = endpDescSize

structure Interface where
  desc : List UInt8
  classSpecific : Block
  endpoints : List Endpoint
  bLength : desc.length = ifaceDescSize
  bNumEndpoints : endpoints.length < 2 ^ 8

structure Configuration where
  desc : List UInt8
  classSpecific : Block
  interfaces : List Interface
  bLength : desc.length = confDescSize
  bNumInterfaces : interfaces.length < 2 ^ 8

/-- `usb_string_desc_t`, with the bytes of `wData`. -/
structure StringDesc where
  bDescriptorType : UInt8
  wData : List UInt8
  short : 2 + wData.length < 2 ^ 8

def StringDesc.bLength (d : StringDesc) : Nat := 2 + d.wData.length

/-- `usb_profile_t` with its device descriptor. `afterStrings` is what is found behind the
table of strings, and `maxPacketSize` is `descriptor_max_pkt_size[0]`. -/
structure Profile where
  device : List UInt8
  classSpecific : Block
  configurations : List Configuration
  strings : List StringDesc
  qualifier : List UInt8
  afterStrings : StringDesc
  beyond : Nat → UInt8
  maxPacketSize : Nat
  bLength : device.length = devDescSize
  bNumConfigurations : configurations.length < 2 ^ 8
  numberOfStrings : strings.length < 2 ^ 8
  some_room : 0 < maxPacketSize

def memory (p : Profile) (object : List UInt8) : Nat → UInt8 := fun i =>
  if i < object.length then object.getD i 0 else p.beyond (i - object.length)

abbrev Buf := Nat → UInt8

def put (buf : Buf) (i : Nat) (b : UInt8) : Buf := fun j => if j = i then b else buf j

/-- The loop of `fill_buf`, `todo` rounds before its end; returns the buffer and `i`. -/
def fillLoop (src : Nat → UInt8) (start : Nat) : (todo i : Nat) → Buf → Buf × Nat
  | 0, i, buf => (buf, i)
  | todo + 1, i, buf =>
    let off := (start + i) % 2 ^ 16
    if usbBufSize ≤ off then (buf, i) else fillLoop src start todo (i + 1) (put buf off (src i))

def fillBuf (src : Nat → UInt8) (start len : Nat) (buf : Buf) : Buf × Nat :=
  fillLoop src start len 0 buf

def fillBufString (p : Profile) (d : StringDesc) (buf : Buf) : Buf :=
  let buf := put (put buf 0 (UInt8.ofNat d.bLength)) 1 d.bDescriptorType
  (fillBuf (memory p d.wData) 2 d.bLength buf).1

structure Walk where
  buf : Buf
  p : Nat
  wTotalLength : Nat

def Walk.append (p : Profile) (w : Walk) (bytes : List UInt8) : Walk :=
  let (buf, i) := fillBuf (memory p bytes) w.p bytes.length w.buf
  ⟨buf, (w.p + i) % 2 ^ 16, (w.wTotalLength + bytes.length) % 2 ^ 16⟩

def Walk.appendBlock (p : Profile) (w : Walk) (block : Block) : Walk :=
  if block.1.length ≠ 0 then w.append p block.1 else w

def Walk.endpoint (p : Profile) (w : Walk) (e : Endpoint) : Walk :=
  (w.append p e.desc).appendBlock p e.classSpecific

def Walk.interface (p : Profile) (w : Walk) (f : Interface) : Walk :=
  f.endpoints.foldl (Walk.endpoint p) ((w.append p f.desc).appendBlock p f.classSpecific)

def fillBufConfiguration (p : Profile) (c : Configuration) (buf : Buf) : Walk :=
  let w := Walk.append p ⟨buf, 0, 0⟩ c.desc
  let w := c.interfaces.foldl (Walk.interface p) (w.appendBlock p c.classSpecific)
  { w with
    buf := put (put w.buf 2 (UInt8.ofNat w.wTotalLength)) 3 (UInt8.ofNat (w.wTotalLength / 2 ^ 8)) }

/-- `usb_send` for the bytes from `pos` on: the packet, and what is left for the callback. -/
def usbSend (maxPacketSize : Nat) (mem : Nat → UInt8) (pos len : Nat) :
    List UInt8 × Option (Nat × Nat) :=
  if maxPacketSize < len then
    (slice mem pos maxPacketSize, some (pos + maxPacketSize, len - maxPacketSize))
  else (slice mem pos len, none)

/-- `usb_send` and the calls of `send_next_chunck` after it; `fuel` bounds their number. -/
def chunks (maxPacketSize : Nat) (mem : Nat → UInt8) : (fuel pos len : Nat) → List (List UInt8)
  | 0, _, _ => []
  | fuel + 1, pos, len =>
    match usbSend maxPacketSize mem pos len with
    | (packet, some (pos, len)) => packet :: chunks maxPacketSize mem fuel pos len
    | (packet, none) => [packet]

inductive Answer
  | data (packets : List (List UInt8)) (outside : Bool)
  | stall
  | nothing
  deriving DecidableEq

def sendFrom (p : Profile) (mem : Nat → UInt8) (size len : Nat) : Answer :=
  .data (chunks p.maxPacketSize mem (len + 1) 0 len) (size < len)

/-- `case 0x06` of `process_standard_device`, with what `usb_local_buf` held before. -/
def getDescriptor (p : Profile) (buf : Buf) (wValue wLength : Nat) : Answer :=
  let idx := wValue % 2 ^ 8
  match wValue / 2 ^ 8 with
  | 1 =>
    if p.classSpecific.1.length = 0 then
      sendFrom p (memory p p.device) p.device.length wLength
    else
      let buf := (fillBuf (memory p p.device) 0 devDescSize buf).1
      let buf := (fillBuf (memory p p.classSpecific.1) devDescSize p.classSpecific.1.length buf).1
      sendFrom p buf usbBufSize (devDescSize + p.classSpecific.1.length)
  | 2 =>
    match p.configurations[idx]? with
    | some c =>
      let w := fillBufConfiguration p c buf
      sendFrom p w.buf usbBufSize (min w.wTotalLength wLength)
    | none => .nothing
  | 3 =>
    if idx ≤ p.strings.length then
      let d := p.strings.getD idx p.afterStrings
      sendFrom p (fillBufString p d buf) usbBufSize (min d.bLength wLength)
    else .nothing
  | 6 => sendFrom p (memory p p.qualifier) p.qualifier.length devQualDescSize
  | 7 =>
    match p.configurations[idx]? with
    | some c => sendFrom p (fillBufConfiguration p c buf).buf usbBufSize (min wLength usbBufSize)
    | none => .nothing
  | _ => .stall

def Endpoint.bytes (e : Endpoint) : List UInt8 := e.desc ++ e.classSpecific.1

def Interface.bytes (f : Interface) : List UInt8 :=
  f.desc ++ f.classSpecific.1 ++ f.endpoints.flatMap Endpoint.bytes

def Configuration.raw (c : Configuration) : List UInt8 :=
  c.desc ++ c.classSpecific.1 ++ c.interfaces.flatMap Interface.bytes

def Configuration.total (c : Configuration) : Nat := c.raw.length

def Configuration.bytes (c : Configuration) : List UInt8 :=
  c.raw.take 2 ++ ByteFields.leBytes 2 c.total ++ c.raw.drop 4

def StringDesc.bytes (d : StringDesc) : List UInt8 :=
  UInt8.ofNat d.bLength :: d.bDescriptorType :: d.wData

inductive Kind
  | device | configuration | string
  deriving DecidableEq

def Kind.code : Kind → Nat
  | .device => 1
  | .configuration => 2
  | .string => 3

/-- The descriptor with this index; a device has one, with the index 0. -/
def descriptor (p : Profile) (idx : Nat) : Kind → Option (List UInt8)
  | .device => if idx = 0 then some (p.device ++ p.classSpecific.1) else none
  | .configuration => (p.configurations[idx]?).map Configuration.bytes
  | .string => (p.strings[idx]?).map StringDesc.bytes

def Answer.hasData : Answer → Bool
  | .data _ _ => true
  | _ => false

structure Answered (p : Profile) (buf : Buf) (kind : Kind) (idx wLength : Nat) : Prop where
  exact_bytes : ∀ d, descriptor p idx kind = some d → ∃ packets,
    getDescriptor p buf (kind.code * 2 ^ 8 + idx) wLength = .data packets false ∧
      packets.flatten = d.take wLength
  total_correct : kind = .configuration → ∀ c, p.configurations[idx]? = some c →
    (fillBufConfiguration p c buf).wTotalLength = c.total
  refused : descriptor p idx kind = none →
    (getDescriptor p buf (kind.code * 2 ^ 8 + idx) wLength).hasData = false

/-- The requests that are answered as they have to be. -/
def Fits (p : Profile) (idx wLength : Nat) : Kind → Prop
  | .device => idx = 0 ∧
      if p.classSpecific.1.length = 0 then wLength ≤ devDescSize
      else devDescSize + p.classSpecific.1.length ≤ min wLength usbBufSize
  | .configuration => ∀ c, p.configurations[idx]? = some c →
      c.total < 2 ^ 16 ∧ min c.total wLength ≤ usbBufSize
  | .string => idx ≠ p.strings.length ∧
      ∀ d, p.strings[idx]? = some d → min d.bLength wLength ≤ usbBufSize

structure Holds (l : List UInt8) (buf : Buf) (p : Nat) : Prop where
  position : p = min l.length usbBufSize
  bytes : ∀ j < p, buf j = l.getD j 0

theorem fillLoop_spec (src : Nat → UInt8) {start} (room : start ≤ usbBufSize)
    (todo i : Nat) (buf : Buf) (inside : start + i ≤ usbBufSize) :
    (fillLoop src start todo i buf).2 = min (i + todo) (usbBufSize - start) ∧
      ∀ j, (fillLoop src start todo i buf).1 j =
        if start + i ≤ j ∧ j < start + min (i + todo) (usbBufSize - start) then src (j - start)
        else buf j := by
  induction todo generalizing i buf with
  | zero =>
    refine ⟨by simp only [fillLoop]; omega, ?_⟩
    intro j
    rw [if_neg (by omega)]
    rfl
  | succ todo ih =>
    have small : (start + i) % 2 ^ 16 = start + i := by
      unfold usbBufSize at *
      omega
    by_cases full : usbBufSize ≤ start + i
    · have eq : fillLoop src start (todo + 1) i buf = (buf, i) := by
        simp only [fillLoop, small]
        exact if_pos full
      rw [eq]
      refine ⟨by show i = _; omega, ?_⟩
      intro j
      rw [if_neg (by omega)]
    · have eq : fillLoop src start (todo + 1) i buf =
          fillLoop src start todo (i + 1) (put buf (start + i) (src i)) := by
        simp only [fillLoop, small]
        exact if_neg full
      obtain ⟨count, bytes⟩ := ih (i + 1) (put buf (start + i) (src i)) (by omega)
      rw [eq]
      refine ⟨by omega, ?_⟩
      intro j
      rw [bytes j]
      by_cases here : j = start + i
      · subst here
        rw [if_neg (by omega), if_pos (by omega), put, if_pos rfl, Nat.add_sub_cancel_left]
      · by_cases later : start + (i + 1) ≤ j ∧ j < start + min (i + 1 + todo) (usbBufSize - start)
        · rw [if_pos later, if_pos (by omega)]
        · rw [if_neg later, if_neg (by omega), put, if_neg here]

theorem memory_inside (p : Profile) {object} {i} (inside : i < object.length) :
    memory p object i = object.getD i 0 := if_pos inside

variable {l : List UInt8}

theorem Holds.fill {p} {buf} {pos} (holds : Holds l buf pos) (m : List UInt8) :
    Holds (l ++ m) (fillBuf (memory p m) pos m.length buf).1
      (pos + (fillBuf (memory p m) pos m.length buf).2) := by
  have position := holds.position
  obtain ⟨count, bytes⟩ := fillLoop_spec (memory p m) (show pos ≤ usbBufSize by omega)
    m.length 0 buf (by omega)
  unfold fillBuf
  constructor
  · rw [count, length_append]
    omega
  · intro j hj
    rw [bytes j]
    by_cases new : pos + 0 ≤ j ∧ j < pos + min (0 + m.length) (usbBufSize - pos)
    · -- the old bytes do not fill the buffer, so they end at `pos`
      have all : pos = l.length := by omega
      rw [if_pos new, memory_inside p (by omega), getD_append_right _ _ _ _ (by omega), all]
    · rw [if_neg new, holds.bytes j (by omega), getD_append _ _ _ _ (by omega)]

structure WalkHolds (l : List UInt8) (w : Walk) : Prop where
  holds : Holds l w.buf w.p
  total : w.wTotalLength = l.length % 2 ^ 16

variable {p : Profile}

theorem WalkHolds.append {w} (h : WalkHolds l w) (m : List UInt8) :
    WalkHolds (l ++ m) (w.append p m) := by
  have filled := h.holds.fill (p := p) m
  have small : (w.p + (fillBuf (memory p m) w.p m.length w.buf).2) % 2 ^ 16 =
      w.p + (fillBuf (memory p m) w.p m.length w.buf).2 := by
    have := filled.position
    unfold usbBufSize at this
    omega
  constructor
  · show Holds _ _ ((w.p + (fillBuf (memory p m) w.p m.length w.buf).2) % 2 ^ 16)
    rw [small]
    exact filled
  · show (w.wTotalLength + m.length) % 2 ^ 16 = _
    rw [h.total, length_append]
    omega

theorem WalkHolds.appendBlock {w} (h : WalkHolds l w) (b : Block) :
    WalkHolds (l ++ b.1) (w.appendBlock p b) := by
  unfold Walk.appendBlock
  by_cases empty : b.1.length ≠ 0
  · rw [if_pos empty]
    exact h.append b.1
  · rw [if_neg empty, length_eq_zero_iff.mp (not_not.mp empty), append_nil]
    exact h

theorem WalkHolds.foldl {α : Type} {bytes} {f}
    (round : ∀ l w x, WalkHolds l w → WalkHolds (l ++ bytes x) (f w x)) (xs : List α) {w}
    (h : WalkHolds l w) : WalkHolds (l ++ xs.flatMap bytes) (xs.foldl f w) := by
  induction xs generalizing l w with
  | nil => simpa using h
  | cons x xs ih =>
    rw [flatMap_cons, ← append_assoc, foldl_cons]
    exact ih (round l w x h)

theorem walk_endpoint (l : List UInt8) (w : Walk) (e : Endpoint) (h : WalkHolds l w) :
    WalkHolds (l ++ e.bytes) (w.endpoint p e) := by
  rw [Endpoint.bytes, ← append_assoc]
  exact (h.append e.desc).appendBlock e.classSpecific

theorem walk_interface (l : List UInt8) (w : Walk) (f : Interface) (h : WalkHolds l w) :
    WalkHolds (l ++ f.bytes) (w.interface p f) := by
  rw [Interface.bytes, ← append_assoc, ← append_assoc]
  exact WalkHolds.foldl walk_endpoint f.endpoints
    ((h.append f.desc).appendBlock f.classSpecific)

theorem Configuration.raw_length (c : Configuration) : confDescSize ≤ c.raw.length := by
  simp [raw, c.bLength]

theorem Configuration.length_bytes (c : Configuration) : c.bytes.length = c.total := by
  have := c.raw_length
  unfold confDescSize at this
  simp [bytes, total]
  omega

theorem Configuration.bytes_getD (c : Configuration) (j : Nat) :
    c.bytes.getD j 0 = if j = 3 then UInt8.ofNat (c.total / 2 ^ 8)
      else if j = 2 then UInt8.ofNat c.total else c.raw.getD j 0 := by
  have long := c.raw_length
  unfold confDescSize at long
  have front : (c.raw.take 2).length = 2 := by simp; omega
  have both : (c.raw.take 2 ++ ByteFields.leBytes 2 c.total).length = 4 := by simp; omega
  rcases Nat.lt_or_ge j 4 with low | high
  · rw [bytes, getD_append _ _ _ _ (by omega)]
    rcases Nat.lt_or_ge j 2 with lower | upper
    · rw [getD_append _ _ _ _ (by omega), if_neg (by omega), if_neg (by omega)]
      simp [getD_eq_getElem?_getD, lower]
    · rw [getD_append_right _ _ _ _ (by omega), front]
      obtain rfl | rfl : j = 2 ∨ j = 3 := by omega
      · rfl
      · rfl
  · rw [bytes, getD_append_right _ _ _ _ (by omega), both, if_neg (by omega), if_neg (by omega)]
    simp only [getD_eq_getElem?_getD, getElem?_drop]
    rw [Nat.add_sub_cancel' high]

theorem configuration_filled (p : Profile) (c : Configuration) (buf : Buf) :
    (fillBufConfiguration p c buf).wTotalLength = c.total % 2 ^ 16 ∧
      ∀ j < min c.total usbBufSize, (fillBufConfiguration p c buf).buf j = c.bytes.getD j 0 := by
  have start : WalkHolds [] ⟨buf, 0, 0⟩ := ⟨⟨rfl, fun j hj => absurd hj (Nat.not_lt_zero j)⟩, rfl⟩
  have walked := WalkHolds.foldl (f := Walk.interface p) walk_interface c.interfaces
    ((start.append (p := p) c.desc).appendBlock (p := p) c.classSpecific)
  refine ⟨walked.total, ?_⟩
  intro j hj
  have old := walked.holds.bytes j (by rw [walked.holds.position]; exact hj)
  rw [c.bytes_getD j]
  show put (put _ 2 _) 3 _ j = _
  have low : UInt8.ofNat (c.total % 2 ^ 16) = UInt8.ofNat c.total := by
    apply UInt8.toNat_inj.mp
    simp
  have high : UInt8.ofNat (c.total % 2 ^ 16 / 2 ^ 8) = UInt8.ofNat (c.total / 2 ^ 8) := by
    apply UInt8.toNat_inj.mp
    simp
    omega
  rw [walked.total, put, put]
  by_cases three : j = 3
  · rw [if_pos three, if_pos three]
    exact high
  · rw [if_neg three, if_neg three]
    by_cases two : j = 2
    · rw [if_pos two, if_pos two]
      exact low
    · rw [if_neg two, if_neg two]
      exact old

theorem chunks_flatten {m} (some_room : 0 < m) (mem : Nat → UInt8) {fuel pos len}
    (enough : len < fuel) : (chunks m mem fuel pos len).flatten = slice mem pos len := by
  induction fuel generalizing pos len with
  | zero => omega
  | succ fuel ih =>
    by_cases more : m < len
    · rw [chunks, usbSend, if_pos more]
      show slice mem pos m ++ (chunks m mem fuel (pos + m) (len - m)).flatten = _
      rw [ih (by omega), ByteFields.slice_append, Nat.add_sub_cancel' more.le]
    · rw [chunks, usbSend, if_neg more]
      exact append_nil _

/-- The data of an answer are right if and only if the length is right and inside the object,
when the object holds the bytes that are asked for. -/
theorem sendFrom_iff (p : Profile) {mem : Nat → UInt8} {size : Nat} {d : List UInt8}
    (len wLength : Nat) (holds : ∀ j < min d.length size, mem j = d.getD j 0) :
    (∃ packets, sendFrom p mem size len = .data packets false ∧ packets.flatten = d.take wLength) ↔
      len = min wLength d.length ∧ len ≤ size := by
  have bytes : (chunks p.maxPacketSize mem (len + 1) 0 len).flatten = slice mem 0 len :=
    chunks_flatten p.some_room mem (Nat.lt_succ_self len)
  constructor
  · rintro ⟨packets, sent, right⟩
    obtain ⟨same, inside⟩ := Answer.data.inj sent
    have lengths := congrArg length right
    rw [← same, bytes, length_slice, length_take] at lengths
    exact ⟨lengths, Nat.not_lt.mp (of_decide_eq_false inside)⟩
  · rintro ⟨length, inside⟩
    refine ⟨_, congrArg _ (decide_eq_false (Nat.not_lt.mpr inside)), ?_⟩
    rw [bytes, ByteFields.slice_eq_take (l := d) (fun j hj => holds j (by omega))
      (by omega), length,
      ← take_take, take_length]

variable {idx : Nat}

theorem answer_device (p : Profile) (buf : Buf) (small : idx < 2 ^ 8) (wLength : Nat) :
    getDescriptor p buf (Kind.device.code * 2 ^ 8 + idx) wLength =
      if p.classSpecific.1.length = 0 then
        sendFrom p (memory p p.device) p.device.length wLength
      else sendFrom p
        (fillBuf (memory p p.classSpecific.1) devDescSize p.classSpecific.1.length
          (fillBuf (memory p p.device) 0 devDescSize buf).1).1
        usbBufSize (devDescSize + p.classSpecific.1.length) := by
  have kind : (Kind.device.code * 2 ^ 8 + idx) / 2 ^ 8 = 1 := by
    show (1 * 2 ^ 8 + idx) / 2 ^ 8 = 1
    omega
  simp only [getDescriptor, kind]

theorem answer_configuration (p : Profile) (buf : Buf) (small : idx < 2 ^ 8) (wLength : Nat) :
    getDescriptor p buf (Kind.configuration.code * 2 ^ 8 + idx) wLength =
      match p.configurations[idx]? with
      | some c => sendFrom p (fillBufConfiguration p c buf).buf usbBufSize
          (min (fillBufConfiguration p c buf).wTotalLength wLength)
      | none => .nothing := by
  have kind : (Kind.configuration.code * 2 ^ 8 + idx) / 2 ^ 8 = 2 := by
    show (2 * 2 ^ 8 + idx) / 2 ^ 8 = 2
    omega
  have index : (Kind.configuration.code * 2 ^ 8 + idx) % 2 ^ 8 = idx := by
    show (2 * 2 ^ 8 + idx) % 2 ^ 8 = idx
    omega
  simp only [getDescriptor, kind, index]

theorem answer_string (p : Profile) (buf : Buf) (small : idx < 2 ^ 8) (wLength : Nat) :
    getDescriptor p buf (Kind.string.code * 2 ^ 8 + idx) wLength =
      if idx ≤ p.strings.length then
        sendFrom p (fillBufString p (p.strings.getD idx p.afterStrings) buf) usbBufSize
          (min (p.strings.getD idx p.afterStrings).bLength wLength)
      else .nothing := by
  have kind : (Kind.string.code * 2 ^ 8 + idx) / 2 ^ 8 = 3 := by
    show (3 * 2 ^ 8 + idx) / 2 ^ 8 = 3
    omega
  have index : (Kind.string.code * 2 ^ 8 + idx) % 2 ^ 8 = idx := by
    show (3 * 2 ^ 8 + idx) % 2 ^ 8 = idx
    omega
  simp only [getDescriptor, kind, index]

theorem device_filled (p : Profile) (buf : Buf) :
    ∀ j < min (p.device ++ p.classSpecific.1).length usbBufSize,
      (fillBuf (memory p p.classSpecific.1) devDescSize p.classSpecific.1.length
        (fillBuf (memory p p.device) 0 devDescSize buf).1).1 j =
        (p.device ++ p.classSpecific.1).getD j 0 := by
  have start : Holds [] buf 0 := ⟨rfl, fun j hj => absurd hj (Nat.not_lt_zero j)⟩
  have first := start.fill (p := p) p.device
  have position := first.position
  rw [nil_append, p.bLength] at first position
  have at_end : 0 + (fillBuf (memory p p.device) 0 devDescSize buf).2 = devDescSize := position
  have both := first.fill (p := p) p.classSpecific.1
  intro j hj
  exact both.bytes j (by rw [both.position]; exact hj)

theorem device_iff (p : Profile) (buf : Buf) (small : idx < 2 ^ 8) (wLength : Nat) :
    Answered p buf .device idx wLength ↔ Fits p idx wLength .device := by
  have answer := answer_device p buf small wLength
  by_cases zero : idx = 0
  · have found : descriptor p idx .device = some (p.device ++ p.classSpecific.1) := if_pos zero
    -- only the bytes of the answer are in question
    have only : Answered p buf .device idx wLength ↔ ∃ packets,
        getDescriptor p buf (Kind.device.code * 2 ^ 8 + idx) wLength = .data packets false ∧
          packets.flatten = (p.device ++ p.classSpecific.1).take wLength := by
      constructor
      · intro answered
        exact answered.exact_bytes _ found
      · intro right
        refine ⟨?_, fun h => (nomatch h), fun missing => ?_⟩
        · intro d hd
          rw [found] at hd
          rw [← some.inj hd]
          exact right
        · rw [found] at missing
          cases missing
    rw [only, answer]
    by_cases plain : p.classSpecific.1.length = 0
    · have alone : p.device ++ p.classSpecific.1 = p.device := by
        rw [length_eq_zero_iff.mp plain, append_nil]
      rw [if_pos plain, alone, sendFrom_iff p wLength wLength
        (fun j hj => memory_inside p (by omega))]
      simp only [Fits, zero, true_and, if_pos plain, p.bLength]
      omega
    · rw [if_neg plain, sendFrom_iff p _ wLength (device_filled p buf)]
      simp only [Fits, zero, true_and, if_neg plain, length_append, p.bLength]
      omega
  · have missing : descriptor p idx .device = none := if_neg zero
    refine iff_of_false ?_ (fun fits => zero fits.1)
    intro answered
    have none_sent := answered.refused missing
    rw [answer] at none_sent
    split at none_sent <;> cases none_sent

theorem configuration_iff (p : Profile) (buf : Buf) (small : idx < 2 ^ 8) (wLength : Nat) :
    Answered p buf .configuration idx wLength ↔ Fits p idx wLength .configuration := by
  have answer := answer_configuration p buf small wLength
  cases entry : p.configurations[idx]? with
  | none =>
    rw [entry] at answer
    have missing : descriptor p idx .configuration = none := by simp [descriptor, entry]
    refine iff_of_true ⟨?_, ?_, ?_⟩ ?_
    · intro d hd
      rw [missing] at hd
      cases hd
    · intro _ c hc
      rw [entry] at hc
      cases hc
    · intro _
      rw [answer]
      rfl
    · intro c hc
      rw [entry] at hc
      cases hc
  | some c =>
    rw [entry] at answer
    have found : descriptor p idx .configuration = some c.bytes := by simp [descriptor, entry]
    obtain ⟨total, holds⟩ := configuration_filled p c buf
    rw [← c.length_bytes] at holds
    have sent := sendFrom_iff p (min (fillBufConfiguration p c buf).wTotalLength wLength) wLength
      holds
    constructor
    · intro answered c' hc'
      obtain rfl : c = c' := some.inj (entry.symm.trans hc')
      have correct := answered.total_correct rfl c entry
      have right := answered.exact_bytes _ found
      rw [answer, sent, correct] at right
      exact ⟨by omega, right.2⟩
    · intro fits
      obtain ⟨short, room⟩ := fits c entry
      rw [Nat.mod_eq_of_lt short] at total
      refine ⟨?_, ?_, ?_⟩
      · intro d hd
        rw [found] at hd
        rw [← some.inj hd, answer, sent, total, c.length_bytes]
        omega
      · intro _ c' hc'
        obtain rfl : c = c' := some.inj (entry.symm.trans hc')
        exact total
      · intro missing
        rw [found] at missing
        cases missing

theorem string_filled (p : Profile) (d : StringDesc) (buf : Buf) :
    ∀ j < min d.bytes.length usbBufSize, fillBufString p d buf j = d.bytes.getD j 0 := by
  intro j hj
  have length : d.bytes.length = d.wData.length + 2 := rfl
  obtain ⟨-, bytes⟩ := fillLoop_spec (memory p d.wData) (show 2 ≤ usbBufSize by decide) d.bLength 0
    (put (put buf 0 (UInt8.ofNat d.bLength)) 1 d.bDescriptorType) (by decide)
  have size : d.bLength = 2 + d.wData.length := rfl
  rw [fillBufString, fillBuf, bytes j]
  match j with
  | 0 => rfl
  | 1 => rfl
  | j + 2 =>
    rw [if_pos (by omega), Nat.add_sub_cancel, memory_inside p (by omega)]
    rfl

theorem string_iff (p : Profile) (buf : Buf) (small : idx < 2 ^ 8) (wLength : Nat) :
    Answered p buf .string idx wLength ↔ Fits p idx wLength .string := by
  have answer := answer_string p buf small wLength
  cases entry : p.strings[idx]? with
  | none =>
    have beyond_end : p.strings.length ≤ idx := getElem?_eq_none_iff.mp entry
    have missing : descriptor p idx .string = none := by simp [descriptor, entry]
    constructor
    · intro answered
      refine ⟨?_, ?_⟩
      · intro last
        have none_sent := answered.refused missing
        rw [answer, if_pos last.le] at none_sent
        cases none_sent
      · intro d hd
        rw [entry] at hd
        cases hd
    · intro fits
      refine ⟨?_, fun h => (nomatch h), ?_⟩
      · intro d hd
        rw [missing] at hd
        cases hd
      · intro _
        have := fits.1
        rw [answer, if_neg (by omega)]
        rfl
  | some d =>
    have inside : idx < p.strings.length := (List.getElem?_eq_some_iff.mp entry).1
    have found : descriptor p idx .string = some d.bytes := by simp [descriptor, entry]
    have here : p.strings.getD idx p.afterStrings = d := by
      rw [getD_eq_getElem?_getD, entry]
      rfl
    have length : d.bytes.length = d.bLength := by
      show d.wData.length + 2 = 2 + d.wData.length
      omega
    rw [if_pos inside.le, here] at answer
    have sent := sendFrom_iff p (min d.bLength wLength) wLength (string_filled p d buf)
    constructor
    · intro answered
      have right := answered.exact_bytes _ found
      rw [answer, sent] at right
      refine ⟨inside.ne, ?_⟩
      intro d' hd'
      obtain rfl : d = d' := some.inj (entry.symm.trans hd')
      exact right.2
    · intro fits
      refine ⟨?_, fun h => (nomatch h), ?_⟩
      · intro d' hd'
        rw [found] at hd'
        rw [← some.inj hd', answer, sent, length]
        exact ⟨Nat.min_comm _ _, fits.2 d entry⟩
      · intro missing
        rw [found] at missing
        cases missing

/-- For every profile, every content of the buffer and every request for one of the three kinds,
the answer is the one that the host asks for if and only if the request fits. -/
theorem descriptor_answered_iff (p : Profile) (buf : Buf) (kind : Kind) (idx : UInt8)
    (wLength : UInt16) :
    Answered p buf kind idx.toNat wLength.toNat ↔ Fits p idx.toNat wLength.toNat kind := by
  cases kind with
  | device => exact device_iff p buf idx.toNat_lt _
  | configuration => exact configuration_iff p buf idx.toNat_lt _
  | string => exact string_iff p buf idx.toNat_lt _

def smallProfile : Profile where
  device := [18, 1, 0, 2, 0, 0, 0, 64, 0x8f, 0x05, 0x87, 0x63, 2, 1, 1, 2, 3, 1]
  classSpecific := ⟨[], by decide⟩
  configurations := []
  strings := [⟨3, [9, 4], by decide⟩]
  qualifier := []
  afterStrings := ⟨0, [], by decide⟩
  beyond := fun _ => 0xEE
  maxPacketSize := 64
  bLength := rfl
  bNumConfigurations := by decide
  numberOfStrings := by decide
  some_room := by decide

/-- The first request of a host, for 64 bytes of the device descriptor, is answered with 46
bytes from behind it; a string behind the end of the table is answered with data. -/
theorem device_request_overreads :
    getDescriptor smallProfile (fun _ => 0) 0x0100 64 =
        .data [smallProfile.device ++ List.replicate 46 0xEE] true ∧
      smallProfile.strings.length = 1 ∧
      (getDescriptor smallProfile (fun _ => 0) 0x0301 255).hasData = true := by
  decide +kernel

end UsbDescriptors
