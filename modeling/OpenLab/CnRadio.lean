import OpenLab.Schedules

/-!
# Radio configuration of the control node

The commands of `cn_radio.c` parse their payload into static structures, before they validate it,
which the deferred `update_config` and `_set_new_config` read through a pointer. Measurements,
timer and PHY are left out, except for the channel switch of `poll_time`.
-/

namespace CnRadio

inductive Mode
  | off | polling | sniffer
  deriving DecidableEq

structure Config where
  mode : Mode := .off
  channels : UInt32 := 0
  numOperationsPerChannel : UInt32 := 0
  measurePeriod : UInt32 := 0
  deriving DecidableEq

/-- The static structures an event can point to: `default_config` and the `config` of
`radio_polling` and of `radio_sniffer`. -/
inductive Source
  | default | polling | sniffer
  deriving DecidableEq

inductive Event
  | updateConfig (source : Source)
  | setNewConfig (source : Source)
  deriving DecidableEq

structure Radio where
  config : Config := {}
  polling : Config := { mode := .polling }
  sniffer : Config := { mode := .sniffer }
  currentChannel : Nat := 0
  currentOpNumOnChannel : UInt8 := 0
  queue : List Event := [.setNewConfig .default]
  /-- `set_next_channel` does not return. -/
  hung : Bool := false
  /-- The configuration of the last command that was accepted. -/
  accepted : Config := {}
  deriving DecidableEq

def init : Radio := {}

def Radio.static (r : Radio) : Source → Config
  | .default => {}
  | .polling => r.polling
  | .sniffer => r.sniffer

def Radio.setStatic (r : Radio) (source : Source) (config : Config) : Radio :=
  match source with
  | .default => r
  | .polling => { r with polling := config }
  | .sniffer => { r with sniffer := config }

/-- `soft_timer_ms_to_ticks`: the argument is taken as `int32_t`, the quotient of the
64-bit product is cut to 32 bits. -/
def msToTicks (ms : UInt32) : UInt32 :=
  UInt32.ofNat ((ms.toInt32.toInt * 32768).tdiv 1000 % 2 ^ 32).toNat

def setLow16 (x : UInt32) (v : UInt16) : UInt32 := x / 65536 * 65536 + v.toUInt32

def setLow8 (x : UInt32) (v : UInt8) : UInt32 := x / 256 * 256 + v.toUInt32

def le16 (b₀ b₁ : UInt8) : UInt16 := b₀.toUInt16 + 256 * b₁.toUInt16

def le32 (b₀ b₁ b₂ b₃ : UInt8) : UInt32 := (le16 b₀ b₁).toUInt32 + 65536 * (le16 b₂ b₃).toUInt32

def allChannels : UInt32 := 0x07FFF800

/-- `radio_polling`: whether the command is accepted, and its static structure after. -/
def parsePolling (c : Config) (data : List UInt8) : Bool × Config :=
  match data with
  | [c₀, c₁, c₂, c₃, p₀, p₁, n] =>
    let c := { c with
      channels := le32 c₀ c₁ c₂ c₃ &&& allChannels
      measurePeriod := setLow16 c.measurePeriod (le16 p₀ p₁)
      numOperationsPerChannel := setLow8 c.numOperationsPerChannel n }
    if c.channels = 0 then (false, c)
    else if c.measurePeriod = 0 then (false, c)
    else (true, { c with measurePeriod := msToTicks c.measurePeriod })
  | _ => (false, c)

def parseSniffer (c : Config) (data : List UInt8) : Bool × Config :=
  match data with
  | [c₀, c₁, c₂, c₃, t₀, t₁] =>
    let c := { c with channels := le32 c₀ c₁ c₂ c₃ &&& allChannels }
    if c.channels = 0 then (false, c)
    else if c.channels &&& (c.channels - 1) ≠ 0 then (false, c)
    else if le16 t₀ t₁ ≠ 0 then (false, c)
    else (true, c)
  | _ => (false, c)

/-- The handler of a command by the structure it fills; `radio_off` fills none. -/
def parse : Source → Config → List UInt8 → Bool × Config
  | .default, c, _ => (true, c)
  | .polling, c, data => parsePolling c data
  | .sniffer, c, data => parseSniffer c data

def result (r : Radio) (source : Source) (data : List UInt8) : Nat :=
  if (parse source (r.static source) data).1 then 0 else 1

def command (r : Radio) (source : Source) (data : List UInt8) : Radio :=
  let (ok, c) := parse source (r.static source) data
  let r := r.setStatic source c
  if ok then { r with queue := r.queue ++ [.updateConfig source], accepted := c } else r

def minChannel : Nat := 11

def maxChannel : Nat := 26

def nextChannel (channels : UInt32) : Nat → Nat → Option Nat
  | 0, _ => none
  | rounds + 1, current =>
    let current := if maxChannel < current + 1 then minChannel else current + 1
    if channels.toNat.testBit current then some current else nextChannel channels rounds current

/-- `set_next_channel`. The loop visits all channels in 42 rounds; without one to stop
at it does not end. -/
def setNextChannel (r : Radio) : Radio :=
  match nextChannel r.config.channels 42 r.currentChannel with
  | some channel => { r with currentChannel := channel }
  | none => { r with hung := true }

def updateConfig (r : Radio) (source : Source) : Radio :=
  { r with
    config := {}
    currentChannel := 0
    currentOpNumOnChannel := 0
    queue := r.queue ++ [.setNewConfig source] }

def setNewConfig (r : Radio) (source : Source) : Radio :=
  let r := { r with config := r.static source }
  match r.config.mode with
  | .off => r
  | .polling | .sniffer => setNextChannel r

/-- `poll_time` as far as it concerns the channel: `manage_channel_switch`. -/
def pollTime (r : Radio) : Radio :=
  if r.config.mode ≠ .polling then r
  else if r.config.numOperationsPerChannel = 0 then r
  else
    let r := { r with currentOpNumOnChannel := r.currentOpNumOnChannel + 1 }
    if r.config.numOperationsPerChannel = r.currentOpNumOnChannel.toUInt32 then
      { setNextChannel r with currentOpNumOnChannel := 0 }
    else r

inductive Action
  | command (source : Source) (data : List UInt8)
  | event
  | pollTime
  deriving DecidableEq

def runEvent (r : Radio) : Event → Radio
  | .updateConfig source => updateConfig r source
  | .setNewConfig source => setNewConfig r source

def runQueue (r : Radio) : Option Radio :=
  match r.queue with
  | [] => none
  | e :: rest => some (runEvent { r with queue := rest } e)

/-- A step; with the event task in an endless loop only commands go on. -/
def step (r : Radio) : Action → Option Radio
  | .command source data => some (command r source data)
  | .event => if r.hung then none else runQueue r
  | .pollTime => if r.hung then none else some (pollTime r)

/-- The same control node with commands that leave no trace when they are rejected. -/
def stepIdeal (r : Radio) : Action → Option Radio
  | .command source data =>
    some (if (parse source (r.static source) data).1 then command r source data else r)
  | a => step r a

end CnRadio
