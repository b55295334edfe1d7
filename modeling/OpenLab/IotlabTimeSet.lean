import OpenLab.IotlabTime

/-!
# Setting the time

`iotlab_time_set_time` saves the current configuration, and `select_config` chooses between the
two by the tick that is converted. A call is given by the tick its reference belongs to.
-/

namespace IotlabTime

def softTimerKfrequencyFix : UInt32 := 32771798

structure TimeConfig where
  time0 : UInt64
  unixTimeRef : Timeval
  kfrequency : UInt32
  lastSetTime : UInt64
  deriving DecidableEq

structure TimeConfigs where
  latest : TimeConfig
  saved : TimeConfig
  deriving DecidableEq

def initialConfig : TimeConfig := ⟨0, ⟨0, 0⟩, softTimerKfrequencyFix, 0⟩

def initial : TimeConfigs := ⟨initialConfig, initialConfig⟩

/-- `iotlab_time_set_time`, with the 64-bit time it reads. -/
def iotlabTimeSetTime (configs : TimeConfigs) (now64 : UInt64) (t0 : UInt32) (timeRef : Timeval) :
    TimeConfigs where
  latest := ⟨getExtendedTime t0 now64, timeRef, softTimerKfrequencyFix, now64⟩
  saved := configs.latest

def selectConfig (configs : TimeConfigs) (timerTick64 : UInt64) : TimeConfig :=
  let lastSetTime := configs.latest.lastSetTime
  if timerTick64 < lastSetTime then configs.saved
  -- a tick equal to the last set time uses the previous configuration
  else if timerTick64 = lastSetTime then configs.saved
  else configs.latest

def getSeconds (timerTick : UInt64) (kfrequency : UInt32) : UInt32 :=
  (timerTick * 1000 / kfrequency.toUInt64).toUInt32

def getMicroseconds (timerTick : UInt64) (kfrequency : UInt32) : UInt32 :=
  (timerTick * 1000 % kfrequency.toUInt64 * 1000000 / kfrequency.toUInt64).toUInt32

def convertWith (config : TimeConfig) (timerTick64 : UInt64) : Timeval :=
  let tick := timerTick64 - config.time0
  let tvSec := getSeconds tick config.kfrequency + config.unixTimeRef.tvSec
  let tvUsec := getMicroseconds tick config.kfrequency + config.unixTimeRef.tvUsec
  if tvUsec > 1000000 then ⟨tvSec + 1, tvUsec - 1000000⟩ else ⟨tvSec, tvUsec⟩

def iotlabTimeConvert (configs : TimeConfigs) (timerTick64 : UInt64) : Timeval :=
  convertWith (selectConfig configs timerTick64) timerTick64

/-- A call at the time `now` whose reference belongs to the tick `event`, at most half of
the 32-bit range before. -/
structure Call where
  now : UInt64
  event : Nat
  timeRef : Timeval
  past : event ≤ now.toNat
  recent : now.toNat ≤ event + 2 ^ 31

def Call.t0 (c : Call) : UInt32 := UInt32.ofNat c.event

def Call.config (c : Call) : TimeConfig :=
  ⟨UInt64.ofNat c.event, c.timeRef, softTimerKfrequencyFix, c.now⟩

def setTime (configs : TimeConfigs) (c : Call) : TimeConfigs :=
  iotlabTimeSetTime configs c.now c.t0 c.timeRef

def afterCalls (calls : List Call) : TimeConfigs := calls.foldl setTime initial

variable {configs : TimeConfigs} {c : Call} {tick : UInt64}

theorem extendedTime_of_half {event} {now} (past : event ≤ now.toNat)
    (recent : now.toNat ≤ event + 2 ^ 31) :
    getExtendedTime (UInt32.ofNat event) now = UInt64.ofNat event := by
  have bound := now.toNat_lt
  have hevent : (UInt32.ofNat event).toNat = event % 2 ^ 32 := UInt32.toNat_ofNat'
  have habs := toNat_low32_replaced now (UInt32.ofNat event)
  have hbit := bit31_lt_iff now (UInt32.ofNat event)
  have small : (UInt64.ofNat event).toNat = event := by
    rw [UInt64.toNat_ofNat', Nat.mod_eq_of_lt (by omega)]
  apply UInt64.toNat_inj.mp
  rw [small, getExtendedTime]
  split
  · next upper =>
    have halves := hbit.mp upper
    have block : (0x100000000 : UInt64).toNat = 2 ^ 32 := rfl
    rw [UInt64.toNat_sub, habs]
    omega
  · next lower =>
    have halves := hbit.not.mp lower
    omega

theorem setTime_latest : (setTime configs c).latest = c.config := by
  have time0 : getExtendedTime c.t0 c.now = UInt64.ofNat c.event :=
    extendedTime_of_half c.past c.recent
  rw [setTime, iotlabTimeSetTime, Call.config, time0]

theorem setTime_saved : (setTime configs c).saved = configs.latest := rfl

theorem afterCalls_concat (calls : List Call) :
    afterCalls (calls ++ [c]) = setTime (afterCalls calls) c := by
  simp [afterCalls]

theorem selectConfig_of_le (early : tick ≤ configs.latest.lastSetTime) :
    selectConfig configs tick = configs.saved := by
  rcases UInt64.lt_or_eq_of_le early with less | equal
  · simp [selectConfig, less]
  · simp [selectConfig, equal]

theorem selectConfig_of_lt (later : configs.latest.lastSetTime < tick) :
    selectConfig configs tick = configs.latest := by
  have notLess : ¬tick < configs.latest.lastSetTime := UInt64.lt_asymm later
  have notEqual : tick ≠ configs.latest.lastSetTime := (UInt64.ne_of_lt later).symm
  simp [selectConfig, notLess, notEqual]

/-- What a call leaves: ticks up to its time are converted as by the configuration that
was the latest one before, later ones by its reference. -/
theorem convert_setTime : iotlabTimeConvert (setTime configs c) tick =
    if tick ≤ c.now then convertWith configs.latest tick else convertWith c.config tick := by
  have set : (setTime configs c).latest.lastSetTime = c.now := by rfl
  split
  · next early => rw [iotlabTimeConvert, selectConfig_of_le (set ▸ early), setTime_saved]
  · next later =>
    rw [iotlabTimeConvert, selectConfig_of_lt (set ▸ UInt64.not_le.mp later), setTime_latest]

/-- A call changes no conversion of a tick after the call before it, up to its own time, and such
a tick has the reference of the call before; later ticks have that of the call. -/
theorem past_not_rewritten (earlier : List Call) (previous last : Call) (tick : UInt64) :
    (previous.now < tick → tick ≤ last.now →
      iotlabTimeConvert (afterCalls (earlier ++ [previous])) tick =
        iotlabTimeConvert (afterCalls (earlier ++ [previous, last])) tick ∧
      iotlabTimeConvert (afterCalls (earlier ++ [previous, last])) tick =
        convertWith previous.config tick) ∧
    (last.now < tick → iotlabTimeConvert (afterCalls (earlier ++ [previous, last])) tick =
      convertWith last.config tick) := by
  have two : afterCalls (earlier ++ [previous, last]) =
      setTime (setTime (afterCalls earlier) previous) last := by simp [afterCalls]
  rw [two, afterCalls_concat, convert_setTime, convert_setTime, setTime_latest]
  constructor
  · intro since until_
    rw [if_pos until_, if_neg (UInt64.not_le.mpr since)]
    exact ⟨rfl, rfl⟩
  · intro later
    rw [if_neg (UInt64.not_le.mpr later)]

def firstCall : Call := ⟨100, 90, ⟨1000, 0⟩, by decide, by decide⟩

def secondCall : Call := ⟨200, 150, ⟨1000, 500000⟩, by decide, by decide⟩

theorem past_not_rewritten_between :
    iotlabTimeConvert (afterCalls [firstCall]) 150 =
        iotlabTimeConvert (afterCalls [firstCall, secondCall]) 150 ∧
      iotlabTimeConvert (afterCalls [firstCall, secondCall]) 150 = ⟨1000, 1830⟩ := by
  obtain ⟨kept, first⟩ := (past_not_rewritten [] firstCall secondCall 150).1 (by decide) (by decide)
  exact ⟨kept, first.trans (by decide)⟩

/-- The tick of the first call is converted with the initial configuration until the second
call, and with the first reference from then on. -/
theorem boundary_rewritten : firstCall.now < secondCall.now ∧
    iotlabTimeConvert (afterCalls [firstCall]) firstCall.now = ⟨0, 3051⟩ ∧
    iotlabTimeConvert (afterCalls [firstCall, secondCall]) firstCall.now = ⟨1000, 305⟩ := by
  decide

def Timeval.micros (t : Timeval) : Nat := t.tvSec.toNat * 1000000 + t.tvUsec.toNat

/-- The time of a tick in microseconds, with one division. -/
def exactTime (config : TimeConfig) (tick : UInt64) : Nat :=
  config.unixTimeRef.micros +
    (tick.toNat - config.time0.toNat) * 1000 * 1000000 / config.kfrequency.toNat

def usecsBefore (config : TimeConfig) (tick : UInt64) : Nat :=
  (tick.toNat - config.time0.toNat) * 1000 % config.kfrequency.toNat * 1000000 /
    config.kfrequency.toNat + config.unixTimeRef.tvUsec.toNat

/-- A conversion of a tick after the reference, whose result is representable. -/
structure Conversion where
  config : TimeConfig
  tick : UInt64
  normal : config.unixTimeRef.tvUsec.toNat < 1000000
  frequency : 0 < config.kfrequency.toNat
  later : config.time0.toNat ≤ tick.toNat
  scaled : (tick.toNat - config.time0.toNat) * 1000 < 2 ^ 64
  fits : exactTime config tick < 2 ^ 32 * 1000000

theorem div_split (p : Nat) {k} (positive : 0 < k) :
    p * 1000000 / k = p / k * 1000000 + p % k * 1000000 / k ∧ p % k * 1000000 / k < 1000000 := by
  constructor
  · have split : p * 1000000 = p % k * 1000000 + k * (p / k * 1000000) := by
      conv_lhs => rw [← Nat.div_add_mod p k]
      ring
    rw [split, Nat.add_mul_div_left _ _ positive, Nat.add_comm]
  · refine Nat.div_lt_of_lt_mul ?_
    have := Nat.mod_lt p positive
    omega

section Elapsed

variable {ticks : UInt64} {k : UInt32} {p : Nat} (scaled : (ticks * 1000).toNat = p)

include scaled

theorem toNat_getSeconds (fits : p / k.toNat < 2 ^ 32) :
    (getSeconds ticks k).toNat = p / k.toNat := by
  rw [getSeconds, UInt64.toNat_toUInt32, UInt64.toNat_div, scaled, UInt32.toNat_toUInt64,
    Nat.mod_eq_of_lt fits]

theorem toNat_getMicroseconds (positive : 0 < k.toNat) :
    (getMicroseconds ticks k).toNat = p % k.toNat * 1000000 / k.toNat := by
  have small := (div_split p positive).2
  have rest := Nat.mod_lt p positive
  have below := k.toNat_lt
  have exactly : p % k.toNat * 1000000 % 2 ^ 64 = p % k.toNat * 1000000 :=
    Nat.mod_eq_of_lt (by omega)
  rw [getMicroseconds, UInt64.toNat_toUInt32, UInt64.toNat_div, UInt64.toNat_mul,
    UInt64.toNat_mod, scaled, UInt32.toNat_toUInt64, show (1000000 : UInt64).toNat = 1000000
    from rfl, exactly, Nat.mod_eq_of_lt (by omega)]

end Elapsed

theorem Conversion.value (a : Conversion) :
    (convertWith a.config a.tick).micros = exactTime a.config a.tick ∧
      ((convertWith a.config a.tick).tvUsec.toNat < 1000000 ↔
        usecsBefore a.config a.tick ≠ 1000000) := by
  obtain ⟨config, tick, normal, positive, later, scaled, fits⟩ := a
  obtain ⟨p, elapsed⟩ : ∃ p, (tick.toNat - config.time0.toNat) * 1000 = p := ⟨_, rfl⟩
  simp only [exactTime, usecsBefore, Timeval.micros, elapsed] at scaled fits ⊢
  have ticks : ((tick - config.time0) * 1000).toNat = p := by
    rw [UInt64.toNat_mul, UInt64.toNat_sub_of_le _ _ (UInt64.le_iff_toNat_le.mpr later),
      show (1000 : UInt64).toNat = 1000 from rfl, elapsed, Nat.mod_eq_of_lt scaled]
  obtain ⟨split, small⟩ := div_split p positive
  rw [split] at fits ⊢
  rw [← toNat_getMicroseconds ticks positive] at small fits ⊢
  have seconds : _ = p / config.kfrequency.toNat := toNat_getSeconds ticks (by omega)
  rw [convertWith]
  generalize getSeconds (tick - config.time0) config.kfrequency = q at *
  generalize getMicroseconds (tick - config.time0) config.kfrequency = m at *
  have usec : (m + config.unixTimeRef.tvUsec).toNat =
      m.toNat + config.unixTimeRef.tvUsec.toNat := by
    rw [UInt32.toNat_add, Nat.mod_eq_of_lt (by omega)]
  have sec : (q + config.unixTimeRef.tvSec).toNat =
      q.toNat + config.unixTimeRef.tvSec.toNat := by
    rw [UInt32.toNat_add, Nat.mod_eq_of_lt (by omega)]
  have million : (1000000 : UInt32).toNat = 1000000 := rfl
  simp only [gt_iff_lt, UInt32.lt_iff_toNat_lt, usec, million]
  split
  · next carry =>
    have sec' : (q + config.unixTimeRef.tvSec + 1).toNat =
        q.toNat + config.unixTimeRef.tvSec.toNat + 1 := by
      rw [UInt32.toNat_add, sec, UInt32.toNat_one, Nat.mod_eq_of_lt (by omega)]
    have usec' : (m + config.unixTimeRef.tvUsec - 1000000).toNat =
        m.toNat + config.unixTimeRef.tvUsec.toNat - 1000000 := by
      rw [UInt32.toNat_sub_of_le _ _ (UInt32.le_iff_toNat_le.mpr (by omega)), usec, million]
    simp only [sec', usec']
    omega
  · simp only [usec, sec]
    omega

/-- The converted time is always exact, and so it grows with the tick, by at most 31
microseconds a tick. It is a normalised pair unless the microseconds add up to one second. -/
theorem converted_iff (a : Conversion) :
    ((convertWith a.config a.tick).micros = exactTime a.config a.tick ∧
        (convertWith a.config a.tick).tvUsec.toNat < 1000000 ↔
      usecsBefore a.config a.tick ≠ 1000000) ∧
    ∀ b : Conversion, b.config = a.config → a.tick ≤ b.tick →
      (convertWith a.config a.tick).micros ≤ (convertWith b.config b.tick).micros ∧
      (a.config.kfrequency = softTimerKfrequencyFix → b.tick.toNat = a.tick.toNat + 1 →
        (convertWith b.config b.tick).micros ≤ (convertWith a.config a.tick).micros + 31) := by
  obtain ⟨exactly, normal⟩ := a.value
  refine ⟨⟨fun h => normal.mp h.2, fun h => ⟨exactly, normal.mpr h⟩⟩, ?_⟩
  intro b same order
  have order : a.tick.toNat ≤ b.tick.toNat := UInt64.le_iff_toNat_le.mp order
  rw [exactly, b.value.1, same, exactTime, exactTime]
  constructor
  · gcongr
  · intro frequency next
    rw [frequency, show softTimerKfrequencyFix.toNat = 32771798 from rfl]
    omega

def fiveSeconds : TimeConfig := ⟨0, ⟨5, 0⟩, softTimerKfrequencyFix, 0⟩

theorem converted_two_ticks : (convertWith fiveSeconds 1).micros = 5000030 ∧
    (convertWith fiveSeconds 1).tvUsec.toNat < 1000000 ∧
    (convertWith fiveSeconds 1).micros ≤ (convertWith fiveSeconds 2).micros ∧
    (convertWith fiveSeconds 2).micros ≤ (convertWith fiveSeconds 1).micros + 31 := by
  let one : Conversion := ⟨fiveSeconds, 1, by decide, by decide, by decide, by decide, by decide⟩
  let two : Conversion := ⟨fiveSeconds, 2, by decide, by decide, by decide, by decide, by decide⟩
  obtain ⟨exactly, grows⟩ := converted_iff one
  obtain ⟨value, normal⟩ := exactly.mpr (by decide)
  obtain ⟨order, slowly⟩ := grows two rfl (by decide)
  exact ⟨value.trans (by decide), normal, order, slowly rfl rfl⟩

/-- A reference just before a full second: the tick after it gives 1000000 microseconds. -/
theorem microseconds_overflow :
    convertWith ⟨0, ⟨5, 999970⟩, softTimerKfrequencyFix, 0⟩ 1 = ⟨5, 1000000⟩ := by
  decide

end IotlabTime
