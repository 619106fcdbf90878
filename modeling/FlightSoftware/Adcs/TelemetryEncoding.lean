import FlightSoftware.Adcs.ControlMath
import FlightSoftware.Lib.BigEndian
import FlightSoftware.Lib.Encoder

/-!
# Telemetry encoding

The record that the attitude controller sends to the on-board computer. It is written
field by field into the buffer of the caller, most significant byte first, and its 184
bytes determine every field that went into it.
-/

namespace FlightSoftware.Adcs
open BigEndian

/-! ### Packets -/

/-- A C `float` as it lies in memory, which tells the two zeros and the NaNs apart. -/
abbrev FloatBits := BitVec 32

structure TelemetrySensorPacket where
  magneticFieldT : Fin 3 → FloatBits := 0
  sunVectorBody : Fin 3 → FloatBits := 0
  sunIrradianceWM2 : FloatBits := 0
  validMask : BitVec 32 := 0

structure TelemetryAttitudeState where
  quaternion : Fin 4 → FloatBits := 0
  angularRateRadS : Fin 3 → FloatBits := 0
  gyroBiasRadS : Fin 3 → FloatBits := 0
  confidence : FloatBits := 0
  valid : BitVec 8 := 0

structure TelemetryGuidanceTarget where
  targetQuaternion : Fin 4 → FloatBits := 0

structure TelemetryControlOutput where
  requestedTorqueNm : Fin 3 → FloatBits := 0
  requestedDipoleAM2 : Fin 3 → FloatBits := 0
  achievableTorqueNm : Fin 3 → FloatBits := 0
  pointingErrorRad : FloatBits := 0
  actuatorsEnabled : BitVec 8 := 0
  saturated : BitVec 8 := 0
  targetSettled : BitVec 8 := 0

structure TelemetryHealth where
  activeFaults : BitVec 32 := 0
  rejectedCommands : BitVec 32 := 0
  droppedMessages : BitVec 32 := 0
  estimatorResets : BitVec 32 := 0
  controllerErrors : BitVec 32 := 0
  modeTransitions : BitVec 32 := 0
  minimumStackMarginWords : FloatBits := 0
  sensorsHealthy : BitVec 8 := 0
  estimatorHealthy : BitVec 8 := 0
  actuatorsHealthy : BitVec 8 := 0

/-- The fields of an `adcs_telemetry_packet_t` that the encoder reads. -/
structure AdcsTelemetryPacket where
  sequence : BitVec 32 := 0
  timestampUs : BitVec 64 := 0
  mode : AdcsMode := .boot
  sensors : TelemetrySensorPacket := {}
  attitude : TelemetryAttitudeState := {}
  target : TelemetryGuidanceTarget := {}
  control : TelemetryControlOutput := {}
  health : TelemetryHealth := {}

inductive AdcsTelemetryStatus where
  | ok
  | invalidArgument
  | bufferTooSmall
  deriving DecidableEq

/-! ### The encoder -/

def adcsTelemetryFormatVersion : BitVec 8 := 3
def adcsTelemetryAttitudeValidFlag : BitVec 16 := 1

def putU8 (value : BitVec 8) : Put Byte := Put.bytes [value]

def putU16 (value : BitVec 16) : Put Byte := Put.bytes (writeU16Be value)

def putU32 (value : BitVec 32) : Put Byte := Put.bytes (writeU32Be value)

def putU64 (value : BitVec 64) : Put Byte :=
  (putU32 ((value >>> 32).setWidth 32)).andThen (putU32 (value.setWidth 32))

def putFloat (representation : FloatBits) : Put Byte := putU32 representation

/-- The loop over the array, which ends at the first refusal. -/
def putFloatArray {count : ℕ} (values : Fin count → FloatBits) : Put Byte :=
  Put.all (List.ofFn fun index => putFloat (values index))

/-- Three truth values packed into the low bits of a byte. -/
def packFlags (first second third : Bool) : Byte :=
  (if first then 1 else 0) ||| (if second then 2 else 0) ||| (if third then 4 else 0)

namespace AdcsTelemetryPacket

variable (t : AdcsTelemetryPacket)

/-- The checks on the packet before anything is written. -/
def isAccepted : Bool :=
  t.mode.isValid &&
  adcsValuesAreFinite (fun i => .ofBits (t.attitude.quaternion i)) &&
  adcsValuesAreFinite (fun i => .ofBits (t.target.targetQuaternion i)) &&
  adcsValuesAreFinite (fun i => .ofBits (t.attitude.angularRateRadS i)) &&
  adcsValuesAreFinite (fun i => .ofBits (t.sensors.magneticFieldT i)) &&
  adcsValuesAreFinite (fun i => .ofBits (t.control.requestedDipoleAM2 i)) &&
  (CFloat.ofBits t.attitude.confidence).isfinite &&
  !(CFloat.ofBits t.attitude.confidence).lt 0 &&
  !CFloat.lt 1 (.ofBits t.attitude.confidence)

def controlFlags : Byte :=
  packFlags (t.control.actuatorsEnabled != 0) (t.control.saturated != 0)
    (t.control.targetSettled != 0)

def healthFlags : Byte :=
  packFlags (t.health.sensorsHealthy != 0) (t.health.estimatorHealthy != 0)
    (t.health.actuatorsHealthy != 0)

def stateFlags : BitVec 16 :=
  if t.attitude.valid != 0 then adcsTelemetryAttitudeValidFlag else 0

/-- The chain of writes, in the order of the source. -/
def puts : List (Put Byte) :=
  [ putU8 65,putU8 68,putU8 67,putU8 83, -- `ADCS`
    putU8 adcsTelemetryFormatVersion,
    putU8 (.ofNat 8 t.mode.toNat),
    putU16 t.stateFlags,
    putU32 t.sequence,
    putU64 t.timestampUs,
    putU32 t.sensors.validMask,
    putU32 t.health.activeFaults,
    putFloatArray t.attitude.quaternion,
    putFloatArray t.target.targetQuaternion,
    putFloatArray t.attitude.angularRateRadS,
    putFloatArray t.attitude.gyroBiasRadS,
    putFloatArray t.sensors.magneticFieldT,
    putFloatArray t.sensors.sunVectorBody,
    putFloat t.sensors.sunIrradianceWM2,
    putFloat t.attitude.confidence,
    putFloatArray t.control.requestedTorqueNm,
    putFloatArray t.control.requestedDipoleAM2,
    putFloatArray t.control.achievableTorqueNm,
    putFloat t.control.pointingErrorRad,
    putU8 t.controlFlags,
    putU8 t.healthFlags,
    putU16 0,
    putU32 t.health.rejectedCommands,
    putU32 t.health.droppedMessages,
    putU32 t.health.estimatorResets,
    putU32 t.health.controllerErrors,
    putU32 t.health.modeTransitions,
    putFloat t.health.minimumStackMarginWords ]

end AdcsTelemetryPacket

/-- What a call leaves: its status, and the two objects behind the pointers of the caller.
A pointer that is `NULL` is a `none`. -/
structure EncodeResult where
  status : AdcsTelemetryStatus
  payload : Option (ℕ → Byte)
  encodedSize : Option ℕ

/-- `used` stays within the 184 bytes of a record, so the sums of the source do not wrap. -/
def adcsTelemetryEncode (telemetry : Option AdcsTelemetryPacket) (payload : Option (ℕ → Byte))
    (payloadCapacity : ℕ) (encodedSize : Option ℕ) : EncodeResult :=
  match telemetry,payload,encodedSize with
  | some t,some memory,some _ =>
    if !t.isAccepted then ⟨.invalidArgument,payload,encodedSize⟩
    else
      match Put.all t.puts (.start memory payloadCapacity) with
      | (false,encoder) => ⟨.bufferTooSmall,some encoder.payload,some 0⟩
      | (true,encoder) => ⟨.ok,some encoder.payload,some encoder.used⟩
  | _,_,_ => ⟨.invalidArgument,payload,encodedSize⟩

/-- The encoding that the caller finds in its buffer. -/
def EncodeResult.encoding (r : EncodeResult) : List Byte :=
  match r.payload,r.encodedSize with
  | some memory,some size => (List.range size).map memory
  | _,_ => []

/-! ### Transmitted fields -/

/-- What the record tells of a packet. -/
@[ext] structure Transmitted where
  mode : AdcsMode
  attitudeValid : Bool
  sequence : BitVec 32
  timestampUs : BitVec 64
  validMask : BitVec 32
  activeFaults : BitVec 32
  quaternion : Fin 4 → FloatBits
  targetQuaternion : Fin 4 → FloatBits
  angularRateRadS : Fin 3 → FloatBits
  gyroBiasRadS : Fin 3 → FloatBits
  magneticFieldT : Fin 3 → FloatBits
  sunVectorBody : Fin 3 → FloatBits
  sunIrradianceWM2 : FloatBits
  confidence : FloatBits
  requestedTorqueNm : Fin 3 → FloatBits
  requestedDipoleAM2 : Fin 3 → FloatBits
  achievableTorqueNm : Fin 3 → FloatBits
  pointingErrorRad : FloatBits
  actuatorsEnabled : Bool
  saturated : Bool
  targetSettled : Bool
  sensorsHealthy : Bool
  estimatorHealthy : Bool
  actuatorsHealthy : Bool
  rejectedCommands : BitVec 32
  droppedMessages : BitVec 32
  estimatorResets : BitVec 32
  controllerErrors : BitVec 32
  modeTransitions : BitVec 32
  minimumStackMarginWords : FloatBits

def AdcsTelemetryPacket.transmitted (t : AdcsTelemetryPacket) : Transmitted where
  mode := t.mode
  attitudeValid := t.attitude.valid != 0
  sequence := t.sequence
  timestampUs := t.timestampUs
  validMask := t.sensors.validMask
  activeFaults := t.health.activeFaults
  quaternion := t.attitude.quaternion
  targetQuaternion := t.target.targetQuaternion
  angularRateRadS := t.attitude.angularRateRadS
  gyroBiasRadS := t.attitude.gyroBiasRadS
  magneticFieldT := t.sensors.magneticFieldT
  sunVectorBody := t.sensors.sunVectorBody
  sunIrradianceWM2 := t.sensors.sunIrradianceWM2
  confidence := t.attitude.confidence
  requestedTorqueNm := t.control.requestedTorqueNm
  requestedDipoleAM2 := t.control.requestedDipoleAM2
  achievableTorqueNm := t.control.achievableTorqueNm
  pointingErrorRad := t.control.pointingErrorRad
  actuatorsEnabled := t.control.actuatorsEnabled != 0
  saturated := t.control.saturated != 0
  targetSettled := t.control.targetSettled != 0
  sensorsHealthy := t.health.sensorsHealthy != 0
  estimatorHealthy := t.health.estimatorHealthy != 0
  actuatorsHealthy := t.health.actuatorsHealthy != 0
  rejectedCommands := t.health.rejectedCommands
  droppedMessages := t.health.droppedMessages
  estimatorResets := t.health.estimatorResets
  controllerErrors := t.health.controllerErrors
  modeTransitions := t.health.modeTransitions
  minimumStackMarginWords := t.health.minimumStackMarginWords

/-- The bytes of an array of floats. -/
def floatArrayBytes {count : ℕ} (values : Fin count → FloatBits) : List Byte :=
  (List.ofFn fun index => writeU32Be (values index)).flatten

namespace Transmitted

/-- The record as the list of its fields, each with its own width. -/
def pieces (r : Transmitted) : List (List Byte) :=
  [ [65],[68],[67],[83],
    [adcsTelemetryFormatVersion],
    [.ofNat 8 r.mode.toNat],
    writeU16Be (if r.attitudeValid then adcsTelemetryAttitudeValidFlag else 0),
    writeU32Be r.sequence,
    writeU64Be r.timestampUs,
    writeU32Be r.validMask,
    writeU32Be r.activeFaults,
    floatArrayBytes r.quaternion,
    floatArrayBytes r.targetQuaternion,
    floatArrayBytes r.angularRateRadS,
    floatArrayBytes r.gyroBiasRadS,
    floatArrayBytes r.magneticFieldT,
    floatArrayBytes r.sunVectorBody,
    writeU32Be r.sunIrradianceWM2,
    writeU32Be r.confidence,
    floatArrayBytes r.requestedTorqueNm,
    floatArrayBytes r.requestedDipoleAM2,
    floatArrayBytes r.achievableTorqueNm,
    writeU32Be r.pointingErrorRad,
    [packFlags r.actuatorsEnabled r.saturated r.targetSettled],
    [packFlags r.sensorsHealthy r.estimatorHealthy r.actuatorsHealthy],
    writeU16Be 0,
    writeU32Be r.rejectedCommands,
    writeU32Be r.droppedMessages,
    writeU32Be r.estimatorResets,
    writeU32Be r.controllerErrors,
    writeU32Be r.modeTransitions,
    writeU32Be r.minimumStackMarginWords ]

def record (r : Transmitted) : List Byte := r.pieces.flatten

end Transmitted

/-! ### The encoder writes the record -/

@[simp] theorem putU8_puts (value : BitVec 8) : Puts (putU8 value) [value] := .bytes _

@[simp] theorem putU16_puts (value : BitVec 16) : Puts (putU16 value) (writeU16Be value) :=
  .bytes _

@[simp] theorem putU32_puts (value : BitVec 32) : Puts (putU32 value) (writeU32Be value) :=
  .bytes _

@[simp] theorem putU64_puts (value : BitVec 64) : Puts (putU64 value) (writeU64Be value) := by
  rw [← writeU32Be_append]
  exact (putU32_puts _).andThen (putU32_puts _)

@[simp] theorem putFloat_puts (representation : FloatBits) :
    Puts (putFloat representation) (writeU32Be representation) := putU32_puts representation

@[simp] theorem putFloatArray_puts {count : ℕ} (values : Fin count → FloatBits) :
    Puts (putFloatArray values) (floatArrayBytes values) := by
  refine Puts.all ?_
  rw [List.ofFn_eq_map,List.ofFn_eq_map,List.forall₂_map_left_iff,List.forall₂_map_right_iff,
    List.forall₂_same]
  exact fun index _ => putFloat_puts (values index)

@[simp] theorem floatArrayBytes_length {count : ℕ} (values : Fin count → FloatBits) :
    (floatArrayBytes values).length = 4*count := by
  simp [floatArrayBytes,List.length_flatten,List.map_ofFn,Function.comp_def,Nat.mul_comm]

namespace AdcsTelemetryPacket

/-- Each write of the chain stores one field of the record. -/
theorem puts_pieces (t : AdcsTelemetryPacket) :
    List.Forall₂ Puts t.puts t.transmitted.pieces := by
  simp [puts,Transmitted.pieces,transmitted,controlFlags,healthFlags,stateFlags]

theorem puts_record (t : AdcsTelemetryPacket) : Puts (Put.all t.puts) t.transmitted.record :=
  .all t.puts_pieces

end AdcsTelemetryPacket

/-- The widths of the fields do not depend on their values. -/
theorem Transmitted.map_length_pieces (r r' : Transmitted) :
    r.pieces.map List.length = r'.pieces.map List.length := by
  simp [pieces]

theorem Transmitted.length_record (r : Transmitted) : r.record.length = 184 := by
  simp [record,pieces]

/-! ### The record determines the fields -/

theorem floatArrayBytes_injective {count : ℕ} :
    Function.Injective (floatArrayBytes : (Fin count → FloatBits) → List Byte) := by
  intro values values' h
  refine List.ofFn_injective <| (List.map_injective_iff.mpr writeU32Be_injective) ?_
  rw [List.map_ofFn,List.map_ofFn]
  refine List.eq_iff_flatten_eq.mpr ⟨h,?_⟩
  simp [List.map_ofFn,Function.comp_def]

/-- No flag hides another. -/
theorem packFlags_inj {a b c a' b' c' : Bool} :
    packFlags a b c = packFlags a' b' c' ↔ a = a' ∧ b = b' ∧ c = c' := by
  revert a b c a' b' c'
  decide

theorem stateFlags_inj {valid valid' : Bool} :
    (if valid then adcsTelemetryAttitudeValidFlag else 0) =
      (if valid' then adcsTelemetryAttitudeValidFlag else 0) ↔ valid = valid' := by
  revert valid valid'
  decide

/-- Modes that fit into a byte are told apart by it. -/
theorem modeByte_inj {mode mode' : AdcsMode} (h : mode.isValid = true)
    (h' : mode'.isValid = true) :
    BitVec.ofNat 8 mode.toNat = BitVec.ofNat 8 mode'.toNat ↔ mode = mode' := by
  rw [AdcsMode.isValid_iff] at h h'
  refine ⟨fun hbyte => AdcsMode.toNat_injective ?_,fun hmode => by rw [hmode]⟩
  have hnat := congrArg BitVec.toNat hbyte
  rwa [BitVec.toNat_ofNat,BitVec.toNat_ofNat,Nat.mod_eq_of_lt (by omega),
    Nat.mod_eq_of_lt (by omega)] at hnat

theorem Transmitted.record_inj {r r' : Transmitted} (h : r.mode.isValid = true)
    (h' : r'.mode.isValid = true) : r.record = r'.record ↔ r = r' := by
  refine ⟨fun heq => ?_,congrArg record⟩
  have hpieces := List.eq_iff_flatten_eq.mpr ⟨heq,map_length_pieces r r'⟩
  simp only [pieces,List.cons.injEq,true_and,and_true,modeByte_inj h h',packFlags_inj,
    writeU16Be_injective.eq_iff,writeU32Be_injective.eq_iff,writeU64Be_injective.eq_iff,
    floatArrayBytes_injective.eq_iff,stateFlags_inj,and_assoc] at hpieces
  exact Transmitted.ext_iff.mpr hpieces

/-! ### Calls -/

variable {t : AdcsTelemetryPacket} {capacity : ℕ}

theorem AdcsTelemetryPacket.isValid_of_isAccepted (ht : t.isAccepted = true) :
    t.mode.isValid = true := by
  simp only [isAccepted,Bool.and_eq_true] at ht
  tauto

/-- After the checks the outcome is that of the writes. -/
theorem adcsTelemetryEncode_accepted (ht : t.isAccepted = true) (memory : ℕ → Byte)
    (capacity size : ℕ) :
    let r := Put.all t.puts (.start memory capacity)
    adcsTelemetryEncode (some t) (some memory) capacity (some size) =
      if r.1 then ⟨.ok,some r.2.payload,some r.2.used⟩
      else ⟨.bufferTooSmall,some r.2.payload,some 0⟩ := by
  simp only [adcsTelemetryEncode,ht,Bool.not_true,Bool.false_eq_true,if_false]
  obtain ⟨ok,encoder⟩ := Put.all t.puts (.start memory capacity)
  cases ok <;> rfl

theorem adcsTelemetryEncode_ok (ht : t.isAccepted = true) (hcapacity : 184 ≤ capacity)
    (memory : ℕ → Byte) (size : ℕ) :
    adcsTelemetryEncode (some t) (some memory) capacity (some size) =
      ⟨.ok,some (blit memory 0 t.transmitted.record),some 184⟩ := by
  rw [← t.transmitted.length_record] at hcapacity
  obtain ⟨hok,hused,hpayload⟩ := t.puts_record.start_ok memory hcapacity
  rw [t.transmitted.length_record] at hused
  rw [adcsTelemetryEncode_accepted ht,if_pos hok,hpayload,hused]

/-- A buffer that is too small keeps an initial part of the record. -/
theorem adcsTelemetryEncode_tooSmall (ht : t.isAccepted = true) (hcapacity : capacity < 184)
    (memory : ℕ → Byte) (size : ℕ) :
    ∃ n ≤ capacity,adcsTelemetryEncode (some t) (some memory) capacity (some size) =
      ⟨.bufferTooSmall,some (blit memory 0 (t.transmitted.record.take n)),some 0⟩ := by
  rw [← t.transmitted.length_record] at hcapacity
  obtain ⟨hrefused,n,hn,hpayload⟩ := t.puts_record.start_refused memory hcapacity
  refine ⟨n,hn,?_⟩
  rw [adcsTelemetryEncode_accepted ht,if_neg (by rw [hrefused]; decide),hpayload]

/-- The bytes of a call that succeeded are the record. -/
theorem encoding_of_ok (ht : t.isAccepted = true) (hcapacity : 184 ≤ capacity)
    (memory : ℕ → Byte) (size : ℕ) :
    (adcsTelemetryEncode (some t) (some memory) capacity (some size)).encoding =
      t.transmitted.record := by
  have hread := map_range_blit memory t.transmitted.record
  rw [Transmitted.length_record] at hread
  rw [adcsTelemetryEncode_ok ht hcapacity]
  exact hread

/-- A call that writes a record of 184 bytes or reports that the buffer is too small, and
never touches the memory from the capacity on. -/
structure IsBounded (memory : ℕ → Byte) (capacity : ℕ) (r : EncodeResult) : Prop where
  ok_iff : r.status = .ok ↔ 184 ≤ capacity
  fixedSize : 184 ≤ capacity → r.encodedSize = some 184
  tooSmall : capacity < 184 → r.status = .bufferTooSmall ∧ r.encodedSize = some 0
  beyond : ∃ written,r.payload = some written ∧ ∀ i,capacity ≤ i → written i = memory i

theorem adcsTelemetryEncode_isBounded (ht : t.isAccepted = true) (memory : ℕ → Byte)
    (capacity size : ℕ) :
    IsBounded memory capacity
      (adcsTelemetryEncode (some t) (some memory) capacity (some size)) := by
  by_cases hcapacity : 184 ≤ capacity
  · rw [adcsTelemetryEncode_ok ht hcapacity]
    refine ⟨iff_of_true rfl hcapacity,fun _ => rfl,fun h => by omega,_,rfl,fun i hi => ?_⟩
    refine blit_after ?_
    rw [Transmitted.length_record]
    omega
  · obtain ⟨n,hn,hcall⟩ := adcsTelemetryEncode_tooSmall ht (not_le.mp hcapacity) memory size
    rw [hcall]
    refine ⟨iff_of_false (by simp) hcapacity,fun h => absurd h hcapacity,fun _ => ⟨rfl,rfl⟩,_,rfl,
      fun i hi => blit_after ?_⟩
    have htake := List.length_take_le n t.transmitted.record
    omega

/-- The encoding has a fixed size, stays within the buffer, and two packets share it exactly
when they agree on every transmitted field. -/
theorem adcsTelemetryEncode_fixed_bounded_injective {t t' : AdcsTelemetryPacket}
    (ht : t.isAccepted = true) (ht' : t'.isAccepted = true) (memory memory' : ℕ → Byte)
    (capacity capacity' size size' : ℕ) :
    IsBounded memory capacity
      (adcsTelemetryEncode (some t) (some memory) capacity (some size)) ∧
    (184 ≤ capacity → 184 ≤ capacity' →
      ((adcsTelemetryEncode (some t) (some memory) capacity (some size)).encoding =
        (adcsTelemetryEncode (some t') (some memory') capacity' (some size')).encoding ↔
      t.transmitted = t'.transmitted)) := by
  refine ⟨adcsTelemetryEncode_isBounded ht memory capacity size,fun hcapacity hcapacity' => ?_⟩
  rw [encoding_of_ok ht hcapacity,encoding_of_ok ht' hcapacity']
  exact Transmitted.record_inj (AdcsTelemetryPacket.isValid_of_isAccepted ht)
    (AdcsTelemetryPacket.isValid_of_isAccepted ht')

/-- A packet in the science mode with full confidence. -/
def sciencePacket : AdcsTelemetryPacket :=
  { mode := .science, attitude := { confidence := 0x3f800000 } }

/-- It is told apart from a packet of the boot mode. -/
theorem science_and_boot_encodings_differ :
    IsBounded (fun _ => 0) 200
      (adcsTelemetryEncode (some sciencePacket) (some fun _ => 0) 200 (some 7)) ∧
    (adcsTelemetryEncode (some sciencePacket) (some fun _ => 0) 200 (some 7)).encoding ≠
      (adcsTelemetryEncode (some {}) (some fun _ => 1) 184 (some 0)).encoding := by
  have hscience : sciencePacket.isAccepted = true := by decide +kernel
  have hboot : AdcsTelemetryPacket.isAccepted {} = true := by decide +kernel
  obtain ⟨hbounded,hiff⟩ := adcsTelemetryEncode_fixed_bounded_injective hscience hboot
    (fun _ => 0) (fun _ => 1) 200 184 7 0
  refine ⟨hbounded,fun hsame => ?_⟩
  have hmode := congrArg Transmitted.mode ((hiff (by decide) (by decide)).mp hsame)
  cases hmode

end FlightSoftware.Adcs
