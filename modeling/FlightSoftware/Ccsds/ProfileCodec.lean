import FlightSoftware.Ccsds.Profile

/-!
# The profile codec is exact

`build` and `parse` validate along different routes. Each gets one lemma that
says exactly when it succeeds and with what; the two round trips and the image
of `build` follow from these.
-/

namespace FlightSoftware.Ccsds
open BigEndian

/-- Everything in front of the checksum. -/
def packetBody (contentType : LgCcsdsContentType) (apid : BitVec 16) (type : CcsdsPacketType)
    (sequenceCount : BitVec 16) (itemCount : BitVec 32) (compression : Option Ccsds121Config)
    (payload : List Byte) : List Byte :=
  (writeU16Be (packetId ⟨type,true,apid,.unsegmented,sequenceCount⟩) ++
    writeU16Be (sequenceControl ⟨type,true,apid,.unsegmented,sequenceCount⟩) ++
    writeU16Be (BitVec.ofNat 16 (payload.length+19))) ++
    profileHeader contentType itemCount compression payload.length ++ payload

/-- The packet `build` writes once every check has passed: the body and its checksum. -/
def builtPacket (contentType : LgCcsdsContentType) (apid : BitVec 16) (type : CcsdsPacketType)
    (sequenceCount : BitVec 16) (itemCount : BitVec 32) (compression : Option Ccsds121Config)
    (payload : List Byte) : List Byte :=
  packetBody contentType apid type sequenceCount itemCount compression payload ++
    writeU32Be (ccsdsCrc32
      (packetBody contentType apid type sequenceCount itemCount compression payload))

theorem configBytes_length (compression : Option Ccsds121Config) :
    (configBytes compression).length = 5 := by
  cases compression <;> rfl

theorem profileHeader_length (contentType : LgCcsdsContentType) (itemCount : BitVec 32)
    (compression : Option Ccsds121Config) (n : ℕ) :
    (profileHeader contentType itemCount compression n).length = 16 := by
  simp [profileHeader,configBytes_length]

theorem packetBody_length (contentType : LgCcsdsContentType) (apid : BitVec 16)
    (type : CcsdsPacketType) (sequenceCount : BitVec 16) (itemCount : BitVec 32)
    (compression : Option Ccsds121Config) (payload : List Byte) :
    (packetBody contentType apid type sequenceCount itemCount compression payload).length =
      payload.length + 22 := by
  simp only [packetBody,List.length_append,writeU16Be_length,profileHeader_length]
  omega

/-! ### When each direction succeeds -/

theorem routeForContent_apid {contentType : LgCcsdsContentType} {apid : BitVec 16}
    {type : CcsdsPacketType} (h : routeForContent contentType = .ok (apid,type)) :
    ¬ apid > maxApid := by
  cases contentType <;> simp only [routeForContent,Except.ok.injEq,Prod.mk.injEq,reduceCtorEq] at h
  all_goals obtain ⟨rfl,rfl⟩ := h; decide

theorem writeHeader_eq_ok {header : CcsdsSpacePacketHeader} {n capacity : ℕ}
    (ha : ¬ header.apid > maxApid) (hs : ¬ header.sequenceCount > maxSequenceCount)
    (h0 : 0 < n) (hn : n ≤ 65536) (hc : 6 ≤ capacity) :
    ccsdsSpacePacketWriteHeader header n capacity = .ok (writeU16Be (packetId header) ++
      writeU16Be (sequenceControl header) ++ writeU16Be (BitVec.ofNat 16 (n-1))) := by
  have hv : validateHeader header = .ok () := by
    rw [validateHeader,if_neg (not_or.mpr ⟨ha,hs⟩)]
  unfold ccsdsSpacePacketWriteHeader maxDataSize primaryHeaderSize
  rw [hv]
  dsimp only
  rw [if_neg (by omega),if_neg (by omega)]

theorem lgCcsdsProfileBuild_eq_ok_iff {contentType : LgCcsdsContentType}
    {sequenceCount : BitVec 16} {itemCount : BitVec 32} {compression : Option Ccsds121Config}
    {payload : List Byte} {capacity : ℕ} {out : List Byte} :
    lgCcsdsProfileBuild contentType sequenceCount itemCount compression payload capacity = .ok out ↔
      ¬ sequenceCount > maxSequenceCount ∧ payload.length ≤ 65516 ∧
      payload.length + 26 ≤ capacity ∧
      validateContent contentType itemCount compression payload.length = .ok () ∧
      ∃ apid type,routeForContent contentType = .ok (apid,type) ∧
        out = builtPacket contentType apid type sequenceCount itemCount compression payload := by
  unfold lgCcsdsProfileBuild
  have hm : profileMaxPayloadSize = 65516 := rfl
  have hd : profileHeaderSize + payload.length + profileCrcSize = payload.length + 20 := by
    simp only [profileHeaderSize,profileCrcSize]
    omega
  have ht : primaryHeaderSize + (payload.length + 20) = payload.length + 26 := by
    simp only [primaryHeaderSize]
    omega
  rw [hm,hd]
  dsimp only
  rw [ht]
  by_cases hr : sequenceCount > maxSequenceCount ∨ payload.length > 65516
  · rw [if_pos hr]
    simp only [reduceCtorEq,false_iff]
    rintro ⟨hs,hp,-⟩
    rcases hr with hr | hr
    · exact hs hr
    · omega
  obtain ⟨hs,hp⟩ := not_or.mp hr
  by_cases hc : capacity < payload.length + 26
  · rw [if_neg hr,if_pos hc]
    simp only [reduceCtorEq,false_iff]
    rintro ⟨-,-,hc',-⟩
    omega
  rw [if_neg hr,if_neg hc]
  cases hv : validateContent contentType itemCount compression payload.length with
  | error e => simp
  | ok u =>
    cases hroute : routeForContent contentType with
    | error e => simp
    | ok route =>
      obtain ⟨apid,type⟩ := route
      dsimp only
      rw [writeHeader_eq_ok (routeForContent_apid hroute) hs (by omega) (by omega) (by omega)]
      simp only [Except.ok.injEq,Prod.mk.injEq]
      constructor
      · rintro rfl
        exact ⟨hs,by omega,by omega,trivial,apid,type,⟨rfl,rfl⟩,rfl⟩
      · rintro ⟨-,-,-,-,_,_,⟨rfl,rfl⟩,rfl⟩
        rfl

/-- What `parse` demands of a packet, with the content type, the configuration it
returns and the pointer it validates. -/
structure Accepted (packet : List Byte) (contentType : LgCcsdsContentType)
    (config : Ccsds121Config) (ptr : Option Ccsds121Config) : Prop where
  version : byteAt packet 0 &&& 0xE0#8 = 0#8
  long : 26 ≤ packet.length
  length : (readU16Be (packet.drop 4)).toNat + 7 = packet.length
  secondary : (headerOf packet).hasSecondaryHeader = true
  unsegmented : (headerOf packet).sequenceFlags = .unsegmented
  crc : readU32Be (packet.drop (packet.length-4)) = ccsdsCrc32 (packet.take (packet.length-4))
  profile : byteAt packet 6 = profileVersion
  reserved : byteAt packet 13 = 0#8
  content : LgCcsdsContentType.ofValue ((byteAt packet 7).setWidth 32) = contentType
  route : routeForContent contentType = .ok ((headerOf packet).apid,(headerOf packet).type)
  payloadLength : (readU32Be (packet.drop 18)).toNat = packet.length - 26
  fields : parseConfigFields contentType (packet.drop 6) = .ok (config,ptr)
  valid : validateContent contentType (readU32Be (packet.drop 14)) ptr (packet.length-26) = .ok ()

/-- The view of an accepted packet. -/
def viewOf (packet : List Byte) (contentType : LgCcsdsContentType) (config : Ccsds121Config) :
    LgCcsdsProfileView where
  spacePacket := ⟨headerOf packet,packet.drop 6,packet.length-6,packet.length⟩
  metadata := ⟨contentType,(headerOf packet).sequenceCount,readU32Be (packet.drop 14),config⟩
  payload := (packet.drop 22).take (packet.length-26)
  payloadLength := packet.length-26
  crc32 := readU32Be (packet.drop (packet.length-4))

theorem Accepted.data_eq {packet : List Byte} {n : ℕ} (h : n + 7 = packet.length) :
    (packet.drop 6).take (n+1) = packet.drop 6 :=
  List.take_of_length_le (by rw [List.length_drop]; omega)

theorem Accepted.spacePacket {packet : List Byte} {contentType : LgCcsdsContentType}
    {config : Ccsds121Config} {ptr : Option Ccsds121Config}
    (h : Accepted packet contentType config ptr) :
    ccsdsSpacePacketParse packet =
      .ok ⟨headerOf packet,packet.drop 6,packet.length-6,packet.length⟩ := by
  have hl := h.length
  have h26 := h.long
  refine ccsdsSpacePacketParse_eq_ok_iff.mpr ⟨by omega,h.version,by omega,?_⟩
  rw [Accepted.data_eq hl,hl,show (readU16Be (packet.drop 4)).toNat+1 = packet.length-6 by omega]

theorem lgCcsdsProfileParse_of_accepted {packet : List Byte} {contentType : LgCcsdsContentType}
    {config : Ccsds121Config} {ptr : Option Ccsds121Config}
    (h : Accepted packet contentType config ptr) :
    lgCcsdsProfileParse packet = .ok (viewOf packet contentType config) := by
  have h26 := h.long
  unfold lgCcsdsProfileParse
  rw [h.spacePacket]
  dsimp only
  rw [if_neg (by
      simp only [h.secondary,h.unsegmented,profileHeaderSize,profileCrcSize]
      simp
      omega)]
  rw [if_neg (by simpa only [profileCrcSize,ne_eq,not_not] using h.crc)]
  rw [if_neg (by simpa only [byteAt_drop,ne_eq,not_not] using h.profile)]
  rw [if_neg (by simpa only [byteAt_drop,ne_eq,not_not] using h.reserved)]
  simp only [byteAt_drop,h.content,h.route,ne_eq,not_true_eq_false,or_false,if_false,
    List.drop_drop,Nat.reduceAdd,h.payloadLength]
  rw [if_neg (by simp only [profileHeaderSize,profileCrcSize]; omega),h.fields]
  simp only [h.valid]
  rfl

theorem lgCcsdsProfileParse_eq_ok_iff {packet : List Byte} {view : LgCcsdsProfileView} :
    lgCcsdsProfileParse packet = .ok view ↔ ∃ contentType config ptr,
      Accepted packet contentType config ptr ∧ view = viewOf packet contentType config := by
  constructor
  · intro h
    have hok := h
    unfold lgCcsdsProfileParse at h
    cases hsp : ccsdsSpacePacketParse packet with
    | error e => rw [hsp] at h; cases h
    | ok sp =>
      obtain ⟨hl,hv,hfit,rfl⟩ := ccsdsSpacePacketParse_eq_ok_iff.mp hsp
      rw [hsp] at h
      dsimp only at h
      split at h
      · cases h
      rename_i hg
      simp only [not_or,ne_eq,not_not,Bool.not_eq_true',profileHeaderSize,profileCrcSize] at hg
      obtain ⟨hlen,hsec,hflags,hdata⟩ := hg
      rw [Accepted.data_eq hlen] at h
      split at h
      · cases h
      rename_i hcrc
      split at h
      · cases h
      rename_i hver
      split at h
      · cases h
      rename_i hres
      split at h
      · cases h
      rename_i apid type hroute
      split at h
      · cases h
      rename_i hap
      split at h
      · cases h
      rename_i hpl
      split at h
      · cases h
      rename_i config ptr hfields
      split at h
      · cases h
      rename_i hvalid
      simp only [not_or,ne_eq,not_not] at hap hpl hcrc hver hres
      simp only [List.drop_drop,byteAt_drop,Nat.reduceAdd,profileHeaderSize,profileCrcSize] at *
      have hpl' : (readU32Be (packet.drop 18)).toNat = packet.length - 26 := by omega
      rw [hpl'] at hvalid
      have hacc : Accepted packet _ config ptr :=
        ⟨hv,by omega,hlen,by simpa using hsec,hflags,hcrc,hver,hres,rfl,
          by rw [hroute,hap.1,hap.2],hpl',hfields,hvalid⟩
      refine ⟨_,config,ptr,hacc,?_⟩
      rw [lgCcsdsProfileParse_of_accepted hacc] at hok
      exact (Except.ok.inj hok).symm
  · rintro ⟨contentType,config,ptr,hacc,rfl⟩
    exact lgCcsdsProfileParse_of_accepted hacc

/-! ### Content types and configurations travel unchanged -/

theorem LgCcsdsContentType.value_ofValue (v : BitVec 32) : (ofValue v).value = v := by
  unfold ofValue
  split_ifs with h4 h0 h1 h2
  · rfl
  · exact h0.symm
  · exact h1.symm
  · exact h2.symm
  · have h3 : v = 3#32 := by bv_omega
    exact h3.symm

theorem LgCcsdsContentType.ofValue_value {contentType : LgCcsdsContentType}
    {route : BitVec 16 × CcsdsPacketType} (h : routeForContent contentType = .ok route) :
    ofValue ((contentType.value.setWidth 8).setWidth 32) = contentType := by
  cases contentType with
  | other v hv => simp [routeForContent] at h
  | _ => rfl

/-- A configuration is present exactly for compressed telemetry, and legal there. -/
theorem validateContent_compression {contentType : LgCcsdsContentType} {itemCount : BitVec 32}
    {compression : Option Ccsds121Config} {n : ℕ}
    (h : validateContent contentType itemCount compression n = .ok ()) :
    (contentType = .compressedTelemetry ∧ ∃ config,compression = some config ∧
      ccsds121ValidateConfig config = .ok ()) ∨
    (contentType ≠ .compressedTelemetry ∧ compression = none) := by
  unfold validateContent at h
  split at h
  · cases h
  by_cases hc : contentType = .compressedTelemetry
  · rw [if_pos hc] at h
    cases compression with
    | none => cases h
    | some config =>
      dsimp only at h
      split_ifs at h
      exact .inl ⟨hc,config,rfl,h⟩
  · rw [if_neg hc] at h
    cases compression with
    | none => exact .inr ⟨hc,rfl⟩
    | some config => simp at h

theorem configFlags_known (config : Ccsds121Config) :
    configFlags config &&& ~~~profileKnownFlags = 0#8 ∧
    (configFlags config &&& profileFlagSigned != 0#8) = config.signedSamples ∧
    (configFlags config &&& profileFlagPreprocess != 0#8) = config.preprocess ∧
    (configFlags config &&& profileFlagRestricted != 0#8) = config.restrictedCodeOptions := by
  unfold configFlags
  generalize config.signedSamples = signed
  generalize config.preprocess = preprocess
  generalize config.restrictedCodeOptions = restricted
  revert signed preprocess restricted
  decide

/-- A flag byte with no unknown bit is rebuilt from its three flags. -/
theorem configFlags_of_known {b : Byte} (h : b &&& ~~~profileKnownFlags = 0#8)
    (bits block : Byte) (interval : BitVec 16) :
    configFlags ⟨bits,block,interval,b &&& profileFlagSigned != 0#8,
      b &&& profileFlagPreprocess != 0#8,b &&& profileFlagRestricted != 0#8⟩ = b := by
  have hall : ∀ b : Byte,b &&& ~~~profileKnownFlags = 0#8 →
      (if (b &&& profileFlagSigned != 0#8) = true then profileFlagSigned else 0#8) |||
        (if (b &&& profileFlagPreprocess != 0#8) = true then profileFlagPreprocess else 0#8) |||
        (if (b &&& profileFlagRestricted != 0#8) = true then profileFlagRestricted else 0#8) =
      b := by decide
  exact hall b h

theorem parseCompressionConfig_write {config : Ccsds121Config}
    (h : ccsds121ValidateConfig config = .ok ()) (a b : Byte) (rest : List Byte) :
    parseCompressionConfig (a :: b :: (configBytes (some config) ++ 0#8 :: rest)) =
      .ok config := by
  obtain ⟨hk,hsigned,hpre,hrestricted⟩ := configFlags_known config
  have hint := readU16Be_write config.referenceSampleInterval (0#8 :: rest)
  unfold parseCompressionConfig
  simp only [configBytes,List.cons_append,List.nil_append,byteAt_cons_succ,byteAt_cons_zero,
    List.drop_succ_cons,List.drop_zero]
  rw [hint,hsigned,hpre,hrestricted,if_neg (by simpa [writeU16Be] using hk),h]

theorem parseConfigFields_write {contentType : LgCcsdsContentType} {itemCount : BitVec 32}
    {compression : Option Ccsds121Config} {n : ℕ}
    (h : validateContent contentType itemCount compression n = .ok ()) (a b : Byte)
    (rest : List Byte) :
    parseConfigFields contentType (a :: b :: (configBytes compression ++ 0#8 :: rest)) =
      .ok (compression.getD .zero,compression) := by
  unfold parseConfigFields
  rcases validateContent_compression h with ⟨hc,config,rfl,hcfg⟩ | ⟨hc,rfl⟩
  · rw [if_pos hc,parseCompressionConfig_write hcfg]
    rfl
  · rw [if_neg hc]
    rfl

/-- The five configuration bytes of a received header. -/
theorem take_five {hdr : List Byte} (h : 8 ≤ hdr.length) :
    (hdr.drop 2).take 5 =
      [byteAt hdr 2,byteAt hdr 3,byteAt hdr 4] ++ (hdr.drop 5).take 2 := by
  rw [drop_eq_byteAt_cons (by omega : 2 < hdr.length),
    drop_eq_byteAt_cons (by omega : 2+1 < hdr.length),
    drop_eq_byteAt_cons (by omega : 2+1+1 < hdr.length)]
  rfl

theorem parseCompressionConfig_eq_ok {hdr : List Byte} {config : Ccsds121Config}
    (hl : 8 ≤ hdr.length) (h : parseCompressionConfig hdr = .ok config) :
    configBytes (some config) = (hdr.drop 2).take 5 := by
  unfold parseCompressionConfig at h
  split at h
  · cases h
  rename_i hk
  simp only [not_or,ne_eq,not_not] at hk
  dsimp only at h
  split at h
  · cases h
  obtain rfl := Except.ok.inj h
  rw [configBytes,configFlags_of_known hk.1,
    writeU16Be_readU16Be (by rw [List.length_drop]; omega),take_five hl]

/-- The configuration bytes of an accepted header are those `build` writes for
the pointer that was validated. -/
theorem parseConfigFields_eq_ok {contentType : LgCcsdsContentType} {config : Ccsds121Config}
    {ptr : Option Ccsds121Config} {hdr : List Byte} (hl : 8 ≤ hdr.length)
    (h : parseConfigFields contentType hdr = .ok (config,ptr)) :
    configBytes ptr = (hdr.drop 2).take 5 ∧
      ptr = if contentType = .compressedTelemetry then some config else none := by
  unfold parseConfigFields at h
  by_cases hc : contentType = .compressedTelemetry
  · rw [if_pos hc] at h ⊢
    split at h
    · cases h
    rename_i hok
    simp only [Except.ok.injEq,Prod.mk.injEq] at h
    obtain ⟨rfl,rfl⟩ := h
    exact ⟨parseCompressionConfig_eq_ok hl hok,rfl⟩
  · rw [if_neg hc] at h ⊢
    split at h
    · cases h
    rename_i hz
    simp only [not_or,ne_eq,not_not] at hz
    obtain ⟨h2,h3,h4,h5,h6⟩ := hz
    simp only [Except.ok.injEq,Prod.mk.injEq] at h
    obtain ⟨rfl,rfl⟩ := h
    refine ⟨?_,rfl⟩
    rw [take_five hl,drop_eq_byteAt_cons (by omega : 5 < hdr.length),
      drop_eq_byteAt_cons (by omega : 5+1 < hdr.length),h2,h3,h4,h5,h6]
    rfl

/-! ### The two round trips -/

section Layout

variable (contentType : LgCcsdsContentType) (apid : BitVec 16) (type : CcsdsPacketType)
  (sequenceCount : BitVec 16) (itemCount : BitVec 32) (compression : Option Ccsds121Config)
  (payload : List Byte)

/-- The bytes of a packet from the item count on. -/
def packetTail : List Byte :=
  writeU32Be itemCount ++ (writeU32Be (BitVec.ofNat 32 payload.length) ++ (payload ++
    writeU32Be (ccsdsCrc32
      (packetBody contentType apid type sequenceCount itemCount compression payload))))

/-- The bytes of a packet from the profile header on. -/
def packetData : List Byte :=
  profileVersion :: contentType.value.setWidth 8 :: (configBytes compression ++ 0#8 ::
    packetTail contentType apid type sequenceCount itemCount compression payload)

theorem builtPacket_eq :
    builtPacket contentType apid type sequenceCount itemCount compression payload =
      writeU16Be (packetId ⟨type,true,apid,.unsegmented,sequenceCount⟩) ++
      (writeU16Be (sequenceControl ⟨type,true,apid,.unsegmented,sequenceCount⟩) ++
      (writeU16Be (BitVec.ofNat 16 (payload.length+19)) ++
      packetData contentType apid type sequenceCount itemCount compression payload)) := by
  rw [packetData,packetTail,builtPacket]
  generalize writeU32Be (ccsdsCrc32 _) = crc
  simp only [packetBody,profileHeader,List.append_assoc,List.cons_append,List.nil_append]

theorem builtPacket_length :
    (builtPacket contentType apid type sequenceCount itemCount compression payload).length =
      payload.length + 26 := by
  rw [builtPacket,List.length_append,writeU32Be_length,packetBody_length]

theorem builtPacket_drop_two :
    (builtPacket contentType apid type sequenceCount itemCount compression payload).drop 2 =
      writeU16Be (sequenceControl ⟨type,true,apid,.unsegmented,sequenceCount⟩) ++
      (writeU16Be (BitVec.ofNat 16 (payload.length+19)) ++
      packetData contentType apid type sequenceCount itemCount compression payload) := by
  rw [builtPacket_eq,List.drop_left' (writeU16Be_length _)]

theorem builtPacket_drop_four :
    (builtPacket contentType apid type sequenceCount itemCount compression payload).drop 4 =
      writeU16Be (BitVec.ofNat 16 (payload.length+19)) ++
      packetData contentType apid type sequenceCount itemCount compression payload := by
  have h := congrArg (List.drop 2) (builtPacket_drop_two contentType apid type sequenceCount
    itemCount compression payload)
  rwa [List.drop_drop,List.drop_left' (writeU16Be_length _)] at h

theorem builtPacket_drop_six :
    (builtPacket contentType apid type sequenceCount itemCount compression payload).drop 6 =
      packetData contentType apid type sequenceCount itemCount compression payload := by
  have h := congrArg (List.drop 2) (builtPacket_drop_four contentType apid type sequenceCount
    itemCount compression payload)
  rwa [List.drop_drop,List.drop_left' (writeU16Be_length _)] at h

theorem builtPacket_drop_fourteen :
    (builtPacket contentType apid type sequenceCount itemCount compression payload).drop 14 =
      packetTail contentType apid type sequenceCount itemCount compression payload := by
  have h := congrArg (List.drop 8) (builtPacket_drop_six contentType apid type sequenceCount
    itemCount compression payload)
  rw [List.drop_drop] at h
  rw [h]
  cases compression <;> rfl

theorem builtPacket_drop_eighteen :
    (builtPacket contentType apid type sequenceCount itemCount compression payload).drop 18 =
      writeU32Be (BitVec.ofNat 32 payload.length) ++ (payload ++ writeU32Be (ccsdsCrc32
        (packetBody contentType apid type sequenceCount itemCount compression payload))) := by
  have h := congrArg (List.drop 4) (builtPacket_drop_fourteen contentType apid type sequenceCount
    itemCount compression payload)
  rwa [List.drop_drop,packetTail,List.drop_left' (writeU32Be_length _)] at h

theorem builtPacket_drop_twentyTwo :
    (builtPacket contentType apid type sequenceCount itemCount compression payload).drop 22 =
      payload ++ writeU32Be (ccsdsCrc32
        (packetBody contentType apid type sequenceCount itemCount compression payload)) := by
  have h := congrArg (List.drop 4) (builtPacket_drop_eighteen contentType apid type sequenceCount
    itemCount compression payload)
  rwa [List.drop_drop,List.drop_left' (writeU32Be_length _)] at h

/-- The checksum sits behind the body and covers it. -/
theorem builtPacket_crc :
    readU32Be ((builtPacket contentType apid type sequenceCount itemCount compression payload).drop
      (payload.length+22)) = ccsdsCrc32
        (packetBody contentType apid type sequenceCount itemCount compression payload) ∧
    (builtPacket contentType apid type sequenceCount itemCount compression payload).take
      (payload.length+22) =
        packetBody contentType apid type sequenceCount itemCount compression payload := by
  have hl := packetBody_length contentType apid type sequenceCount itemCount compression payload
  rw [builtPacket,← hl,List.drop_left,List.take_left]
  exact ⟨readU32Be_write _ [],rfl⟩

variable {contentType apid type sequenceCount itemCount compression payload}

theorem headerOf_builtPacket (hs : ¬ sequenceCount > maxSequenceCount)
    (hr : routeForContent contentType = .ok (apid,type)) :
    headerOf (builtPacket contentType apid type sequenceCount itemCount compression payload) =
      ⟨type,true,apid,.unsegmented,sequenceCount⟩ := by
  apply headerOf_eq (routeForContent_apid hr) hs
  · rw [builtPacket_eq,readU16Be_write]
  · rw [builtPacket_drop_two,readU16Be_write]

/-- What `build` writes is accepted, with the configuration it was given. -/
theorem accepted_builtPacket (hs : ¬ sequenceCount > maxSequenceCount)
    (hp : payload.length ≤ 65516)
    (hv : validateContent contentType itemCount compression payload.length = .ok ())
    (hr : routeForContent contentType = .ok (apid,type)) :
    Accepted (builtPacket contentType apid type sequenceCount itemCount compression payload)
      contentType (compression.getD .zero) compression := by
  have hlen := builtPacket_length contentType apid type sequenceCount itemCount compression payload
  have hhdr : headerOf (builtPacket contentType apid type sequenceCount itemCount compression
      payload) = ⟨type,true,apid,.unsegmented,sequenceCount⟩ := headerOf_builtPacket hs hr
  have hd6 := builtPacket_drop_six contentType apid type sequenceCount itemCount compression payload
  obtain ⟨hcrc,hbody⟩ := builtPacket_crc contentType apid type sequenceCount itemCount compression
    payload
  exact {
    version := by rw [builtPacket_eq]; exact version_of_packetId (routeForContent_apid hr)
    long := by omega
    length := by rw [builtPacket_drop_four,readU16Be_write,BitVec.toNat_ofNat]; omega
    secondary := by rw [hhdr]
    unsegmented := by rw [hhdr]
    crc := by
      rw [show (builtPacket contentType apid type sequenceCount itemCount compression
        payload).length - 4 = payload.length + 22 by omega,hcrc,hbody]
    profile := by rw [← Nat.add_zero 6,← byteAt_drop,hd6]; rfl
    reserved := by rw [show 13 = 6+7 from rfl,← byteAt_drop,hd6]; cases compression <;> rfl
    content := by
      rw [show 7 = 6+1 from rfl,← byteAt_drop,hd6]
      exact LgCcsdsContentType.ofValue_value hr
    route := by rw [hhdr,hr]
    payloadLength := by rw [builtPacket_drop_eighteen,readU32Be_write,BitVec.toNat_ofNat]; omega
    fields := by rw [hd6]; exact parseConfigFields_write hv _ _ _
    valid := by
      rw [builtPacket_drop_fourteen,packetTail,readU32Be_write,hlen,Nat.add_sub_cancel]
      exact hv }

theorem viewOf_builtPacket (hs : ¬ sequenceCount > maxSequenceCount)
    (hr : routeForContent contentType = .ok (apid,type)) (config : Ccsds121Config) :
    (viewOf (builtPacket contentType apid type sequenceCount itemCount compression payload)
      contentType config).metadata = ⟨contentType,sequenceCount,itemCount,config⟩ ∧
    (viewOf (builtPacket contentType apid type sequenceCount itemCount compression payload)
      contentType config).payload = payload ∧
    (viewOf (builtPacket contentType apid type sequenceCount itemCount compression payload)
      contentType config).payloadLength = payload.length ∧
    (viewOf (builtPacket contentType apid type sequenceCount itemCount compression payload)
      contentType config).crc32 = ccsdsCrc32 (packetBody contentType apid type sequenceCount
        itemCount compression payload) := by
  have hlen := builtPacket_length contentType apid type sequenceCount itemCount compression payload
  simp only [viewOf,hlen,headerOf_builtPacket hs hr,Nat.add_sub_cancel]
  refine ⟨?_,?_,trivial,?_⟩
  · rw [builtPacket_drop_fourteen,packetTail,readU32Be_write]
  · rw [builtPacket_drop_twentyTwo,List.take_left]
  · exact (builtPacket_crc contentType apid type sequenceCount itemCount compression payload).1

end Layout

theorem Accepted.headerOf_eta {packet : List Byte} {contentType : LgCcsdsContentType}
    {config : Ccsds121Config} {ptr : Option Ccsds121Config}
    (h : Accepted packet contentType config ptr) :
    (⟨(headerOf packet).type,true,(headerOf packet).apid,.unsegmented,
      (headerOf packet).sequenceCount⟩ : CcsdsSpacePacketHeader) = headerOf packet := by
  rw [← h.secondary,← h.unsegmented]

/-- An accepted packet is the packet `build` writes for the fields parsed from it. -/
theorem Accepted.eq_builtPacket {packet : List Byte} {contentType : LgCcsdsContentType}
    {config : Ccsds121Config} {ptr : Option Ccsds121Config}
    (h : Accepted packet contentType config ptr) :
    packet = builtPacket contentType (headerOf packet).apid (headerOf packet).type
      (headerOf packet).sequenceCount (readU32Be (packet.drop 14)) ptr
      ((packet.drop 22).take (packet.length-26)) := by
  have h26 := h.long
  have hlen := h.length
  have hpl : ((packet.drop 22).take (packet.length-26)).length = packet.length-26 := by
    rw [List.length_take,List.length_drop]
    omega
  -- the body of the rebuilt packet is the received body
  have hbody : packetBody contentType (headerOf packet).apid (headerOf packet).type
      (headerOf packet).sequenceCount (readU32Be (packet.drop 14)) ptr
      ((packet.drop 22).take (packet.length-26)) = packet.take (packet.length-4) := by
    have hword : BitVec.ofNat 16 (packet.length-26+19) = readU16Be (packet.drop 4) := by
      apply BitVec.eq_of_toNat_eq
      rw [BitVec.toNat_ofNat]
      have := (readU16Be (packet.drop 4)).isLt
      omega
    have hcount : BitVec.ofNat 32 (packet.length-26) = readU32Be (packet.drop 18) := by
      apply BitVec.eq_of_toNat_eq
      rw [BitVec.toNat_ofNat,h.payloadLength]
      have := (readU16Be (packet.drop 4)).isLt
      omega
    have htype : contentType.value.setWidth 8 = byteAt packet 7 := by
      rw [← h.content,LgCcsdsContentType.value_ofValue]
      simp
    rw [packetBody,h.headerOf_eta,packetId_headerOf h.version,sequenceControl_headerOf,
      profileHeader,hpl,hword,hcount,htype,← h.profile]
    have hconfig := (parseConfigFields_eq_ok (by rw [List.length_drop]; omega) h.fields).1
    have hpair : [byteAt packet 6,byteAt packet 7] = (packet.drop 6).take 2 := by
      rw [drop_eq_byteAt_cons (by omega : 6 < packet.length),
        drop_eq_byteAt_cons (by omega : 6+1 < packet.length)]
      rfl
    have hreserved : [0#8] = (packet.drop 13).take 1 := by
      rw [drop_eq_byteAt_cons (by omega : 13 < packet.length),h.reserved]
      rfl
    have hwords : ∀ k,k+4 ≤ packet.length → 2 ≤ (packet.drop k).length ∧
        4 ≤ (packet.drop k).length := by
      intro k hk
      rw [List.length_drop]
      omega
    rw [hconfig,hpair,hreserved,writeU16Be_readU16Be (by omega : 2 ≤ packet.length),
      writeU16Be_readU16Be (hwords 2 (by omega)).1,writeU16Be_readU16Be (hwords 4 (by omega)).1,
      writeU32Be_readU32Be (hwords 14 (by omega)).2,writeU32Be_readU32Be (hwords 18 (by omega)).2,
      List.drop_drop]
    simp only [← List.append_assoc,← List.take_add,Nat.reduceAdd]
    rw [show 22+(packet.length-26) = packet.length-4 by omega]
  have hcrc : writeU32Be (ccsdsCrc32 (packet.take (packet.length-4))) =
      packet.drop (packet.length-4) := by
    rw [← h.crc]
    rw [writeU32Be_readU32Be (by rw [List.length_drop]; omega),
      List.take_of_length_le (by rw [List.length_drop]; omega)]
  rw [builtPacket,hbody,hcrc,List.take_append_drop]

theorem sequenceCount_headerOf (packet : List Byte) :
    ¬ (headerOf packet).sequenceCount > maxSequenceCount := by
  have h : ((headerOf packet).sequenceCount).toNat ≤ maxSequenceCount.toNat := by
    rw [headerOf,BitVec.toNat_and]
    exact Nat.and_le_right
  simpa [BitVec.lt_def] using h

/-- The pointer `build` is handed for a parsed packet. -/
def LgCcsdsProfileMetadata.configPtr (metadata : LgCcsdsProfileMetadata) : Option Ccsds121Config :=
  if metadata.contentType = .compressedTelemetry then some metadata.compression else none

theorem parse_of_build {contentType : LgCcsdsContentType} {sequenceCount : BitVec 16}
    {itemCount : BitVec 32} {compression : Option Ccsds121Config} {payload : List Byte}
    {capacity : ℕ} {out : List Byte} (h : lgCcsdsProfileBuild contentType sequenceCount itemCount
      compression payload capacity = .ok out) :
    ∃ view,lgCcsdsProfileParse out = .ok view ∧
      view.metadata = ⟨contentType,sequenceCount,itemCount,compression.getD .zero⟩ ∧
      view.payload = payload ∧ view.payloadLength = payload.length ∧
      view.crc32 = ccsdsCrc32 (out.take (out.length-4)) ∧
      writeU32Be view.crc32 = out.drop (out.length-4) := by
  obtain ⟨hs,hp,-,hv,apid,type,hr,rfl⟩ := lgCcsdsProfileBuild_eq_ok_iff.mp h
  have hacc := accepted_builtPacket hs hp hv hr
  obtain ⟨hmeta,hpay,hlen,hcrc⟩ := viewOf_builtPacket hs hr (compression.getD .zero)
  refine ⟨_,lgCcsdsProfileParse_of_accepted hacc,hmeta,hpay,hlen,?_⟩
  rw [hcrc,builtPacket,List.length_append,writeU32Be_length,Nat.add_sub_cancel,List.take_left,
    List.drop_left]
  exact ⟨rfl,rfl⟩

theorem build_of_parse {packet : List Byte} {view : LgCcsdsProfileView}
    (h : lgCcsdsProfileParse packet = .ok view) {capacity : ℕ} (hc : packet.length ≤ capacity) :
    lgCcsdsProfileBuild view.metadata.contentType view.metadata.sequenceCount
      view.metadata.itemCount view.metadata.configPtr view.payload capacity = .ok packet := by
  obtain ⟨contentType,config,ptr,hacc,rfl⟩ := lgCcsdsProfileParse_eq_ok_iff.mp h
  have h26 := hacc.long
  have hlen := hacc.length
  have hw := (readU16Be (packet.drop 4)).isLt
  have hpl : ((packet.drop 22).take (packet.length-26)).length = packet.length-26 := by
    rw [List.length_take,List.length_drop]
    omega
  have hptr := (parseConfigFields_eq_ok (by rw [List.length_drop]; omega) hacc.fields).2
  have hconfig : (viewOf packet contentType config).metadata.configPtr = ptr := hptr.symm
  rw [hconfig]
  exact lgCcsdsProfileBuild_eq_ok_iff.mpr ⟨sequenceCount_headerOf packet,by rw [viewOf,hpl]; omega,
    by rw [viewOf,hpl]; omega,by rw [viewOf,hpl]; exact hacc.valid,_,_,hacc.route,
    hacc.eq_builtPacket⟩

/-- The profile codec is exact. What `build` writes parses back to the same
metadata, payload and checksum; what `parse` accepts is rebuilt byte for byte
from its fields; so `parse` accepts exactly the image of `build`. -/
theorem profile_codec_exact :
    (∀ contentType sequenceCount itemCount compression payload capacity out,
      lgCcsdsProfileBuild contentType sequenceCount itemCount compression payload capacity =
        .ok out →
      ∃ view,lgCcsdsProfileParse out = .ok view ∧
        view.metadata = ⟨contentType,sequenceCount,itemCount,compression.getD .zero⟩ ∧
        view.payload = payload ∧ view.payloadLength = payload.length ∧
        view.crc32 = ccsdsCrc32 (out.take (out.length-4)) ∧
        writeU32Be view.crc32 = out.drop (out.length-4)) ∧
    (∀ packet view,lgCcsdsProfileParse packet = .ok view →
      ∀ capacity,packet.length ≤ capacity →
      lgCcsdsProfileBuild view.metadata.contentType view.metadata.sequenceCount
        view.metadata.itemCount view.metadata.configPtr view.payload capacity = .ok packet) ∧
    (∀ packet,(∃ view,lgCcsdsProfileParse packet = .ok view) ↔
      ∃ contentType sequenceCount itemCount compression payload capacity,
        lgCcsdsProfileBuild contentType sequenceCount itemCount compression payload capacity =
          .ok packet) := by
  refine ⟨fun _ _ _ _ _ _ _ h => parse_of_build h,fun _ _ h _ hc => build_of_parse h hc,?_⟩
  intro packet
  constructor
  · rintro ⟨view,h⟩
    exact ⟨_,_,_,_,_,_,build_of_parse h le_rfl⟩
  · rintro ⟨_,_,_,_,_,_,h⟩
    obtain ⟨view,hv,-⟩ := parse_of_build h
    exact ⟨view,hv⟩

/-- Four compressed samples are built, parsed and rebuilt. -/
theorem compressed_samples_rebuilt :
    let config : Ccsds121Config := ⟨12,16,64,true,true,false⟩
    ∃ packet view,
      lgCcsdsProfileBuild .compressedTelemetry 5 4 (some config) [1,2,3] 64 = .ok packet ∧
      lgCcsdsProfileParse packet = .ok view ∧
      view.metadata = ⟨.compressedTelemetry,5,4,config⟩ ∧ view.payload = [1,2,3] ∧
      lgCcsdsProfileBuild .compressedTelemetry 5 4 (some config) [1,2,3] packet.length =
        .ok packet := by
  intro config
  obtain ⟨packet,hbuild⟩ : ∃ packet,lgCcsdsProfileBuild .compressedTelemetry 5 4 (some config)
      [1,2,3] 64 = .ok packet := by
    have hok : (lgCcsdsProfileBuild .compressedTelemetry 5 4 (some config) [1,2,3] 64).isOk =
        true := by decide +kernel
    cases hcase : lgCcsdsProfileBuild .compressedTelemetry 5 4 (some config) [1,2,3] 64 with
    | ok packet => exact ⟨packet,rfl⟩
    | error e =>
      rw [hcase] at hok
      cases hok
  obtain ⟨hparse,hrebuild,-⟩ := profile_codec_exact
  obtain ⟨view,hview,hmetadata,hpayload,-⟩ := hparse _ _ _ _ _ _ _ hbuild
  have hagain := hrebuild packet view hview packet.length le_rfl
  rw [hmetadata,hpayload] at hagain
  exact ⟨packet,view,hbuild,hview,hmetadata,hpayload,hagain⟩

end FlightSoftware.Ccsds
