import FlightSoftware.Lib.RecordLog
import FlightSoftware.Telemetry.Record

/-!
# The telemetry log

The append-only file that Data keeps: `telemetry_store.c`. The file may be
absent. What the file operations do is an argument of each function, so that
every combination of failures is an input.
-/

namespace FlightSoftware.Telemetry
open RecordLog Obc

def int64Max : ℕ := 2^63 - 1
def uint64Max : ℕ := 2^64 - 1

/-! ### Appending -/

/-- What becomes of an append whose record is accepted. A write is cut short after a number of
bytes reached the file when `fwrite` or the flush inside `fclose` reports a failure. -/
inductive AppendIo where
  | openFails
  | cutShort (reached : ℕ)
  | complete
  deriving DecidableEq,Repr

/-- `telemetry_store_append`: the result, and the file afterwards. No file grows past the
largest `off_t`, where the write is cut short. -/
def telemetryStoreAppend (io : AppendIo) (encoded : List Byte) (log : Option (List Byte)) :
    ℤ × Option (List Byte) :=
  if ¬ Decodes encoded then (-1,log)
  else
    match io with
    | .openFails => (-1,log)
    | .cutShort reached => (-1,some ((log.getD [] ++ encoded.take reached).take int64Max))
    | .complete =>
      (if (log.getD [] ++ encoded).length ≤ int64Max then 0 else -1,
        some ((log.getD [] ++ encoded).take int64Max))

/-! ### Reading -/

inductive ReadStatus where
  | ok | endOfLog | ioError | invalidRecord | invalidArgument
  deriving DecidableEq,Repr

/-- `obc_telemetry_read_status_t` as a number. -/
def ReadStatus.value : ReadStatus → ℤ
  | .ok => 0
  | .endOfLog => 1
  | .ioError => -1
  | .invalidRecord => -2
  | .invalidArgument => -3

/-- What the file operations of one read do. `header` and `payload` are the number of bytes
after which the `fread` of that part fails, if it does. -/
structure ReadIo where
  opened : Bool
  seeked : Bool
  header : Option ℕ
  payload : Option ℕ
  nextByte : Bool
  deriving DecidableEq,Repr

/-- Every file operation succeeds. -/
def ReadIo.sound : ReadIo := ⟨true,true,none,none,true⟩

/-- The bytes that an `fread` of `n` bytes delivers. -/
def fread (failsAfter : Option ℕ) (n : ℕ) (rest : List Byte) : List Byte :=
  match failsAfter with
  | none => rest.take n
  | some k => (rest.take n).take k

/-- `feof` after that `fread`. -/
def feof (failsAfter : Option ℕ) (n : ℕ) (rest : List Byte) : Bool :=
  failsAfter.isNone && decide (rest.length < n)

/-- The status and the four outputs. `encoded` is read by the caller only with `ok`. -/
structure ReadResult where
  status : ReadStatus
  encoded : List Byte
  recordSize : ℕ
  nextOffset : ℕ
  endOfLog : Bool
  deriving DecidableEq,Repr

/-- A read that stops before the outputs are set. -/
def ReadResult.failed (status : ReadStatus) (offset : ℕ) : ReadResult := ⟨status,[],0,offset,false⟩

def ReadResult.atEnd (offset : ℕ) : ReadResult := ⟨.endOfLog,[],0,offset,true⟩

/-- `telemetry_store_read_record` from a complete header on. -/
def readAfterHeader (io : ReadIo) (bytes : List Byte) (offset encodedCapacity : ℕ)
    (header : List Byte) : ReadResult :=
  let payloadLength := lengthField header
  let recordSize := headerSize + payloadLength
  let payload := fread io.payload payloadLength (bytes.drop (offset+headerSize))
  let encoded := header ++ payload
  if payloadLength > maxPayload ∨ recordSize > encodedCapacity then .failed .invalidRecord offset
  else if payload.length ≠ payloadLength then .failed .invalidRecord offset
  else if ¬ Decodes encoded then .failed .invalidRecord offset
  else if offset > uint64Max - recordSize then .failed .invalidRecord offset
  else if io.nextByte = false then ⟨.ioError,encoded,recordSize,offset+recordSize,false⟩
  else ⟨.ok,encoded,recordSize,offset+recordSize,(bytes.drop (offset+recordSize)).isEmpty⟩

/-- `telemetry_store_read_record`. -/
def telemetryStoreReadRecord (io : ReadIo) (log : Option (List Byte)) (offset : ℕ)
    (encodedCapacity : ℕ) : ReadResult :=
  if encodedCapacity < ipcMaxPayload ∨ offset > int64Max then .failed .invalidArgument offset
  else if io.opened = false then .failed .ioError offset
  else
    match log with
    | none => .atEnd offset
    | some bytes =>
      if io.seeked = false then .failed .ioError offset
      else
        let header := fread io.header headerSize (bytes.drop offset)
        if header.length = 0 ∧ feof io.header headerSize (bytes.drop offset) then .atEnd offset
        else if header.length ≠ headerSize then .failed .invalidRecord offset
        else readAfterHeader io bytes offset encodedCapacity header

/-! ### What a successful read returns -/

/-- A complete `fread` delivers the next bytes of the file, whatever could have failed. -/
theorem fread_eq_take {failsAfter : Option ℕ} {n : ℕ} {rest : List Byte}
    (h : (fread failsAfter n rest).length = n) : fread failsAfter n rest = rest.take n := by
  unfold fread at h ⊢
  split
  · rfl
  · rename_i k
    dsimp only at h
    rw [List.length_take,List.length_take] at h
    rw [List.take_take,Nat.min_eq_right (by omega)]

/-- From a complete header on, success means an accepted record at the offset. -/
theorem readAfterHeader_ok {io : ReadIo} {bytes header : List Byte} {offset encodedCapacity : ℕ}
    (hheader : header = (bytes.drop offset).take headerSize) (hsize : header.length = headerSize)
    (h : (readAfterHeader io bytes offset encodedCapacity header).status = .ok) :
    ∃ record rest,bytes.drop offset = record ++ rest ∧ Decodes record ∧
      readAfterHeader io bytes offset encodedCapacity header =
        ⟨.ok,record,record.length,offset + record.length,rest.isEmpty⟩ := by
  unfold readAfterHeader at h ⊢
  dsimp only at h ⊢
  split_ifs at h with hfield hcut hdecodes hwrap hnext <;> try cases h
  rw [if_neg hfield,if_neg hcut,if_neg (not_not.mpr hdecodes),if_neg hwrap,if_neg hnext]
  rw [not_not] at hcut
  have hencoded : header ++ fread io.payload (lengthField header) (bytes.drop (offset+headerSize)) =
      (bytes.drop offset).take (headerSize + lengthField header) := by
    rw [fread_eq_take hcut,List.take_add,← hheader,List.drop_drop]
  have hlength : headerSize + lengthField header =
      ((bytes.drop offset).take (headerSize + lengthField header)).length := by
    rw [← hencoded,List.length_append,hcut,hsize]
  rw [hencoded] at hdecodes ⊢
  refine ⟨_,(bytes.drop offset).drop (headerSize + lengthField header),
    (List.take_append_drop _ _).symm,hdecodes,?_⟩
  rw [← hlength,List.drop_drop]

/-- A read that reports success returns an accepted record that stands at the offset, and the
offset after it; the end of the log is reported where the file ends after the record. -/
theorem telemetryStoreReadRecord_ok {io : ReadIo} {log : Option (List Byte)}
    {offset encodedCapacity : ℕ}
    (h : (telemetryStoreReadRecord io log offset encodedCapacity).status = .ok) :
    ∃ bytes record rest,log = some bytes ∧ bytes.drop offset = record ++ rest ∧ Decodes record ∧
      telemetryStoreReadRecord io log offset encodedCapacity =
        ⟨.ok,record,record.length,offset + record.length,rest.isEmpty⟩ := by
  unfold telemetryStoreReadRecord at h ⊢
  cases log with
  | none =>
    dsimp only at h
    split_ifs at h <;> cases h
  | some bytes =>
    dsimp only at h ⊢
    split_ifs at h with hargument hopened hseeked hend hshort <;> try cases h
    rw [if_neg hargument,if_neg hopened,if_neg hseeked,if_neg hend,if_neg hshort]
    rw [not_not] at hshort
    obtain ⟨record,rest,hrecord⟩ := readAfterHeader_ok (fread_eq_take hshort) hshort h
    exact ⟨bytes,record,rest,rfl,hrecord⟩

/-- With every file operation succeeding, a record at an offset is read. -/
theorem telemetryStoreReadRecord_sound {bytes record rest : List Byte} {offset encodedCapacity : ℕ}
    (hcapacity : ipcMaxPayload ≤ encodedCapacity) (hoffset : offset ≤ int64Max)
    (hbytes : bytes.drop offset = record ++ rest) (hrecord : Decodes record) :
    telemetryStoreReadRecord .sound (some bytes) offset encodedCapacity =
      ⟨.ok,record,record.length,offset + record.length,rest.isEmpty⟩ := by
  have hle := hrecord.header_le
  have hheader : fread ReadIo.sound.header headerSize (bytes.drop offset) =
      record.take headerSize := by
    rw [hbytes]
    exact List.take_append_of_le_length hle
  have hsize : (record.take headerSize).length = headerSize := by
    rw [List.length_take]
    omega
  have hfield : lengthField (record.take headerSize) = lengthField record :=
    lengthField_take le_rfl hle
  have hpayload : fread ReadIo.sound.payload (lengthField record)
      (bytes.drop (offset+headerSize)) = record.drop headerSize := by
    rw [← List.drop_drop,hbytes,List.drop_append_of_le_length hle]
    refine List.take_left' ?_
    rw [List.length_drop,hrecord.length]
    omega
  have hshort : ¬ (record.length - headerSize ≠ lengthField record) := by
    rw [hrecord.length]
    omega
  have hwrap : ¬ offset > uint64Max - record.length := by
    have := hrecord.length_le
    unfold int64Max at hoffset
    unfold uint64Max
    unfold ipcMaxPayload at this
    omega
  unfold telemetryStoreReadRecord
  dsimp only
  rw [hheader,if_neg (by omega),if_neg (by decide),if_neg (by decide),if_neg ?_,
    if_neg (not_not.mpr hsize)]
  swap
  · rintro ⟨hzero,-⟩
    rw [hsize] at hzero
    exact absurd hzero (by decide)
  unfold readAfterHeader
  dsimp only
  rw [hfield,hpayload,List.take_append_drop,← hrecord.length,List.length_drop,if_neg ?_,
    if_neg hshort,if_neg (not_not.mpr hrecord),if_neg hwrap,if_neg (by decide)]
  · rw [← List.drop_drop,hbytes,List.drop_left]
  · have := (decodes_iff.mp hrecord).1.length
    have := hrecord.length_le
    omega

/-! ### Following the offsets -/

/-- The size of the record at the front of a byte string. -/
def recordReader : Reader Byte where
  size s :=
    if headerSize + lengthField s ≤ s.length ∧ Decodes (s.take (headerSize + lengthField s)) then
      some (headerSize + lengthField s)
    else none
  positive s n h := by
    split_ifs at h
    obtain rfl := Option.some.inj h
    have : 0 < headerSize := by decide
    omega
  stable s n t h := by
    split_ifs at h with hs
    have hfield : lengthField (s ++ t) = lengthField s := lengthField_append (by omega) t
    rw [hfield,List.take_append_of_le_length hs.1,List.length_append,if_pos ⟨by omega,hs.2⟩,h]

theorem recordReader_eq_some {s : List Byte} {n : ℕ} :
    recordReader.size s = some n ↔ n = headerSize + lengthField s ∧ n ≤ s.length ∧
      Decodes (s.take n) := by
  change (if _ then some (headerSize + lengthField s) else none) = some n ↔ _
  constructor
  · intro h
    split_ifs at h with hs
    obtain rfl := Option.some.inj h
    exact ⟨rfl,hs⟩
  · rintro ⟨rfl,hs⟩
    rw [if_pos hs]

theorem Decodes.whole {record : List Byte} (h : Decodes record) : recordReader.Whole record := by
  refine recordReader_eq_some.mpr ⟨h.length,le_rfl,?_⟩
  rw [List.take_length]
  exact h

/-- Reading with success and following `next_offset` leads from one offset to another. -/
inductive Follows (log : Option (List Byte)) : ℕ → ℕ → Prop
  | refl (p : ℕ) : Follows log p p
  | next {p q : ℕ} : (telemetryStoreReadRecord .sound log p ipcMaxPayload).status = .ok →
      Follows log (telemetryStoreReadRecord .sound log p ipcMaxPayload).nextOffset q →
      Follows log p q

theorem Follows.walk {bytes : List Byte} {p q : ℕ} (h : Follows (some bytes) p q) :
    Walk recordReader bytes p q := by
  induction h with
  | refl p => exact .refl p
  | next hok _ ih =>
    obtain ⟨_,record,rest,hlog,hrecord,hdecodes,hread⟩ := telemetryStoreReadRecord_ok hok
    obtain rfl := Option.some.inj hlog
    rw [hread] at ih
    refine .step ?_ ih
    rw [hrecord]
    exact recordReader.stable _ _ _ hdecodes.whole

end FlightSoftware.Telemetry
