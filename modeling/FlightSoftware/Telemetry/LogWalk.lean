import FlightSoftware.Telemetry.DownlinkIntegrity

/-!
# Reading the log by its offsets

What appends leave in the log and what a read finds at every offset of it. Following
`next_offset` from 0 enumerates the records. Past the end of the log, and in a log that is
absent, every offset looks like the end.
-/

namespace FlightSoftware.Telemetry
open Obc

/-- The log after byte strings were passed to `telemetry_store_append` one after another, with
every file operation succeeding. -/
def appendAll (log : Option (List Byte)) (strings : List (List Byte)) : Option (List Byte) :=
  strings.foldl (fun log encoded => (telemetryStoreAppend .complete encoded log).2) log

/-- The byte strings that the log takes. -/
def validRecords (strings : List (List Byte)) : List (List Byte) :=
  strings.filter fun encoded => decide (Decodes encoded)

theorem decodes_of_mem_validRecords {strings : List (List Byte)} {record : List Byte}
    (h : record ∈ validRecords strings) : Decodes record :=
  of_decide_eq_true (List.mem_filter.mp h).2

/-! ### What the appends leave -/

/-- The valid records are added to the file, and the others change nothing. -/
theorem appendAll_getD {strings : List (List Byte)} {log : Option (List Byte)}
    (hsize : (log.getD [] ++ (validRecords strings).flatten).length ≤ int64Max) :
    (appendAll log strings).getD [] = log.getD [] ++ (validRecords strings).flatten := by
  induction strings generalizing log with
  | nil => simp [appendAll,validRecords]
  | cons encoded strings ih =>
    rw [appendAll,List.foldl_cons,← appendAll]
    by_cases hvalid : Decodes encoded
    · have hrecords : validRecords (encoded :: strings) = encoded :: validRecords strings :=
        List.filter_cons_of_pos (decide_eq_true hvalid)
      rw [hrecords,List.flatten_cons,← List.append_assoc] at hsize ⊢
      have hfits : (log.getD [] ++ encoded).length ≤ int64Max := by
        rw [List.length_append] at hsize
        omega
      have happend : (telemetryStoreAppend .complete encoded log).2 =
          some (log.getD [] ++ encoded) := by
        rw [telemetryStoreAppend,if_neg (not_not.mpr hvalid)]
        exact congrArg some (List.take_of_length_le hfits)
      rw [happend]
      exact ih hsize
    · have hrecords : validRecords (encoded :: strings) = validRecords strings :=
        List.filter_cons_of_neg (by rwa [decide_eq_true_eq])
      have happend : (telemetryStoreAppend .complete encoded log).2 = log := by
        rw [telemetryStoreAppend,if_pos hvalid]
      rw [hrecords] at hsize ⊢
      rw [happend]
      exact ih hsize

/-! ### What a read finds -/

/-- With every file operation succeeding, a read finds the end of the file, something that is
not a record, or a record. -/
theorem telemetryStoreReadRecord_cases {bytes : List Byte} {offset encodedCapacity : ℕ}
    (hcapacity : ipcMaxPayload ≤ encodedCapacity) (hoffset : offset ≤ int64Max) :
    (bytes.drop offset = [] ∧
      telemetryStoreReadRecord .sound (some bytes) offset encodedCapacity = .atEnd offset) ∨
    (bytes.drop offset ≠ [] ∧ telemetryStoreReadRecord .sound (some bytes) offset encodedCapacity =
      .failed .invalidRecord offset) ∨
    (telemetryStoreReadRecord .sound (some bytes) offset encodedCapacity).status = .ok := by
  unfold telemetryStoreReadRecord
  dsimp only
  rw [if_neg (by omega),if_neg (by decide),if_neg (by decide)]
  by_cases hnil : bytes.drop offset = []
  · rw [hnil]
    exact .inl ⟨rfl,rfl⟩
  · have hheader : (fread ReadIo.sound.header headerSize (bytes.drop offset)).length ≠ 0 := by
      have hpos := List.length_pos_iff.mpr hnil
      have hsize : 0 < headerSize := by decide
      change ((bytes.drop offset).take headerSize).length ≠ 0
      rw [List.length_take]
      omega
    rw [if_neg fun hend => hheader hend.1]
    -- something is there, and each check that fails reports the same
    right
    split
    · exact .inl ⟨hnil,rfl⟩
    · unfold readAfterHeader
      dsimp only
      split
      · exact .inl ⟨hnil,rfl⟩
      split
      · exact .inl ⟨hnil,rfl⟩
      split
      · exact .inl ⟨hnil,rfl⟩
      split
      · exact .inl ⟨hnil,rfl⟩
      · exact .inr rfl

/-- At the end of the file and past it a read finds the end. -/
theorem telemetryStoreReadRecord_past {bytes : List Byte} {offset encodedCapacity : ℕ}
    (hcapacity : ipcMaxPayload ≤ encodedCapacity) (hoffset : offset ≤ int64Max)
    (hpast : bytes.length ≤ offset) :
    telemetryStoreReadRecord .sound (some bytes) offset encodedCapacity = .atEnd offset := by
  have hnil := List.drop_eq_nil_of_le hpast
  obtain ⟨-,hread⟩ | ⟨hmore,-⟩ | hok := telemetryStoreReadRecord_cases hcapacity hoffset
  · exact hread
  · exact absurd hnil hmore
  · obtain ⟨bytes',record,rest,hbytes,hrecord,hdecodes,-⟩ := telemetryStoreReadRecord_ok hok
    obtain rfl := Option.some.inj hbytes
    rw [hnil] at hrecord
    have hle := hdecodes.header_le
    rw [(List.append_eq_nil_iff.mp hrecord.symm).1] at hle
    exact absurd hle (by decide)

/-- An absent log ends at every offset. -/
theorem telemetryStoreReadRecord_absent {offset encodedCapacity : ℕ}
    (hcapacity : ipcMaxPayload ≤ encodedCapacity) (hoffset : offset ≤ int64Max) :
    telemetryStoreReadRecord .sound none offset encodedCapacity = .atEnd offset := by
  rw [telemetryStoreReadRecord,if_neg (by omega),if_neg (by decide)]

/-! ### The walk -/

/-- The offset that is reached after `n` reads. -/
def walkOffset (log : Option (List Byte)) (encodedCapacity : ℕ) : ℕ → ℕ
  | 0 => 0
  | n+1 => (telemetryStoreReadRecord .sound log (walkOffset log encodedCapacity n)
      encodedCapacity).nextOffset

theorem boundary_length (records : List (List Byte)) :
    boundary records records.length = records.flatten.length := by
  rw [boundary,List.take_length]

theorem boundary_le (records : List (List Byte)) (n : ℕ) :
    boundary records n ≤ records.flatten.length := by
  conv_rhs => rw [← List.take_append_drop n records,List.flatten_append,List.length_append]
  exact Nat.le_add_right _ _

/-- The bytes of records are the records if there is at least one of them. -/
theorem eq_some_flatten {log : Option (List Byte)} {records : List (List Byte)} {n : ℕ}
    {record : List Byte} (hlog : log.getD [] = records.flatten) (hrecord : Decodes record)
    (hget : records[n]? = some record) : log = some records.flatten := by
  rw [← hlog]
  refine eq_some_getD log ?_
  rw [hlog]
  intro hnil
  have hmem := List.flatten_eq_nil_iff.mp hnil record (List.mem_of_getElem? hget)
  have hle := hrecord.header_le
  rw [hmem] at hle
  exact absurd hle (by decide)

section Walk

variable {log : Option (List Byte)} {records : List (List Byte)} {encodedCapacity : ℕ}

/-- At a boundary the record with that index is read, and it is the last one if no other
follows. -/
theorem read_boundary (hlog : log.getD [] = records.flatten)
    (hsize : records.flatten.length ≤ int64Max) (hall : ∀ r ∈ records,Decodes r)
    (hcapacity : ipcMaxPayload ≤ encodedCapacity) {n : ℕ} {record : List Byte}
    (hget : records[n]? = some record) :
    telemetryStoreReadRecord .sound log (boundary records n) encodedCapacity =
      ⟨.ok,record,record.length,boundary records (n+1),decide (n+1 = records.length)⟩ := by
  have hrecord := hall record (List.mem_of_getElem? hget)
  have hle := (boundary_le records n).trans hsize
  rw [eq_some_flatten hlog hrecord hget,telemetryStoreReadRecord_sound hcapacity hle
    (drop_boundary hget) hrecord,boundary_succ hget]
  have hlt := (List.getElem?_eq_some_iff.mp hget).1
  have hend : (records.drop (n+1)).flatten.isEmpty = decide (n+1 = records.length) := by
    by_cases hlast : n+1 = records.length
    · rw [hlast,List.drop_length,decide_eq_true rfl]
      rfl
    · rw [decide_eq_false hlast,List.drop_eq_getElem_cons (by omega),List.flatten_cons]
      have hnext := (hall _ (List.getElem_mem (show n+1 < records.length by omega))).header_le
      cases hfirst : records[n+1] with
      | nil =>
        rw [hfirst] at hnext
        exact absurd hnext (by decide)
      | cons b bytes => rfl
  rw [hend]

theorem read_end (hlog : log.getD [] = records.flatten)
    (hsize : records.flatten.length ≤ int64Max) (hcapacity : ipcMaxPayload ≤ encodedCapacity) :
    telemetryStoreReadRecord .sound log (boundary records records.length) encodedCapacity =
      .atEnd (boundary records records.length) := by
  rw [boundary_length]
  cases log with
  | none => exact telemetryStoreReadRecord_absent hcapacity hsize
  | some bytes =>
    rw [Option.getD_some] at hlog
    rw [hlog]
    exact telemetryStoreReadRecord_past hcapacity hsize le_rfl

/-- The walk goes from boundary to boundary. -/
theorem walkOffset_eq (hlog : log.getD [] = records.flatten)
    (hsize : records.flatten.length ≤ int64Max) (hall : ∀ r ∈ records,Decodes r)
    (hcapacity : ipcMaxPayload ≤ encodedCapacity) {n : ℕ} (hn : n ≤ records.length) :
    walkOffset log encodedCapacity n = boundary records n := by
  induction n with
  | zero => rfl
  | succ n ih =>
    rw [walkOffset,ih (by omega),read_boundary hlog hsize hall hcapacity
      (List.getElem?_eq_getElem (show n < records.length by omega))]

end Walk

/-- Byte strings are appended to an absent log, as long as it does not outgrow an `off_t`. The
log is made of the valid ones. Following the offsets from 0 reads them in order, marks the last
one and then finds the end, and each offset is the total length of the records before it. -/
theorem log_walk_enumerates {strings : List (List Byte)} {encodedCapacity : ℕ}
    (hsize : (validRecords strings).flatten.length ≤ int64Max)
    (hcapacity : ipcMaxPayload ≤ encodedCapacity) :
    (appendAll none strings).getD [] = (validRecords strings).flatten ∧
    (∀ n record,(validRecords strings)[n]? = some record →
      telemetryStoreReadRecord .sound (appendAll none strings)
          (walkOffset (appendAll none strings) encodedCapacity n) encodedCapacity =
        ⟨.ok,record,record.length,walkOffset (appendAll none strings) encodedCapacity (n+1),
          decide (n+1 = (validRecords strings).length)⟩) ∧
    telemetryStoreReadRecord .sound (appendAll none strings)
        (walkOffset (appendAll none strings) encodedCapacity (validRecords strings).length)
        encodedCapacity =
      .atEnd (walkOffset (appendAll none strings) encodedCapacity
        (validRecords strings).length) ∧
    ∀ n ≤ (validRecords strings).length,walkOffset (appendAll none strings) encodedCapacity n =
      (((validRecords strings).take n).map List.length).sum := by
  have hlog : (appendAll none strings).getD [] = (validRecords strings).flatten :=
    appendAll_getD hsize
  have hall : ∀ r ∈ validRecords strings,Decodes r := fun r => decodes_of_mem_validRecords
  have hwalk : ∀ n ≤ (validRecords strings).length,
      walkOffset (appendAll none strings) encodedCapacity n = boundary (validRecords strings) n :=
    fun n hn => walkOffset_eq hlog hsize hall hcapacity hn
  refine ⟨hlog,fun n record hget => ?_,?_,fun n hn => ?_⟩
  · have hlt := (List.getElem?_eq_some_iff.mp hget).1
    rw [hwalk n hlt.le,hwalk (n+1) hlt]
    exact read_boundary hlog hsize hall hcapacity hget
  · rw [hwalk _ le_rfl]
    exact read_end hlog hsize hcapacity
  · rw [hwalk n hn,boundary,List.length_flatten]

/-- Two records with something between them that is none. -/
theorem two_records_enumerated :
    walkOffset (appendAll none [emptyRecord,[0#8],emptyRecord]) ipcMaxPayload 2 = 36 := by
  have hvalid : validRecords [emptyRecord,[0#8],emptyRecord] = [emptyRecord,emptyRecord] := by
    decide +kernel
  have hsize : (validRecords [emptyRecord,[0#8],emptyRecord]).flatten.length ≤ int64Max := by
    rw [hvalid]
    decide
  obtain ⟨-,-,-,hoffset⟩ := log_walk_enumerates hsize (le_refl ipcMaxPayload)
  rw [hoffset 2 (by rw [hvalid]; decide),hvalid]
  rfl

/-! ### Every offset -/

/-- A read classifies an offset correctly: it finds a record exactly where one stands, the end
exactly at the end of the log, and without a record the cursor stays. -/
structure Classifies (log : Option (List Byte)) (offset : ℕ) (read : ReadResult) : Prop where
  ok : read.status = .ok ↔
    ∃ record rest,(log.getD []).drop offset = record ++ rest ∧ Decodes record
  ended : read.status = .endOfLog ↔
    (log = none ∧ offset = 0) ∨ ∃ bytes,log = some bytes ∧ offset = bytes.length
  stays : read.status ≠ .ok → read.recordSize = 0 ∧ read.nextOffset = offset

/-- No record stands where the log has no bytes. -/
theorem no_record_of_length_le {bytes : List Byte} {offset : ℕ} (h : bytes.length ≤ offset) :
    ¬ ∃ record rest,bytes.drop offset = record ++ rest ∧ Decodes record := by
  rintro ⟨record,rest,hbytes,hdecodes⟩
  rw [List.drop_eq_nil_of_le h] at hbytes
  have hle := hdecodes.header_le
  rw [(List.append_eq_nil_iff.mp hbytes.symm).1] at hle
  exact absurd hle (by decide)

theorem classifies_atEnd_iff {log : Option (List Byte)} {offset : ℕ}
    (h : (log.getD []).length ≤ offset) :
    Classifies log offset (.atEnd offset) ↔ offset = (log.getD []).length := by
  constructor
  · intro hread
    obtain ⟨rfl,rfl⟩ | ⟨bytes,rfl,rfl⟩ := hread.ended.mp rfl
    · rfl
    · rfl
  · intro heq
    refine ⟨iff_of_false nofun (no_record_of_length_le h),iff_of_true rfl ?_,
      fun _ => ⟨rfl,rfl⟩⟩
    cases log with
    | none => exact .inl ⟨rfl,heq⟩
    | some bytes => exact .inr ⟨bytes,rfl,heq⟩

/-- Inside a log every offset is classified correctly. -/
theorem classifies_inside {bytes : List Byte} {offset encodedCapacity : ℕ}
    (hcapacity : ipcMaxPayload ≤ encodedCapacity) (hsize : bytes.length ≤ int64Max)
    (hinside : offset < bytes.length) : Classifies (some bytes) offset
      (telemetryStoreReadRecord .sound (some bytes) offset encodedCapacity) := by
  have hoffset : offset ≤ int64Max := by omega
  have hmore : bytes.drop offset ≠ [] := by
    rw [← List.length_pos_iff,List.length_drop]
    omega
  have hend : ¬((some bytes = none ∧ offset = 0) ∨
      ∃ bytes',some bytes = some bytes' ∧ offset = bytes'.length) := by
    rintro (⟨hnone,-⟩ | ⟨bytes',hbytes,rfl⟩)
    · cases hnone
    · obtain rfl := Option.some.inj hbytes
      exact lt_irrefl _ hinside
  obtain ⟨hnil,-⟩ | ⟨-,hread⟩ | hok := telemetryStoreReadRecord_cases hcapacity hoffset
  · exact absurd hnil hmore
  · refine ⟨iff_of_false ?_ ?_,iff_of_false ?_ hend,fun _ => ?_⟩
    · rw [hread]
      nofun
    · rintro ⟨record,rest,hbytes,hdecodes⟩
      -- a record that begins here would have been read
      rw [Option.getD_some] at hbytes
      rw [telemetryStoreReadRecord_sound hcapacity hoffset hbytes hdecodes] at hread
      cases hread
    · rw [hread]
      nofun
    · rw [hread]
      exact ⟨rfl,rfl⟩
  · refine ⟨iff_of_true hok ?_,iff_of_false ?_ hend,fun hne => absurd hok hne⟩
    · obtain ⟨bytes',record,rest,hbytes,hrecord,hdecodes,-⟩ := telemetryStoreReadRecord_ok hok
      obtain rfl := Option.some.inj hbytes
      exact ⟨record,rest,hrecord,hdecodes⟩
    · rw [hok]
      decide

/-- A read classifies the offsets up to the end of the log, and those that are refused as larger
than any offset of a file. Between them it finds an end where there is none. -/
theorem read_classifies_iff {log : Option (List Byte)} {offset encodedCapacity : ℕ}
    (hcapacity : ipcMaxPayload ≤ encodedCapacity) (hsize : (log.getD []).length ≤ int64Max) :
    Classifies log offset (telemetryStoreReadRecord .sound log offset encodedCapacity) ↔
      offset ≤ (log.getD []).length ∨ int64Max < offset := by
  rcases lt_or_ge int64Max offset with hlarge | hoffset
  · refine iff_of_true ?_ (.inr hlarge)
    have hread : telemetryStoreReadRecord .sound log offset encodedCapacity =
        .failed .invalidArgument offset := if_pos (.inr hlarge)
    rw [hread]
    refine ⟨iff_of_false nofun (no_record_of_length_le (by omega)),
      iff_of_false nofun ?_,fun _ => ⟨rfl,rfl⟩⟩
    rintro (⟨-,rfl⟩ | ⟨bytes,rfl,rfl⟩)
    · omega
    · rw [Option.getD_some] at hsize
      omega
  · rcases lt_or_ge offset (log.getD []).length with hinside | hpast
    · refine iff_of_true ?_ (.inl hinside.le)
      cases log with
      | none => exact absurd hinside (Nat.not_lt_zero _)
      | some bytes => exact classifies_inside hcapacity hsize hinside
    · have hread : telemetryStoreReadRecord .sound log offset encodedCapacity = .atEnd offset := by
        cases log with
        | none => exact telemetryStoreReadRecord_absent hcapacity hoffset
        | some bytes => exact telemetryStoreReadRecord_past hcapacity hoffset hpast
      rw [hread,classifies_atEnd_iff hpast]
      omega

theorem empty_log_classified :
    Classifies none 0 (telemetryStoreReadRecord .sound none 0 ipcMaxPayload) :=
  (read_classifies_iff (le_refl ipcMaxPayload) (Nat.zero_le _)).mpr (.inl (Nat.zero_le _))

/-- The cursor of a log that is gone finds a quiet end. -/
theorem lost_log_ends_quietly :
    telemetryStoreReadRecord .sound none 18 ipcMaxPayload = .atEnd 18 ∧
      ¬ Classifies none 18 (telemetryStoreReadRecord .sound none 18 ipcMaxPayload) := by
  have hread : telemetryStoreReadRecord .sound none 18 ipcMaxPayload = .atEnd 18 := by decide
  refine ⟨hread,fun h => ?_⟩
  rw [hread,classifies_atEnd_iff (by decide)] at h
  exact absurd h (by decide)

end FlightSoftware.Telemetry
