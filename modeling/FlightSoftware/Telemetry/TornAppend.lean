import FlightSoftware.Telemetry.Store

/-!
# An append that fails half way

A failed append can leave the first bytes of its record in the log. The reader
takes them for the start of a record and steps over whatever was appended next,
or stops there. The records before the torn bytes stay reachable; those behind
them do exactly when there are no torn bytes.
-/

namespace FlightSoftware.Telemetry
open RecordLog Obc

/-- A list of records appended one after another, each with the result 0. -/
inductive Appended : Option (List Byte) → List (List Byte) → Option (List Byte) → Prop
  | nil (log : Option (List Byte)) : Appended log [] log
  | cons {log log' log'' : Option (List Byte)} {io : AppendIo} {record : List Byte}
      {records : List (List Byte)} : telemetryStoreAppend io record log = (0,log') →
      Appended log' records log'' → Appended log (record :: records) log''

/-- The offsets of records that are appended to a file from the given length on. -/
def placed : ℕ → List (List Byte) → List (ℕ × List Byte)
  | _,[] => []
  | p,record :: records => (p,record) :: placed (p + record.length) records

/-- Following `next_offset` from 0 reaches the record at an offset. -/
def Reaches (log : Option (List Byte)) (place : ℕ × List Byte) : Prop :=
  Follows log 0 place.1 ∧
    (telemetryStoreReadRecord .sound log place.1 ipcMaxPayload).status = .ok ∧
    (telemetryStoreReadRecord .sound log place.1 ipcMaxPayload).encoded = place.2

/-! ### What appends leave in the file -/

/-- An append that returns 0 was given an accepted record and added it to the file. -/
theorem telemetryStoreAppend_zero {io : AppendIo} {record : List Byte}
    {log log' : Option (List Byte)} (h : telemetryStoreAppend io record log = (0,log')) :
    Decodes record ∧ log' = some (log.getD [] ++ record) ∧
      (log.getD [] ++ record).length ≤ int64Max := by
  unfold telemetryStoreAppend at h
  split at h
  · cases h
  · rename_i hdecodes
    rw [not_not] at hdecodes
    cases io with
    | openFails => cases h
    | cutShort reached => cases h
    | complete =>
      dsimp only at h
      split at h
      · rename_i hfits
        rw [List.take_of_length_le hfits] at h
        exact ⟨hdecodes,(congrArg Prod.snd h).symm,hfits⟩
      · cases h

/-- No append makes the file longer than an `off_t` can say. -/
theorem telemetryStoreAppend_length_le (io : AppendIo) (record : List Byte)
    {log : Option (List Byte)} (h : (log.getD []).length ≤ int64Max) :
    ((telemetryStoreAppend io record log).2.getD []).length ≤ int64Max := by
  unfold telemetryStoreAppend
  split
  · exact h
  · cases io with
    | openFails => exact h
    | cutShort reached => exact List.length_take_le _ _
    | complete => exact List.length_take_le _ _

theorem Appended.spec {log final : Option (List Byte)} {records : List (List Byte)}
    (h : Appended log records final) (hlog : (log.getD []).length ≤ int64Max) :
    (∀ r ∈ records,Decodes r) ∧ final.getD [] = log.getD [] ++ records.flatten ∧
      (final.getD []).length ≤ int64Max := by
  induction h with
  | nil log => exact ⟨by simp,by simp,hlog⟩
  | cons happend _ ih =>
    obtain ⟨hdecodes,rfl,hfits⟩ := telemetryStoreAppend_zero happend
    obtain ⟨hall,hfinal,hsize⟩ := ih hfits
    refine ⟨?_,?_,hsize⟩
    · rintro r (_ | ⟨_,hr⟩)
      · exact hdecodes
      · exact hall r hr
    · rw [hfinal,Option.getD_some,List.flatten_cons,List.append_assoc]

/-! ### What is reached -/

theorem Follows.trans {log : Option (List Byte)} {p q r : ℕ} (hpq : Follows log p q)
    (hqr : Follows log q r) : Follows log p r := by
  induction hpq with
  | refl p => exact hqr
  | next hok _ ih => exact .next hok (ih hqr)

theorem eq_some_getD (log : Option (List Byte)) (h : log.getD [] ≠ []) :
    log = some (log.getD []) := by
  cases log with
  | none => exact absurd rfl h
  | some bytes => rfl

/-- Records that stand in the file from a reached offset on are all reached, and so is the
offset after them. -/
theorem reaches_placed {log : Option (List Byte)} {records : List (List Byte)} {rest : List Byte}
    {p : ℕ} (hsize : (log.getD []).length ≤ int64Max) (hall : ∀ r ∈ records,Decodes r)
    (hbytes : (log.getD []).drop p = records.flatten ++ rest) (hp : Follows log 0 p) :
    (∀ place ∈ placed p records,Reaches log place) ∧
      Follows log 0 (p + records.flatten.length) := by
  induction records generalizing p with
  | nil => exact ⟨by simp [placed],hp⟩
  | cons record records ih =>
    have hrecord := hall record List.mem_cons_self
    have hpos : 0 < record.length := lt_of_lt_of_le (by decide) hrecord.header_le
    rw [List.flatten_cons,List.append_assoc] at hbytes
    have hlength := congrArg List.length hbytes
    rw [List.length_drop,List.length_append] at hlength
    have hread : telemetryStoreReadRecord .sound log p ipcMaxPayload =
        ⟨.ok,record,record.length,p + record.length,(records.flatten ++ rest).isEmpty⟩ := by
      rw [eq_some_getD log (List.length_pos_iff.mp (by omega))]
      exact telemetryStoreReadRecord_sound le_rfl (by omega) hbytes hrecord
    have hnext : Follows log 0 (p + record.length) := by
      refine hp.trans (.next (by rw [hread]) ?_)
      rw [hread]
      exact .refl _
    obtain ⟨hreached,hfollows⟩ := ih (fun r hr => hall r (List.mem_cons_of_mem _ hr))
      (by rw [← List.drop_drop,hbytes,List.drop_left]) hnext
    constructor
    · rintro place (_ | ⟨_,hplace⟩)
      · exact ⟨hp,by rw [hread],by rw [hread]⟩
      · exact hreached place hplace
    · rw [List.flatten_cons,List.length_append,← Nat.add_assoc]
      exact hfollows

/-- Whatever record is read at torn bytes ends behind them. -/
theorem torn_size {record rest : List Byte} {k n : ℕ} (hrecord : Decodes record)
    (hk : k < record.length) (h : recordReader.size (record.take k ++ rest) = some n) : k < n := by
  obtain ⟨hn,-,-⟩ := recordReader_eq_some.mp h
  rcases Nat.lt_or_ge k headerSize with hshort | hheader
  · omega
  · have hlength : (record.take k).length = k := List.length_take_of_le (by omega)
    rw [lengthField_append (by omega),lengthField_take hheader (by omega),← hrecord.length] at hn
    omega

/-- The offset behind torn bytes is never reached. -/
theorem not_follows_torn {before : List (List Byte)} {record rest : List Byte} {k : ℕ}
    (hall : ∀ r ∈ before,Decodes r) (hrecord : Decodes record) (hk : k < record.length)
    (hpos : 0 < k) :
    ¬ Follows (some (before.flatten ++ (record.take k ++ rest))) 0 (before.flatten.length + k) := by
  intro hfollows
  have hboundary := walk_records (p := 0) (fun r hr => (hall r hr).whole)
    (List.drop_zero (l := before.flatten ++ (record.take k ++ rest)))
  rw [Nat.zero_add] at hboundary
  obtain ⟨n,hn,hle⟩ := hboundary.past hfollows.walk (by omega)
  rw [List.drop_left] at hn
  have := torn_size hrecord hk hn
  omega

/-- After an append that failed with `k` bytes of its record in the file, and any successful
appends, all records appended with success are reached exactly when no byte was left behind or
nothing was appended since. -/
theorem failed_append_reaches_iff {before after : List (List Byte)} {record : List Byte} {k : ℕ}
    {log torn final : Option (List Byte)} {io : AppendIo} (hbefore : Appended none before log)
    (hrecord : Decodes record) (hfailed : telemetryStoreAppend io record log = (-1,torn))
    (hk : k < record.length) (hreached : torn.getD [] = log.getD [] ++ record.take k)
    (hafter : Appended torn after final) :
    ((∀ place ∈ placed 0 before,Reaches final place) ∧
      ∀ place ∈ placed (torn.getD []).length after,Reaches final place) ↔ k = 0 ∨ after = [] := by
  obtain ⟨hdecodes,hlog,hlogSize⟩ := hbefore.spec (Nat.zero_le _)
  have htornSize : (torn.getD []).length ≤ int64Max := by
    have := telemetryStoreAppend_length_le io record hlogSize
    rwa [hfailed] at this
  obtain ⟨hdecodes',hfinal,hsize⟩ := hafter.spec htornSize
  rw [Option.getD_none,List.nil_append] at hlog
  rw [hreached,hlog,List.append_assoc] at hfinal
  obtain ⟨hfirst,hboundary⟩ := reaches_placed hsize hdecodes (p := 0)
    (by rw [List.drop_zero,hfinal]) (.refl 0)
  constructor
  · rintro ⟨-,hall⟩
    by_contra hnot
    obtain ⟨hk0,hafter0⟩ := not_or.mp hnot
    obtain ⟨next,records,rfl⟩ := List.exists_cons_of_ne_nil hafter0
    have hnext := (hall _ List.mem_cons_self).1
    have hsome : final = some (before.flatten ++
        (record.take k ++ (next :: records).flatten)) := by
      rw [← hfinal]
      refine eq_some_getD final ?_
      rw [hfinal]
      refine List.ne_nil_of_length_pos ?_
      simp only [List.length_append,List.length_take]
      omega
    rw [hreached,hlog,List.length_append,List.length_take_of_le (by omega),hsome] at hnext
    exact not_follows_torn hdecodes hrecord hk (by omega) hnext
  · intro hcase
    refine ⟨hfirst,?_⟩
    rcases hcase with rfl | rfl
    · rw [List.take_zero,List.nil_append] at hfinal
      rw [hreached,hlog,List.take_zero,List.append_nil]
      rw [Nat.zero_add] at hboundary
      have hdrop : (final.getD []).drop before.flatten.length = after.flatten ++ [] := by
        rw [hfinal,List.drop_left,List.append_nil]
      exact (reaches_placed hsize hdecodes' hdrop hboundary).1
    · simp [placed]

/-- A record without a payload. -/
def emptyRecord : List Byte :=
  telemetryMagic ++ [formatVersion,1#8,10#8,0#8] ++ List.replicate 8 0#8 ++ [0#8,0#8]

theorem failed_append_unharmed :
    (∀ place ∈ placed 0 [emptyRecord],Reaches (some (emptyRecord ++ emptyRecord)) place) ∧
      ∀ place ∈ placed 18 [emptyRecord],Reaches (some (emptyRecord ++ emptyRecord)) place := by
  have hfirst : telemetryStoreAppend .complete emptyRecord none = (0,some emptyRecord) := by
    decide +kernel
  have hsecond : telemetryStoreAppend .complete emptyRecord (some emptyRecord) =
      (0,some (emptyRecord ++ emptyRecord)) := by
    decide +kernel
  exact (@failed_append_reaches_iff [emptyRecord] [emptyRecord] emptyRecord 0 (some emptyRecord)
    (some emptyRecord) _ .openFails (.cons hfirst (.nil _)) (by decide) (by decide) (by decide)
    (by decide) (.cons hsecond (.nil _))).mpr (.inl rfl)

/-- Five bytes of a record are left behind, and the record appended next is lost. -/
theorem torn_bytes_lose_record :
    telemetryStoreAppend (.cutShort 5) emptyRecord none = (-1,some (emptyRecord.take 5)) ∧
    Appended (some (emptyRecord.take 5)) [emptyRecord]
      (some (emptyRecord.take 5 ++ emptyRecord)) ∧
    (5,emptyRecord) ∈ placed 5 [emptyRecord] ∧
    ¬ Reaches (some (emptyRecord.take 5 ++ emptyRecord)) (5,emptyRecord) := by
  have happend : telemetryStoreAppend .complete emptyRecord (some (emptyRecord.take 5)) =
      (0,some (emptyRecord.take 5 ++ emptyRecord)) := by
    decide +kernel
  refine ⟨by decide +kernel,.cons happend (.nil _),List.mem_cons_self,?_⟩
  intro hreaches
  exact @not_follows_torn [] emptyRecord emptyRecord 5 (by simp) (by decide) (by decide)
    (by decide) hreaches.1

end FlightSoftware.Telemetry
