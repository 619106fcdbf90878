import FlightSoftware.Data.Filesystem

/-!
# Files written and read back

`filesystem_write_chunk` of `filesystem.c` keeps no state between chunks: one at offset
zero replaces the file, any other is appended. The replies of a stream carry the file
in order, and each says where it is from and whether it is the last.
-/

namespace FlightSoftware.Data
open Obc

/-! ### Writing -/

/-- The files by their paths. -/
abbrev Disk := List Byte → Option (List Byte)

/-- What the file operations for one chunk do: whether the file opens, how many bytes `fwrite`
takes if not all of them, and how many of those reach the file if the flush in `fclose` fails. -/
structure WriteIo where
  opened : Bool
  stopsAfter : Option ℕ
  flushStopsAfter : Option ℕ

def WriteIo.succeeds : WriteIo := ⟨true,none,none⟩

/-- The first bytes, if not all of them. -/
def takeUpTo (limit : Option ℕ) (bytes : List Byte) : List Byte :=
  match limit with
  | none => bytes
  | some k => bytes.take k

/-- The files afterwards, and the status of the acknowledgement. The result of `fclose` is not
looked at. -/
def filesystemWriteChunk (disk : Disk) (path : List Byte) (offset : BitVec 32)
    (payload : List Byte) (io : WriteIo) : Disk × ℤ :=
  if io.opened then
    let old := if offset = 0 then [] else (disk path).getD []
    let written := takeUpTo io.stopsAfter payload
    (Function.update disk path (some (old ++ takeUpTo io.flushStopsAfter written)),
      if written.length = payload.length then 0 else -1)
  else (disk,-1)

theorem takeUpTo_eq_iff (limit : Option ℕ) (bytes : List Byte) :
    takeUpTo limit bytes = bytes ↔ ∀ k ∈ limit,bytes.length ≤ k := by
  cases limit with
  | none => simp [takeUpTo]
  | some k => simp [takeUpTo,List.take_eq_self_iff]

theorem takeUpTo_length_iff (limit : Option ℕ) (bytes : List Byte) :
    (takeUpTo limit bytes).length = bytes.length ↔ ∀ k ∈ limit,bytes.length ≤ k := by
  cases limit with
  | none => simp [takeUpTo]
  | some k => simp [takeUpTo]

/-- The file that a chunk is to leave: the chunk alone, or behind the previous content. -/
def chunkFile (disk : Disk) (path : List Byte) (offset : BitVec 32) (payload : List Byte) :
    List Byte :=
  (if offset = 0 then [] else (disk path).getD []) ++ payload

/-- `fwrite` takes all the bytes, and the flush in `fclose` loses some of them. -/
def WriteIo.LosesTail (io : WriteIo) (size : ℕ) : Prop :=
  io.opened = true ∧ (∀ k ∈ io.stopsAfter,size ≤ k) ∧ ∃ k ∈ io.flushStopsAfter,k < size

theorem WriteIo.succeeds_stores (size : ℕ) : ¬WriteIo.succeeds.LosesTail size := by
  rintro ⟨-,-,k,hk,-⟩
  cases hk

/-- A chunk is acknowledged with zero if `fwrite` takes all of it. -/
theorem filesystemWriteChunk_ack (disk : Disk) (path : List Byte) (offset : BitVec 32)
    (payload : List Byte) (io : WriteIo) :
    (filesystemWriteChunk disk path offset payload io).2 = 0 ↔
      io.opened = true ∧ ∀ k ∈ io.stopsAfter,payload.length ≤ k := by
  unfold filesystemWriteChunk
  cases io.opened with
  | false => simp
  | true => simp [takeUpTo_length_iff]

/-- An acknowledged chunk is in the file, unless the flush loses a part of it. -/
theorem filesystemWriteChunk_acked_iff (disk : Disk) (path : List Byte) (offset : BitVec 32)
    (payload : List Byte) (io : WriteIo) :
    ((filesystemWriteChunk disk path offset payload io).2 = 0 →
      (filesystemWriteChunk disk path offset payload io).1 =
        Function.update disk path (some (chunkFile disk path offset payload))) ↔
      ¬io.LosesTail payload.length := by
  rw [filesystemWriteChunk_ack]
  by_cases hack : io.opened = true ∧ ∀ k ∈ io.stopsAfter,payload.length ≤ k
  · obtain ⟨hopened,htaken⟩ := hack
    have hdisk : (filesystemWriteChunk disk path offset payload io).1 =
        Function.update disk path (some
          ((if offset = 0 then [] else (disk path).getD []) ++
            takeUpTo io.flushStopsAfter payload)) := by
      simp only [filesystemWriteChunk,hopened,if_true,(takeUpTo_eq_iff _ _).mpr htaken]
    have hupdate : ∀ {a b : Option (List Byte)},
        Function.update disk path a = Function.update disk path b ↔ a = b :=
      (Function.update_injective disk path).eq_iff
    have hloses : io.LosesTail payload.length ↔ ∃ k ∈ io.flushStopsAfter,k < payload.length :=
      ⟨fun h => h.2.2,fun h => ⟨hopened,htaken,h⟩⟩
    rw [forall_prop_of_true ⟨hopened,htaken⟩,hdisk,hupdate,Option.some.injEq,chunkFile,
      List.append_cancel_left_eq,takeUpTo_eq_iff,hloses]
    push Not
    rfl
  · exact iff_of_true (fun h => absurd h hack) fun h => hack ⟨h.1,h.2.1⟩

/-- The files when the first bytes of an output have been written. -/
def storedUpTo (disk : Disk) (path output : List Byte) (written : ℕ) : Disk :=
  if written = 0 then disk else Function.update disk path (some (output.take written))

@[simp] theorem storedUpTo_zero (disk : Disk) (path output : List Byte) :
    storedUpTo disk path output 0 = disk := if_pos rfl

theorem storedUpTo_length {output : List Byte} (h : output ≠ []) (disk : Disk)
    (path : List Byte) :
    storedUpTo disk path output output.length = Function.update disk path (some output) := by
  rw [storedUpTo,if_neg fun h0 => h (List.eq_nil_of_length_eq_zero h0),List.take_length]

/-- The next chunk is stored behind the others, and the first one replaces what was there. -/
theorem filesystemWriteChunk_next (disk : Disk) (path output : List Byte) {written len : ℕ}
    (hlen : 0 < len) (h32 : written < 2^32) :
    filesystemWriteChunk (storedUpTo disk path output written) path (BitVec.ofNat 32 written)
        ((output.drop written).take len) .succeeds =
      (storedUpTo disk path output (written+len),0) := by
  have hnext : storedUpTo disk path output (written+len) =
      Function.update disk path (some (output.take (written+len))) := by
    rw [storedUpTo,if_neg (by omega)]
  rw [hnext,List.take_add]
  simp only [filesystemWriteChunk,WriteIo.succeeds,takeUpTo,if_true]
  by_cases hw : written = 0
  · subst hw
    have hzero : BitVec.ofNat 32 0 = 0 := rfl
    rw [storedUpTo_zero,if_pos hzero,List.take_zero]
  · have hne : ¬BitVec.ofNat 32 written = 0 := by
      intro hzero
      have hmod := congrArg BitVec.toNat hzero
      rw [BitVec.toNat_ofNat,Nat.mod_eq_of_lt h32] at hmod
      exact hw hmod
    rw [if_neg hne,storedUpTo,if_neg hw,Function.update_self,Option.getD_some,
      Function.update_idem]

/-! ### Reading back -/

/-- The replies carry the content from `start` on: the chunks in order, each at the running total
of those before it, and the last one alone marked as such. -/
structure Streams (content : List Byte) (start : ℕ) (replies : List DataReadReply) : Prop where
  status : ∀ reply ∈ replies,reply.status = 0
  length : ∀ reply ∈ replies,reply.chunk.length = reply.length
  content : (replies.map DataReadReply.chunk).flatten = content.drop start
  offset : ∀ before reply after,replies = before ++ reply :: after →
    reply.offset.toNat = start + (before.map DataReadReply.chunk).flatten.length
  last : ∀ before reply after,replies = before ++ reply :: after →
    (reply.isLast = true ↔ after = [])
  nonempty : replies ≠ []

theorem streams_single {content : List Byte} {start : ℕ} {reply : DataReadReply}
    (hstatus : reply.status = 0) (hlength : reply.chunk.length = reply.length)
    (hchunk : reply.chunk = content.drop start) (hoffset : reply.offset.toNat = start)
    (hlast : reply.isLast = true) : Streams content start [reply] where
  status r hr := by rwa [List.mem_singleton.mp hr]
  length r hr := by rwa [List.mem_singleton.mp hr]
  content := by rw [List.map_singleton,List.flatten_singleton,hchunk]
  offset before r after h := by
    obtain ⟨rfl,hr,rfl⟩ : before = [] ∧ reply = r ∧ after = [] := by
      cases before <;> simp_all
    rw [← hr,hoffset]
    rfl
  last before r after h := by
    obtain ⟨rfl,hr,rfl⟩ : before = [] ∧ reply = r ∧ after = [] := by
      cases before <;> simp_all
    rw [← hr]
    exact iff_of_true hlast rfl
  nonempty := List.cons_ne_nil _ _

theorem Streams.cons {content : List Byte} {start len : ℕ} {reply : DataReadReply}
    {replies : List DataReadReply} (h : Streams content (start+len) replies)
    (hstatus : reply.status = 0) (hlength : reply.chunk.length = reply.length)
    (hchunk : reply.chunk = (content.drop start).take len) (hlen : reply.chunk.length = len)
    (hoffset : reply.offset.toNat = start) (hlast : reply.isLast = false) :
    Streams content start (reply :: replies) where
  status := List.forall_mem_cons.mpr ⟨hstatus,h.status⟩
  length := List.forall_mem_cons.mpr ⟨hlength,h.length⟩
  content := by
    rw [List.map_cons,List.flatten_cons,h.content,hchunk,← List.drop_drop,List.take_append_drop]
  offset before r after heq := by
    cases before with
    | nil =>
      obtain ⟨rfl,-⟩ := List.cons.inj heq
      rw [hoffset]
      rfl
    | cons first before =>
      obtain ⟨rfl,hrest⟩ := List.cons.inj heq
      rw [h.offset before r after hrest,List.map_cons,List.flatten_cons,List.length_append,hlen]
      omega
  last before r after heq := by
    cases before with
    | nil =>
      obtain ⟨rfl,rfl⟩ := List.cons.inj heq
      rw [hlast]
      exact iff_of_false Bool.false_ne_true h.nonempty
    | cons first before => exact h.last before r after (List.cons.inj heq).2
  nonempty := List.cons_ne_nil _ _

theorem streamReplies_streams {content : List Byte} (h32 : content.length < 2^32) (start : ℕ)
    (hstart : start ≤ content.length) : Streams content start (streamReplies content start) := by
  have hoffset (start : ℕ) (hstart : start ≤ content.length) (bytes : List Byte) :
      (readReply start bytes).offset.toNat = start := by
    change (BitVec.ofNat 32 start).toNat = start
    rw [BitVec.toNat_ofNat,Nat.mod_eq_of_lt (by omega)]
  induction start using streamReplies.induct content with
  | case1 start hlast =>
    have hchunk := readReply_chunk hlast.le start
    rw [streamReplies,if_pos hlast]
    refine streams_single rfl (by rw [hchunk]; rfl) ?_ (hoffset start hstart _) ?_
    · rw [hchunk,chunk_of_last hlast]
    · simpa [readReply] using hlast
  | case2 start hfull ih =>
    obtain ⟨hlength,hnext⟩ := chunk_of_full hfull
    have hchunk := readReply_chunk hlength.le start
    rw [streamReplies,if_neg hfull]
    rw [hlength] at ih ⊢
    refine (ih hnext).cons rfl (by rw [hchunk]; rfl) hchunk (by rw [hchunk,hlength])
      (hoffset start hstart _) ?_
    simpa [readReply] using hfull

/-- A file that is read without an error is streamed as it is. -/
theorem filesystemStreamFile_streams {content : List Byte} (h32 : content.length < 2^32) :
    Streams content 0 (filesystemStreamFile (some content) none) :=
  streamReplies_streams h32 0 (Nat.zero_le _)

end FlightSoftware.Data
