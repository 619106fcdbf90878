import FlightSoftware.Obc.Ipc

/-!
# Files streamed by Data

`filesystem_stream_file` of `filesystem.c`: the replies to a read request. A reply
is the last one when it is not full, so a file whose size is a multiple of the
chunk size ends with an empty reply. Nothing in a reply says which request it
answers.
-/

namespace FlightSoftware.Data
open Obc

def chunkSize : ℕ := 200

/-- `data_read_reply_t`, with the payload array in full. -/
structure DataReadReply where
  status : ℤ
  offset : BitVec 32
  length : ℕ
  isLast : Bool
  payload : List Byte
  payloadSize : payload.length = chunkSize
  deriving DecidableEq

/-- The bytes that a reply delivers. -/
def DataReadReply.chunk (reply : DataReadReply) : List Byte := reply.payload.take reply.length

/-- The reply of `send_error`. -/
def errorReply : DataReadReply := ⟨-1,0,0,true,padTo chunkSize [],padTo_length _ _⟩

/-- The reply with the bytes that one `fread` returned. -/
def readReply (offset : ℕ) (bytes : List Byte) : DataReadReply where
  status := 0
  offset := BitVec.ofNat 32 offset
  length := bytes.length
  isLast := bytes.length < chunkSize
  payload := padTo chunkSize bytes
  payloadSize := padTo_length _ _

/-- The loop of `filesystem_stream_file` from an offset on. -/
def streamReplies (bytes : List Byte) (offset : ℕ) : List DataReadReply :=
  if ((bytes.drop offset).take chunkSize).length < chunkSize then
    [readReply offset ((bytes.drop offset).take chunkSize)]
  else
    readReply offset ((bytes.drop offset).take chunkSize) ::
      streamReplies bytes (offset + ((bytes.drop offset).take chunkSize).length)
termination_by bytes.length - offset
decreasing_by
  have : 0 < chunkSize := by decide
  rw [List.length_take,List.length_drop] at *
  omega

/-- `filesystem_stream_file`: the replies in the order in which they are sent, for a file that
may not open, and whose reading may fail after a number of bytes. A failed `fread` is taken for
the end of the file. The first reply that cannot be sent ends the stream. -/
def filesystemStreamFile (file : Option (List Byte)) (failsAfter : Option ℕ) :
    List DataReadReply :=
  match file with
  | none => [errorReply]
  | some content =>
    match failsAfter with
    | none => streamReplies content 0
    | some k => streamReplies (content.take k) 0

/-! ### What the replies add up to -/

theorem readReply_chunk {bytes : List Byte} (h : bytes.length ≤ chunkSize) (offset : ℕ) :
    (readReply offset bytes).chunk = bytes := take_padTo h

/-- A chunk that is not full goes on to the end of the content. -/
theorem chunk_of_last {content : List Byte} {offset : ℕ}
    (hlast : ((content.drop offset).take chunkSize).length < chunkSize) :
    (content.drop offset).take chunkSize = content.drop offset := by
  refine List.take_of_length_le ?_
  rw [List.length_take] at hlast
  omega

theorem chunk_of_full {content : List Byte} {offset : ℕ}
    (hfull : ¬((content.drop offset).take chunkSize).length < chunkSize) :
    ((content.drop offset).take chunkSize).length = chunkSize ∧
      offset + chunkSize ≤ content.length := by
  have hpos : 0 < chunkSize := by decide
  rw [List.length_take,List.length_drop] at hfull ⊢
  omega

/-- The replies complete the content, of which a part has been received: only the last one is
marked as such, and none reports an error. -/
def Completes (content : List Byte) : List Byte → List DataReadReply → Prop
  | _,[] => False
  | received,reply :: more =>
    reply.status = 0 ∧
      if reply.isLast then more = [] ∧ received ++ reply.chunk = content
      else Completes content (received ++ reply.chunk) more

theorem streamReplies_completes (content : List Byte) (offset : ℕ) :
    Completes content (content.take offset) (streamReplies content offset) := by
  induction offset using streamReplies.induct content with
  | case1 offset hlast =>
    rw [streamReplies,if_pos hlast,Completes,readReply_chunk hlast.le]
    refine ⟨rfl,?_⟩
    rw [if_pos (by simpa [readReply] using hlast),chunk_of_last hlast]
    exact ⟨rfl,List.take_append_drop _ _⟩
  | case2 offset hfull ih =>
    obtain ⟨hlength,-⟩ := chunk_of_full hfull
    rw [streamReplies,if_neg hfull,Completes,readReply_chunk hlength.le,← List.take_add]
    refine ⟨rfl,?_⟩
    rw [if_neg (by simpa [readReply] using hfull),hlength]
    rw [hlength] at ih
    exact ih

/-- The replies are the next ones of a stream that completes the content, if not all of them. -/
def Continues (content received : List Byte) (replies : List DataReadReply) : Prop :=
  ∃ rest,Completes content received (replies ++ rest)

theorem Completes.continues {content received : List Byte} {replies : List DataReadReply}
    (h : Completes content received replies) : Continues content received replies :=
  ⟨[],by rwa [List.append_nil]⟩

theorem Continues.left {content received : List Byte} {replies more : List DataReadReply}
    (h : Continues content received (replies ++ more)) : Continues content received replies := by
  obtain ⟨rest,h⟩ := h
  exact ⟨more ++ rest,by rwa [← List.append_assoc]⟩

/-- The next reply is not an error. If it is the last one it completes the content, and
otherwise the stream goes on behind it. -/
theorem Continues.next {content received : List Byte} {reply : DataReadReply}
    {more : List DataReadReply} (h : Continues content received (reply :: more)) :
    reply.status = 0 ∧ (reply.isLast = true → more = [] ∧ received ++ reply.chunk = content) ∧
      (reply.isLast = false → Continues content (received ++ reply.chunk) more) := by
  obtain ⟨rest,hstatus,h⟩ := h
  refine ⟨hstatus,fun hlast => ?_,fun hlast => ?_⟩
  · rw [if_pos hlast] at h
    exact ⟨(List.append_eq_nil_iff.mp h.1).1,h.2⟩
  · rw [if_neg (by rw [hlast]; decide)] at h
    exact ⟨rest,h⟩

/-- Nothing comes behind the last reply. -/
theorem Continues.last_end {content received : List Byte} {before after : List DataReadReply}
    {reply : DataReadReply} (h : Continues content received (before ++ reply :: after))
    (hlast : reply.isLast = true) : after = [] := by
  induction before generalizing received with
  | nil => exact (h.next.2.1 hlast).1
  | cons first before ih =>
    obtain ⟨-,hend,hmore⟩ := h.next
    cases hfirst : first.isLast with
    | true => exact absurd (hend hfirst).1 (by simp)
    | false => exact ih (hmore hfirst)

end FlightSoftware.Data
