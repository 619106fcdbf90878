import FlightSoftware.Ccsds.ProfileCodec

/-!
# Error detection

A packet on the air that differs from an accepted one in a short burst in front
of the checksum, or only inside the checksum, is never accepted. The length and
version fields need no case of their own: whatever else `parse` looks at, it
accepts nothing whose trailing word is not the checksum of the rest.
-/

namespace FlightSoftware.Ccsds
open BigEndian

/-- All differing bits lie before the checksum and within 32 consecutive bits. -/
def BurstBeforeCrc (p q : List Byte) : Prop :=
  ∃ k,∀ n < 8*p.length,bitAt p n ≠ bitAt q n → n < 8*(p.length-4) ∧ k ≤ n ∧ n < k+32

/-- All differing bits lie inside the four checksum bytes. -/
def WithinCrc (p q : List Byte) : Prop :=
  ∀ n < 8*p.length,bitAt p n ≠ bitAt q n → 8*(p.length-4) ≤ n

theorem bitAt_of_le {s : List Byte} {n : ℕ} (h : 8*s.length ≤ n) : bitAt s n = false := by
  rw [bitAt,byteAt,List.getD_eq_default _ _ (by omega)]
  simp

theorem bitAt_take {s : List Byte} {m n : ℕ} (h : n < 8*m) : bitAt (s.take m) n = bitAt s n := by
  rw [bitAt,bitAt,byteAt_take s m _ (by omega)]

theorem bitAt_drop (s : List Byte) (m n : ℕ) : bitAt (s.drop m) n = bitAt s (8*m+n) := by
  rw [bitAt,bitAt,byteAt_drop,show (8*m+n)/8 = m+n/8 by omega,show (8*m+n)%8 = n%8 by omega]

theorem eq_of_bitAt_eq {s t : List Byte} (hl : s.length = t.length)
    (h : ∀ n < 8*s.length,bitAt s n = bitAt t n) : s = t := by
  apply streamBits_injective
  apply List.ext_getElem (by rw [streamBits_length,streamBits_length,hl])
  intro n hn hn'
  have hs := h n (by rwa [streamBits_length] at hn)
  rw [← streamBits_getD,← streamBits_getD] at hs
  simpa [hn,hn'] using hs

/-- The checksum of an accepted packet is the word behind its body. -/
theorem crc_of_isOk {p : List Byte} (h : (lgCcsdsProfileParse p).isOk = true) :
    26 ≤ p.length ∧ readU32Be (p.drop (p.length-4)) = ccsdsCrc32 (p.take (p.length-4)) := by
  cases hp : lgCcsdsProfileParse p with
  | error e => rw [hp] at h; cases h
  | ok view =>
    obtain ⟨_,_,_,hacc,-⟩ := lgCcsdsProfileParse_eq_ok_iff.mp hp
    exact ⟨hacc.long,hacc.crc⟩

/-- No burst of at most 32 bits in front of the checksum and no error confined to
the checksum turns an accepted packet into another accepted packet. -/
theorem burst_error_rejected {p q : List Byte} (hp : (lgCcsdsProfileParse p).isOk = true)
    (hl : q.length = p.length) (hne : q ≠ p) (h : BurstBeforeCrc p q ∨ WithinCrc p q) :
    (lgCcsdsProfileParse q).isOk = false := by
  by_contra hq
  rw [Bool.not_eq_false] at hq
  obtain ⟨h26,hcp⟩ := crc_of_isOk hp
  obtain ⟨-,hcq⟩ := crc_of_isOk hq
  rw [hl] at hcq
  have hbl : (p.take (p.length-4)).length = (q.take (p.length-4)).length := by
    rw [List.length_take,List.length_take,hl]
  have hsplit : p.take (p.length-4) = q.take (p.length-4) →
      p.drop (p.length-4) = q.drop (p.length-4) → False := by
    intro ht hd
    apply hne
    rw [← List.take_append_drop (p.length-4) p,← List.take_append_drop (p.length-4) q,ht,hd]
  rcases h with ⟨k,hk⟩ | hk
  · -- the checksum bytes agree, so two different bodies share a checksum
    have hd : p.drop (p.length-4) = q.drop (p.length-4) := by
      apply eq_of_bitAt_eq (by rw [List.length_drop,List.length_drop,hl])
      intro n hn
      rw [List.length_drop] at hn
      rw [bitAt_drop,bitAt_drop]
      by_contra hb
      have := hk _ (by omega) hb
      omega
    have hbody : p.take (p.length-4) ≠ q.take (p.length-4) := fun ht => hsplit ht hd
    apply ccsdsCrc32_ne_of_burst hbl hbody k
    · intro n hb
      by_cases hn : n < 8*(p.length-4)
      · rw [bitAt_take hn,bitAt_take hn] at hb
        exact (hk n (by omega) hb).2
      · rw [bitAt_of_le (by rw [List.length_take]; omega),
          bitAt_of_le (by rw [List.length_take,hl]; omega)] at hb
        exact absurd rfl hb
    · rw [← hcp,← hcq,hd]
  · -- the bodies agree, so the two checksum words are the same four bytes
    have ht : p.take (p.length-4) = q.take (p.length-4) := by
      apply eq_of_bitAt_eq hbl
      intro n hn
      rw [List.length_take] at hn
      rw [bitAt_take (by omega),bitAt_take (by omega)]
      by_contra hb
      have := hk _ (by omega) hb
      omega
    apply hsplit ht
    have hw := congrArg writeU32Be (hcp.trans ((congrArg ccsdsCrc32 ht).trans hcq.symm))
    rw [writeU32Be_readU32Be (by rw [List.length_drop]; omega),
      writeU32Be_readU32Be (by rw [List.length_drop,hl]; omega),
      List.take_of_length_le (by rw [List.length_drop]; omega),
      List.take_of_length_le (by rw [List.length_drop,hl]; omega)] at hw
    exact hw

/-- The first telemetry packet of the framing test, as it goes on the air. -/
def goldenPacket : List Byte :=
  [0x08,0x01,0xC0,0x00,0x00,0x1B,
   0x01,0x00,0x00,0x00,0x00,0x00,0x00,0x00,
   0x00,0x00,0x00,0x01,0x00,0x00,0x00,0x08,
   0x00,0x05,0x09,0xC4,0x00,0x00,0x03,0xE8,
   0xA6,0x30,0x25,0x9D]

/-- One flipped bit in the payload of the golden packet. -/
theorem golden_flipped_bit_rejected :
    (lgCcsdsProfileParse goldenPacket).isOk = true ∧
    (lgCcsdsProfileParse (goldenPacket.set 25 0xC5#8)).isOk = false :=
  ⟨by decide +kernel,@burst_error_rejected goldenPacket (goldenPacket.set 25 0xC5#8)
    (by decide +kernel) rfl (by decide) (.inl ⟨200,by decide +kernel⟩)⟩

end FlightSoftware.Ccsds
