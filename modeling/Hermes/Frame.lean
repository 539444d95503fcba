import Hermes.Types

/-!
# Frames in a ring buffer

`locateInRingBuf` places a frame (header, payload, footer) at an edge of a ring.
The payload is split in two views when it passes the end of the ring; header and
footer never are.  `frameAt` is the placement in closed form, and
`locateInRingBuf_eq` says that for a power-of-two ring, a 16-byte aligned edge and
an aligned size that fits the ring, the code computes exactly it and no check
fails.  The lemmas on `frameAt` then express its four pieces as consecutive reads
of the ring.
-/

namespace Hermes

/-- `DFrame`: addresses of header and footer, and the two payload views. -/
structure DFrame where
  pStart : ℕ
  views0 : Span
  views1 : Span
  pEnd : ℕ
  deriving DecidableEq, Repr

/-- `LocateInRingBuf`. -/
def locateInRingBuf (buffer : Span) (startEdge : UInt64) (size : ℕ) : Except Abort DFrame := do
  let bufSize := buffer.size
  auditAssert (bufSize > 0 ∧ isPower2 bufSize = true) "Size of ring buffer must be power of 2"
  let offset := (startEdge &&& UInt64.ofNat (bufSize - 1)).toNat
  auditAssert (offset ≤ sizeSub bufSize msgEndSize) "MsgEnd splited into two"
  let pStart ← buffer.at offset
  let blobSize := sizeSub size (2 * msgEndSize)
  let offset := offset + msgEndSize
  let len1 := min blobSize (sizeSub bufSize offset)
  let len2 := blobSize - len1
  let views0 ← buffer.subspan offset len1
  let views1 ← buffer.subspan 0 len2
  let endPos := if len2 > 0 then len2 else (offset + len1) &&& (bufSize - 1)
  let pEnd ← buffer.at endPos
  return { pStart, views0, views1, pEnd }

/-- Number of payload bytes before the end of the ring. -/
def firstViewSize (ring edge size : ℕ) : ℕ :=
  min (size - 2 * msgEndSize) (ring - (edge % ring + msgEndSize))

/-- The frame of `size` bytes at `edge` in the ring of `ring` bytes at `data`. -/
def frameAt (data ring edge size : ℕ) : DFrame where
  pStart := data + edge % ring
  views0 := ⟨data + (edge % ring + msgEndSize), firstViewSize ring edge size⟩
  views1 := ⟨data, size - 2 * msgEndSize - firstViewSize ring edge size⟩
  pEnd := data + (edge + size - msgEndSize) % ring

/-- What the sender and a receiver keep about a ring and a frame in it: the ring is a power of
two, and the frame is aligned, holds header and footer, and is not larger than the ring. -/
structure FrameFits (ring edge size : ℕ) : Prop where
  power : ∃ exponent < 64, ring = 2 ^ exponent
  edgeAligned : msgEndSize ∣ edge
  sizeAligned : msgEndSize ∣ size
  low : 2 * msgEndSize ≤ size
  high : size ≤ ring

namespace FrameFits

variable {ring edge size : ℕ}

theorem ringAligned (fits : FrameFits ring edge size) : msgEndSize ∣ ring := by
  rcases fits.power with ⟨exponent, _, rfl⟩
  have large : 2 ^ 5 ≤ 2 ^ exponent := le_trans fits.low fits.high
  have exponentLarge := (Nat.pow_le_pow_iff_right (by decide)).mp large
  exact pow_dvd_pow 2 (show 4 ≤ exponent by omega)

theorem offsetAligned (fits : FrameFits ring edge size) : msgEndSize ∣ edge % ring :=
  (Nat.dvd_mod_iff fits.ringAligned).mpr fits.edgeAligned

/-- The header is not split by the end of the ring. -/
theorem header_fits (fits : FrameFits ring edge size) : edge % ring + msgEndSize ≤ ring := by
  have below := Nat.mod_lt edge (show 0 < ring by
    have := fits.low; have := fits.high; simp only [msgEndSize] at *; omega)
  have ringAligned := fits.ringAligned
  have offsetAligned := fits.offsetAligned
  simp only [msgEndSize] at *
  omega

theorem footerEdgeAligned (fits : FrameFits ring edge size) :
    msgEndSize ∣ edge + size - msgEndSize := by
  have := fits.edgeAligned
  have := fits.sizeAligned
  simp only [msgEndSize] at *
  omega

/-- The footer is not split by the end of the ring. -/
theorem footer_fits (fits : FrameFits ring edge size) :
    (edge + size - msgEndSize) % ring + msgEndSize ≤ ring := by
  have shifted : FrameFits ring (edge + size - msgEndSize) size :=
    { fits with edgeAligned := fits.footerEdgeAligned }
  exact shifted.header_fits

theorem firstView_le (fits : FrameFits ring edge size) :
    edge % ring + msgEndSize + firstViewSize ring edge size ≤ ring := by
  have := fits.header_fits
  simp only [firstViewSize]
  omega

/-- Position of the footer, as the two branches of the code compute it. -/
theorem footer_mod (fits : FrameFits ring edge size) :
    (edge + size - msgEndSize) % ring =
      if 0 < size - 2 * msgEndSize - firstViewSize ring edge size then
        size - 2 * msgEndSize - firstViewSize ring edge size
      else (edge % ring + msgEndSize + firstViewSize ring edge size) % ring := by
  have low := fits.low
  have high := fits.high
  have header := fits.header_fits
  by_cases wraps : 0 < size - 2 * msgEndSize - firstViewSize ring edge size
  · rw [if_pos wraps]
    simp only [firstViewSize, msgEndSize] at *
    have regroup : edge + size - 16 = edge + (size - 16) := by omega
    rw [regroup, Window.add_mod_of_le (by omega) (by omega) (by omega)]
    omega
  · rw [if_neg wraps]
    simp only [firstViewSize, msgEndSize] at *
    have whole : min (size - 2 * 16) (ring - (edge % ring + 16)) = size - 32 := by omega
    have regroup : edge % ring + 16 + (size - 32) = edge % ring + (size - 16) := by omega
    rw [whole, regroup, Nat.mod_add_mod]
    congr 1
    omega

/-- The masked edge is the position in the ring. -/
theorem offset_eq {edge : UInt64} (fits : FrameFits ring edge.toNat size) :
    (edge &&& UInt64.ofNat (ring - 1)).toNat = edge.toNat % ring := by
  obtain ⟨exponent, small, power⟩ := fits.power
  have ringSmall : ring < 2 ^ 64 := by
    rw [power]
    exact Nat.pow_lt_pow_right (by decide) small
  rw [UInt64.toNat_and, UInt64.toNat_ofNat_of_lt' (by simp only [UInt64.size]; omega), power,
    Nat.and_two_pow_sub_one_eq_mod]

end FrameFits

/-- `LocateInRingBuf` fails no check and computes `frameAt`. -/
theorem locateInRingBuf_eq {data ring size : ℕ} {edge : UInt64}
    (fits : FrameFits ring edge.toNat size) :
    locateInRingBuf ⟨data, ring⟩ edge size = .ok (frameAt data ring edge.toNat size) := by
  have low := fits.low
  have high := fits.high
  have header := fits.header_fits
  have footer := fits.footer_fits
  have view := fits.firstView_le
  have footerMod := fits.footer_mod
  obtain ⟨exponent, small, power⟩ := fits.power
  have isPower : isPower2 ring = true := (isPower2_iff ring).mpr ⟨exponent, power⟩
  have positive : 0 < ring := by simp only [msgEndSize] at *; omega
  have ringSmall : ring < 2 ^ 64 := by
    rw [power]
    exact Nat.pow_lt_pow_right (by decide) small
  have offset := fits.offset_eq
  have blob : sizeSub size (2 * msgEndSize) = size - 2 * msgEndSize := by
    simp only [sizeSub, sizeLimit, msgEndSize] at *
    omega
  have room : sizeSub ring msgEndSize = ring - msgEndSize := by
    simp only [sizeSub, sizeLimit, msgEndSize] at *
    omega
  have rest : sizeSub ring (edge.toNat % ring + msgEndSize) =
      ring - (edge.toNat % ring + msgEndSize) := by
    simp only [sizeSub, sizeLimit, msgEndSize] at *
    omega
  have mask : ∀ value, value &&& (ring - 1) = value % ring := by
    intro value
    rw [power, Nat.and_two_pow_sub_one_eq_mod]
  have start : Span.at ⟨data, ring⟩ (edge.toNat % ring) = .ok (data + edge.toNat % ring) :=
    if_pos (Nat.mod_lt _ positive)
  have views0 : Span.subspan ⟨data, ring⟩ (edge.toNat % ring + msgEndSize)
      (firstViewSize ring edge.toNat size) = .ok (frameAt data ring edge.toNat size).views0 :=
    if_pos view
  have views1 : Span.subspan ⟨data, ring⟩ 0
      (size - 2 * msgEndSize - firstViewSize ring edge.toNat size) =
        .ok (frameAt data ring edge.toNat size).views1 :=
    if_pos (by simp only [msgEndSize] at *; omega)
  have finish : Span.at ⟨data, ring⟩ ((edge.toNat + size - msgEndSize) % ring) =
      .ok (frameAt data ring edge.toNat size).pEnd :=
    if_pos (Nat.mod_lt _ positive)
  simp only [locateInRingBuf, offset, blob, room, rest, mask]
  rw [auditAssert_of ⟨positive, isPower⟩, auditAssert_of (by simp only [msgEndSize] at *; omega)]
  simp only [start, ← firstViewSize.eq_def, views0, views1, bind, Except.bind, gt_iff_lt,
    ← footerMod,
    finish]
  rfl

section Record

variable (data : ℕ) {ring edge size : ℕ} {header body footer : List UInt8}

/-- A frame as a record: header, payload, footer. -/
structure IsRecord (size : ℕ) (header body footer : List UInt8) : Prop where
  header : header.length = msgEndSize
  body : body.length = size - 2 * msgEndSize
  footer : footer.length = msgEndSize

theorem IsRecord.length (isRecord : IsRecord size header body footer)
    (low : 2 * msgEndSize ≤ size) : (header ++ body ++ footer).length = size := by
  have := isRecord.header
  have := isRecord.body
  have := isRecord.footer
  simp only [List.length_append, msgEndSize] at *
  omega

open Memory

/-- The header is a segment of the frame. -/
theorem FrameFits.header_segment (fits : FrameFits ring edge size)
    (isRecord : IsRecord size header body footer) :
    Segment data ring edge (header ++ body ++ footer) 0 (frameAt data ring edge size).pStart
      header where
  bound := by
    rw [isRecord.length fits.low, isRecord.header]
    have := fits.low
    omega
  part := by simp [List.append_assoc]
  placed _ := rfl
  straight _ := by
    rw [isRecord.header]
    exact fits.header_fits

/-- The first view holds the payload up to the end of the ring. -/
theorem FrameFits.views0_segment (fits : FrameFits ring edge size)
    (isRecord : IsRecord size header body footer) :
    Segment data ring edge (header ++ body ++ footer) msgEndSize
      (frameAt data ring edge size).views0.data (body.take (firstViewSize ring edge size)) := by
  have bodyLength := isRecord.body
  have low := fits.low
  have view := fits.firstView_le
  have dropped : (header ++ body ++ footer).drop msgEndSize = body ++ footer := by
    rw [List.append_assoc, ← isRecord.header, List.drop_left]
  refine ⟨?_, ?_, ?_, ?_⟩
  · rw [isRecord.length low, List.length_take]
    simp only [msgEndSize] at *
    omega
  · rw [dropped, List.length_take, List.take_append_of_le_length (Nat.min_le_right _ _)]
    rcases Nat.le_total (firstViewSize ring edge size) body.length with le | le
    · rw [Nat.min_eq_left le]
    · rw [Nat.min_eq_right le, List.take_of_length_le le, List.take_length]
  · intro nonempty
    have positive := List.length_pos_of_ne_nil nonempty
    rw [List.length_take] at positive
    rw [Window.add_mod_of_lt (by omega)]
    rfl
  · intro nonempty
    have positive := List.length_pos_of_ne_nil nonempty
    rw [List.length_take] at positive ⊢
    rw [Window.add_mod_of_lt (by omega)]
    omega

/-- The second view holds the rest of the payload, from the start of the ring. -/
theorem FrameFits.views1_segment (fits : FrameFits ring edge size)
    (isRecord : IsRecord size header body footer) :
    Segment data ring edge (header ++ body ++ footer)
      (msgEndSize + firstViewSize ring edge size)
      (frameAt data ring edge size).views1.data (body.drop (firstViewSize ring edge size)) := by
  have bodyLength := isRecord.body
  have low := fits.low
  have high := fits.high
  have headerFits := fits.header_fits
  have view : firstViewSize ring edge size ≤ body.length := by
    rw [bodyLength]
    exact Nat.min_le_left _ _
  have dropped : (header ++ body ++ footer).drop (msgEndSize + firstViewSize ring edge size) =
      body.drop (firstViewSize ring edge size) ++ footer := by
    rw [List.append_assoc, ← List.drop_drop, ← isRecord.header, List.drop_left,
      List.drop_append_of_le_length view]
  have atEnd : body.drop (firstViewSize ring edge size) ≠ [] →
      (edge + (msgEndSize + firstViewSize ring edge size)) % ring = 0 := by
    intro nonempty
    have positive := List.length_pos_of_ne_nil nonempty
    simp only [List.length_drop, bodyLength] at positive
    have whole : edge % ring + (msgEndSize + firstViewSize ring edge size) = ring := by
      simp only [firstViewSize] at *
      omega
    rw [← Nat.mod_add_mod, whole, Nat.mod_self]
  refine ⟨?_, ?_, ?_, ?_⟩
  · rw [isRecord.length low, List.length_drop]
    simp only [msgEndSize] at *
    omega
  · rw [dropped, List.take_left]
  · intro nonempty
    rw [atEnd nonempty]
    rfl
  · intro nonempty
    rw [atEnd nonempty, List.length_drop, bodyLength]
    omega

/-- The footer is a segment of the frame. -/
theorem FrameFits.footer_segment (fits : FrameFits ring edge size)
    (isRecord : IsRecord size header body footer) :
    Segment data ring edge (header ++ body ++ footer) (size - msgEndSize)
      (frameAt data ring edge size).pEnd footer := by
  have low := fits.low
  have regroup : edge + (size - msgEndSize) = edge + size - msgEndSize := by
    simp only [msgEndSize] at *
    omega
  have front : (header ++ body).length = size - msgEndSize := by
    rw [List.length_append, isRecord.header, isRecord.body]
    simp only [msgEndSize] at *
    omega
  refine ⟨?_, ?_, ?_, ?_⟩
  · rw [isRecord.length low, isRecord.footer]
    simp only [msgEndSize] at *
    omega
  · rw [← front, List.drop_left, List.take_length]
  · intro _
    rw [regroup]
    rfl
  · intro _
    rw [regroup, isRecord.footer]
    exact fits.footer_fits

/-- The four pieces cover the frame. -/
theorem FrameFits.pending (fits : FrameFits ring edge size)
    (isRecord : IsRecord size header body footer) (memory : Memory UInt8) :
    Pending memory data ring edge (header ++ body ++ footer)
      [((frameAt data ring edge size).views0.data, body.take (firstViewSize ring edge size)),
        ((frameAt data ring edge size).views1.data, body.drop (firstViewSize ring edge size)),
        ((frameAt data ring edge size).pEnd, footer),
        ((frameAt data ring edge size).pStart, header)] := by
  have low := fits.low
  have length := isRecord.length low
  have bodyLength := isRecord.body
  have views0 := fits.views0_segment data isRecord
  have views1 := fits.views1_segment data isRecord
  have footerSegment := fits.footer_segment data isRecord
  have headerSegment := fits.header_segment data isRecord
  have view : firstViewSize ring edge size ≤ size - 2 * msgEndSize := Nat.min_le_left _ _
  refine ⟨?_, ?_⟩
  · intro write present
    simp only [List.mem_cons, List.not_mem_nil, or_false] at present
    rcases present with rfl | rfl | rfl | rfl
    · exact ⟨_, views0⟩
    · exact ⟨_, views1⟩
    · exact ⟨_, footerSegment⟩
    · exact ⟨_, headerSegment⟩
  · intro offset inside
    right
    rw [length] at inside
    by_cases inHeader : offset < msgEndSize
    · refine ⟨_, List.mem_cons_of_mem _ (List.mem_cons_of_mem _ (List.mem_cons_of_mem _
        List.mem_cons_self)), 0, headerSegment, Nat.zero_le _, ?_⟩
      simpa [isRecord.header] using inHeader
    · by_cases inFirst : offset < msgEndSize + firstViewSize ring edge size
      · refine ⟨_, List.mem_cons_self, msgEndSize, views0, by omega, ?_⟩
        simp only [List.length_take, bodyLength]
        omega
      · by_cases inSecond : offset < size - msgEndSize
        · refine ⟨_, List.mem_cons_of_mem _ List.mem_cons_self,
            msgEndSize + firstViewSize ring edge size, views1, by omega, ?_⟩
          simp only [List.length_drop, bodyLength, msgEndSize] at *
          omega
        · refine ⟨_, List.mem_cons_of_mem _ (List.mem_cons_of_mem _ List.mem_cons_self),
            size - msgEndSize, footerSegment, by omega, ?_⟩
          simp only [isRecord.footer, msgEndSize] at *
          omega

/-- The frame passes the end of the ring exactly when its footer lies before its header. -/
theorem FrameFits.wraps_iff (fits : FrameFits ring edge size) :
    (frameAt data ring edge size).pEnd < (frameAt data ring edge size).pStart ↔
      ring < edge % ring + size := by
  have low := fits.low
  have high := fits.high
  have headerFits := fits.header_fits
  have ringAligned := fits.ringAligned
  have offsetAligned := fits.offsetAligned
  have sizeAligned := fits.sizeAligned
  have regroup : edge + size - msgEndSize = edge + (size - msgEndSize) := by
    simp only [msgEndSize] at *
    omega
  simp only [frameAt, regroup, Nat.add_lt_add_iff_left]
  by_cases wraps : ring < edge % ring + size
  · simp only [msgEndSize] at *
    rw [Window.add_mod_of_le (by omega) (by omega) (by omega)]
    omega
  · simp only [msgEndSize] at *
    rw [Window.add_mod_of_lt (by omega)]
    omega

end Record

end Hermes
