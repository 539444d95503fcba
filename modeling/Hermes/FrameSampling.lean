import Hermes.FramePieces
import Hermes.FrameVerify

/-!
# The cache lines a checksum samples

`ComputeCRC` feeds two words of every 64 bytes to its accumulators, counted from the start
of the view, and nothing of what is left at its end.  `sampleLines_read` lists the words.
A frame is covered when every cache line it touches has a byte in the header, in the
footer or in one of these words.  `lines_covered_iff` says for which edges and sizes it
is; the line with the end of the first view can be missed.
-/

namespace Hermes

open Memory

/-- Size of a cache line. -/
def cacheLine : ℕ := 64

/-- The word of 8 bytes at an address. -/
def wordIn (memory : Memory UInt8) (address : ℕ) : UInt64 :=
  UInt64.ofNat (ofBytes (memory.read address 8))

/-- Addresses of the words `ComputeCRC` feeds to its left and right accumulator. -/
def Span.crcWords (span : Span) : List (ℕ × ℕ) :=
  (List.range (span.size / cacheLine)).map fun line =>
    (span.data + cacheLine * line, span.data + cacheLine * line + 8)

/-- The byte is in the header, in the footer, or in a word fed to an accumulator. -/
def DFrame.Checks (frame : DFrame) (place : ℕ) : Prop :=
  place ∈ Span.addresses ⟨frame.pStart, msgEndSize⟩ ∨
    place ∈ Span.addresses ⟨frame.pEnd, msgEndSize⟩ ∨
    ∃ view ∈ [frame.views0, frame.views1], ∃ words ∈ view.crcWords,
      place ∈ Span.addresses ⟨words.1, 8⟩ ∨ place ∈ Span.addresses ⟨words.2, 8⟩

/-- Every cache line with a byte of the frame has a byte that is checked. -/
def DFrame.Covered (frame : DFrame) : Prop :=
  ∀ place ∈ frame.pieces.flatMap Span.addresses,
    ∃ checked, frame.Checks checked ∧ checked / cacheLine = place / cacheLine

section Words

theorem wordAt_read (memory : Memory UInt8) (data : ℕ) {size index : ℕ}
    (inside : 8 * index + 8 ≤ size) :
    wordAt (memory.read data size) index = wordIn memory (data + 8 * index) := by
  have split : size = 8 * index + (8 + (size - (8 * index + 8))) := by omega
  rw [wordAt, wordIn, split, read_add, read_add, List.drop_left' (by simp),
    List.take_left' (by simp)]

theorem sampleLines_read (memory : Memory UInt8) {data lines size : ℕ}
    (inside : cacheLine * lines ≤ size) (sums : UInt64 × UInt64) :
    sampleLines lines (memory.read data size) sums =
      (List.range lines).foldl (fun sums line =>
        (crc32U64 sums.1 (wordIn memory (data + cacheLine * line)),
          crc32U64 sums.2 (wordIn memory (data + cacheLine * line + 8)))) sums := by
  induction lines generalizing data size sums with
  | zero => rfl
  | succ lines ih =>
      simp only [cacheLine] at inside ih ⊢
      have rest : (memory.read data size).drop 64 = memory.read (data + 64) (size - 64) := by
        have split : size = 64 + (size - 64) := by omega
        conv_lhs => rw [split, read_add]
        apply List.drop_left'
        simp
      rw [sampleLines, rest, ih (by omega), List.range_succ_eq_map, List.foldl_cons,
        List.foldl_map, wordAt_read memory data (by omega), wordAt_read memory data (by omega)]
      simp [Nat.mul_add, Nat.add_assoc, Nat.add_comm 64]

/-- The read-only checksum of a span feeds the words of `crcWords` and nothing else. -/
theorem computeCRCOf_load {span : Span} {memory : Memory UInt8} {leftcrc rightcrc : UInt32}
    (sizeAligned : 16 ∣ span.size) (dataAligned : 16 ∣ span.data) :
    ∃ sums, sums = span.crcWords.foldl (fun sums words =>
        (crc32U64 sums.1 (wordIn memory words.1), crc32U64 sums.2 (wordIn memory words.2)))
          (leftcrc.toUInt64, rightcrc.toUInt64) ∧
      computeCRCOf (span.load memory) leftcrc rightcrc =
        .ok (sums.1.toUInt32, sums.2.toUInt32) := by
  have size : (span.load memory).size = span.size := length_read _ _ _
  have whole : cacheLine * (span.size / cacheLine) ≤ span.size := Nat.mul_div_le _ _
  have sums : sampleLines _ (memory.read span.data _) _ = _ :=
    sampleLines_read memory whole (leftcrc.toUInt64, rightcrc.toUInt64)
  refine ⟨_, rfl, ?_⟩
  rw [computeCRCOf_eq leftcrc rightcrc (size ▸ sizeAligned) dataAligned, size]
  simp only [Span.crcWords, List.foldl_map, ← sums]
  rfl

theorem mem_addresses {span : Span} {place : ℕ} :
    place ∈ span.addresses ↔ span.data ≤ place ∧ place < span.data + span.size := by
  simp [Span.addresses]

/-- The bytes of the words of a span. -/
theorem mem_words {span : Span} {place : ℕ} :
    (∃ words ∈ span.crcWords,
      place ∈ Span.addresses ⟨words.1, 8⟩ ∨ place ∈ Span.addresses ⟨words.2, 8⟩) ↔
      ∃ line < span.size / cacheLine, span.data + cacheLine * line ≤ place ∧
        place < span.data + cacheLine * line + 16 := by
  simp only [Span.crcWords, List.mem_map, List.mem_range, mem_addresses]
  constructor
  · rintro ⟨words, ⟨line, inside, rfl⟩, early | late⟩
    · exact ⟨line, inside, by omega, by omega⟩
    · exact ⟨line, inside, by omega, by omega⟩
  · rintro ⟨line, inside, low, high⟩
    exact ⟨_, ⟨line, inside, rfl⟩, by omega⟩

end Words

section Lines

variable {data ring edge size : ℕ}

/-- The frame of a ring that has it in one piece, or that it passes the end of. -/
theorem FrameFits.footer_cases (fits : FrameFits ring edge size) {first second : ℕ}
    (firstEq : firstViewSize ring edge size = first)
    (secondEq : size - 2 * msgEndSize - first = second) :
    (edge % ring + msgEndSize + first = ring ∧ second + msgEndSize ≤ edge % ring ∧
      (edge + size - msgEndSize) % ring = second) ∨
    (edge % ring + msgEndSize + first + msgEndSize ≤ ring ∧ second = 0 ∧
      (edge + size - msgEndSize) % ring = edge % ring + msgEndSize + first) := by
  have low := fits.low
  have high := fits.high
  have footer := fits.footer_fits
  have view := fits.firstView_le
  have position := fits.footer_mod
  have firstMin : min (size - 2 * msgEndSize) (ring - (edge % ring + msgEndSize)) = first := firstEq
  rw [firstEq] at view position
  rw [secondEq] at position
  simp only [msgEndSize] at *
  by_cases atEnd : edge % ring + 16 + first = ring
  · left
    rw [atEnd, Nat.mod_self] at position
    refine ⟨atEnd, by omega, position.trans ?_⟩
    split <;> omega
  · right
    have whole : second = 0 := by omega
    have inside : (edge % ring + 16 + first) % ring = edge % ring + 16 + first :=
      Nat.mod_eq_of_lt (by omega)
    rw [whole, if_neg (Nat.lt_irrefl 0), inside] at position
    exact ⟨by omega, whole, position⟩

/-- The frame's bytes in closed form. -/
theorem mem_pieces {place : ℕ} :
    place ∈ (frameAt data ring edge size).pieces.flatMap Span.addresses ↔
      (data + edge % ring ≤ place ∧ place < data + edge % ring + msgEndSize) ∨
      (data + (edge % ring + msgEndSize) ≤ place ∧
        place < data + (edge % ring + msgEndSize) + firstViewSize ring edge size) ∨
      (data ≤ place ∧ place < data + (size - 2 * msgEndSize - firstViewSize ring edge size)) ∨
      (data + (edge + size - msgEndSize) % ring ≤ place ∧
        place < data + (edge + size - msgEndSize) % ring + msgEndSize) := by
  simp [DFrame.pieces, mem_addresses, frameAt]

/-- The checked bytes in closed form. -/
theorem checks_iff {place : ℕ} :
    (frameAt data ring edge size).Checks place ↔
      (data + edge % ring ≤ place ∧ place < data + edge % ring + msgEndSize) ∨
      (data + (edge + size - msgEndSize) % ring ≤ place ∧
        place < data + (edge + size - msgEndSize) % ring + msgEndSize) ∨
      (∃ line < firstViewSize ring edge size / cacheLine,
        data + (edge % ring + msgEndSize) + cacheLine * line ≤ place ∧
          place < data + (edge % ring + msgEndSize) + cacheLine * line + 16) ∨
      ∃ line < (size - 2 * msgEndSize - firstViewSize ring edge size) / cacheLine,
        data + cacheLine * line ≤ place ∧ place < data + cacheLine * line + 16 := by
  simp only [DFrame.Checks, List.mem_cons, List.not_mem_nil, or_false, exists_eq_or_imp,
    exists_eq_left, mem_words]
  simp only [mem_addresses, frameAt]

/-- The payload up to the end of the ring leaves no line out: it starts a line, is shorter than
one, or ends in a line that the footer is in too. -/
def FirstViewCovered (ring edge size : ℕ) : Prop :=
  edge % cacheLine = cacheLine - msgEndSize ∨
    firstViewSize ring edge size < cacheLine ∨
    edge % cacheLine + firstViewSize ring edge size % cacheLine < cacheLine - msgEndSize

instance (ring edge size : ℕ) : Decidable (FirstViewCovered ring edge size) :=
  inferInstanceAs (Decidable (_ ∨ _ ∨ _))

theorem FrameFits.firstViewAligned (fits : FrameFits ring edge size) :
    msgEndSize ∣ firstViewSize ring edge size := by
  have := fits.ringAligned
  have := fits.offsetAligned
  have := fits.sizeAligned
  simp only [firstViewSize, msgEndSize] at *
  omega

/-- When the first view leaves no line out, no line is left out. -/
theorem FirstViewCovered.covered (covered : FirstViewCovered ring edge size)
    (fits : FrameFits ring edge size) (dataAligned : cacheLine ∣ data)
    (ringAligned : cacheLine ∣ ring) : (frameAt data ring edge size).Covered := by
  have offsetAligned := fits.offsetAligned
  have sizeAligned := fits.sizeAligned
  have firstAligned := fits.firstViewAligned
  have sameOffset : edge % ring % cacheLine = edge % cacheLine :=
    Nat.mod_mod_of_dvd edge ringAligned
  rcases dataAligned with ⟨base, rfl⟩
  rcases ringAligned with ⟨lines, rfl⟩
  have layouts : _ ∨ _ := fits.footer_cases rfl rfl
  intro place present
  rw [mem_pieces] at present
  simp only [checks_iff]
  unfold FirstViewCovered at covered
  rw [← sameOffset] at covered
  generalize firstViewSize (cacheLine * lines) edge size = first at *
  generalize edge % (cacheLine * lines) = offset at *
  generalize (edge + size - msgEndSize) % (cacheLine * lines) = footer at *
  simp only [cacheLine, msgEndSize] at *
  by_cases withHeader : (64 * base + offset) / 64 = place / 64
  · exact ⟨64 * base + offset, .inl (by omega), withHeader⟩
  by_cases withFooter : (64 * base + footer) / 64 = place / 64
  · exact ⟨64 * base + footer, .inr (.inl (by omega)), withFooter⟩
  rcases present with header | view | rest | last
  · omega
  · by_cases atLine : offset % 64 = 48
    · -- the samples are at the starts of the lines after the header's
      refine ⟨64 * base + (offset + 16) + 64 * (place / 64 - base - offset / 64 - 1),
        .inr (.inr (.inl ⟨place / 64 - base - offset / 64 - 1, ?_, ?_⟩)), ?_⟩ <;> omega
    · -- the samples are in the header's line and the lines after it
      refine ⟨64 * base + (offset + 16) + 64 * (place / 64 - base - offset / 64),
        .inr (.inr (.inl ⟨place / 64 - base - offset / 64, ?_, ?_⟩)), ?_⟩ <;> omega
  · refine ⟨64 * base + 64 * (place / 64 - base),
      .inr (.inr (.inr ⟨place / 64 - base, ?_, ?_⟩)), ?_⟩ <;> omega
  · omega

/-- When the first view leaves a line out, it is left out. -/
theorem FirstViewCovered.of_covered (fits : FrameFits ring edge size)
    (dataAligned : cacheLine ∣ data) (ringAligned : cacheLine ∣ ring)
    (covered : (frameAt data ring edge size).Covered) : FirstViewCovered ring edge size := by
  have offsetAligned := fits.offsetAligned
  have firstAligned := fits.firstViewAligned
  have sameOffset : edge % ring % cacheLine = edge % cacheLine :=
    Nat.mod_mod_of_dvd edge ringAligned
  rcases dataAligned with ⟨base, rfl⟩
  rcases ringAligned with ⟨lines, rfl⟩
  have layouts : _ ∨ _ := fits.footer_cases rfl rfl
  unfold FirstViewCovered
  by_contra missed
  unfold DFrame.Covered at covered
  simp only [mem_pieces, checks_iff] at covered
  rw [← sameOffset] at missed
  generalize firstViewSize (cacheLine * lines) edge size = first at *
  generalize edge % (cacheLine * lines) = offset at *
  generalize (edge + size - msgEndSize) % (cacheLine * lines) = footer at *
  simp only [cacheLine, msgEndSize, not_or] at *
  -- the last byte of the last whole line of the view
  rcases covered (64 * base + (offset + 16) + 64 * (first / 64) - 1) (.inr (.inl (by omega))) with
    ⟨checked, header | footer | ⟨line, inside, word⟩ | ⟨line, inside, word⟩, same⟩
  · omega
  · omega
  · omega
  · omega

/-- A frame on an aligned ring is covered exactly when its first view leaves no line out. -/
theorem lines_covered_iff {ring size : ℕ} {edge : UInt64} {data : ℕ}
    (fits : FrameFits ring edge.toNat size) (dataAligned : cacheLine ∣ data) :
    ∃ frame, locateInRingBuf ⟨data, ring⟩ edge size = .ok frame ∧
      (frame.Covered ↔ FirstViewCovered ring edge.toNat size) := by
  refine ⟨_, locateInRingBuf_eq fits, ?_⟩
  by_cases ringAligned : cacheLine ∣ ring
  · exact ⟨FirstViewCovered.of_covered fits dataAligned ringAligned,
      fun covered => covered.covered fits dataAligned ringAligned⟩
  · -- a ring of 32 bytes has only header and footer
    rcases fits.power with ⟨exponent, _, rfl⟩
    have few : exponent < 6 := by
      by_contra large
      exact ringAligned (pow_dvd_pow 2 (show 6 ≤ exponent by omega))
    have short : 2 ^ exponent ≤ 2 ^ 5 := Nat.pow_le_pow_right (by decide) (by omega)
    have high := fits.high
    have empty : size - 2 * msgEndSize = 0 := by
      simp only [msgEndSize]
      omega
    have noView : firstViewSize (2 ^ exponent) edge.toNat size = 0 := by
      simp [firstViewSize, empty]
    refine iff_of_true ?_ (.inr (.inl (by simp [noView, cacheLine])))
    intro place present
    rw [mem_pieces, empty, noView] at present
    refine ⟨place, ?_, rfl⟩
    rw [checks_iff]
    omega

/-- A payload of 112 bytes at the start of a ring: the line of its last 64 bytes is unchecked. -/
theorem line_not_covered :
    ¬∀ (data ring size : ℕ) (edge : UInt64), cacheLine ∣ data → FrameFits ring edge.toNat size →
      size ≤ packetSize + 2 * msgEndSize →
        ∀ frame, locateInRingBuf ⟨data, ring⟩ edge size = .ok frame → frame.Covered := by
  intro covers
  have fits : FrameFits 4096 (0 : UInt64).toNat 144 :=
    { power := ⟨12, by decide, rfl⟩
      edgeAligned := by decide
      sizeAligned := by decide
      low := by decide
      high := by decide }
  have covered :=
    covers 0x200000 4096 144 0 (by decide) fits (by decide) _ (locateInRingBuf_eq fits)
  have first := FirstViewCovered.of_covered fits (by decide) (by decide) covered
  exact absurd first (by decide)

/-- A payload of 64 bytes, and of 112 bytes, at the start of a ring. -/
theorem lines_covered_small_frames :
    (∃ frame, locateInRingBuf ⟨0x200000, 4096⟩ 0 96 = .ok frame ∧ frame.Covered) ∧
      ∃ frame, locateInRingBuf ⟨0x200000, 4096⟩ 0 144 = .ok frame ∧ ¬frame.Covered := by
  have fits : ∀ {size : ℕ}, msgEndSize ∣ size → 2 * msgEndSize ≤ size → size ≤ 4096 →
      FrameFits 4096 (0 : UInt64).toNat size :=
    fun aligned low high => ⟨⟨12, by decide, rfl⟩, by decide, aligned, low, high⟩
  have short : ∃ frame, locateInRingBuf ⟨0x200000, 4096⟩ 0 96 = .ok frame ∧
      (frame.Covered ↔ FirstViewCovered 4096 (0 : UInt64).toNat 96) :=
    lines_covered_iff (fits (by decide) (by decide) (by decide)) (by decide)
  have long : ∃ frame, locateInRingBuf ⟨0x200000, 4096⟩ 0 144 = .ok frame ∧
      (frame.Covered ↔ FirstViewCovered 4096 (0 : UInt64).toNat 144) :=
    lines_covered_iff (fits (by decide) (by decide) (by decide)) (by decide)
  rcases short with ⟨frame, located, covered⟩
  rcases long with ⟨frame', located', covered'⟩
  exact ⟨⟨frame, located, covered.mpr (by decide)⟩,
    frame', located', fun holds => absurd (covered'.mp holds) (by decide)⟩

end Lines

end Hermes
