import Hermes.Base.ShiftRegister
import Hermes.FrameSampling

/-!
# What the checksum of a frame detects

`crc32U64_toBitVec` says that the accumulators of `ComputeCRC` are shift registers of
degree 32.  A burst of errors is a set of changed bits that lie within 32 bits of memory.
Such a burst hits at most one word of each accumulator, and at most one of header and
footer.  `bursts_detected` says that a frame hit by one, outside of the size in its header,
verifies exactly when no checked byte has changed.
-/

namespace Hermes

open Memory ShiftRegister

/-- All changed bits are among `size` bits in a row. -/
def ErrorsWithin (size : ℕ) (memory other : Memory UInt8) : Prop :=
  ∃ first, ∀ place bit, (memory place).toNat.testBit bit ≠ (other place).toNat.testBit bit →
    first ≤ 8 * place + bit ∧ 8 * place + bit < first + size

/-- The bytes of a span agree. -/
def AgreeOn (memory other : Memory UInt8) (data size : ℕ) : Prop :=
  ∀ offset < size, memory (data + offset) = other (data + offset)

/-- The polynomial of CRC-32C, reflected. -/
def crcPoly : BitVec 64 := 0x82F63B78

section Registers

theorem crcPoly_degree : OfDegree 32 crcPoly where
  below := by
    intro place set
    by_contra high
    have small : crcPoly.toNat < 2 ^ 32 := by decide
    have large : 2 ^ 32 ≤ 2 ^ place := Nat.pow_le_pow_right (by decide) (by omega)
    have clear : crcPoly.toNat.testBit place = false := Nat.testBit_lt_two_pow (by omega)
    rw [BitVec.testBit_toNat] at clear
    simp [clear] at set
  top := by decide

theorem crcBit_toBitVec (state : UInt64) :
    (crcBit state).toBitVec = shift crcPoly state.toBitVec := by
  have low : state &&& 1 = 1 ↔ state.toBitVec.getLsbD 0 = true := by
    have bit : (state &&& 1).toBitVec =
        BitVec.setWidth 64 (BitVec.ofBool (state.toBitVec.getLsbD 0)) := by
      rw [UInt64.toBitVec_and]
      exact BitVec.and_one_eq_setWidth_ofBool_getLsbD
    rw [← UInt64.toBitVec_inj, bit]
    cases state.toBitVec.getLsbD 0 <;> decide
  simp only [crcBit, shift, low]
  split <;> simp [crcPoly]

theorem toNat_lt_of_below {value : BitVec 64} (below : Below 32 value) : value.toNat < 2 ^ 32 := by
  apply Nat.lt_pow_two_of_testBit
  intro place high
  by_contra set
  have := below place (by simpa [BitVec.testBit_toNat] using set)
  omega

theorem and_mask {value : UInt64} (below : Below 32 value.toBitVec) :
    value &&& 0xFFFFFFFF = value := by
  have small := toNat_lt_of_below below
  apply UInt64.toNat_inj.mp
  have mask : value.toNat &&& 0xFFFFFFFF = value.toNat % 2 ^ 32 :=
    Nat.and_two_pow_sub_one_eq_mod value.toNat 32
  rw [UInt64.toNat_and]
  exact mask.trans (Nat.mod_eq_of_lt small)

/-- `_mm_crc32_u64` feeds a word to the register. -/
theorem crc32U64_toBitVec {crc : UInt64} (below : Below 32 crc.toBitVec) (value : UInt64) :
    (crc32U64 crc value).toBitVec = feed crcPoly crc.toBitVec value.toBitVec := by
  have steps : ∀ (count : ℕ) (state : UInt64),
      (crcBit^[count] state).toBitVec = (shift crcPoly)^[count] state.toBitVec := by
    intro count state
    induction count with
    | zero => rfl
    | succ count ih => simp only [Function.iterate_succ_apply', crcBit_toBitVec, ih]
  have fed : (crcBit^[64] (crc ^^^ value)).toBitVec = feed crcPoly crc.toBitVec value.toBitVec := by
    rw [steps, UInt64.toBitVec_xor, feed]
  have fedBelow : Below 32 (crcBit^[64] (crc ^^^ value)).toBitVec := by
    rw [fed]
    exact feed_below crcPoly_degree _ _
  rw [crc32U64, and_mask below, and_mask fedBelow, fed]

end Registers

section Accumulators

variable {memory other : Memory UInt8}

/-- One accumulator after the words at some addresses. -/
def accumulate (memory : Memory UInt8) (sum : UInt64) (words : List ℕ) : UInt64 :=
  words.foldl (fun sum word => crc32U64 sum (wordIn memory word)) sum

theorem accumulate_toBitVec {sum : UInt64} (below : Below 32 sum.toBitVec) (words : List ℕ) :
    (accumulate memory sum words).toBitVec =
      (words.map fun word => (wordIn memory word).toBitVec).foldl (feed crcPoly) sum.toBitVec := by
  induction words generalizing sum with
  | nil => rfl
  | cons word words ih =>
      have fed := crc32U64_toBitVec below (wordIn memory word)
      have next : Below 32 (crc32U64 sum (wordIn memory word)).toBitVec := by
        rw [fed]
        exact feed_below crcPoly_degree _ _
      simp only [List.map_cons, List.foldl_cons, ← fed]
      exact ih next

theorem accumulate_below {sum : UInt64} (below : Below 32 sum.toBitVec) (words : List ℕ) :
    Below 32 (accumulate memory sum words).toBitVec := by
  rw [accumulate_toBitVec below]
  exact foldl_feed_below crcPoly_degree below _

theorem below_zero : Below 32 (0 : UInt64).toBitVec := by
  intro place set
  simp at set

/-- The two accumulators of a span run on their own. -/
theorem foldl_words (memory : Memory UInt8) (words : List (ℕ × ℕ)) (sums : UInt64 × UInt64) :
    words.foldl (fun sums words =>
        (crc32U64 sums.1 (wordIn memory words.1), crc32U64 sums.2 (wordIn memory words.2))) sums =
      (accumulate memory sums.1 (words.map Prod.fst),
        accumulate memory sums.2 (words.map Prod.snd)) := by
  induction words generalizing sums with
  | nil => rfl
  | cons word words ih => exact ih _

theorem getLsbD_wordIn (memory : Memory UInt8) (word : ℕ) {offset bit : ℕ}
    (offsetSmall : offset < 8) (bitSmall : bit < 8) :
    (wordIn memory word).toBitVec.getLsbD (8 * offset + bit) =
      (memory (word + offset)).toNat.testBit bit := by
  have byte : (8 * offset + bit) / 8 = offset := by omega
  have rest : (8 * offset + bit) % 8 = bit := by omega
  have inside : 8 * offset + bit < 64 := by omega
  have read : (memory.read word 8)[offset]? = some (memory (word + offset)) := by
    simp [Memory.read, offsetSmall]
  rw [wordIn, UInt64.toBitVec_ofNat', BitVec.getLsbD_ofNat, testBit_ofBytes, byte, rest, read]
  simp [inside]

/-- A word is the same when its bytes are. -/
theorem wordIn_eq_iff {word : ℕ} :
    (wordIn memory word).toBitVec = (wordIn other word).toBitVec ↔ AgreeOn memory other word 8 := by
  constructor
  · intro same offset inside
    by_contra differ
    rcases exists_bit differ with ⟨bit, small, changed⟩
    apply changed
    rw [← getLsbD_wordIn memory word inside small, same, getLsbD_wordIn other word inside small]
  · intro same
    rw [wordIn, wordIn, read_congr same]

/-- Accumulators of memories that agree on the words. -/
theorem accumulate_congr {words : List ℕ} (agree : ∀ word ∈ words, AgreeOn memory other word 8) :
    accumulate memory 0 words = accumulate other 0 words := by
  have same : (words.map fun word => (wordIn memory word).toBitVec) =
      words.map fun word => (wordIn other word).toBitVec :=
    List.map_congr_left fun word present => wordIn_eq_iff.mpr (agree word present)
  apply UInt64.toBitVec_inj.mp
  rw [accumulate_toBitVec below_zero, accumulate_toBitVec below_zero, same]

end Accumulators

section Bursts

variable {size word : ℕ} {memory other : Memory UInt8}

/-- The changed byte of a word. -/
theorem changed_byte (differ : (wordIn memory word).toBitVec ≠ (wordIn other word).toBitVec) :
    ∃ offset < 8, memory (word + offset) ≠ other (word + offset) := by
  by_contra none
  apply differ
  apply wordIn_eq_iff.mpr
  intro offset inside
  by_contra changed
  exact none ⟨offset, inside, changed⟩

/-- A burst is one in every word. -/
theorem ErrorsWithin.within (errors : ErrorsWithin size memory other) (word : ℕ) :
    Within size ((wordIn memory word).toBitVec ^^^ (wordIn other word).toBitVec) := by
  rcases errors with ⟨first, inside⟩
  refine ⟨first - 8 * word, fun place set => ?_⟩
  have small : place < 64 := BitVec.lt_of_getLsbD set
  have split : place = 8 * (place / 8) + place % 8 := (Nat.div_add_mod place 8).symm
  have offsetSmall : place / 8 < 8 := by omega
  have bitSmall : place % 8 < 8 := by omega
  rw [BitVec.getLsbD_xor, split, getLsbD_wordIn memory word offsetSmall bitSmall,
    getLsbD_wordIn other word offsetSmall bitSmall] at set
  have changed := inside (word + place / 8) (place % 8) (by simpa using set)
  omega

/-- Two changed bytes are no further apart than a burst is long. -/
theorem ErrorsWithin.close (errors : ErrorsWithin size memory other) {place later : ℕ}
    (changed : memory place ≠ other place) (changedLater : memory later ≠ other later) :
    8 * later < 8 * place + 8 + size := by
  rcases errors with ⟨first, inside⟩
  rcases exists_bit changed with ⟨bit, small, differ⟩
  rcases exists_bit changedLater with ⟨bit', _, differ'⟩
  have := inside place bit differ
  have := inside later bit' differ'
  omega

/-- An accumulator that no two words less than 16 bytes apart are fed to. -/
theorem ErrorsWithin.accumulate_eq_iff (errors : ErrorsWithin 32 memory other) {words : List ℕ}
    (apart : words.Pairwise fun word later => word + 16 ≤ later ∨ later + 16 ≤ word) :
    accumulate memory 0 words = accumulate other 0 words ↔
      ∀ word ∈ words, AgreeOn memory other word 8 := by
  have single : words.Pairwise fun word later =>
      (wordIn memory word).toBitVec ≠ (wordIn other word).toBitVec →
        (wordIn memory later).toBitVec = (wordIn other later).toBitVec := by
    apply apart.imp
    intro word later far differ
    by_contra differLater
    rcases changed_byte differ with ⟨offset, inside, changed⟩
    rcases changed_byte differLater with ⟨offset', inside', changed'⟩
    have := errors.close changed changed'
    have := errors.close changed' changed
    omega
  have registers := foldl_feed_eq_iff crcPoly_degree (0 : UInt64).toBitVec single
    fun word _ => errors.within word
  rw [← accumulate_toBitVec below_zero, ← accumulate_toBitVec below_zero,
    UInt64.toBitVec_inj] at registers
  rw [registers]
  exact forall₂_congr fun word _ => wordIn_eq_iff

end Bursts

section Checksum

variable {memory other : Memory UInt8} {frame : DFrame} {told : UInt64}

/-- Addresses of the words of both views, in the order they are fed. -/
def DFrame.crcWords (frame : DFrame) : List (ℕ × ℕ) :=
  frame.views0.crcWords ++ frame.views1.crcWords

/-- The checksum of the payload that a memory has. -/
def DFrame.crc (frame : DFrame) (memory : Memory UInt8) : UInt64 :=
  crcOf (accumulate memory 0 (frame.crcWords.map Prod.fst)).toUInt32
    (accumulate memory 0 (frame.crcWords.map Prod.snd)).toUInt32

/-- `ComputeCRC` can take the views. -/
structure DFrame.Aligned (frame : DFrame) : Prop where
  data0 : 16 ∣ frame.views0.data
  size0 : 16 ∣ frame.views0.size
  data1 : 16 ∣ frame.views1.data
  size1 : 16 ∣ frame.views1.size

theorem toUInt64_toUInt32 {value : UInt64} (below : Below 32 value.toBitVec) :
    value.toUInt32.toUInt64 = value := by
  have small := toNat_lt_of_below below
  apply UInt64.toNat_inj.mp
  rw [UInt32.toNat_toUInt64, UInt64.toNat_toUInt32]
  exact Nat.mod_eq_of_lt small

theorem toNat_crcOf (left right : UInt32) :
    (crcOf left right).toNat = 2 ^ 32 * left.toNat + right.toNat := by
  have leftSmall := left.toNat_lt
  have rightSmall : right.toNat < 2 ^ 32 := right.toNat_lt
  have shifted : left.toNat <<< 32 % 2 ^ 64 = left.toNat <<< 32 := by
    rw [Nat.shiftLeft_eq]
    apply Nat.mod_eq_of_lt
    omega
  have amount : (32 : UInt64).toNat % 64 = 32 := by decide
  rw [crcOf, UInt64.toNat_or, UInt64.toNat_shiftLeft, UInt32.toNat_toUInt64,
    UInt32.toNat_toUInt64, amount, shifted, ← Nat.shiftLeft_add_eq_or_of_lt rightSmall,
    Nat.shiftLeft_eq, Nat.mul_comm]

theorem crcOf_inj {left right left' right' : UInt32} :
    crcOf left right = crcOf left' right' ↔ left = left' ∧ right = right' := by
  constructor
  · intro same
    have numbers := congrArg UInt64.toNat same
    rw [toNat_crcOf, toNat_crcOf] at numbers
    have := right.toNat_lt
    have := right'.toNat_lt
    constructor
    · apply UInt32.toNat_inj.mp
      omega
    · apply UInt32.toNat_inj.mp
      omega
  · rintro ⟨rfl, rfl⟩
    rfl

/-- A view continues the accumulators of the view before. -/
theorem computeCRCOf_span {span : Span} (sizeAligned : 16 ∣ span.size)
    (dataAligned : 16 ∣ span.data) (memory : Memory UInt8) {left right : UInt64}
    (leftBelow : Below 32 left.toBitVec) (rightBelow : Below 32 right.toBitVec) :
    computeCRCOf (span.load memory) left.toUInt32 right.toUInt32 =
      .ok ((accumulate memory left (span.crcWords.map Prod.fst)).toUInt32,
        (accumulate memory right (span.crcWords.map Prod.snd)).toUInt32) := by
  rcases @computeCRCOf_load span memory left.toUInt32 right.toUInt32 sizeAligned dataAligned with
    ⟨sums, fed, computed⟩
  rw [foldl_words, toUInt64_toUInt32 leftBelow, toUInt64_toUInt32 rightBelow] at fed
  rw [computed, fed]

/-- The checksum that the receiver compares with. -/
theorem DFrame.Aligned.crc_iff (aligned : frame.Aligned) :
    (∃ left right left' right',
      computeCRCOf (frame.views0.load memory) 0 0 = .ok (left, right) ∧
        computeCRCOf (frame.views1.load memory) left right = .ok (left', right') ∧
          told = crcOf left' right') ↔ told = frame.crc memory := by
  have first := computeCRCOf_span aligned.size0 aligned.data0 memory below_zero below_zero
  have below : ∀ words, Below 32 (accumulate memory 0 words).toBitVec :=
    accumulate_below below_zero
  have second := computeCRCOf_span aligned.size1 aligned.data1 memory
    (below (frame.views0.crcWords.map Prod.fst)) (below (frame.views0.crcWords.map Prod.snd))
  have whole : ∀ side : ℕ × ℕ → ℕ,
      accumulate memory (accumulate memory 0 (frame.views0.crcWords.map side))
        (frame.views1.crcWords.map side) = accumulate memory 0 (frame.crcWords.map side) := by
    intro side
    rw [DFrame.crcWords, List.map_append]
    exact (List.foldl_append ..).symm
  rw [whole, whole] at second
  constructor
  · rintro ⟨left, right, left', right', computed, computed', rfl⟩
    rcases Except.ok.inj (computed.symm.trans first) with ⟨rfl, rfl⟩
    rcases Except.ok.inj (computed'.symm.trans second) with ⟨rfl, rfl⟩
    rfl
  · rintro rfl
    exact ⟨_, _, _, _, first, second, rfl⟩

/-- The checksums of two memories. -/
theorem DFrame.crc_eq_iff (frame : DFrame) :
    frame.crc memory = frame.crc other ↔
      accumulate memory 0 (frame.crcWords.map Prod.fst) =
          accumulate other 0 (frame.crcWords.map Prod.fst) ∧
        accumulate memory 0 (frame.crcWords.map Prod.snd) =
          accumulate other 0 (frame.crcWords.map Prod.snd) := by
  have whole : ∀ words, accumulate memory 0 words = accumulate other 0 words ↔
      (accumulate memory 0 words).toUInt32 = (accumulate other 0 words).toUInt32 := by
    intro words
    constructor
    · intro same
      rw [same]
    · intro same
      have wide := congrArg UInt32.toUInt64 same
      rwa [toUInt64_toUInt32 (accumulate_below below_zero words),
        toUInt64_toUInt32 (accumulate_below below_zero words)] at wide
  rw [DFrame.crc, DFrame.crc, crcOf_inj, whole, whole]

theorem agreeOn_iff {data size : ℕ} :
    AgreeOn memory other data size ↔
      ∀ place ∈ Span.addresses ⟨data, size⟩, memory place = other place := by
  simp only [mem_addresses]
  constructor
  · rintro agree place ⟨low, high⟩
    have same := agree (place - data) (by omega)
    rwa [Nat.add_sub_of_le low] at same
  · intro agree offset inside
    exact agree _ ⟨by omega, by omega⟩

/-- The checked bytes are those of header, footer and words. -/
theorem DFrame.checks_agree_iff (frame : DFrame) :
    (∀ place, frame.Checks place → memory place = other place) ↔
      AgreeOn memory other frame.pStart msgEndSize ∧ AgreeOn memory other frame.pEnd msgEndSize ∧
        ∀ words ∈ frame.crcWords,
          AgreeOn memory other words.1 8 ∧ AgreeOn memory other words.2 8 := by
  simp only [agreeOn_iff, DFrame.Checks, DFrame.crcWords, List.mem_append, List.mem_cons,
    List.not_mem_nil, or_false, exists_eq_or_imp, exists_eq_left]
  constructor
  · intro agree
    refine ⟨fun place present => agree place (.inl present),
      fun place present => agree place (.inr (.inl present)), ?_⟩
    rintro words (first | second)
    · exact ⟨fun place present => agree place (.inr (.inr (.inl ⟨words, first, .inl present⟩))),
        fun place present => agree place (.inr (.inr (.inl ⟨words, first, .inr present⟩)))⟩
    · exact ⟨fun place present => agree place (.inr (.inr (.inr ⟨words, second, .inl present⟩))),
        fun place present => agree place (.inr (.inr (.inr ⟨words, second, .inr present⟩)))⟩
  · rintro ⟨header, footer, fed⟩ place
      (atStart | atEnd | ⟨words, present, early | late⟩ | ⟨words, present, early | late⟩)
    · exact header place atStart
    · exact footer place atEnd
    · exact (fed words (.inl present)).1 place early
    · exact (fed words (.inl present)).2 place late
    · exact (fed words (.inr present)).1 place early
    · exact (fed words (.inr present)).2 place late

end Checksum

section Frames

variable {data ring size : ℕ} {edge : UInt64} {memory other : Memory UInt8} {header : MsgEnd}
  {frame : DFrame}

/-- `ComputeCRC` can take the views of every frame. -/
theorem FrameFits.aligned {edge : ℕ} (fits : FrameFits ring edge size) (dataAligned : 16 ∣ data) :
    (frameAt data ring edge size).Aligned := by
  have offset := fits.offsetAligned
  have first := fits.firstViewAligned
  have whole := fits.sizeAligned
  have le : firstViewSize ring edge size ≤ size - 2 * msgEndSize := Nat.min_le_left _ _
  simp only [msgEndSize] at *
  constructor <;> simp only [frameAt, msgEndSize] <;> omega

/-- The words of a frame are apart, and those of an accumulator further than a word. -/
theorem FrameFits.words_apart {edge : ℕ} (fits : FrameFits ring edge size) :
    (frameAt data ring edge size).crcWords.Pairwise fun words later =>
      (words.1 + 16 ≤ later.1 ∨ later.1 + 16 ≤ words.1) ∧
        (words.2 + 16 ≤ later.2 ∨ later.2 + 16 ≤ words.2) := by
  have layouts : _ ∨ _ := fits.footer_cases rfl rfl
  have within : ∀ span : Span, span.crcWords.Pairwise fun words later =>
      (words.1 + 16 ≤ later.1 ∨ later.1 + 16 ≤ words.1) ∧
        (words.2 + 16 ≤ later.2 ∨ later.2 + 16 ≤ words.2) := by
    intro span
    apply List.Pairwise.map _ _ List.pairwise_lt_range
    intro line later before
    simp only [cacheLine]
    omega
  rw [DFrame.crcWords, List.pairwise_append]
  refine ⟨within _, within _, ?_⟩
  intro words first later second
  simp only [Span.crcWords, List.mem_map, List.mem_range, frameAt] at first second
  rcases first with ⟨line, inside, rfl⟩
  rcases second with ⟨line', inside', rfl⟩
  simp only [cacheLine, msgEndSize] at *
  omega

/-- Header and footer are apart. -/
theorem FrameFits.ends_apart {edge : ℕ} (fits : FrameFits ring edge size) :
    (frameAt data ring edge size).pStart + 16 ≤ (frameAt data ring edge size).pEnd ∨
      (frameAt data ring edge size).pEnd + 16 ≤ (frameAt data ring edge size).pStart := by
  have layouts : _ ∨ _ := fits.footer_cases rfl rfl
  simp only [frameAt, msgEndSize] at *
  omega

/-- The header lies at the edge, whatever the size. -/
theorem locateInRingBuf_pStart {buffer : Span}
    (located : locateInRingBuf buffer edge size = .ok frame) :
    frame.pStart = buffer.data + (edge &&& UInt64.ofNat (buffer.size - 1)).toNat := by
  simp only [locateInRingBuf, bind_eq_ok, pure, Except.pure, Except.ok.injEq] at located
  rcases located with ⟨_, _, _, _, start, found, _, _, _, _, _, _, rfl⟩
  simp only [Span.at] at found
  split at found
  · exact (Except.ok.inj found).symm
  · simp at found

theorem size_ofList_read (memory : Memory UInt8) (place : ℕ) :
    (MsgEnd.ofList (memory.read place msgEndSize)).size =
      UInt32.ofNat (ofBytes (memory.read (place + 8) 4)) := by
  have split : memory.read place msgEndSize =
      memory.read place 8 ++ (memory.read (place + 8) 4 ++ memory.read (place + 8 + 4) 4) := by
    rw [← read_add, ← read_add]
    rfl
  have part : ((memory.read place msgEndSize).drop 8).take 4 = memory.read (place + 8) 4 := by
    rw [split, List.drop_left' (by simp), List.take_left' (by simp)]
  rw [MsgEnd.ofList, part]

/-- Changes that no checked byte shows go unnoticed. -/
theorem FrameVerifies.unnoticed {ring : Span}
    (verifies : FrameVerifies memory ring edge header frame) (aligned : frame.Aligned)
    (agree : ∀ place, frame.Checks place → memory place = other place) :
    FrameVerifies other ring edge header frame := by
  rcases frame.checks_agree_iff.mp agree with ⟨atStart, atEnd, fed⟩
  have told := aligned.crc_iff.mp verifies.crc
  have same : frame.crc memory = frame.crc other := by
    apply frame.crc_eq_iff.mpr
    constructor
    · apply accumulate_congr
      simp only [List.forall_mem_map]
      exact fun words present => (fed words present).1
    · apply accumulate_congr
      simp only [List.forall_mem_map]
      exact fun words present => (fed words present).2
  exact
    { located := verifies.located
      atStart := (read_congr atStart).symm.trans verifies.atStart
      atEnd := (read_congr atEnd).symm.trans verifies.atEnd
      crc := aligned.crc_iff.mpr (told.trans same) }

/-- A burst that changes a byte of one end changes the same byte of the other, when both ends are
equal before and after; the ends are too far apart for that. -/
theorem ErrorsWithin.ends_agree (errors : ErrorsWithin 32 memory other) {place place' : ℕ}
    (apart : place + 16 ≤ place' ∨ place' + 16 ≤ place)
    (before : memory.read place msgEndSize = memory.read place' msgEndSize)
    (after : other.read place msgEndSize = other.read place' msgEndSize) :
    AgreeOn memory other place msgEndSize := by
  intro offset inside
  by_contra changed
  have sameBefore := cells_of_read_eq before offset inside
  have sameAfter := cells_of_read_eq after offset inside
  have changed' : memory (place' + offset) ≠ other (place' + offset) := by
    rwa [← sameBefore, ← sameAfter]
  have := errors.close changed changed'
  have := errors.close changed' changed
  omega

/-- A frame after a burst of errors that leaves the size in its header alone. -/
theorem FrameVerifies.burst_iff
    (fits : FrameFits ring edge.toNat (min header.size.toNat packetSize + 2 * msgEndSize))
    (dataAligned : 16 ∣ data) (verifies : FrameVerifies memory ⟨data, ring⟩ edge header frame)
    (errors : ErrorsWithin 32 memory other) (sizeKept : AgreeOn memory other (frame.pStart + 8) 4) :
    (∃ header' frame', FrameVerifies other ⟨data, ring⟩ edge header' frame') ↔
      ∀ place, frame.Checks place → memory place = other place := by
  have placed := Except.ok.inj (verifies.located.symm.trans (locateInRingBuf_eq fits))
  have aligned : frame.Aligned := by
    rw [placed]
    exact fits.aligned dataAligned
  constructor
  · rintro ⟨header', frame', verifies'⟩
    have start : frame'.pStart = frame.pStart :=
      (locateInRingBuf_pStart verifies'.located).trans
        (locateInRingBuf_pStart verifies.located).symm
    have size : header'.size = header.size := by
      have first := size_ofList_read memory frame.pStart
      have second := size_ofList_read other frame.pStart
      rw [verifies.atStart, MsgEnd.ofList_bytes] at first
      rw [← start, verifies'.atStart, MsgEnd.ofList_bytes] at second
      rw [second, first, start, read_congr sizeKept]
    have frames : frame' = frame := by
      have located := verifies'.located
      rw [size] at located
      exact Except.ok.inj (located.symm.trans verifies.located)
    subst frames
    have apart : frame'.pStart + 16 ≤ frame'.pEnd ∨ frame'.pEnd + 16 ≤ frame'.pStart := by
      rw [placed]
      exact fits.ends_apart
    have before := verifies.atStart.trans verifies.atEnd.symm
    have after := verifies'.atStart.trans verifies'.atEnd.symm
    have atStart := errors.ends_agree apart before after
    have atEnd := errors.ends_agree apart.symm before.symm after.symm
    have headers : header' = header := by
      rw [← MsgEnd.ofList_bytes header', ← MsgEnd.ofList_bytes header, ← verifies.atStart,
        ← verifies'.atStart, read_congr atStart]
    have words : frame'.crcWords.Pairwise _ := placed ▸ fits.words_apart
    have told := aligned.crc_iff.mp verifies.crc
    have told' := aligned.crc_iff.mp verifies'.crc
    rw [headers] at told'
    rcases frame'.crc_eq_iff.mp (told.symm.trans told') with ⟨lefts, rights⟩
    have left := (errors.accumulate_eq_iff
      (List.pairwise_map.mpr (words.imp fun both => both.1))).mp lefts
    have right := (errors.accumulate_eq_iff
      (List.pairwise_map.mpr (words.imp fun both => both.2))).mp rights
    simp only [List.forall_mem_map] at left right
    exact frame'.checks_agree_iff.mpr
      ⟨atStart, atEnd, fun words present => ⟨left words present, right words present⟩⟩
  · intro agree
    exact ⟨header, frame, verifies.unnoticed aligned agree⟩

end Frames

section Reachable

variable {config : LinkConfig} {link : Link} {thread : ℕ} {next : NextPacket}
  {rest : List Activation} {replies : SendReplies} {term : Terminal} {after : Memory UInt8}
  {posting : Posting}

/-- A loop turn that goes on to post has put its frame down. -/
theorem Terminal.emitPacket_putDown {terminal : Terminal} {memory : Memory UInt8} {sendBuf : Span}
    (emitted : terminal.emitPacket memory sendBuf next replies = .ok (term, after, posting)) :
    ∃ frame,
      terminal.putDown memory sendBuf next.srcBuf next.pktSize = .ok (term, after, frame) := by
  simp only [Terminal.emitPacket, bind_eq_ok] at emitted
  rcases emitted with ⟨⟨middle, memory', frame⟩, put, posts⟩
  refine ⟨frame, ?_⟩
  split at posts
  · cases posts
    exact put
  · simp only [bind_eq_ok, pure, Except.pure, Except.ok.injEq, Prod.mk.injEq] at posts
    rcases posts with ⟨_, _, rfl, rfl, _⟩
    exact put

/-- In every copy of the ring, the frame a loop turn puts down verifies.  So it does after any
damage that no byte of header, footer or sampled word shows.  After a burst of at most 32 bits that
leaves the size in the header alone, a frame verifies at its edge only if no such byte shows it. -/
theorem bursts_detected (reachable : (linkMachine config).Reachable AnyAction link)
    (stackEq : link.threads thread = .emitting next :: rest)
    (emitted : link.term.emitPacket link.mem config.sendBuf next replies =
      .ok (term, after, posting))
    {base : ℕ} (baseAligned : 16 ∣ base) {copy : Memory UInt8}
    (same : SameRing after copy config.sendBuf.data base config.ring) :
    ∃ header frame,
      locateInRingBuf ⟨base, config.ring⟩ link.term.sndEnd.writeEdge next.pktSize = .ok frame ∧
      FrameVerifies copy ⟨base, config.ring⟩ link.term.sndEnd.writeEdge header frame ∧
      (∀ damaged, (∀ place, frame.Checks place → copy place = damaged place) →
        FrameVerifies damaged ⟨base, config.ring⟩ link.term.sndEnd.writeEdge header frame) ∧
      ∀ damaged, ErrorsWithin 32 copy damaged → AgreeOn copy damaged (frame.pStart + 8) 4 →
        ((∃ header' frame', FrameVerifies damaged ⟨base, config.ring⟩ link.term.sndEnd.writeEdge
            header' frame') ↔
          ∀ place, frame.Checks place → copy place = damaged place) := by
  rcases equipped_invariant reachable with ⟨flow, discipline, _⟩
  rcases discipline.owned stackEq rfl with ⟨_, _, serves, _⟩
  rcases serves.emitReady with ⟨index, _, _, ready⟩
  have fits := config.fits_toNat (ready.fits flow)
  rw [← flow.writeEdge] at fits
  have small : next.srcBuf.size ≤ maxMsgSize := by
    have size := ready.atPacket.size_eq
    have message := ready.atPacket.small
    omega
  rcases Terminal.emitPacket_putDown emitted with ⟨_, put⟩
  rcases Terminal.putDown_checked fits ready.pktSize put with ⟨header, body, checked⟩
  have verifies := checked.verifies fits ready.pktSize small baseAligned same
  have told : min header.size.toNat packetSize + 2 * msgEndSize = next.pktSize := by
    rw [ready.pktSize, checked.size, UInt32.toNat_ofNat_of_lt']
    simp only [maxMsgSize, UInt32.size] at *
    omega
  have fitsHeader := fits
  rw [← told] at fitsHeader
  refine ⟨header, _, locateInRingBuf_eq fits, verifies, ?_, ?_⟩
  · intro damaged agree
    exact verifies.unnoticed (fits.aligned baseAligned) agree
  · intro damaged errors sizeKept
    exact verifies.burst_iff fitsHeader baseAligned errors sizeKept

/-- A message of one cache line. -/
def lineReq : SndReq := ⟨0, ⟨0, List.replicate 64 0⟩, 0⟩

def linePacket : NextPacket := ⟨lineReq, ⟨0, List.replicate 64 0⟩, 96⟩

theorem lineReq_nextPacket :
    (smallRing.loopingLink lineReq).term.nextPacket = .ok (some linePacket) := by
  decide +kernel

/-- The lowest bit of a byte turned over. -/
def flipBit (memory : Memory UInt8) (place : ℕ) : Memory UInt8 :=
  Function.update memory place (memory place ^^^ 1)

theorem flipBit_same (memory : Memory UInt8) {place other : ℕ} (apart : other ≠ place) :
    flipBit memory place other = memory other := by
  simp [flipBit, apart]

theorem flipBit_changed (memory : Memory UInt8) (place : ℕ) :
    memory place ≠ flipBit memory place place := by
  simp only [flipBit, Function.update_self]
  intro same
  have none := congrArg (memory place ^^^ ·) same
  simp only [UInt8.xor_self, ← UInt8.xor_assoc, UInt8.zero_xor] at none
  exact absurd none (by decide)

theorem flipBit_errors (memory : Memory UInt8) (place : ℕ) :
    ErrorsWithin 32 memory (flipBit memory place) := by
  refine ⟨8 * place, fun changed bit differ => ?_⟩
  by_cases here : changed = place
  · subst here
    by_cases small : bit < 8
    · omega
    · rw [testBit_byte_of_le _ (by omega), testBit_byte_of_le _ (by omega)] at differ
      simp at differ
  · rw [flipBit_same memory here] at differ
    simp at differ

/-- A bit of the payload of a message of 64 bytes, turned over in the ring. -/
theorem bursts_detected_payload :
    ∃ (after : Memory UInt8) (header : MsgEnd) (frame : DFrame),
      FrameVerifies after smallRing.sendBuf 0 header frame ∧
        ¬∃ header' frame', FrameVerifies (flipBit after frame.views0.data) smallRing.sendBuf 0
          header' frame' := by
  let emitting := (smallRing.loopingLink lineReq).setStack 0 [.emitting linePacket]
  have find : (linkMachine smallRing).step (smallRing.loopingLink lineReq) (.run 0 {}) =
      .ok emitting := by
    have next := lineReq_nextPacket
    have top : (smallRing.loopingLink lineReq).threads 0 = [.looping] := setStack_self _ _ _
    simp only [linkMachine, Link.step, Link.runThread, top, next, runCode, Except.mapError, bind,
      Except.bind]
    rfl
  have started : (linkMachine smallRing).Reachable AnyAction (smallRing.loopingLink lineReq) :=
    smallRing.reachable_loopingLink (by decide)
  have reached : (linkMachine smallRing).Reachable AnyAction emitting := started.tail trivial find
  have top : emitting.threads 0 = [.emitting linePacket] := setStack_self _ _ _
  have answered : ∃ result,
      emitting.term.emitPacket emitting.mem smallRing.sendBuf linePacket {} = .ok result :=
    emitPacket_total reached top ⟨0, rfl⟩ (.inl rfl) rfl
  rcases answered with ⟨⟨term, after, posting⟩, emitted⟩
  have detected := @bursts_detected _ _ _ _ _ _ _ _ _ reached top emitted 0x10000 ⟨0x1000, rfl⟩
    after fun position _ => rfl
  rcases detected with ⟨header, frame, located, verifies, _, detects⟩
  have place : frame = frameAt 0x10000 4096 0 96 := by
    have here : locateInRingBuf ⟨0x10000, 4096⟩ 0 96 = .ok (frameAt 0x10000 4096 0 96) := by
      decide +kernel
    exact Except.ok.inj (located.symm.trans here)
  refine ⟨after, header, frame, verifies, ?_⟩
  intro accepted
  have kept : AgreeOn after (flipBit after frame.views0.data) (frame.pStart + 8) 4 := by
    intro offset inside
    symm
    apply flipBit_same
    rw [place]
    simp only [frameAt, msgEndSize]
    omega
  have agree := (detects _ (flipBit_errors after _) kept).mp accepted
  apply flipBit_changed after frame.views0.data
  apply agree
  rw [place, checks_iff]
  right; right; left
  exact ⟨0, by decide, by decide, by decide⟩

end Reachable

end Hermes
