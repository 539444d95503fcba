import Hermes.Types

/-!
# The copying checksum

`ComputeCRC` of `Utilities.hpp` copies the payload while it samples two words of
every whole 64-byte line into two CRC accumulators.  `computeCRC_eq` says that
aligned calls fail no assertion, leave in the destination exactly the source
bytes, and end with the accumulators `sampleLines` computes from the source.
-/

namespace Hermes

/-- One bit of CRC-32C, reflected. -/
def crcBit (state : UInt64) : UInt64 :=
  if state &&& 1 = 1 then (state >>> 1) ^^^ 0x82F63B78 else state >>> 1

/-- `_mm_crc32_u64`: 64 bits of data into a 32-bit accumulator. -/
def crc32U64 (crc value : UInt64) : UInt64 :=
  (crcBit^[64] ((crc &&& 0xFFFFFFFF) ^^^ value)) &&& 0xFFFFFFFF

/-- Word number `index` at the front of `bytes`. -/
def wordAt (bytes : List UInt8) (index : ℕ) : UInt64 :=
  UInt64.ofNat (ofBytes ((bytes.drop (8 * index)).take 8))

/-- The accumulators after the two words sampled from each of `lines` cache lines. -/
def sampleLines : ℕ → List UInt8 → UInt64 × UInt64 → UInt64 × UInt64
  | 0, _, sums => sums
  | lines + 1, bytes, sums =>
      sampleLines lines (bytes.drop 64)
        (crc32U64 sums.1 (wordAt bytes 0), crc32U64 sums.2 (wordAt bytes 1))

/-- The loop over whole cache lines: copy 64 bytes and sample the first two words. -/
def copyLines : ℕ → Memory UInt8 → ℕ → List UInt8 → UInt64 × UInt64 →
    Memory UInt8 × UInt64 × UInt64
  | 0, memory, _, _, sums => (memory, sums)
  | lines + 1, memory, dst, src, sums =>
      copyLines lines (memory.write dst (src.take 64)) (dst + 64) (src.drop 64)
        (crc32U64 sums.1 (wordAt src 0), crc32U64 sums.2 (wordAt src 1))

/-- `ComputeCRC` while copying memory. -/
def computeCRC (dst : Span) (src : Buf) (memory : Memory UInt8) (leftcrc rightcrc : UInt32) :
    Except Abort (Memory UInt8 × UInt32 × UInt32) := do
  let bound := dst.size
  let size := src.size
  auditAssert (size &&& 15 = 0) "Need alignment to 128b boundary for crc computation"
  auditAssert (bound ≥ size) "Write memory over bound"
  auditAssert (src.data &&& 15 = 0) "Need address alignment to 128b boundary for crc computation"
  auditAssert (dst.data &&& 15 = 0) "Need address alignment to 128b boundary for crc computation"
  let lines := size / 64
  let (memory, l, r) :=
    copyLines lines memory dst.data src.bytes (leftcrc.toUInt64, rightcrc.toUInt64)
  let remain := size &&& 63
  let memory :=
    if remain > 0 then
      memory.write (dst.data + 64 * lines) ((src.bytes.drop (64 * lines)).take remain)
    else memory
  return (memory, l.toUInt32, r.toUInt32)

theorem copyLines_eq (lines : ℕ) (memory : Memory UInt8) (dst : ℕ) (src : List UInt8)
    (sums : UInt64 × UInt64) (enough : 64 * lines ≤ src.length) :
    copyLines lines memory dst src sums =
      (memory.write dst (src.take (64 * lines)), sampleLines lines src sums) := by
  induction lines generalizing memory dst src sums with
  | zero => simp [copyLines, sampleLines]
  | succ lines ih =>
      have first : (src.take 64).length = 64 := by
        simp only [List.length_take]
        omega
      have split : src.take (64 * (lines + 1)) =
          src.take 64 ++ (src.drop 64).take (64 * lines) := by
        rw [← List.take_add]
        congr 1
        omega
      rw [copyLines, ih _ _ _ _ (by simp only [List.length_drop]; omega), sampleLines, split,
        Memory.write_append, first]

/-- The copy leaves the source bytes in the destination and samples the source. -/
theorem computeCRC_eq (dst : Span) (src : Buf) (memory : Memory UInt8) (leftcrc rightcrc : UInt32)
    (sizeAligned : 16 ∣ src.size) (room : src.size ≤ dst.size) (srcAligned : 16 ∣ src.data)
    (dstAligned : 16 ∣ dst.data) :
    computeCRC dst src memory leftcrc rightcrc =
      .ok (memory.write dst.data src.bytes,
        (sampleLines (src.size / 64) src.bytes (leftcrc.toUInt64, rightcrc.toUInt64)).1.toUInt32,
        (sampleLines (src.size / 64) src.bytes
          (leftcrc.toUInt64, rightcrc.toUInt64)).2.toUInt32) := by
  have mask : ∀ value : ℕ, 16 ∣ value → value &&& 15 = 0 := by
    intro value aligned
    have := Nat.and_two_pow_sub_one_eq_mod value 4
    simp only [Nat.reducePow, Nat.reduceSub] at this
    omega
  have remain : src.size &&& 63 = src.size % 64 := Nat.and_two_pow_sub_one_eq_mod src.size 6
  have length : src.bytes.length = src.size := rfl
  have copied : (if src.size % 64 > 0 then
        (memory.write dst.data (src.bytes.take (64 * (src.size / 64)))).write
          (dst.data + 64 * (src.size / 64))
          ((src.bytes.drop (64 * (src.size / 64))).take (src.size % 64))
      else memory.write dst.data (src.bytes.take (64 * (src.size / 64)))) =
      memory.write dst.data src.bytes := by
    have whole := List.take_append_drop (64 * (src.size / 64)) src.bytes
    split
    · have rest : (src.bytes.drop (64 * (src.size / 64))).take (src.size % 64) =
          src.bytes.drop (64 * (src.size / 64)) := by
        apply List.take_of_length_le
        simp only [List.length_drop]
        omega
      have taken : (src.bytes.take (64 * (src.size / 64))).length = 64 * (src.size / 64) := by
        simp only [List.length_take]
        omega
      conv_rhs => rw [← whole, Memory.write_append, taken]
      rw [rest]
    · rw [List.take_of_length_le (by omega)]
  simp only [computeCRC]
  rw [auditAssert_of (mask _ sizeAligned), auditAssert_of room, auditAssert_of (mask _ srcAligned),
    auditAssert_of (mask _ dstAligned), copyLines_eq _ _ _ _ _ (by omega), remain]
  simp only [bind, Except.bind, pure, Except.pure, copied]

/-- A copy that fails no assertion had an aligned source. -/
theorem computeCRC_ok {dst : Span} {src : Buf} {memory : Memory UInt8} {leftcrc rightcrc : UInt32}
    {result : Memory UInt8 × UInt32 × UInt32}
    (succeeded : computeCRC dst src memory leftcrc rightcrc = .ok result) :
    16 ∣ src.size ∧ src.size ≤ dst.size ∧ 16 ∣ src.data ∧ 16 ∣ dst.data := by
  have mask : ∀ value : ℕ, value &&& 15 = 0 → 16 ∣ value := by
    intro value aligned
    have := Nat.and_two_pow_sub_one_eq_mod value 4
    simp only [Nat.reducePow, Nat.reduceSub] at this
    omega
  simp only [computeCRC, auditAssert, bind, Except.bind] at succeeded
  by_cases size : src.size &&& 15 = 0
  · by_cases room : dst.size ≥ src.size
    · by_cases source : src.data &&& 15 = 0
      · by_cases target : dst.data &&& 15 = 0
        · exact ⟨mask _ size, room, mask _ source, mask _ target⟩
        · simp [size, room, source, target] at succeeded
      · simp [size, room, source] at succeeded
    · simp [size, room] at succeeded
  · simp [size] at succeeded

end Hermes
