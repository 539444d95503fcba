import Hermes.Frame
import Mathlib.Data.List.Nodup

/-!
# The pieces of a frame

`LocateInRingBuf` gives a frame as four pieces of memory: header, two views of the
payload, footer.  `frame_located` says where they are.  One after the other their
bytes are the ring's bytes from the start edge on, which gives that they are apart.
-/

namespace Hermes

/-- Addresses of the bytes of a span, in order. -/
def Span.addresses (span : Span) : List ℕ := List.range' span.data span.size

/-- Header, views and footer. -/
def DFrame.pieces (frame : DFrame) : List Span :=
  [⟨frame.pStart, msgEndSize⟩, frame.views0, frame.views1, ⟨frame.pEnd, msgEndSize⟩]

/-- Addresses of the bytes at `count` consecutive edges of the ring of `ring` bytes at `data`. -/
def ringAddresses (data ring edge count : ℕ) : List ℕ :=
  (List.range count).map fun offset => data + (edge + offset) % ring

section Addresses

variable {data ring edge count : ℕ}

theorem ringAddresses_add (data ring edge first second : ℕ) :
    ringAddresses data ring edge (first + second) =
      ringAddresses data ring edge first ++ ringAddresses data ring (edge + first) second := by
  simp [ringAddresses, List.range_add, Function.comp_def, Nat.add_assoc]

/-- A ring shows every byte once, up to its size. -/
theorem nodup_ringAddresses (short : count ≤ ring) :
    (ringAddresses data ring edge count).Nodup := by
  apply List.Nodup.map_on
  · intro first firstIn second secondIn same
    have firstSmall := List.mem_range.mp firstIn
    have secondSmall := List.mem_range.mp secondIn
    have position : (edge + first) % ring = (edge + second) % ring := Nat.add_left_cancel same
    have equal : edge + first = edge + second := by
      refine Window.mod_injOn edge ?_ ?_ ?_ ?_ position <;> omega
    omega
  · exact List.nodup_range

/-- A span that does not pass the end of the ring. -/
theorem addresses_eq {span : Span} (placed : span.size ≠ 0 → span.data = data + edge % ring)
    (straight : span.size ≠ 0 → edge % ring + span.size ≤ ring) :
    span.addresses = ringAddresses data ring edge span.size := by
  by_cases empty : span.size = 0
  · simp [Span.addresses, ringAddresses, empty]
  · simp only [Span.addresses, ringAddresses, List.range'_eq_map_range]
    apply List.map_congr_left
    intro offset inside
    have small := List.mem_range.mp inside
    have fits := straight empty
    rw [placed empty, Window.add_mod_of_lt (by omega), Nat.add_assoc]

end Addresses

namespace FrameFits

variable {data ring edge size : ℕ}

/-- The rest of the payload starts at the start of the ring. -/
theorem rest_mod (fits : FrameFits ring edge size)
    (wraps : size - 2 * msgEndSize - firstViewSize ring edge size ≠ 0) :
    (edge + (msgEndSize + firstViewSize ring edge size)) % ring = 0 := by
  have header := fits.header_fits
  have whole : edge % ring + (msgEndSize + firstViewSize ring edge size) = ring := by
    simp only [firstViewSize] at *
    omega
  rw [← Nat.mod_add_mod, whole, Nat.mod_self]

/-- The bytes of header, views and footer are those of the ring from the edge on. -/
theorem flatMap_addresses (fits : FrameFits ring edge size) :
    (frameAt data ring edge size).pieces.flatMap Span.addresses =
      ringAddresses data ring edge size := by
  have low := fits.low
  have high := fits.high
  have headerFits := fits.header_fits
  have footerFits := fits.footer_fits
  have view := fits.firstView_le
  have viewLe : firstViewSize ring edge size ≤ size - 2 * msgEndSize := Nat.min_le_left _ _
  have split : size = msgEndSize + (firstViewSize ring edge size +
      (size - 2 * msgEndSize - firstViewSize ring edge size + msgEndSize)) := by
    simp only [msgEndSize] at *
    omega
  have header : Span.addresses ⟨(frameAt data ring edge size).pStart, msgEndSize⟩ =
      ringAddresses data ring edge msgEndSize := by
    apply addresses_eq
    · exact fun _ => rfl
    · exact fun _ => headerFits
  have views0 : (frameAt data ring edge size).views0.addresses =
      ringAddresses data ring (edge + msgEndSize) (firstViewSize ring edge size) := by
    apply addresses_eq
    · intro nonempty
      simp only [frameAt] at nonempty ⊢
      rw [Window.add_mod_of_lt (by omega)]
    · intro nonempty
      simp only [frameAt] at nonempty ⊢
      rw [Window.add_mod_of_lt (by omega)]
      omega
  have views1 : (frameAt data ring edge size).views1.addresses =
      ringAddresses data ring (edge + msgEndSize + firstViewSize ring edge size)
        (size - 2 * msgEndSize - firstViewSize ring edge size) := by
    apply addresses_eq
    · intro nonempty
      rw [Nat.add_assoc, fits.rest_mod nonempty]
      rfl
    · intro nonempty
      rw [Nat.add_assoc, fits.rest_mod nonempty]
      simp only [frameAt]
      omega
  have footer : Span.addresses ⟨(frameAt data ring edge size).pEnd, msgEndSize⟩ =
      ringAddresses data ring (edge + msgEndSize + firstViewSize ring edge size +
        (size - 2 * msgEndSize - firstViewSize ring edge size)) msgEndSize := by
    have edgeEq : edge + msgEndSize + firstViewSize ring edge size +
        (size - 2 * msgEndSize - firstViewSize ring edge size) = edge + size - msgEndSize := by
      omega
    rw [edgeEq]
    apply addresses_eq
    · exact fun _ => rfl
    · exact fun _ => footerFits
  conv_rhs => rw [split]
  simp only [DFrame.pieces, List.flatMap_cons, List.flatMap_nil, List.append_nil, header, views0,
    views1, footer, ringAddresses_add]

/-- Every piece lies inside the ring, at a multiple of the alignment. -/
theorem pieces_inside (fits : FrameFits ring edge size) :
    ∀ piece ∈ (frameAt data ring edge size).pieces, ∃ offset,
      piece.data = data + offset ∧ offset + piece.size ≤ ring ∧ msgEndSize ∣ offset := by
  have high := fits.high
  have offsetAligned := fits.offsetAligned
  have footerAligned : msgEndSize ∣ (edge + size - msgEndSize) % ring :=
    (Nat.dvd_mod_iff fits.ringAligned).mpr fits.footerEdgeAligned
  intro piece present
  simp only [DFrame.pieces, List.mem_cons, List.not_mem_nil, or_false] at present
  rcases present with rfl | rfl | rfl | rfl
  · exact ⟨_, rfl, fits.header_fits, offsetAligned⟩
  · exact ⟨_, rfl, fits.firstView_le, (Nat.dvd_add_right offsetAligned).mpr dvd_rfl⟩
  · refine ⟨0, rfl, ?_, Nat.dvd_zero _⟩
    simp only [frameAt]
    omega
  · exact ⟨_, rfl, fits.footer_fits, footerAligned⟩

end FrameFits

/-- `LocateInRingBuf` fails no check, and its header, views and footer are apart, inside the ring,
aligned, and one after the other the ring's bytes from the start edge on; the footer lies before
the header exactly when the frame passes the end of the ring. -/
theorem frame_located {ring size : ℕ} {edge : UInt64} (data : ℕ)
    (fits : FrameFits ring edge.toNat size) :
    ∃ frame, locateInRingBuf ⟨data, ring⟩ edge size = .ok frame ∧
      frame.pieces.Pairwise (fun first second => first.addresses.Disjoint second.addresses) ∧
      (∀ piece ∈ frame.pieces, ∃ offset, piece.data = data + offset ∧
        offset + piece.size ≤ ring ∧ msgEndSize ∣ offset) ∧
      (msgEndSize ∣ data → ∀ piece ∈ frame.pieces, msgEndSize ∣ piece.data) ∧
      frame.pieces.flatMap Span.addresses = ringAddresses data ring edge.toNat size ∧
      (frame.pEnd < frame.pStart ↔ ring < edge.toNat % ring + size) := by
  have bytes : (frameAt data ring edge.toNat size).pieces.flatMap Span.addresses =
      ringAddresses data ring edge.toNat size := fits.flatMap_addresses
  have once : ((frameAt data ring edge.toNat size).pieces.flatMap Span.addresses).Nodup := by
    rw [bytes]
    apply nodup_ringAddresses fits.high
  refine ⟨frameAt data ring edge.toNat size, locateInRingBuf_eq fits, ?_, fits.pieces_inside, ?_,
    bytes, fits.wraps_iff data⟩
  · exact (List.nodup_flatMap.mp once).2
  · intro aligned piece present
    rcases fits.pieces_inside piece present with ⟨offset, placed, _, offsetAligned⟩
    rw [placed]
    exact Nat.dvd_add aligned offsetAligned

/-- A frame as large as its ring whose header is the last thing in the ring. -/
theorem frame_located_header_last :
    ∃ frame, locateInRingBuf ⟨0x200000, 4096⟩ 4080 4096 = .ok frame ∧
      frame.pieces.flatMap Span.addresses = ringAddresses 0x200000 4096 4080 4096 ∧
      frame.pEnd < frame.pStart := by
  have fits : FrameFits 4096 (4080 : UInt64).toNat 4096 :=
    { power := ⟨12, by decide, rfl⟩
      edgeAligned := by decide
      sizeAligned := by decide
      low := by decide
      high := by decide }
  rcases frame_located 0x200000 fits with ⟨frame, located, _, _, _, bytes, wraps⟩
  exact ⟨frame, located, bytes, wraps.mpr (by decide)⟩

end Hermes
