import Mathlib.Data.List.Basic
import Mathlib.Logic.Function.Iterate
import Mathlib.Tactic.Common

/-!
# Checksums of a shift register

A register moves down one place at a time, and a polynomial is added whenever a bit
falls out.  A word is fed by adding it and moving down by its width.  Moving down is
linear, and a value whose bits lie in as many places as the polynomial has never becomes
zero.  So when one of the words that are fed has errors in so many places and the others
have none, the register ends differently.
-/

namespace Hermes

namespace ShiftRegister

variable {width degree : ℕ} {poly value value' word word' : BitVec width}

/-- One place down. -/
def shift (poly value : BitVec width) : BitVec width :=
  if value.getLsbD 0 then (value >>> 1) ^^^ poly else value >>> 1

/-- Add a word and move down by its width. -/
def feed (poly value word : BitVec width) : BitVec width :=
  (shift poly)^[width] (value ^^^ word)

/-- All bits lie in `size` places in a row. -/
def Within (size : ℕ) (value : BitVec width) : Prop :=
  ∃ first, ∀ place, value.getLsbD place = true → first ≤ place ∧ place < first + size

/-- All bits lie below `size`. -/
def Below (size : ℕ) (value : BitVec width) : Prop :=
  ∀ place, value.getLsbD place = true → place < size

/-- The top bit of the polynomial is the last of `degree` places. -/
structure OfDegree (degree : ℕ) (poly : BitVec width) : Prop where
  below : Below degree poly
  top : poly.getLsbD (degree - 1) = true

theorem Below.within (below : Below degree value) : Within degree value :=
  ⟨0, fun place set => ⟨Nat.zero_le _, by have := below place set; omega⟩⟩

theorem Below.xor (below : Below degree value) (below' : Below degree value') :
    Below degree (value ^^^ value') := by
  intro place set
  rw [BitVec.getLsbD_xor] at set
  cases first : value.getLsbD place with
  | true => exact below place first
  | false =>
      apply below' place
      simpa [first] using set

section Linear

theorem xor_ne_zero (differ : value ≠ value') : value ^^^ value' ≠ 0 := by
  intro zero
  exact differ (BitVec.xor_eq_zero_iff.mp zero)

theorem shift_xor (poly value value' : BitVec width) :
    shift poly (value ^^^ value') = shift poly value ^^^ shift poly value' := by
  simp only [shift, BitVec.getLsbD_xor, BitVec.ushiftRight_xor_distrib]
  apply BitVec.eq_of_getLsbD_eq
  intro place _
  cases value.getLsbD 0 <;> cases value'.getLsbD 0 <;>
    cases polynomial : poly.getLsbD place <;> simp [polynomial]

theorem iterate_shift_xor (poly value value' : BitVec width) (count : ℕ) :
    (shift poly)^[count] (value ^^^ value') =
      (shift poly)^[count] value ^^^ (shift poly)^[count] value' := by
  induction count with
  | zero => rfl
  | succ count ih => simp only [Function.iterate_succ_apply', ih, shift_xor]

/-- How far apart two registers are after a word each. -/
theorem feed_xor_feed (poly value value' word word' : BitVec width) :
    feed poly value word ^^^ feed poly value' word' =
      (shift poly)^[width] ((value ^^^ value') ^^^ (word ^^^ word')) := by
  rw [feed, feed, ← iterate_shift_xor]
  congr 1
  ac_rfl

end Linear

section Bursts

/-- A value that is not zero, with its bits in `degree` places, keeps both when it moves down. -/
theorem shift_burst (generator : OfDegree degree poly) (nonzero : value ≠ 0)
    (within : Within degree value) :
    shift poly value ≠ 0 ∧ Within degree (shift poly value) := by
  rcases within with ⟨first, inside⟩
  have positive : 0 < degree := by
    have := generator.below _ generator.top
    omega
  cases low : value.getLsbD 0 with
  | true =>
      -- the bit that falls out is the first of the places, so the polynomial's top stays free
      have first : first = 0 := by
        have := inside 0 low
        omega
      subst first
      have moved : shift poly value = (value >>> 1) ^^^ poly := by simp [shift, low]
      have free : value.getLsbD (1 + (degree - 1)) = false := by
        by_contra set
        have := inside _ (by simpa using set)
        omega
      rw [moved]
      refine ⟨?_, 0, ?_⟩
      · intro zero
        have top : ((value >>> 1) ^^^ poly).getLsbD (degree - 1) = true := by
          rw [BitVec.getLsbD_xor, BitVec.getLsbD_ushiftRight, free, generator.top]
          rfl
        simp [zero] at top
      · intro place set
        refine ⟨Nat.zero_le _, ?_⟩
        cases polynomial : poly.getLsbD place with
        | true =>
            have := generator.below place polynomial
            omega
        | false =>
            have := inside (1 + place) (by simpa [polynomial] using set)
            omega
  | false =>
      have moved : shift poly value = value >>> 1 := by simp [shift, low]
      rw [moved]
      refine ⟨?_, first - 1, ?_⟩
      · intro zero
        apply nonzero
        apply BitVec.eq_of_getLsbD_eq
        intro place _
        cases place with
        | zero => simpa using low
        | succ place =>
            have bit : (value >>> 1).getLsbD place = false := by simp [zero]
            rw [BitVec.getLsbD_ushiftRight, Nat.add_comm] at bit
            simpa using bit
      · intro place set
        have := inside (1 + place) (by simpa using set)
        omega

theorem iterate_shift_burst (generator : OfDegree degree poly) (nonzero : value ≠ 0)
    (within : Within degree value) (count : ℕ) :
    (shift poly)^[count] value ≠ 0 ∧ Within degree ((shift poly)^[count] value) := by
  induction count with
  | zero => exact ⟨nonzero, within⟩
  | succ count ih =>
      rw [Function.iterate_succ_apply']
      exact shift_burst generator ih.1 ih.2

/-- What is left above the polynomial moves out. -/
theorem iterate_shift_below (generator : OfDegree degree poly) (value : BitVec width)
    (count : ℕ) : Below (max degree (width - count)) ((shift poly)^[count] value) := by
  induction count with
  | zero =>
      intro place set
      have := BitVec.lt_of_getLsbD set
      omega
  | succ count ih =>
      intro place set
      rw [Function.iterate_succ_apply'] at set
      cases polynomial : poly.getLsbD place with
      | true =>
          have := generator.below place polynomial
          omega
      | false =>
          have bit : ((shift poly)^[count] value).getLsbD (1 + place) = true := by
            rw [shift] at set
            split at set
            · simpa [polynomial] using set
            · simpa using set
          have := ih (1 + place) bit
          omega

/-- A register that has been fed lies below the degree. -/
theorem feed_below (generator : OfDegree degree poly) (value word : BitVec width) :
    Below degree (feed poly value word) := by
  have below := iterate_shift_below generator (value ^^^ word) width
  rw [Nat.sub_self, Nat.max_zero] at below
  exact below

end Bursts

section Detection

variable {Place : Type*} {places : List Place} {words words' : Place → BitVec width}

theorem feed_ne_of_word (generator : OfDegree degree poly) (value : BitVec width)
    (differ : word ≠ word') (within : Within degree (word ^^^ word')) :
    feed poly value word ≠ feed poly value word' := by
  intro same
  have apart := iterate_shift_burst generator (xor_ne_zero differ) within width
  apply apart.1
  have difference := feed_xor_feed poly value value word word'
  rw [same, BitVec.xor_self, BitVec.xor_self, BitVec.zero_xor] at difference
  exact difference.symm

theorem feed_ne_of_register (generator : OfDegree degree poly) (word : BitVec width)
    (below : Below degree value) (below' : Below degree value') (differ : value ≠ value') :
    feed poly value word ≠ feed poly value' word := by
  intro same
  have apart :=
    iterate_shift_burst generator (xor_ne_zero differ) (below.xor below').within width
  apply apart.1
  have difference := feed_xor_feed poly value value' word word
  rw [same, BitVec.xor_self, BitVec.xor_self, BitVec.xor_zero] at difference
  exact difference.symm

theorem foldl_feed_below (generator : OfDegree degree poly) (below : Below degree value)
    (fed : List (BitVec width)) : Below degree (fed.foldl (feed poly) value) := by
  induction fed generalizing value with
  | nil => exact below
  | cons word fed ih => exact ih (feed_below generator value word)

/-- Registers that differ stay different while they are fed the same words. -/
theorem foldl_feed_ne (generator : OfDegree degree poly) (below : Below degree value)
    (below' : Below degree value') (differ : value ≠ value') (fed : List (BitVec width)) :
    fed.foldl (feed poly) value ≠ fed.foldl (feed poly) value' := by
  induction fed generalizing value value' with
  | nil => exact differ
  | cons word fed ih =>
      exact ih (feed_below generator value word) (feed_below generator value' word)
        (feed_ne_of_register generator word below below' differ)

/-- When at most one of the words has errors, in at most `degree` places in a row, the register
ends the same only if no word has any. -/
theorem foldl_feed_eq_iff (generator : OfDegree degree poly) (value : BitVec width)
    (single : places.Pairwise fun place later =>
      words place ≠ words' place → words later = words' later)
    (within : ∀ place ∈ places, Within degree (words place ^^^ words' place)) :
    (places.map words).foldl (feed poly) value = (places.map words').foldl (feed poly) value ↔
      ∀ place ∈ places, words place = words' place := by
  constructor
  · induction places generalizing value with
    | nil => simp
    | cons place places ih =>
        rw [List.pairwise_cons] at single
        simp only [List.map_cons, List.foldl_cons, List.forall_mem_cons] at within ⊢
        intro same
        by_cases here : words place = words' place
        · rw [here] at same
          exact ⟨here, ih _ single.2 within.2 same⟩
        · -- the words after the one with errors have none
          have rest : places.map words' = places.map words :=
            List.map_congr_left fun later present => (single.1 later present here).symm
          rw [rest] at same
          exact absurd same (foldl_feed_ne generator (feed_below generator _ _)
            (feed_below generator _ _) (feed_ne_of_word generator value here within.1) _)
  · intro same
    rw [List.map_congr_left same]

end Detection

end ShiftRegister

end Hermes
