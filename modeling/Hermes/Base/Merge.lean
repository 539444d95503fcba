import Mathlib.Data.List.Basic
import Mathlib.Logic.Function.Basic

/-!
# Merging sequences

Many sources each produce a sequence, and all go into one list.  The list `Merges`
the sequences if it holds the elements of each source in the source's order, and
nothing else.
-/

namespace Hermes

variable {ι α : Type*} [DecidableEq ι]

/-- The elements of one source, in order. -/
def ofSource (tagged : List (ι × α)) (source : ι) : List α :=
  (tagged.filter fun entry => entry.1 = source).map Prod.snd

section OfSource

variable {tagged : List (ι × α)} {source source' : ι} {element : α}

@[simp]
theorem ofSource_nil : ofSource ([] : List (ι × α)) source = [] := rfl

@[simp]
theorem ofSource_append (tagged' : List (ι × α)) :
    ofSource (tagged ++ tagged') source = ofSource tagged source ++ ofSource tagged' source := by
  simp [ofSource]

@[simp]
theorem ofSource_single : ofSource [(source, element)] source = [element] := by
  simp [ofSource]

theorem ofSource_single_ne (different : source' ≠ source) :
    ofSource [(source, element)] source' = [] := by
  simp [ofSource, different.symm]

end OfSource

/-- A list with the elements of each source in the source's order. -/
def Merges (sequences : ι → List α) (merged : List α) : Prop :=
  ∃ tagged : List (ι × α), tagged.map Prod.snd = merged ∧
    ∀ source, ofSource tagged source = sequences source

namespace Merges

variable {sequences : ι → List α} {merged : List α}

theorem nil : Merges (fun _ : ι => []) ([] : List α) := ⟨[], rfl, fun _ => rfl⟩

/-- A source produces one more element. -/
theorem concat (merges : Merges sequences merged) (source : ι) (element : α) :
    Merges (Function.update sequences source (sequences source ++ [element]))
      (merged ++ [element]) := by
  rcases merges with ⟨tagged, rfl, same⟩
  refine ⟨tagged ++ [(source, element)], by simp, fun source' => ?_⟩
  by_cases here : source' = source
  · subst here
    simp [same]
  · simp [ofSource_single_ne here, here, same]

theorem map {β : Type*} (merges : Merges sequences merged) (f : α → β) :
    Merges (fun source => (sequences source).map f) (merged.map f) := by
  rcases merges with ⟨tagged, rfl, same⟩
  refine ⟨tagged.map fun entry => (entry.1, f entry.2), by simp, fun source => ?_⟩
  dsimp only
  rw [← same source]
  simp [ofSource, List.filter_map, Function.comp_def]

end Merges

end Hermes
