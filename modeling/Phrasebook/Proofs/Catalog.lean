import Mathlib.Data.List.Nodup
import Phrasebook.Catalog

/-!
# The numbers of a catalog

The numbers increase by one from entry to entry, so each belongs to one entry.
-/

namespace Phrasebook.Catalog

theorem index_le_of_mem_number {entry : Entry} {first : Nat} {sentences : List Approved}
    (h : entry ∈ number first sentences) :
    first ≤ entry.index ∧ entry.index < first + sentences.length ∧
      entry.sentence ∈ sentences := by
  induction sentences generalizing first with
  | nil => simp [number] at h
  | cons sentence rest ih =>
    rcases List.mem_cons.mp h with rfl | later
    · simp
    · obtain ⟨low, high, mem⟩ := ih later
      simp only [List.length_cons, List.mem_cons]
      exact ⟨by omega, by omega, .inr mem⟩

/-- The numbers of a catalog increase. -/
theorem pairwise_number (first : Nat) (sentences : List Approved) :
    (number first sentences).Pairwise (·.index < ·.index) := by
  induction sentences generalizing first with
  | nil => exact .nil
  | cons sentence rest ih =>
    refine .cons ?_ (ih (first + 1))
    intro entry hmem
    have := (index_le_of_mem_number hmem).1
    simp only
    omega

theorem nodup_index (catalog : Catalog) : (catalog.entries.map (·.index)).Nodup := by
  refine List.pairwise_map.mpr ((pairwise_number 1 catalog.sentences).imp ?_)
  intro entry other h
  omega

/-- A number belongs to one entry. -/
theorem entry_eq_of_index_eq {catalog : Catalog} {entry other : Entry}
    (h : entry ∈ catalog.entries) (h' : other ∈ catalog.entries)
    (hindex : other.index = entry.index) : other = entry :=
  List.inj_on_of_nodup_map catalog.nodup_index h' h hindex

theorem map_sentence_number (first : Nat) (sentences : List Approved) :
    (number first sentences).map (·.sentence) = sentences := by
  induction sentences generalizing first with
  | nil => rfl
  | cons sentence rest ih => simp [number, ih]

/-- Each sentence has an entry. -/
theorem exists_entry {catalog : Catalog} {sentence : Approved} (h : sentence ∈ catalog.sentences) :
    ∃ entry ∈ catalog.entries, entry.sentence = sentence := by
  rw [← map_sentence_number 1 catalog.sentences] at h
  exact List.mem_map.mp h

theorem map_content_number (first : Nat) (sentences : List Approved) :
    (number first sentences).map (·.sentence.content) = sentences.map (·.content) := by
  rw [← map_sentence_number first sentences, List.map_map, map_sentence_number]
  rfl

/-- The contents of different entries differ if those of the sentences do. -/
theorem nodup_content {catalog : Catalog} (h : (catalog.sentences.map (·.content)).Nodup) :
    (catalog.entries.map (·.sentence.content)).Nodup := by
  rwa [entries, map_content_number]

end Phrasebook.Catalog
