import Mathlib.Data.List.Nodup

/- Lists of keys with their values, read with `List.lookup`. -/
namespace AssocList

variable {K V : Type} [BEq K] [LawfulBEq K]

theorem mem_of_lookup {l : List (K × V)} {k : K} {v : V} (h : l.lookup k = some v) : (k, v) ∈ l := by
  obtain ⟨l₁, l₂, rfl, -⟩ := List.lookup_eq_some_iff.mp h
  simp

theorem lookup_of_mem_keys {l : List (K × V)} {k : K} (h : k ∈ l.map Prod.fst) :
    ∃ v, l.lookup k = some v := by
  obtain ⟨entry, hentry, hk⟩ := List.mem_map.mp h
  exact Option.isSome_iff_exists.mp (List.lookup_isSome_iff.mpr ⟨entry, hentry, by simp [hk]⟩)

/-- Where no key stands twice, a value is found exactly when it is there. -/
theorem lookup_eq_some_iff {l : List (K × V)} (hl : (l.map Prod.fst).Nodup) {k : K} {v : V} :
    l.lookup k = some v ↔ (k, v) ∈ l := by
  refine ⟨mem_of_lookup, fun h => ?_⟩
  obtain ⟨found, hfound⟩ := lookup_of_mem_keys (List.mem_map_of_mem (f := Prod.fst) h)
  have hsame := List.inj_on_of_nodup_map hl (mem_of_lookup hfound) h rfl
  rw [hfound, (Prod.mk.inj hsame).2]

end AssocList
