import TransparentCa.Devkit.Coverage

/- What the printed report says. A section names a source file, ranges of line numbers and
   branches; its text can be read back, so that what is printed below the heading says which
   lines and branches are meant and no others. -/
namespace Devkit.Coverage
open Python PrefixCode

/-- What is printed of a source file: the first and last numbers of ranges of lines, and
    branches with their line and block. -/
structure Section where
  path : Str
  ranges : List (Nat × Nat)
  branches : List (Nat × Nat × Nat)
  deriving DecidableEq

def rangeText (range : Nat × Nat) : Str :=
  if range.1 = range.2 then strNat range.1 else strNat range.1 ++ py "-" ++ strNat range.2

def rowText (branch : Nat × Nat × Nat) : Str :=
  py "Line " ++ strNat branch.1 ++ py ": (block: " ++ strNat branch.2.1 ++ py ", branch: " ++
    strNat branch.2.2 ++ py ")"

namespace Section

def linesText (s : Section) : Str :=
  if s.ranges = [] then []
  else py "Lines to test: " ++ join (py ", ") (s.ranges.map rangeText) ++ py "\n"

def branchesText (s : Section) : Str :=
  if s.branches = [] then []
  else py "Branches to test:\n" ++ join (py "\n") (s.branches.map rowText)

def text (s : Section) : Str :=
  py "\nFile: " ++ s.path ++ py "\n" ++ s.linesText ++ s.branchesText

/-- The section says that the line or the branch is uncovered. -/
def Shows (s : Section) : Item → Prop
  | .line n => ∃ range ∈ s.ranges, range.1 ≤ n ∧ n ≤ range.2
  | .branch n block id => (n, block, id) ∈ s.branches

end Section

/-! ## Reading a section back -/

theorem comma_notMem (n : Nat) : ch ',' ∉ strNat n := notMem_strNat (.inl (by decide)) n

theorem dash_notMem (n : Nat) : ch '-' ∉ strNat n := notMem_strNat (.inl (by decide)) n

theorem rangeText_injective : Function.Injective rangeText := by
  intro ⟨a, b⟩ ⟨a', b'⟩ h
  unfold rangeText at h
  dsimp only at h
  simp only [List.append_assoc] at h
  split_ifs at h with hab hab' hab'
  · subst hab hab'
    rw [strNat_injective h]
  · exact absurd (h ▸ List.mem_append_right (strNat a') List.mem_cons_self) (dash_notMem a)
  · exact absurd (h ▸ List.mem_append_right (strNat a) List.mem_cons_self) (dash_notMem a')
  · obtain ⟨ha, hb⟩ := sep_inj_left (dash_notMem a) (dash_notMem a') h
    rw [strNat_injective ha, strNat_injective hb]

theorem rowText_injective : Function.Injective rowText := by
  intro ⟨n, block, id⟩ ⟨n', block', id'⟩ h
  unfold rowText at h
  simp only [List.append_assoc] at h
  have hcolon : ∀ n : Nat, ch ':' ∉ strNat n := fun n => notMem_strNat (.inr (by decide)) n
  obtain ⟨hn, h⟩ := sep_inj_left (hcolon n) (hcolon n') (List.append_cancel_left h)
  obtain ⟨hblock, h⟩ := sep_inj_left (comma_notMem block) (comma_notMem block')
    (List.append_cancel_left (show py " (block: " ++ _ = py " (block: " ++ _ from h))
  have hid := List.append_cancel_right
    (List.append_cancel_left (show py " branch: " ++ _ = py " branch: " ++ _ from h))
  rw [strNat_injective hn, strNat_injective hblock, strNat_injective hid]

theorem notMem_rangeText {c : CodePoint} (hc : c.val < 0x30 ∨ 0x3a ≤ c.val) (hdash : c ≠ ch '-')
    (range : Nat × Nat) : c ∉ rangeText range := by
  unfold rangeText
  split_ifs
  · exact notMem_strNat hc range.1
  · simp [notMem_strNat hc, hdash, py]

theorem newline_notMem_rowText (branch : Nat × Nat × Nat) : ch '\n' ∉ rowText branch := by
  have hnat : ∀ n : Nat, ch '\n' ∉ strNat n := fun n => notMem_strNat (.inl (by decide)) n
  unfold rowText
  simp only [List.mem_append, not_or]
  exact ⟨⟨⟨⟨⟨⟨by decide, hnat _⟩, by decide⟩, hnat _⟩, by decide⟩, hnat _⟩, by decide⟩

theorem newline_notMem_join_ranges (ranges : List (Nat × Nat)) :
    ch '\n' ∉ join (py ", ") (ranges.map rangeText) := by
  induction ranges with
  | nil => exact List.not_mem_nil
  | cons range ranges ih =>
    have hrange : ch '\n' ∉ rangeText range := notMem_rangeText (.inl (by decide)) (by decide) range
    cases ranges with
    | nil => simpa [join, List.intercalate] using hrange
    | cons range' ranges =>
      have hsep : ch '\n' ∉ py ", " := by decide
      rw [List.map_cons, List.map_cons, join, List.intercalate_cons_cons]
      simp only [List.mem_append, not_or]
      exact ⟨⟨hrange, hsep⟩, ih⟩

namespace Section

/-- The part about branches begins with a `B`, if it is there. -/
theorem branchesText_ne {s : Section} (t : Str) : s.branchesText ≠ py "Lines to test: " ++ t := by
  unfold branchesText
  split_ifs
  · exact fun h => nomatch h
  · exact fun h => absurd (List.cons.inj h).1 (by decide)

theorem branchesText_inj {s s' : Section} (h : s.branchesText = s'.branchesText) :
    s.branches = s'.branches := by
  unfold branchesText at h
  split_ifs at h with hs hs' hs'
  · rw [hs, hs']
  · exact nomatch h
  · exact nomatch h
  · refine List.map_injective_iff.mpr rowText_injective (join_inj (m := []) ?_ ?_ ?_ ?_
      (List.append_cancel_left h))
    · intro a ha
      obtain ⟨branch, -, rfl⟩ := List.mem_map.mp ha
      exact newline_notMem_rowText branch
    · intro a ha
      obtain ⟨branch, -, rfl⟩ := List.mem_map.mp ha
      exact newline_notMem_rowText branch
    · simpa using hs
    · simpa using hs'

theorem rest_inj {s s' : Section}
    (h : s.linesText ++ s.branchesText = s'.linesText ++ s'.branchesText) :
    s.ranges = s'.ranges ∧ s.branches = s'.branches := by
  unfold linesText at h
  split_ifs at h with hs hs' hs'
  · exact ⟨hs.trans hs'.symm, branchesText_inj h⟩
  · simp only [List.append_assoc] at h
    exact absurd h (branchesText_ne _)
  · simp only [List.append_assoc] at h
    exact absurd h.symm (branchesText_ne _)
  · simp only [List.append_assoc] at h
    obtain ⟨hjoin, hbranches⟩ := sep_inj_left (newline_notMem_join_ranges s.ranges)
      (newline_notMem_join_ranges s'.ranges) (List.append_cancel_left h)
    refine ⟨List.map_injective_iff.mpr rangeText_injective (join_inj (m := py " ") ?_ ?_ ?_ ?_
      hjoin), branchesText_inj hbranches⟩
    · intro a ha
      obtain ⟨range, -, rfl⟩ := List.mem_map.mp ha
      exact notMem_rangeText (.inl (by decide)) (by decide) range
    · intro a ha
      obtain ⟨range, -, rfl⟩ := List.mem_map.mp ha
      exact notMem_rangeText (.inl (by decide)) (by decide) range
    · simpa using hs
    · simpa using hs'

/-- The text says what the section says. -/
theorem text_inj {s s' : Section} (hs : OneLine s.path) (hs' : OneLine s'.path)
    (h : s.text = s'.text) : s = s' := by
  unfold text at h
  simp only [List.append_assoc] at h
  obtain ⟨hpath, hrest⟩ := sep_inj_left hs.1 hs'.1 (List.append_cancel_left h)
  obtain ⟨hranges, hbranches⟩ := rest_inj hrest
  cases s
  cases s'
  cases hpath
  cases hranges
  cases hbranches
  rfl

theorem map_text_inj {l l' : List Section} (hl : ∀ s ∈ l, OneLine s.path)
    (hl' : ∀ s ∈ l', OneLine s.path) (h : l.map text = l'.map text) : l = l' := by
  induction l generalizing l' with
  | nil => exact (List.map_eq_nil_iff.mp h.symm).symm
  | cons s l ih =>
    cases l' with
    | nil => cases h
    | cons s' l' =>
      obtain ⟨hhead, htail⟩ := List.cons.inj h
      rw [text_inj (hl s List.mem_cons_self) (hl' s' List.mem_cons_self) hhead,
        ih (fun x hx => hl x (List.mem_cons_of_mem s hx))
          (fun x hx => hl' x (List.mem_cons_of_mem s' hx)) htail]

theorem text_ne_nil (s : Section) : s.text ≠ [] := fun h => nomatch h

theorem text_ne_allCovered (s : Section) : s.text ≠ py "All covered!" :=
  fun h => absurd (List.cons.inj h).1 (by decide)

end Section

/-! ## The groups of consecutive numbers -/

/-- A number as the script has it. -/
def asInts (range : Nat × Nat) : Int × Int := (range.1, range.2)

/-- The groups cover the range that is begun and the numbers that follow. -/
theorem exists_groupFrom (start prev : Nat) (h : start ≤ prev) (numbers : List Nat) :
    ∃ ranges : List (Nat × Nat), ranges ≠ [] ∧
      groupFrom start prev (numbers.map Nat.cast) = ranges.map asInts ∧
      ∀ n, (∃ range ∈ ranges, range.1 ≤ n ∧ n ≤ range.2) ↔
        start ≤ n ∧ n ≤ prev ∨ n ∈ numbers := by
  induction numbers generalizing start prev with
  | nil => exact ⟨[(start, prev)], by simp, rfl, by simp⟩
  | cons m numbers ih =>
    rw [List.map_cons, groupFrom]
    split_ifs with hnext
    · obtain ⟨ranges, -, hgroups, hmem⟩ := ih m m (Nat.le_refl m)
      refine ⟨(start, prev) :: ranges, List.cons_ne_nil _ _, ?_, fun n => ?_⟩
      · rw [hgroups]
        rfl
      · rw [List.exists_mem_cons_iff, hmem, List.mem_cons]
        refine or_congr_right (or_congr_left ?_)
        omega
    · have hm : m = prev + 1 := by omega
      obtain ⟨ranges, hne, hgroups, hmem⟩ := ih start m (by omega)
      refine ⟨ranges, hne, hgroups, fun n => ?_⟩
      rw [hmem, List.mem_cons, ← or_assoc]
      refine or_congr_left ?_
      omega

/-- The groups of numbers cover these numbers and no others. -/
theorem exists_groups (numbers : List Nat) :
    ∃ ranges : List (Nat × Nat), groups (numbers.map Nat.cast) = ranges.map asInts ∧
      ∀ n, (∃ range ∈ ranges, range.1 ≤ n ∧ n ≤ range.2) ↔ n ∈ numbers := by
  obtain ⟨sorted, hperm, hsorted⟩ : ∃ sorted : List Nat, sorted.Perm numbers ∧
      (numbers.map Nat.cast : List Int).insertionSort (· ≤ ·) = sorted.map Nat.cast := by
    have hperm := List.perm_insertionSort (· ≤ ·) (numbers.map Nat.cast : List Int)
    have hcast : (numbers.map Nat.cast : List Int).map Int.toNat = numbers := by
      rw [List.map_map]
      exact (List.map_congr_left (fun n _ => rfl)).trans (List.map_id numbers)
    refine ⟨((numbers.map Nat.cast : List Int).insertionSort (· ≤ ·)).map Int.toNat, ?_, ?_⟩
    · rw [← hcast, hcast]
      exact (hperm.map Int.toNat).trans (List.Perm.of_eq hcast)
    · rw [List.map_map]
      refine (List.map_id _).symm.trans (List.map_congr_left (fun i hi => ?_))
      obtain ⟨n, -, rfl⟩ := List.mem_map.mp (hperm.mem_iff.mp hi)
      rfl
  rw [groups, hsorted]
  cases sorted with
  | nil => exact ⟨[], rfl, fun n => by rw [← hperm.mem_iff]; simp⟩
  | cons m sorted =>
    obtain ⟨ranges, -, hgroups, hmem⟩ := exists_groupFrom m m (Nat.le_refl m) sorted
    refine ⟨ranges, hgroups, fun n => ?_⟩
    rw [hmem, ← hperm.mem_iff, List.mem_cons]
    refine or_congr_left ?_
    omega

end Devkit.Coverage
