import Mathlib

/- Texts that can be read back from what they were put together as. A code spells every
   letter as a word; when no word is the beginning of another, the words written one after
   the other give the letters back. Parts joined by a separator give the parts back when the
   separator does not occur in them. -/
namespace PrefixCode

variable {α β : Type}

/-- Every letter has a word, and no word begins with another letter's word. -/
structure PrefixFree (f : α → List β) : Prop where
  nonempty : ∀ a, f a ≠ []
  eq_of_prefix : ∀ a b, f a <+: f b → a = b

/-- The first words of two equal texts are words of one letter. -/
theorem PrefixFree.append_inj {f : α → List β} (h : PrefixFree f) {a b : α} {s t : List β}
    (heq : f a ++ s = f b ++ t) : a = b ∧ s = t := by
  have hcomparable : f a <+: f b ∨ f b <+: f a :=
    List.prefix_or_prefix_of_prefix (List.prefix_append (f a) s) (heq ▸ List.prefix_append (f b) t)
  have hab : a = b := by
    rcases hcomparable with hpre | hpre
    · exact h.eq_of_prefix a b hpre
    · exact (h.eq_of_prefix b a hpre).symm
  subst hab
  exact ⟨rfl, List.append_cancel_left heq⟩

theorem PrefixFree.flatMap_injective {f : α → List β} (h : PrefixFree f) :
    Function.Injective (fun s : List α => s.flatMap f) := by
  intro s
  induction s with
  | nil =>
    intro t heq
    cases t with
    | nil => rfl
    | cons b t =>
      have hnil : f b ++ t.flatMap f = [] := heq.symm
      exact absurd (List.append_eq_nil_iff.mp hnil).1 (h.nonempty b)
  | cons a s ih =>
    intro t heq
    cases t with
    | nil =>
      have hnil : f a ++ s.flatMap f = [] := heq
      exact absurd (List.append_eq_nil_iff.mp hnil).1 (h.nonempty a)
    | cons b t =>
      obtain ⟨rfl, hrest⟩ := h.append_inj (show f a ++ s.flatMap f = f b ++ t.flatMap f from heq)
      rw [ih hrest]

/-! ## Separators -/

section
variable {sep : α} {a b s t : List α}

/-- The part before a separator that is not the first, when it is the same one on both
sides. -/
theorem sep_inj_count [DecidableEq α] (hcount : a.count sep = b.count sep)
    (h : a ++ sep :: s = b ++ sep :: t) : a = b ∧ s = t := by
  induction a generalizing b with
  | nil =>
    cases b with
    | nil => exact ⟨rfl, (List.cons.inj h).2⟩
    | cons y b =>
      obtain ⟨rfl, -⟩ := List.cons.inj h
      simp at hcount
  | cons x a ih =>
    cases b with
    | nil =>
      obtain ⟨rfl, -⟩ := List.cons.inj h
      simp at hcount
    | cons y b =>
      obtain ⟨rfl, hrest⟩ := List.cons.inj h
      rw [List.count_cons, List.count_cons] at hcount
      obtain ⟨rfl, hst⟩ := ih (Nat.add_right_cancel hcount) hrest
      exact ⟨rfl, hst⟩

/-- The part before the first separator. -/
theorem sep_inj_left (ha : sep ∉ a) (hb : sep ∉ b) (h : a ++ sep :: s = b ++ sep :: t) :
    a = b ∧ s = t := by
  classical
  refine sep_inj_count ?_ h
  rw [List.count_eq_zero.mpr ha, List.count_eq_zero.mpr hb]

end
end PrefixCode
