import Mathlib

/- Singly linked lists in a heap. `Linked next p l`: following `next` from the pointer `p`
   visits the nodes `l`, in this order, and ends at the null pointer. The lemmas say where
   the links of a list point, and what writing one link does: a write outside the list does
   nothing to it, a write at its last node extends it. A segment is a part of a list that
   ends before a given pointer. -/
namespace LinkedList

variable {A : Type} {next next' : A → Option A}

def Linked (next : A → Option A) : Option A → List A → Prop
  | p, [] => p = none
  | p, a :: l => p = some a ∧ Linked next (next a) l

theorem Linked.head {p : Option A} {l : List A} (h : Linked next p l) : p = l.head? := by
  cases l with
  | nil => exact h
  | cons a l => exact h.1

/-- The rest of a list, from any of its nodes on. -/
theorem Linked.suffix {p : Option A} {l₁ l₂ : List A} (h : Linked next p (l₁ ++ l₂)) :
    Linked next l₂.head? l₂ := by
  induction l₁ generalizing p with
  | nil =>
    have hp : p = l₂.head? := h.head
    rw [← hp]
    exact h
  | cons a l₁ ih => exact ih h.2

theorem Linked.next_eq {p : Option A} {l₁ l₂ : List A} {a : A}
    (h : Linked next p (l₁ ++ a :: l₂)) : next a = l₂.head? :=
  h.suffix.2.head

theorem Linked.congr {p : Option A} {l : List A} (h : Linked next p l)
    (hnext : ∀ a ∈ l, next' a = next a) : Linked next' p l := by
  induction l generalizing p with
  | nil => exact h
  | cons a l ih =>
    refine ⟨h.1, ?_⟩
    rw [hnext a List.mem_cons_self]
    exact ih h.2 (fun x hx => hnext x (List.mem_cons_of_mem a hx))

/-- A node is linked in behind the last one. -/
theorem Linked.snoc {p : Option A} {l : List A} {t a : A} (h : Linked next p (l ++ [t]))
    (hold : ∀ x ∈ l, next' x = next x) (hlast : next' t = some a)
    (hnew : next' a = none) : Linked next' p (l ++ [t] ++ [a]) := by
  induction l generalizing p with
  | nil => exact ⟨h.1, hlast, hnew⟩
  | cons x l ih =>
    refine ⟨h.1, ?_⟩
    rw [hold x List.mem_cons_self]
    exact ih h.2 (fun y hy => hold y (List.mem_cons_of_mem x hy))

/-- Following `next` from `p` visits the nodes `l`, in this order, and comes to `q`. -/
def Segment (next : A → Option A) : Option A → List A → Option A → Prop
  | p, [], q => p = q
  | p, a :: l, q => p = some a ∧ Segment next (next a) l q

theorem Segment.congr {p q : Option A} {l : List A} (h : Segment next p l q)
    (hnext : ∀ a ∈ l, next' a = next a) : Segment next' p l q := by
  induction l generalizing p with
  | nil => exact h
  | cons a l ih =>
    refine ⟨h.1, ?_⟩
    rw [hnext a List.mem_cons_self]
    exact ih h.2 (fun x hx => hnext x (List.mem_cons_of_mem a hx))

theorem Segment.snoc {p : Option A} {l : List A} {a : A} (h : Segment next p l (some a)) :
    Segment next p (l ++ [a]) (next a) := by
  induction l generalizing p with
  | nil => exact ⟨h, rfl⟩
  | cons x l ih => exact ⟨h.1, ih h.2⟩

theorem Segment.head {p : Option A} {l : List A} {a : A} (h : Segment next p l (some a)) :
    p = (l ++ [a]).head? := by
  cases l with
  | nil => exact h
  | cons x l => exact h.1

/-- A segment in front of a list. -/
theorem Segment.linked {p q : Option A} {l₁ l₂ : List A} (h₁ : Segment next p l₁ q)
    (h₂ : Linked next q l₂) : Linked next p (l₁ ++ l₂) := by
  induction l₁ generalizing p with
  | nil =>
    obtain rfl : p = q := h₁
    exact h₂
  | cons a l₁ ih => exact ⟨h₁.1, ih h₁.2⟩

theorem Linked.segment {p : Option A} {l₁ l₂ : List A} {a : A} (h : Linked next p (l₁ ++ a :: l₂)) :
    Segment next p l₁ (some a) := by
  induction l₁ generalizing p with
  | nil => exact h.1
  | cons x l₁ ih => exact ⟨h.1, ih h.2⟩

theorem Linked.unique {p : Option A} {l l' : List A} (h : Linked next p l)
    (h' : Linked next p l') : l = l' := by
  induction l generalizing p l' with
  | nil =>
    cases l' with
    | nil => rfl
    | cons a l' => exact absurd (h.symm.trans h'.1) (Option.some_ne_none a).symm
  | cons a l ih =>
    cases l' with
    | nil => exact absurd (h'.symm.trans h.1) (Option.some_ne_none a).symm
    | cons b l' =>
      obtain rfl : a = b := Option.some.inj (h.1.symm.trans h'.1)
      exact congrArg (a :: ·) (ih h.2 h'.2)

/-- Two lists over the same links that visit the same nodes begin at the same node. -/
theorem Linked.eq_of_mem_iff {p q : Option A} {l l' : List A} (h : Linked next p l)
    (h' : Linked next q l') (hnodup : l.Nodup) (hmem : ∀ a, a ∈ l' ↔ a ∈ l) : p = q := by
  cases l' with
  | nil =>
    obtain rfl : l = [] := List.eq_nil_iff_forall_not_mem.mpr
      (fun a ha => List.not_mem_nil ((hmem a).mpr ha))
    exact h.trans h'.symm
  | cons c l' =>
    obtain ⟨u, v, rfl⟩ := List.append_of_mem ((hmem c).mp List.mem_cons_self)
    have hsame : c :: v = c :: l' := h.suffix.unique ⟨rfl, h'.2⟩
    cases u with
    | nil => exact h.1.trans h'.1.symm
    | cons b u =>
      have hb : b ∈ c :: v := hsame ▸ (hmem b).mpr List.mem_cons_self
      exact absurd rfl ((List.nodup_append.mp hnodup).2.2 b List.mem_cons_self b hb)

instance decidableLinked [DecidableEq A] (next : A → Option A) :
    (p : Option A) → (l : List A) → Decidable (Linked next p l)
  | p, [] => inferInstanceAs (Decidable (p = none))
  | p, a :: l =>
    have := decidableLinked next (next a) l
    inferInstanceAs (Decidable (p = some a ∧ Linked next (next a) l))

end LinkedList
