import Mathlib.Data.Finset.Card
import Mathlib.Data.Set.Finite.Basic

/- A worklist. Items are taken from its front one after the other; what an item leads to is
   noted the first time it is met, and put at the end of the list where it is to be gone on
   from. The loop ends exactly when finitely many items are reached, and then everything has
   been noted. -/
namespace Worklist

variable {α : Type}

/-- What was met, and what is still to be gone on from. -/
structure Pending (α : Type) where
  found : List α
  worklist : List α

/-- An item is noted when it is met. -/
def Pending.visit [DecidableEq α] (expand : α → Bool) (p : Pending α) (y : α) : Pending α :=
  if y ∈ p.found then p
  else ⟨p.found ++ [y], if expand y then p.worklist ++ [y] else p.worklist⟩

/-- The loop, for at most `fuel` items. -/
def run [DecidableEq α] (scan : α → Pending α → Pending α) : Nat → List α → Pending α → Option (List α)
  | 0, _, _ => none
  | fuel + 1, scanned, p =>
    match p.worklist with
    | [] => some p.found
    | x :: rest =>
      if x ∈ scanned then run scan fuel scanned ⟨p.found, rest⟩
      else run scan fuel (x :: scanned) (scan x ⟨p.found, rest⟩)

variable {next : α → List α} {expand : α → Bool} {start : α}

/-- The items that the loop goes on from. -/
inductive Reached (next : α → List α) (expand : α → Bool) (start : α) : α → Prop
  | start : Reached next expand start start
  | next {x y : α} : Reached next expand start x → y ∈ next x → expand y = true →
      Reached next expand start y

/-! ## One item -/

section Visit
variable [DecidableEq α]

theorem mem_found_visit {p : Pending α} {y t : α} :
    t ∈ (p.visit expand y).found ↔ t ∈ p.found ∨ t = y := by
  unfold Pending.visit
  split_ifs with h
  · exact ⟨.inl, fun ht => ht.elim id (fun heq => heq ▸ h)⟩
  · exact List.mem_append.trans (or_congr_right List.mem_singleton)
  · exact List.mem_append.trans (or_congr_right List.mem_singleton)

theorem mem_found_foldl {ys : List α} {p : Pending α} {t : α} :
    t ∈ (ys.foldl (Pending.visit expand) p).found ↔ t ∈ p.found ∨ t ∈ ys := by
  induction ys generalizing p with
  | nil => simp
  | cons y ys ih => rw [List.foldl_cons, ih, mem_found_visit, List.mem_cons, or_assoc]

theorem mem_worklist_visit {p : Pending α} {y t : α} :
    t ∈ (p.visit expand y).worklist ↔
      t ∈ p.worklist ∨ t = y ∧ y ∉ p.found ∧ expand y = true := by
  unfold Pending.visit
  split_ifs with h hexpand
  · simp [h]
  · simp [h, hexpand]
  · simp [hexpand]

/-- An item that is put on the list was not met before. -/
theorem mem_worklist_foldl {ys : List α} {p : Pending α} {t : α} :
    t ∈ (ys.foldl (Pending.visit expand) p).worklist ↔
      t ∈ p.worklist ∨ t ∈ ys ∧ t ∉ p.found ∧ expand t = true := by
  induction ys generalizing p with
  | nil => simp
  | cons y ys ih =>
    rw [List.foldl_cons, ih, mem_worklist_visit, mem_found_visit, List.mem_cons]
    by_cases hy : t = y
    · subst hy
      tauto
    · tauto

end Visit

/-! ## The loop -/

/-- What holds before each item is taken. -/
structure Invariant (next : α → List α) (expand : α → Bool) (start : α) (scanned : List α)
    (p : Pending α) : Prop where
  worklist_reached : ∀ x ∈ p.worklist, Reached next expand start x
  scanned_reached : ∀ x ∈ scanned, Reached next expand start x
  start_covered : start ∈ scanned ∨ start ∈ p.worklist
  found_sound : ∀ t ∈ p.found, ∃ x, Reached next expand start x ∧ t ∈ next x
  closed : ∀ x ∈ scanned, ∀ t ∈ next x, t ∈ p.found
  covered : ∀ t ∈ p.found, expand t = true → t ∈ scanned ∨ t ∈ p.worklist

theorem Invariant.init : Invariant next expand start [] ⟨[], [start]⟩ where
  worklist_reached _ hx := List.mem_singleton.mp hx ▸ .start
  scanned_reached _ hx := absurd hx List.not_mem_nil
  start_covered := .inr (List.mem_singleton_self start)
  found_sound _ ht := absurd ht List.not_mem_nil
  closed _ hx := absurd hx List.not_mem_nil
  covered _ ht := absurd ht List.not_mem_nil

/-- An item that was scanned before is dropped. -/
theorem Invariant.skip {scanned found rest : List α} {x : α}
    (h : Invariant next expand start scanned ⟨found, x :: rest⟩) (hx : x ∈ scanned) :
    Invariant next expand start scanned ⟨found, rest⟩ := by
  have hdrop : ∀ t, t ∈ scanned ∨ t ∈ x :: rest → t ∈ scanned ∨ t ∈ rest := by
    intro t ht
    rcases ht with ht | ht
    · exact .inl ht
    · rcases List.mem_cons.mp ht with rfl | ht
      · exact .inl hx
      · exact .inr ht
  exact {
    h with
    worklist_reached := fun y hy => h.worklist_reached y (List.mem_cons_of_mem x hy)
    start_covered := hdrop start h.start_covered
    covered := fun t ht hexpand => hdrop t (h.covered t ht hexpand) }

/-- An item is scanned. -/
theorem Invariant.step [DecidableEq α] {scanned found rest : List α} {x : α}
    (h : Invariant next expand start scanned ⟨found, x :: rest⟩) :
    Invariant next expand start (x :: scanned)
      ((next x).foldl (Pending.visit expand) ⟨found, rest⟩) := by
  have hx : Reached next expand start x := h.worklist_reached x List.mem_cons_self
  have hmove : ∀ t, t ∈ scanned ∨ t ∈ x :: rest →
      t ∈ x :: scanned ∨ t ∈ ((next x).foldl (Pending.visit expand) ⟨found, rest⟩).worklist := by
    intro t ht
    rw [mem_worklist_foldl]
    rcases ht with ht | ht
    · exact .inl (List.mem_cons_of_mem x ht)
    · rcases List.mem_cons.mp ht with rfl | ht
      · exact .inl List.mem_cons_self
      · exact .inr (.inl ht)
  constructor
  · intro y hy
    rcases mem_worklist_foldl.mp hy with hy | ⟨hy, -, hexpand⟩
    · exact h.worklist_reached y (List.mem_cons_of_mem x hy)
    · exact .next hx hy hexpand
  · intro y hy
    rcases List.mem_cons.mp hy with rfl | hy
    · exact hx
    · exact h.scanned_reached y hy
  · exact hmove start h.start_covered
  · intro t ht
    rcases mem_found_foldl.mp ht with ht | ht
    · exact h.found_sound t ht
    · exact ⟨x, hx, ht⟩
  · intro y hy t ht
    rw [mem_found_foldl]
    rcases List.mem_cons.mp hy with rfl | hy
    · exact .inr ht
    · exact .inl (h.closed y hy t ht)
  · intro t ht hexpand
    -- An item that was met for the first time has just been put on the list.
    by_cases hfound : t ∈ found
    · exact hmove t (h.covered t hfound hexpand)
    · refine .inr (mem_worklist_foldl.mpr (.inr ⟨?_, hfound, hexpand⟩))
      exact (mem_found_foldl.mp ht).resolve_left hfound

/-- When nothing is left, every item that is reached has been scanned. -/
theorem Invariant.scanned_of_reached {scanned found : List α}
    (h : Invariant next expand start scanned ⟨found, []⟩) {x : α}
    (hx : Reached next expand start x) : x ∈ scanned := by
  induction hx with
  | start => exact h.start_covered.resolve_right List.not_mem_nil
  | next _ hy hexpand ih =>
    exact (h.covered _ (h.closed _ ih _ hy) hexpand).resolve_right List.not_mem_nil

/-- The items that are still to be met, and those on the list. Each round takes one away. -/
def remaining [DecidableEq α] (R : Finset α) (p : Pending α) : Nat :=
  (R.filter (fun x => x ∉ p.found)).card + p.worklist.length

theorem remaining_visit_le [DecidableEq α] {R : Finset α} {p : Pending α} {y : α}
    (hy : expand y = true → y ∈ R) : remaining R (p.visit expand y) ≤ remaining R p := by
  unfold Pending.visit
  split_ifs with hfound hexpand
  · exact le_rfl
  · -- The item leaves those to be met and comes onto the list.
    have hlt : (R.filter (fun x => x ∉ p.found ++ [y])).card < (R.filter (fun x => x ∉ p.found)).card := by
      refine Finset.card_lt_card (Finset.ssubset_iff_of_subset ?_ |>.mpr ⟨y, ?_, ?_⟩)
      · intro x hx
        rw [Finset.mem_filter, List.mem_append, not_or] at hx
        exact Finset.mem_filter.mpr ⟨hx.1, hx.2.1⟩
      · exact Finset.mem_filter.mpr ⟨hy hexpand, hfound⟩
      · simp
    dsimp only [remaining]
    rw [List.length_append, List.length_singleton]
    omega
  · refine Nat.add_le_add_right (Finset.card_le_card ?_) _
    intro x hx
    rw [Finset.mem_filter, List.mem_append, not_or] at hx
    exact Finset.mem_filter.mpr ⟨hx.1, hx.2.1⟩

theorem remaining_foldl_le [DecidableEq α] {R : Finset α} {ys : List α} {p : Pending α}
    (hys : ∀ y ∈ ys, expand y = true → y ∈ R) :
    remaining R (ys.foldl (Pending.visit expand) p) ≤ remaining R p := by
  induction ys generalizing p with
  | nil => exact le_rfl
  | cons y ys ih =>
    exact (ih (fun t ht => hys t (List.mem_cons_of_mem y ht))).trans
      (remaining_visit_le (hys y List.mem_cons_self))

section Run
variable [DecidableEq α] {scan : α → Pending α → Pending α}
  (hscan : ∀ x p, scan x p = (next x).foldl (Pending.visit expand) p)
include hscan

theorem run_eq_some {fuel : Nat} {scanned result : List α} {p : Pending α}
    (hinv : Invariant next expand start scanned p) (h : run scan fuel scanned p = some result) :
    Set.Finite {x | Reached next expand start x} ∧
      ∀ t, t ∈ result ↔ ∃ x, Reached next expand start x ∧ t ∈ next x := by
  induction fuel generalizing scanned p with
  | zero => cases h
  | succ fuel ih =>
    obtain ⟨found, worklist⟩ := p
    cases worklist with
    | nil =>
      obtain rfl := Option.some.inj h
      refine ⟨scanned.finite_toSet.subset (fun x hx => hinv.scanned_of_reached hx), fun t => ?_⟩
      exact ⟨hinv.found_sound t,
        fun ⟨x, hx, ht⟩ => hinv.closed x (hinv.scanned_of_reached hx) t ht⟩
    | cons x rest =>
      dsimp only [run] at h
      split_ifs at h with hx
      · exact ih (hinv.skip hx) h
      · rw [hscan] at h
        exact ih hinv.step h

theorem exists_run {R : Finset α} (hR : ∀ x, Reached next expand start x → x ∈ R) {fuel : Nat}
    {scanned : List α} {p : Pending α} (hinv : Invariant next expand start scanned p)
    (hfuel : remaining R p < fuel) : ∃ result, run scan fuel scanned p = some result := by
  induction fuel generalizing scanned p with
  | zero => omega
  | succ fuel ih =>
    obtain ⟨found, worklist⟩ := p
    cases worklist with
    | nil => exact ⟨found, rfl⟩
    | cons x rest =>
      have hpop : remaining R ⟨found, rest⟩ < fuel := by
        dsimp only [remaining] at hfuel ⊢
        rw [List.length_cons] at hfuel
        omega
      dsimp only [run]
      split_ifs with hx
      · exact ih (hinv.skip hx) hpop
      · rw [hscan]
        refine ih hinv.step (lt_of_le_of_lt (remaining_foldl_le ?_) hpop)
        intro y hy hexpand
        exact hR y (.next (hinv.worklist_reached x List.mem_cons_self) hy hexpand)

/-- The loop ends if and only if finitely many items are reached. -/
theorem run_ends_iff : (∃ fuel result, run scan fuel [] ⟨[], [start]⟩ = some result) ↔
    Set.Finite {x | Reached next expand start x} := by
  constructor
  · intro ⟨fuel, result, h⟩
    exact (run_eq_some hscan .init h).1
  · intro h
    have hR : ∀ x, Reached next expand start x → x ∈ h.toFinset := fun x hx => h.mem_toFinset.mpr hx
    exact ⟨_, exists_run hscan hR .init (Nat.lt_succ_self _)⟩

end Run

end Worklist
