import Mathlib

/- Regular expressions that are a row of pieces: literal texts, and runs of a character class
   with bounds on their length, which may be capturing groups. `fullMatch` is the matcher with
   greedy runs and backtracking; `Reads` says what it decides: the input can be cut into
   pieces of these kinds. -/
namespace Regex

inductive Item (α : Type) where
  | text (t : List α)
  | run (p : α → Bool) (lo : Nat) (hi : Option Nat)
  | group (p : α → Bool) (lo : Nat) (hi : Option Nat)

variable {α β : Type}

/-- The length of the longest run at the front of `s`. -/
def longest (p : α → Bool) (hi : Option Nat) (s : List α) : Nat :=
  match hi with
  | none => (s.takeWhile p).length
  | some n => min n (s.takeWhile p).length

/-- The first of `f n, f (n - 1), …, f lo` that is there. -/
def descend (lo : Nat) (f : Nat → Option β) : Nat → Option β
  | 0 => if lo = 0 then f 0 else none
  | n + 1 => if n + 1 < lo then none else (f (n + 1)).or (descend lo f n)

/-- The groups of a match of the whole input. -/
def fullMatch [DecidableEq α] : List (Item α) → List α → Option (List (List α))
  | [], s => if s = [] then some [] else none
  | .text t :: items, s => if t.isPrefixOf s then fullMatch items (s.drop t.length) else none
  | .run p lo hi :: items, s => descend lo (fun n => fullMatch items (s.drop n)) (longest p hi s)
  | .group p lo hi :: items, s =>
    descend lo (fun n => (fullMatch items (s.drop n)).map (s.take n :: ·)) (longest p hi s)

/-- The groups of the first match anywhere in the input. -/
def find [DecidableEq α] (items : List (Item α)) (s : List α) : Option (List (List α)) :=
  s.tails.findSome? (fullMatch (items ++ [.run (fun _ => true) 0 none]))

/-- `a` is a run of the class with a length in the bounds. -/
structure IsRun (p : α → Bool) (lo : Nat) (hi : Option Nat) (a : List α) : Prop where
  all : ∀ x ∈ a, p x = true
  lo_le : lo ≤ a.length
  le_hi : ∀ n, hi = some n → a.length ≤ n

/-- The input can be cut into pieces, with these groups. -/
def Reads : List (Item α) → List α → List (List α) → Prop
  | [], s, groups => s = [] ∧ groups = []
  | .text t :: items, s, groups => ∃ rest, s = t ++ rest ∧ Reads items rest groups
  | .run p lo hi :: items, s, groups =>
    ∃ a rest, s = a ++ rest ∧ IsRun p lo hi a ∧ Reads items rest groups
  | .group p lo hi :: items, s, groups =>
    ∃ a rest groups', s = a ++ rest ∧ IsRun p lo hi a ∧ groups = a :: groups' ∧
      Reads items rest groups'

/-- A row of pieces in two parts. -/
theorem Reads.of_append {items items' : List (Item α)} {s : List α} {groups : List (List α)}
    (h : Reads (items ++ items') s groups) :
    ∃ s₁ s₂ groups₁ groups₂, s = s₁ ++ s₂ ∧ groups = groups₁ ++ groups₂ ∧
      Reads items s₁ groups₁ ∧ Reads items' s₂ groups₂ := by
  induction items generalizing s groups with
  | nil => exact ⟨[], s, [], groups, rfl, rfl, ⟨rfl, rfl⟩, h⟩
  | cons item items ih =>
    cases item with
    | text t =>
      obtain ⟨rest, rfl, hrest⟩ := h
      obtain ⟨s₁, s₂, groups₁, groups₂, rfl, rfl, h₁, h₂⟩ := ih hrest
      exact ⟨t ++ s₁, s₂, groups₁, groups₂, (List.append_assoc t s₁ s₂).symm, rfl, ⟨s₁, rfl, h₁⟩, h₂⟩
    | run p lo hi =>
      obtain ⟨a, rest, rfl, ha, hrest⟩ := h
      obtain ⟨s₁, s₂, groups₁, groups₂, rfl, rfl, h₁, h₂⟩ := ih hrest
      exact ⟨a ++ s₁, s₂, groups₁, groups₂, (List.append_assoc a s₁ s₂).symm, rfl,
        ⟨a, s₁, rfl, ha, h₁⟩, h₂⟩
    | group p lo hi =>
      obtain ⟨a, rest, groups', rfl, ha, rfl, hrest⟩ := h
      obtain ⟨s₁, s₂, groups₁, groups₂, rfl, rfl, h₁, h₂⟩ := ih hrest
      exact ⟨a ++ s₁, s₂, a :: groups₁, groups₂, (List.append_assoc a s₁ s₂).symm, rfl,
        ⟨a, s₁, groups₁, rfl, ha, rfl, h₁⟩, h₂⟩

theorem descend_eq_some {lo n : Nat} {f : Nat → Option β} {b : β} (h : descend lo f n = some b) :
    ∃ k, lo ≤ k ∧ k ≤ n ∧ f k = some b := by
  induction n with
  | zero =>
    unfold descend at h
    split at h
    · next hlo => exact ⟨0, by omega, le_refl 0, h⟩
    · cases h
  | succ n ih =>
    unfold descend at h
    split at h
    · cases h
    · rcases Option.or_eq_some_iff.mp h with h | ⟨-, h⟩
      · exact ⟨n + 1, by omega, le_refl _, h⟩
      · obtain ⟨k, hlo, hn, hk⟩ := ih h
        exact ⟨k, hlo, by omega, hk⟩

theorem descend_isSome {lo n k : Nat} {f : Nat → Option β} (hlo : lo ≤ k) (hn : k ≤ n)
    (h : (f k).isSome) : (descend lo f n).isSome := by
  induction n with
  | zero =>
    obtain rfl : k = 0 := by omega
    rw [descend, if_pos (by omega)]
    exact h
  | succ n ih =>
    rw [descend, if_neg (by omega), Option.isSome_or]
    by_cases hk : k = n + 1
    · rw [← hk, h, Bool.true_or]
    · rw [ih (by omega), Bool.or_true]

theorem isRun_take {p : α → Bool} {lo n : Nat} {hi : Option Nat} {s : List α} (hlo : lo ≤ n)
    (hn : n ≤ longest p hi s) : IsRun p lo hi (s.take n) := by
  have htake : n ≤ (s.takeWhile p).length := by
    unfold longest at hn
    split at hn <;> omega
  have hlen : n ≤ s.length := htake.trans (List.takeWhile_prefix p).length_le
  have hfirst : s.take n <+: s.takeWhile p :=
    List.prefix_of_prefix_length_le (List.take_prefix n s) (List.takeWhile_prefix p)
      (by rw [List.length_take]; omega)
  refine ⟨fun x hx => List.mem_takeWhile_imp (hfirst.subset hx), ?_, ?_⟩
  · rw [List.length_take]
    omega
  · rintro m rfl
    simp only [longest] at hn
    rw [List.length_take]
    omega

theorem IsRun.le_longest {p : α → Bool} {lo : Nat} {hi : Option Nat} {a rest : List α}
    (h : IsRun p lo hi a) : a.length ≤ longest p hi (a ++ rest) := by
  have hlen : a.length ≤ ((a ++ rest).takeWhile p).length := by
    rw [List.takeWhile_append_of_pos h.all, List.length_append]
    omega
  cases hi with
  | none => exact hlen
  | some n => exact le_min (h.le_hi n rfl) hlen

/-- The first length tried is taken when it has a result, or when no other has one. -/
theorem descend_top {lo n : Nat} {f : Nat → Option β} (hlo : lo ≤ n)
    (h : (f n).isSome ∨ ∀ k < n, f k = none) : descend lo f n = f n := by
  cases n with
  | zero => rw [descend, if_pos (by omega)]
  | succ n =>
    rw [descend, if_neg (by omega)]
    rcases h with hsome | hnone
    · obtain ⟨b, hb⟩ := Option.isSome_iff_exists.mp hsome
      rw [hb, Option.some_or]
    · cases hrest : descend lo f n with
      | none => rw [Option.or_none]
      | some b =>
        obtain ⟨k, -, hk, hfk⟩ := descend_eq_some hrest
        rw [hnone k (by omega)] at hfk
        cases hfk

theorem drop_takeWhile (p : α → Bool) (s : List α) :
    s.drop (s.takeWhile p).length = s.dropWhile p := by
  calc s.drop (s.takeWhile p).length
      = (s.takeWhile p ++ s.dropWhile p).drop (s.takeWhile p).length := by
        rw [List.takeWhile_append_dropWhile]
    _ = s.dropWhile p := List.drop_left

theorem take_takeWhile (p : α → Bool) (s : List α) :
    s.take (s.takeWhile p).length = s.takeWhile p := by
  calc s.take (s.takeWhile p).length
      = (s.takeWhile p ++ s.dropWhile p).take (s.takeWhile p).length := by
        rw [List.takeWhile_append_dropWhile]
    _ = s.takeWhile p := List.take_left

/-- Before its end, the longest run goes on with an element of the class. -/
theorem exists_drop_eq_cons {p : α → Bool} {s : List α} {k : Nat}
    (h : k < (s.takeWhile p).length) : ∃ x rest, s.drop k = x :: rest ∧ p x = true := by
  have hdrop : s.drop k = (s.takeWhile p).drop k ++ s.dropWhile p := by
    calc s.drop k
        = (s.takeWhile p ++ s.dropWhile p).drop k := by rw [List.takeWhile_append_dropWhile]
      _ = (s.takeWhile p).drop k ++ s.dropWhile p :=
        List.drop_append_of_le_length (Nat.le_of_lt h)
  refine ⟨(s.takeWhile p)[k], (s.takeWhile p).drop (k + 1) ++ s.dropWhile p, ?_, ?_⟩
  · rw [hdrop, List.drop_eq_getElem_cons h, List.cons_append]
  · exact List.mem_takeWhile_imp (List.getElem_mem h)

section
variable [DecidableEq α]

/-- A match is a way to cut the input. -/
theorem reads_of_fullMatch {items : List (Item α)} {s : List α} {groups : List (List α)}
    (h : fullMatch items s = some groups) : Reads items s groups := by
  induction items generalizing s groups with
  | nil =>
    unfold fullMatch at h
    split at h
    · next hs => exact ⟨hs, (Option.some.inj h).symm⟩
    · cases h
  | cons item items ih =>
    cases item with
    | text t =>
      unfold fullMatch at h
      split at h
      · next hpre =>
        obtain ⟨rest, rfl⟩ := List.isPrefixOf_iff_prefix.mp hpre
        rw [List.drop_left] at h
        exact ⟨rest, rfl, ih h⟩
      · cases h
    | run p lo hi =>
      obtain ⟨n, hlo, hn, hmatch⟩ := descend_eq_some h
      exact ⟨s.take n, s.drop n, (List.take_append_drop n s).symm, isRun_take hlo hn, ih hmatch⟩
    | group p lo hi =>
      obtain ⟨n, hlo, hn, hmatch⟩ := descend_eq_some h
      obtain ⟨groups', hgroups, rfl⟩ := Option.map_eq_some_iff.mp hmatch
      exact ⟨s.take n, s.drop n, groups', (List.take_append_drop n s).symm, isRun_take hlo hn, rfl,
        ih hgroups⟩

/-- Backtracking finds a match whenever there is a way to cut the input. -/
theorem fullMatch_isSome {items : List (Item α)} {s : List α} {groups : List (List α)}
    (h : Reads items s groups) : (fullMatch items s).isSome := by
  induction items generalizing s groups with
  | nil =>
    rw [h.1]
    rfl
  | cons item items ih =>
    cases item with
    | text t =>
      obtain ⟨rest, rfl, hrest⟩ := h
      rw [fullMatch, if_pos (List.isPrefixOf_iff_prefix.mpr (List.prefix_append t rest)),
        List.drop_left]
      exact ih hrest
    | run p lo hi =>
      obtain ⟨a, rest, rfl, ha, hrest⟩ := h
      refine descend_isSome ha.lo_le ha.le_longest ?_
      rw [List.drop_left]
      exact ih hrest
    | group p lo hi =>
      obtain ⟨a, rest, groups', rfl, ha, -, hrest⟩ := h
      refine descend_isSome ha.lo_le ha.le_longest ?_
      rw [List.drop_left, Option.isSome_map]
      exact ih hrest

/-- With only one way to cut the input, its groups are those of the match. -/
theorem fullMatch_eq_some {items : List (Item α)} {s : List α} {groups : List (List α)}
    (h : Reads items s groups) (hunique : ∀ groups', Reads items s groups' → groups' = groups) :
    fullMatch items s = some groups := by
  obtain ⟨groups', hmatch⟩ := Option.isSome_iff_exists.mp (fullMatch_isSome h)
  rw [hmatch, hunique groups' (reads_of_fullMatch hmatch)]

/-! ## Matches without backtracking -/

/-- The rest of an input that is searched. -/
theorem fullMatch_rest (s : List α) :
    fullMatch [.run (fun _ => true) 0 none] s = some [] := by
  have hlast : fullMatch [] (s.drop (longest (fun _ => true) none s)) = some [] := by
    have hall : s.takeWhile (fun _ => true) = s := List.takeWhile_eq_self_iff.mpr (fun _ _ => rfl)
    rw [longest, hall, List.drop_length]
    rfl
  rw [fullMatch, descend_top (Nat.zero_le _) (.inl (by rw [hlast]; rfl)), hlast]

/-- A run gives nothing back where what follows it cannot begin in the class. -/
theorem fullMatch_run_of_stop {p : α → Bool} {items : List (Item α)}
    (h : ∀ x s, p x = true → fullMatch items (x :: s) = none) (s : List α) :
    fullMatch (.run p 0 none :: items) s = fullMatch items (s.dropWhile p) := by
  have hlast : s.drop (longest p none s) = s.dropWhile p := drop_takeWhile p s
  rw [fullMatch, descend_top (Nat.zero_le _) (.inr ?_), hlast]
  intro k hk
  obtain ⟨x, rest, hdrop, hx⟩ := exists_drop_eq_cons hk
  rw [hdrop]
  exact h x rest hx

/-- The last group takes all that it can. -/
theorem fullMatch_group_last (p : α → Bool) (s : List α) :
    fullMatch [.group p 1 none, .run (fun _ => true) 0 none] s =
      if s.takeWhile p = [] then none else some [s.takeWhile p] := by
  have hrest (n : Nat) : (fullMatch [.run (fun _ => true) 0 none] (s.drop n)).map (s.take n :: ·) =
      some [s.take n] := by
    rw [fullMatch_rest, Option.map_some]
  rw [fullMatch]
  simp only [hrest]
  split_ifs with hnil
  · rw [longest, hnil]
    rfl
  · have hlen : 1 ≤ longest p none s := List.length_pos_of_ne_nil hnil
    rw [descend_top hlen (.inl rfl), longest, take_takeWhile]

/-- `find` matches at the first place where there is a match. -/
theorem find_eq_some_iff {items : List (Item α)} {s : List α} {groups : List (List α)} :
    find items s = some groups ↔
      ∃ before rest, s = before ++ rest ∧
        fullMatch (items ++ [.run (fun _ => true) 0 none]) rest = some groups ∧
        ∀ before' rest', s = before' ++ rest' → before'.length < before.length →
          fullMatch (items ++ [.run (fun _ => true) 0 none]) rest' = none := by
  unfold find
  induction s with
  | nil =>
    rw [List.tails, List.findSome?_singleton]
    constructor
    · intro h
      exact ⟨[], [], rfl, h, fun _ _ _ hlt => absurd hlt (Nat.not_lt_zero _)⟩
    · rintro ⟨before, rest, hs, h, -⟩
      obtain ⟨-, rfl⟩ := List.append_eq_nil_iff.mp hs.symm
      exact h
  | cons x s ih =>
    rw [List.tails_cons, List.findSome?_cons]
    cases hfirst : fullMatch (items ++ [.run (fun _ => true) 0 none]) (x :: s) with
    | some groups' =>
      constructor
      · intro h
        exact ⟨[], x :: s, rfl, hfirst.trans h, fun _ _ _ hlt => absurd hlt (Nat.not_lt_zero _)⟩
      · rintro ⟨before, rest, hs, h, hnone⟩
        cases before with
        | nil =>
          rw [← show x :: s = rest from hs, hfirst] at h
          exact h
        | cons y before =>
          have := hnone [] (x :: s) rfl (Nat.succ_pos _)
          rw [hfirst] at this
          cases this
    | none =>
      refine ih.trans ⟨?_, ?_⟩
      · rintro ⟨before, rest, rfl, h, hnone⟩
        refine ⟨x :: before, rest, rfl, h, fun before' rest' hs hlt => ?_⟩
        cases before' with
        | nil =>
          rw [← show x :: (before ++ rest) = rest' from hs]
          exact hfirst
        | cons y before' =>
          exact hnone before' rest' (List.cons.inj hs).2 (Nat.lt_of_succ_lt_succ hlt)
      · rintro ⟨before, rest, hs, h, hnone⟩
        cases before with
        | nil =>
          rw [← show x :: s = rest from hs, hfirst] at h
          cases h
        | cons y before =>
          obtain ⟨rfl, rfl⟩ := List.cons.inj hs
          refine ⟨before, rest, rfl, h, fun before' rest' hs' hlt => ?_⟩
          exact hnone (x :: before') rest' (congrArg (x :: ·) hs') (Nat.succ_lt_succ hlt)

end
end Regex
