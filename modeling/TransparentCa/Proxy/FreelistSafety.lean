import TransparentCa.Proxy.Freelist

/- When the free list keeps its blocks. Giving back is safe whatever the other threads do: the
   exchange compares the head with the pointer that is already in the block. Taking is not: the
   exchange compares the head with the block that was read, not with that block's `next`
   pointer, which may be an old one when the block has been taken and given back since; and a
   failed exchange goes on with the head as it is, which may be null by then. -/
namespace Proxy.Freelist
open LinkedList

variable {Thread Block : Type}

/-! ## Who has a block -/

inductive Place (Thread : Type) where
  | free
  | held
  | call (t : Thread)

/-- A block is on the list `l`, out with the callers, or in the hands of a call. -/
def At (held : Finset Block) (inCall : Thread → List Block) (l : List Block) :
    Place Thread → Block → Prop
  | .free, b => b ∈ l
  | .held, b => b ∈ held
  | .call t, b => b ∈ inCall t

/-- Every block is in one place. -/
structure Partition (allocated held : Finset Block) (inCall : Thread → List Block)
    (l : List Block) : Prop where
  allocated_iff : ∀ b, b ∈ allocated ↔ ∃ p, At held inCall l p b
  unique : ∀ b p p', At held inCall l p b → At held inCall l p' b → p = p'

/-- Blocks go from where they are, if anywhere, to one place. -/
theorem Partition.move {allocated held allocated' held' : Finset Block}
    {inCall inCall' : Thread → List Block} {l l' : List Block}
    (h : Partition allocated held inCall l) (moved : List Block) (place : Place Thread)
    (hallocated : ∀ b, b ∈ allocated' ↔ b ∈ moved ∨ b ∈ allocated)
    (hat : ∀ p b, At held' inCall' l' p b ↔
      b ∈ moved ∧ p = place ∨ b ∉ moved ∧ At held inCall l p b) :
    Partition allocated' held' inCall' l' where
  allocated_iff b := by
    rw [hallocated, h.allocated_iff]
    simp only [hat]
    by_cases hb : b ∈ moved
    · exact iff_of_true (.inl hb) ⟨place, .inl ⟨hb, rfl⟩⟩
    · constructor
      · intro hplace
        obtain ⟨p, hp⟩ := hplace.resolve_left hb
        exact ⟨p, .inr ⟨hb, hp⟩⟩
      · intro ⟨p, hp⟩
        exact .inr ⟨p, (hp.resolve_left (fun hmoved => hb hmoved.1)).2⟩
  unique b p p' hp hp' := by
    rcases (hat p b).mp hp with ⟨hb, rfl⟩ | ⟨hb, hp⟩
    · rcases (hat p' b).mp hp' with ⟨-, rfl⟩ | ⟨hb', -⟩
      · rfl
      · exact absurd hb hb'
    · rcases (hat p' b).mp hp' with ⟨hb', -⟩ | ⟨-, hp'⟩
      · exact absurd hb' hb
      · exact h.unique b p p' hp hp'

/-- Blocks that somebody has go to one place. -/
theorem Partition.pass {allocated held held' : Finset Block}
    {inCall inCall' : Thread → List Block} {l l' : List Block}
    (h : Partition allocated held inCall l) (moved : List Block) (place : Place Thread)
    (hmoved : ∀ b ∈ moved, ∃ p, At held inCall l p b)
    (hat : ∀ p b, At held' inCall' l' p b ↔
      b ∈ moved ∧ p = place ∨ b ∉ moved ∧ At held inCall l p b) :
    Partition allocated held' inCall' l' :=
  h.move moved place
    (fun b => ⟨.inr, fun hb => hb.elim (fun hb => (h.allocated_iff b).mpr (hmoved b hb)) id⟩) hat

section
variable [DecidableEq Thread] {allocated held held' : Finset Block}
  {inCall : Thread → List Block} {l l' : List Block}

theorem at_update {t t' : Thread} {blocks : List Block} {b : Block} :
    At held (Function.update inCall t blocks) l (.call t') b ↔
      t' = t ∧ b ∈ blocks ∨ t' ≠ t ∧ b ∈ inCall t' := by
  show b ∈ Function.update inCall t blocks t' ↔ _
  by_cases ht : t' = t
  · subst ht
    rw [Function.update_self]
    simp
  · rw [Function.update_of_ne ht]
    simp [ht]

/-- A call without blocks gets some from the list or from the callers. -/
theorem Partition.toCall (h : Partition allocated held inCall l) {t : Thread}
    {blocks : List Block} (hcall : inCall t = []) (hfrom : ∀ b ∈ blocks, b ∈ l ∨ b ∈ held)
    (hfree : ∀ b, b ∈ l' ↔ b ∉ blocks ∧ b ∈ l) (hheld : ∀ b, b ∈ held' ↔ b ∉ blocks ∧ b ∈ held) :
    Partition allocated held' (Function.update inCall t blocks) l' := by
  refine h.pass blocks (.call t) (fun b hb => ?_) (fun p b => ?_)
  · rcases hfrom b hb with hb | hb
    · exact ⟨.free, hb⟩
    · exact ⟨.held, hb⟩
  · cases p with
    | free => simp [At, hfree]
    | held => simp [At, hheld]
    | call t' =>
      rw [at_update]
      by_cases ht : t' = t
      · simp [ht, At, hcall]
      · -- a block from the list or the callers is not in the hands of another call
        have hother : b ∈ inCall t' → b ∉ blocks := by
          intro hb hblocks
          rcases hfrom b hblocks with hplace | hplace
          · cases h.unique b (.call t') .free hb hplace
          · cases h.unique b (.call t') .held hb hplace
        simp only [ht, false_and, ne_eq, not_false_eq_true, true_and, false_or,
          Place.call.injEq, and_false, At]
        exact ⟨fun hb => ⟨hother hb, hb⟩, fun hb => hb.2⟩

/-- A call gives all its blocks to the list or to a caller. -/
theorem Partition.fromCall (h : Partition allocated held inCall l) {t : Thread}
    (place : Place Thread) (hplace : ∀ t', place ≠ .call t')
    (hfree : ∀ b, b ∈ l' ↔ place = .free ∧ b ∈ inCall t ∨ b ∈ l)
    (hheld : ∀ b, b ∈ held' ↔ place = .held ∧ b ∈ inCall t ∨ b ∈ held) :
    Partition allocated held' (Function.update inCall t []) l' := by
  have hother : ∀ b p, b ∈ inCall t → At held inCall l p b → p = .call t :=
    fun b p hb hp => h.unique b p (.call t) hp hb
  refine h.pass (inCall t) place (fun b hb => ⟨.call t, hb⟩) (fun p b => ?_)
  by_cases hb : b ∈ inCall t
  · have hl : b ∉ l := fun hl => nomatch hother b .free hb hl
    have hheld' : b ∉ held := fun hheld => nomatch hother b .held hb hheld
    cases p with
    | free => simp [At, hfree, hb, hl, eq_comm]
    | held => simp [At, hheld, hb, hheld', eq_comm]
    | call t' =>
      rw [at_update]
      have hcall : t' ≠ t → b ∉ inCall t' :=
        fun ht hcall => ht (Place.call.inj (hother b (.call t') hb hcall))
      simp only [List.not_mem_nil, and_false, false_or, hb, true_and, not_true, false_and, or_false]
      exact iff_of_false (fun hc => hcall hc.1 hc.2) (fun heq => hplace t' heq.symm)
  · cases p with
    | free => simp [At, hfree, hb]
    | held => simp [At, hheld, hb]
    | call t' =>
      rw [at_update]
      by_cases ht : t' = t
      · subst ht
        simp [At, hb]
      · simp [At, hb, ht]

end

/-- The blocks that a call has, and how they are linked. -/
def Owns (next : Block → Option Block) (blocks : List Block) : Pc Block → Prop
  | .newSize ret => blocks = [ret]
  | .newInit ret => blocks = [ret]
  | .deleteLoad new_head => blocks = [new_head]
  | .deleteSwap new_head => blocks = [new_head]
  | .chainWalk head tail _ => blocks.Nodup ∧ ∃ l₁ l₂, blocks = l₁ ++ tail :: l₂ ∧
      Segment next (some head) l₁ (some tail) ∧ Linked next (next tail) l₂
  | .chainLoad head tail _ => blocks.Nodup ∧ ∃ l₁, blocks = l₁ ++ [tail] ∧
      Segment next (some head) l₁ (some tail)
  | .chainSwap head tail _ => blocks.Nodup ∧ ∃ l₁, blocks = l₁ ++ [tail] ∧
      Segment next (some head) l₁ (some tail)
  | _ => blocks = []

/-- What calls own does not depend on the links of other blocks. -/
theorem Owns.congr {next next' : Block → Option Block} {blocks : List Block} {pc : Pc Block}
    (h : Owns next blocks pc) (hnext : ∀ b ∈ blocks, next' b = next b) : Owns next' blocks pc := by
  cases pc with
  | chainWalk head tail count =>
    obtain ⟨hnodup, l₁, l₂, rfl, hseg, hlinked⟩ := h
    refine ⟨hnodup, l₁, l₂, rfl, hseg.congr (fun b hb => hnext b (List.mem_append_left _ hb)), ?_⟩
    rw [hnext tail (List.mem_append_right _ List.mem_cons_self)]
    exact hlinked.congr (fun b hb =>
      hnext b (List.mem_append_right _ (List.mem_cons_of_mem tail hb)))
  | chainLoad head tail count =>
    obtain ⟨hnodup, l₁, rfl, hseg⟩ := h
    exact ⟨hnodup, l₁, rfl, hseg.congr (fun b hb => hnext b (List.mem_append_left _ hb))⟩
  | chainSwap head tail count =>
    obtain ⟨hnodup, l₁, rfl, hseg⟩ := h
    exact ⟨hnodup, l₁, rfl, hseg.congr (fun b hb => hnext b (List.mem_append_left _ hb))⟩
  | _ => exact h

section
variable {next : Block → Option Block} {blocks : List Block} {head tail : Block} {count : UInt64}

theorem Owns.tail_mem (h : Owns next blocks (.chainSwap head tail count)) : tail ∈ blocks := by
  obtain ⟨-, l₁, rfl, -⟩ := h
  exact List.mem_append_right l₁ (List.mem_singleton_self tail)

/-- The last block of a chain may get another `next` pointer. -/
theorem Owns.update_tail [DecidableEq Block] (h : Owns next blocks (.chainSwap head tail count))
    (q : Option Block) :
    Owns (Function.update next tail q) blocks (.chainSwap head tail count) := by
  obtain ⟨hnodup, l₁, rfl, hseg⟩ := h
  refine ⟨hnodup, l₁, rfl, hseg.congr (fun b hb => Function.update_of_ne (fun heq => ?_) _ _)⟩
  exact (List.nodup_append.mp hnodup).2.2 b hb tail (List.mem_singleton_self tail) heq

/-- The walk is at the last block. -/
theorem Owns.walked (h : Owns next blocks (.chainWalk head tail count)) (hnext : next tail = none) :
    Owns next blocks (.chainLoad head tail count) := by
  obtain ⟨hnodup, l₁, l₂, rfl, hseg, hlinked⟩ := h
  cases l₂ with
  | nil => exact ⟨hnodup, l₁, rfl, hseg⟩
  | cons b l₂ => cases hnext.symm.trans hlinked.1

theorem Owns.walk (h : Owns next blocks (.chainWalk head tail count)) {b : Block}
    (hnext : next tail = some b) : Owns next blocks (.chainWalk head b (count + 1)) := by
  obtain ⟨hnodup, l₁, l₂, rfl, hseg, hlinked⟩ := h
  cases l₂ with
  | nil => cases hnext.symm.trans hlinked
  | cons b' l₂ =>
    obtain rfl : b = b' := Option.some.inj (hnext.symm.trans hlinked.1)
    refine ⟨hnodup, l₁ ++ [tail], l₂, ?_, ?_, hlinked.2⟩
    · rw [List.append_assoc]
      rfl
    · rw [← hnext]
      exact hseg.snoc

end

/-- `l` is the free list, and every block is in one place. -/
structure Inv (s : State Thread Block) (l : List Block) : Prop where
  linked : Linked s.next s.head l
  nodup : l.Nodup
  partition : Partition s.allocated s.held s.inCall l
  calls : ∀ t, Owns s.next (s.inCall t) (s.pc t)
  nonNull : NonNull s

namespace Inv

variable {s s' : State Thread Block} {l l' : List Block}

theorem not_held (h : Inv s l) {b : Block} (hb : b ∈ l) : b ∉ s.held := by
  intro hheld
  cases h.partition.unique b .free .held hb hheld

theorem not_inCall (h : Inv s l) {b : Block} (hb : b ∈ l) (t : Thread) : b ∉ s.inCall t := by
  intro hcall
  cases h.partition.unique b .free (.call t) hb hcall

theorem inCall_not_held (h : Inv s l) {b : Block} {t : Thread} (hb : b ∈ s.inCall t) :
    b ∉ s.held := by
  intro hheld
  cases h.partition.unique b (.call t) .held hb hheld

theorem inCall_unique (h : Inv s l) {b : Block} {t t' : Thread} (hb : b ∈ s.inCall t)
    (hb' : b ∈ s.inCall t') : t' = t := by
  cases h.partition.unique b (.call t) (.call t') hb hb'
  rfl

theorem safe (h : Inv s l) : Safe s where
  exclusive _ _ hb := ⟨h.inCall_not_held hb, fun _ hb' => h.inCall_unique hb hb'⟩
  kept b hb := by
    obtain ⟨p, hp⟩ := (h.partition.allocated_iff b).mp hb
    cases p with
    | free =>
      obtain ⟨l₁, l₂, rfl⟩ := List.append_of_mem hp
      exact .inl ⟨l₁, h.linked.segment⟩
    | held => exact .inr (.inl hp)
    | call t => exact .inr (.inr ⟨t, hp⟩)
  nonNull := h.nonNull

/-- Only one thread's call changes, and the links of no block that another call has. -/
theorem change (h : Inv s l) (t : Thread) (hlinked : Linked s'.next s'.head l')
    (hnodup : l'.Nodup) (hpartition : Partition s'.allocated s'.held s'.inCall l')
    (hpc : ∀ t', t' ≠ t → s'.pc t' = s.pc t')
    (hcall : ∀ t', t' ≠ t → s'.inCall t' = s.inCall t')
    (hnext : ∀ t', t' ≠ t → ∀ b ∈ s.inCall t', s'.next b = s.next b)
    (howns : Owns s'.next (s'.inCall t) (s'.pc t)) (hnull : s'.pc t ≠ .newNext none) :
    Inv s' l' where
  linked := hlinked
  nodup := hnodup
  partition := hpartition
  calls t' := by
    by_cases ht : t' = t
    · rw [ht]
      exact howns
    · rw [hcall t' ht, hpc t' ht]
      exact (h.calls t').congr (hnext t' ht)
  nonNull t' := by
    by_cases ht : t' = t
    · rw [ht]
      exact hnull
    · rw [hpc t' ht]
      exact h.nonNull t'

theorem with_size (h : Inv s l) (size : UInt64) : Inv { s with size := size } l :=
  ⟨h.linked, h.nodup, h.partition, h.calls, h.nonNull⟩

/-- A block off the list that no call has gets another `next` pointer. -/
theorem setNext_out [DecidableEq Block] (h : Inv s l) {b : Block} (hl : b ∉ l)
    (hcall : ∀ t, b ∉ s.inCall t) (next : Option Block) : Inv (s.setNext b next) l where
  linked := h.linked.congr (fun _ hx => Function.update_of_ne (ne_of_mem_of_not_mem hx hl) _ _)
  nodup := h.nodup
  partition := h.partition
  calls t := (h.calls t).congr (fun _ hx =>
    Function.update_of_ne (ne_of_mem_of_not_mem hx (hcall t)) _ _)
  nonNull := h.nonNull

/-- The call writes the `next` pointer of a block that it has. -/
theorem setNext [DecidableEq Block] (h : Inv s l) {t : Thread} {b : Block} (hb : b ∈ s.inCall t)
    {next : Option Block} (howns : Owns (Function.update s.next b next) (s.inCall t) (s.pc t)) :
    Inv (s.setNext b next) l := by
  refine h.change t (h.linked.congr (fun x hx => Function.update_of_ne ?_ _ _)) h.nodup h.partition
    (fun _ _ => rfl) (fun _ _ => rfl) (fun t' ht x hx => Function.update_of_ne ?_ _ _) howns
    (h.nonNull t)
  · rintro rfl
    exact h.not_inCall hx t hb
  · rintro rfl
    exact ht (h.inCall_unique hb hx)

section
variable [DecidableEq Thread]

/-- The call goes on with the blocks that it has. -/
theorem goto (h : Inv s l) {t : Thread} {pc : Pc Block} (howns : Owns s.next (s.inCall t) pc)
    (hnull : pc ≠ .newNext none) : Inv (s.goto t pc) l := by
  refine h.change t h.linked h.nodup h.partition (fun t' ht => Function.update_of_ne ht _ _)
    (fun _ _ => rfl) (fun _ _ _ _ => rfl) ?_ ?_
  · show Owns s.next (s.inCall t) (Function.update s.pc t pc t)
    rw [Function.update_self]
    exact howns
  · show Function.update s.pc t pc t ≠ .newNext none
    rw [Function.update_self]
    exact hnull

/-- The call goes on with other blocks. -/
theorem take (h : Inv s l) {t : Thread} {head : Option Block} {held : Finset Block}
    {blocks : List Block} {pc : Pc Block} (hlinked : Linked s.next head l') (hnodup : l'.Nodup)
    (hpartition : Partition s.allocated held (Function.update s.inCall t blocks) l')
    (howns : Owns s.next blocks pc) (hnull : pc ≠ .newNext none) :
    Inv ({ s with head := head, held := held }.take t blocks |>.goto t pc) l' := by
  refine h.change t hlinked hnodup hpartition (fun t' ht => Function.update_of_ne ht _ _)
    (fun t' ht => Function.update_of_ne ht _ _) (fun _ _ _ _ => rfl) ?_ ?_
  · show Owns s.next (Function.update s.inCall t blocks t) (Function.update s.pc t pc t)
    rw [Function.update_self, Function.update_self]
    exact howns
  · show Function.update s.pc t pc t ≠ .newNext none
    rw [Function.update_self]
    exact hnull

/-- The first block is taken off the list. -/
theorem pop (h : Inv s l) {t : Thread} {old_head : Block} (hhead : s.head = some old_head)
    (hcall : s.inCall t = []) :
    ∃ l', Inv ({ s with head := s.next old_head }.take t [old_head] |>.goto t (.newSize old_head))
      l' := by
  cases l with
  | nil => exact absurd (h.linked.symm.trans hhead) (Option.some_ne_none old_head).symm
  | cons a l =>
    obtain rfl : a = old_head := Option.some.inj (h.linked.1.symm.trans hhead)
    obtain ⟨ha, hnodup⟩ := List.nodup_cons.mp h.nodup
    refine ⟨l, h.take h.linked.2 hnodup (h.partition.toCall hcall ?_ ?_ ?_) rfl
      (fun hpc => nomatch hpc)⟩
    · exact fun b hb => .inl (List.mem_singleton.mp hb ▸ List.mem_cons_self)
    · intro b
      rw [List.mem_singleton, List.mem_cons]
      constructor
      · exact fun hb => ⟨fun heq => ha (heq ▸ hb), .inr hb⟩
      · exact fun hb => hb.2.resolve_left hb.1
    · intro b
      rw [List.mem_singleton]
      constructor
      · exact fun hb => ⟨fun heq => h.not_held List.mem_cons_self (heq ▸ hb), hb⟩
      · exact fun hb => hb.2

/-- The blocks of a call are put in front of the list. -/
theorem push (h : Inv s l) {t : Thread} {head tail : Block} {c : UInt64} {pc : Pc Block}
    (howns : Owns s.next (s.inCall t) (.chainSwap head tail c)) (hhead : s.head = s.next tail)
    (howns' : Owns s.next [] pc) (hnull : pc ≠ .newNext none) :
    ∃ l', Inv ({ s with head := some head }.take t [] |>.goto t pc) l' := by
  obtain ⟨hnodup, l₁, hcall, hseg⟩ := howns
  rw [hcall] at hnodup
  refine ⟨l₁ ++ [tail] ++ l, h.take (hseg.snoc.linked (hhead ▸ h.linked)) ?_
    (h.partition.fromCall .free (fun t' heq => by cases heq) (fun b => ?_) (fun b => ?_))
    howns' hnull⟩
  · refine List.nodup_append.mpr ⟨hnodup, h.nodup, fun b hb b' hb' heq => ?_⟩
    subst heq
    exact h.not_inCall hb' t (hcall ▸ hb)
  · rw [hcall, List.mem_append, eq_self_iff_true, true_and]
  · exact ⟨.inr, fun hb => hb.elim (fun hb => nomatch hb.1) id⟩

/-- The block that was taken off the list goes to the caller. -/
theorem handOut [DecidableEq Block] (h : Inv s l) {t : Thread} {ret : Block}
    (hcall : s.inCall t = [ret]) :
    Inv ({ s.setNext ret none with held := insert ret s.held }.take t [] |>.goto t .idle) l := by
  have hret : ret ∈ s.inCall t := hcall ▸ List.mem_singleton_self ret
  refine h.change t (h.linked.congr (fun b hb => Function.update_of_ne ?_ _ _)) h.nodup
    (h.partition.fromCall .held (fun t' heq => by cases heq) (fun b => ?_) (fun b => ?_))
    (fun t' ht => Function.update_of_ne ht _ _) (fun t' ht => Function.update_of_ne ht _ _)
    (fun t' ht b hb => Function.update_of_ne ?_ _ _) ?_ ?_
  · exact ne_of_mem_of_not_mem hb (fun hl => h.not_inCall hl t hret)
  · exact ⟨.inr, fun hb => hb.elim (fun hb => nomatch hb.1) id⟩
  · show b ∈ insert ret s.held ↔ _
    rw [Finset.mem_insert, hcall, List.mem_singleton, eq_self_iff_true, true_and]
  · exact fun heq => ht (h.inCall_unique hret (heq ▸ hb))
  · show Owns (s.setNext ret none).next (Function.update s.inCall t [] t)
      (Function.update s.pc t .idle t)
    rw [Function.update_self, Function.update_self]
    rfl
  · show Function.update s.pc t .idle t ≠ .newNext none
    rw [Function.update_self]
    exact fun hpc => nomatch hpc

/-- A caller gives blocks that it holds to a call. -/
theorem give [DecidableEq Block] (h : Inv s l) {t : Thread} {blocks : List Block} {pc : Pc Block}
    {held : Finset Block} (hcall : s.inCall t = []) (hblocks : ∀ b ∈ blocks, b ∈ s.held)
    (hheld : ∀ b, b ∈ held ↔ b ∉ blocks ∧ b ∈ s.held) (howns : Owns s.next blocks pc)
    (hnull : pc ≠ .newNext none) :
    Inv ({ s with held := held }.take t blocks |>.goto t pc) l := by
  refine h.take h.linked h.nodup (h.partition.toCall hcall (fun b hb => .inr (hblocks b hb))
    (fun b => ?_) hheld) howns hnull
  exact ⟨fun hb => ⟨fun hmem => h.not_held hb (hblocks b hmem), hb⟩, fun hb => hb.2⟩

end

/-- A new block goes to the callers. -/
theorem allocate [DecidableEq Block] (h : Inv s l) {b : Block} (hb : b ∉ s.allocated) :
    Inv { s.setNext b none with
      allocated := insert b s.allocated, held := insert b s.held } l := by
  have hnowhere : ∀ p, ¬At s.held s.inCall l p b :=
    fun p hp => hb ((h.partition.allocated_iff b).mpr ⟨p, hp⟩)
  have h' := h.setNext_out (hnowhere .free) (fun t => hnowhere (.call t)) none
  refine ⟨h'.linked, h'.nodup, h.partition.move [b] .held (fun x => ?_) (fun p x => ?_),
    h'.calls, h'.nonNull⟩
  · show x ∈ insert b s.allocated ↔ _
    rw [Finset.mem_insert, List.mem_singleton]
  · by_cases hx : x = b
    · subst hx
      cases p with
      | free => simpa [At] using hnowhere .free
      | held => simp [At]
      | call t => simpa [At, State.setNext] using hnowhere (.call t)
    · cases p with
      | free => simp [At, hx]
      | held => simp [At, hx]
      | call t => simp [At, State.setNext, hx]

end Inv

/-! ## Steps -/

theorem inv_init : Inv (init : State Thread Block) [] where
  linked := rfl
  nodup := List.nodup_nil
  partition :=
    { allocated_iff := fun b => by
        refine iff_of_false (Finset.notMem_empty b) ?_
        rintro ⟨p, hp⟩
        cases p with
        | free => exact List.not_mem_nil hp
        | held => exact Finset.notMem_empty b hp
        | call t => exact List.not_mem_nil hp
      unique := fun b p p' hp => by
        cases p with
        | free => exact absurd hp List.not_mem_nil
        | held => exact absurd hp (Finset.notMem_empty b)
        | call t => exact absurd hp List.not_mem_nil }
  calls _ := rfl
  nonNull _ := fun hpc => nomatch hpc

/-- The exchange that a `New` is about to make. -/
def Pc.swap? : Pc Block → Option (Block × Option Block)
  | .newSwap old_head next => some (old_head, next)
  | _ => none

/-- An exchange of a `New` that succeeds puts in the `next` pointer that the head has now, and
    one that fails finds the list not empty. -/
def Steady [DecidableEq Block] (s : State Thread Block) : Action Thread Block → Prop
  | .advance t => ∀ x ∈ (s.pc t).swap?,
      if s.head = some x.1 then s.next x.1 = x.2 else s.head ≠ none
  | .fail t => (s.pc t).swap?.isSome → s.head ≠ none
  | _ => True

section
variable [DecidableEq Thread] [DecidableEq Block] {s s' : State Thread Block} {l : List Block}

instance (s : State Thread Block) (a : Action Thread Block) : Decidable (Steady s a) :=
  match a with
  | .advance t => inferInstanceAs (Decidable (∀ x ∈ (s.pc t).swap?,
      if s.head = some x.1 then s.next x.1 = x.2 else s.head ≠ none))
  | .fail t => inferInstanceAs (Decidable ((s.pc t).swap?.isSome → s.head ≠ none))
  | .callNew _ | .callDelete _ _ | .callDeleteChain _ _ | .setNext _ _ | .allocate _
  | .newAlloc _ _ => isTrue trivial

/-- A failed exchange of a `New` must find a head; one of the other calls need not. -/
theorem inv_refuse (h : Inv s l) {t : Thread} (hswap : (s.pc t).swap?.isSome → s.head ≠ none)
    (hstep : s.refuse t = some s') : Inv s' l := by
  have howns := h.calls t
  unfold State.refuse at hstep
  split at hstep
  · next old_head next hpc =>
    obtain rfl := Option.some.inj hstep
    rw [hpc] at howns hswap
    exact h.goto howns (fun heq => hswap rfl (Pc.newNext.inj heq))
  · next new_head hpc =>
    obtain rfl := Option.some.inj hstep
    rw [hpc] at howns
    refine h.setNext (howns ▸ List.mem_singleton_self new_head) ?_
    rw [hpc]
    exact howns
  · next head tail count hpc =>
    obtain rfl := Option.some.inj hstep
    rw [hpc] at howns
    refine h.setNext howns.tail_mem ?_
    rw [hpc]
    exact howns.update_tail s.head
  · cases hstep

theorem inv_advance (h : Inv s l) {t : Thread} (hok : Steady s (.advance t))
    (hstep : s.advance t = some s') : ∃ l', Inv s' l' := by
  have howns := h.calls t
  have hrefuse : ((s.pc t).swap?.isSome → s.head ≠ none) → s.refuse t = some s' →
      ∃ l', Inv s' l' := fun hswap hstep => ⟨l, inv_refuse h hswap hstep⟩
  unfold State.advance at hstep
  split at hstep
  · cases hstep
  · next hpc =>
    rw [hpc] at howns
    split at hstep
    · obtain rfl := Option.some.inj hstep
      exact ⟨l, h.goto howns (fun heq => nomatch heq)⟩
    · obtain rfl := Option.some.inj hstep
      exact ⟨l, h.goto howns (fun heq => nomatch heq)⟩
  · cases hstep
  · cases hstep
  · next old_head hpc =>
    obtain rfl := Option.some.inj hstep
    rw [hpc] at howns
    exact ⟨l, h.goto howns (fun heq => nomatch heq)⟩
  · next old_head next hpc =>
    rw [hpc] at howns
    have hswap := hok (old_head, next) (by rw [hpc]; rfl)
    split_ifs at hstep hswap with hhead
    · -- What was read of the head is still its own `next`: no other block is skipped.
      obtain rfl := Option.some.inj hstep
      obtain rfl : s.next old_head = next := hswap
      exact h.pop hhead howns
    · exact hrefuse (fun _ => hswap) hstep
  · next ret hpc =>
    obtain rfl := Option.some.inj hstep
    rw [hpc] at howns
    exact ⟨l, (h.with_size _).goto howns (fun heq => nomatch heq)⟩
  · next ret hpc =>
    obtain rfl := Option.some.inj hstep
    rw [hpc] at howns
    exact ⟨l, h.handOut howns⟩
  · next new_head hpc =>
    obtain rfl := Option.some.inj hstep
    rw [hpc] at howns
    have hset : Inv (s.setNext new_head s.head) l := by
      refine h.setNext (howns ▸ List.mem_singleton_self new_head) ?_
      rw [hpc]
      exact howns
    exact ⟨l, hset.goto howns (fun heq => nomatch heq)⟩
  · next new_head hpc =>
    split_ifs at hstep with hhead
    · obtain rfl := Option.some.inj hstep
      rw [hpc] at howns
      -- one block is a chain of its own
      exact h.push (c := 1) ⟨howns ▸ List.nodup_singleton new_head, [], howns, rfl⟩ hhead rfl
        (fun heq => nomatch heq)
    · exact hrefuse (by rw [hpc]; exact fun hnone => nomatch hnone) hstep
  · next hpc =>
    obtain rfl := Option.some.inj hstep
    rw [hpc] at howns
    exact ⟨l, (h.with_size _).goto howns (fun heq => nomatch heq)⟩
  · next head tail count hpc =>
    rw [hpc] at howns
    split at hstep
    · next hnext =>
      obtain rfl := Option.some.inj hstep
      exact ⟨l, h.goto (howns.walked hnext) (fun heq => nomatch heq)⟩
    · next b hnext =>
      obtain rfl := Option.some.inj hstep
      exact ⟨l, h.goto (howns.walk hnext) (fun heq => nomatch heq)⟩
  · next head tail count hpc =>
    obtain rfl := Option.some.inj hstep
    rw [hpc] at howns
    have hchain : Owns s.next (s.inCall t) (.chainSwap head tail count) := howns
    have hset : Inv (s.setNext tail s.head) l := by
      refine h.setNext hchain.tail_mem ?_
      rw [hpc]
      exact hchain.update_tail s.head
    exact ⟨l, hset.goto (hchain.update_tail s.head) (fun heq => nomatch heq)⟩
  · next head tail count hpc =>
    split_ifs at hstep with hhead
    · obtain rfl := Option.some.inj hstep
      rw [hpc] at howns
      exact h.push howns hhead rfl (fun heq => nomatch heq)
    · exact hrefuse (by rw [hpc]; exact fun hnone => nomatch hnone) hstep
  · next count hpc =>
    obtain rfl := Option.some.inj hstep
    rw [hpc] at howns
    exact ⟨l, (h.with_size _).goto howns (fun heq => nomatch heq)⟩

theorem inv_step (h : Inv s l) {a : Action Thread Block} (hok : Steady s a)
    (hstep : step s a = some s') : ∃ l', Inv s' l' := by
  cases a with
  | callNew t =>
    dsimp only [step] at hstep
    split_ifs at hstep with hidle
    obtain rfl := Option.some.inj hstep
    have howns := h.calls t
    rw [hidle] at howns
    exact ⟨l, h.goto howns (fun heq => nomatch heq)⟩
  | callDelete t block =>
    dsimp only [step] at hstep
    split_ifs at hstep with hcall
    obtain rfl := Option.some.inj hstep
    have howns := h.calls t
    rw [hcall.1] at howns
    refine ⟨l, h.give howns (fun b hb => ?_) (fun b => ?_) rfl (fun heq => nomatch heq)⟩
    · rw [List.mem_singleton.mp hb]
      exact hcall.2
    · rw [Finset.mem_erase, List.mem_singleton]
  | callDeleteChain t chain =>
    dsimp only [step] at hstep
    split_ifs at hstep with hcall
    obtain ⟨hidle, hnodup, hheld, hlinked⟩ := hcall
    have howns := h.calls t
    rw [hidle] at howns
    cases chain with
    | nil =>
      obtain rfl := Option.some.inj hstep
      exact ⟨l, h⟩
    | cons head tail =>
      -- The blocks pass from the caller to the call, which starts at the first of them.
      obtain rfl := Option.some.inj hstep
      refine ⟨l, h.give howns hheld (fun b => ?_) ⟨hnodup, [], tail, rfl, rfl, hlinked.2⟩
        (fun heq => nomatch heq)⟩
      rw [Finset.mem_sdiff, List.mem_toFinset, and_comm]
  | setNext block next =>
    dsimp only [step] at hstep
    split_ifs at hstep with hheld
    obtain rfl := Option.some.inj hstep
    exact ⟨l, h.setNext_out (fun hl => h.not_held hl hheld)
      (fun t hcall => h.inCall_not_held hcall hheld) next⟩
  | allocate block =>
    dsimp only [step] at hstep
    split_ifs at hstep with hnew
    obtain rfl := Option.some.inj hstep
    exact ⟨l, h.allocate hnew⟩
  | newAlloc t block =>
    dsimp only [step] at hstep
    split_ifs at hstep with hpc
    have howns := h.calls t
    rw [hpc] at howns
    cases block with
    | none =>
      obtain rfl := Option.some.inj hstep
      exact ⟨l, h.goto howns (fun heq => nomatch heq)⟩
    | some block =>
      dsimp only at hstep
      split_ifs at hstep with hnew
      obtain rfl := Option.some.inj hstep
      exact ⟨l, (h.allocate hnew).goto howns (fun heq => nomatch heq)⟩
  | advance t => exact inv_advance h hok hstep
  | fail t => exact ⟨l, inv_refuse h hok hstep⟩

omit [DecidableEq Block] in
/-- A `next` pointer that is put in for the head but is not the head's own takes blocks off the
    list or puts one on it that somebody has. -/
theorem next_eq_of_inv (h : Inv s l) {t : Thread} {old_head : Block} {next : Option Block}
    (hhead : s.head = some old_head) (hcall : s.inCall t = []) {l' : List Block}
    (h' : Inv ({ s with head := next }.take t [old_head] |>.goto t (.newSize old_head)) l') :
    s.next old_head = next := by
  have htaken : Function.update s.inCall t [old_head] t = [old_head] := Function.update_self _ _ _
  have hother : ∀ t', t' ≠ t → Function.update s.inCall t [old_head] t' = s.inCall t' :=
    fun t' ht => Function.update_of_ne ht _ _
  have hold : old_head ∉ l' := fun hl =>
    h'.not_inCall hl t (show old_head ∈ Function.update s.inCall t [old_head] t by simp)
  cases l with
  | nil => exact absurd (h.linked.symm.trans hhead) (Option.some_ne_none old_head).symm
  | cons a l =>
    obtain rfl : a = old_head := Option.some.inj (h.linked.1.symm.trans hhead)
    refine h.linked.2.eq_of_mem_iff h'.linked (List.nodup_cons.mp h.nodup).2 (fun b => ?_)
    constructor
    · intro hb
      obtain ⟨p, hp⟩ := (h.partition.allocated_iff b).mp
        ((h'.partition.allocated_iff b).mpr ⟨.free, hb⟩)
      cases p with
      | free => exact (List.mem_cons.mp hp).resolve_left (fun heq => hold (heq ▸ hb))
      | held => exact absurd hp (h'.not_held hb)
      | call t' =>
        by_cases ht : t' = t
        · have hp : b ∈ s.inCall t' := hp
          rw [ht, hcall] at hp
          cases hp
        · refine absurd ?_ (h'.not_inCall hb t')
          show b ∈ Function.update s.inCall t [a] t'
          rw [hother t' ht]
          exact hp
    · intro hb
      have hmem : b ∈ a :: l := List.mem_cons_of_mem a hb
      obtain ⟨p, hp⟩ := (h'.partition.allocated_iff b).mp
        ((h.partition.allocated_iff b).mpr ⟨.free, hmem⟩)
      cases p with
      | free => exact hp
      | held => exact absurd hp (h.not_held hmem)
      | call t' =>
        have hp : b ∈ Function.update s.inCall t [a] t' := hp
        by_cases ht : t' = t
        · rw [ht, htaken, List.mem_singleton] at hp
          exact absurd (hp ▸ hb) (List.nodup_cons.mp h.nodup).1
        · exact absurd (hother t' ht ▸ hp) (h.not_inCall hmem t')

/-- A step that leaves every block in one place, and no null head to follow, is such a step. -/
theorem steady_of_inv (h : Inv s l) {a : Action Thread Block} (hstep : step s a = some s')
    {l' : List Block} (h' : Inv s' l') : Steady s a := by
  have hrefuse : ∀ t, (s.pc t).swap?.isSome → s.refuse t = some s' → s.head ≠ none := by
    intro t hswap hstep hnone
    unfold State.refuse at hstep
    split at hstep
    · obtain rfl := Option.some.inj hstep
      refine h'.nonNull t ?_
      rw [hnone]
      exact Function.update_self _ _ _
    · next hpc =>
      rw [hpc] at hswap
      cases hswap
    · next hpc =>
      rw [hpc] at hswap
      cases hswap
    · cases hstep
  cases a with
  | advance t =>
    intro x hx
    have howns := h.calls t
    unfold Pc.swap? at hx
    split at hx
    · next old_head next hpc =>
      obtain rfl := Option.some.inj hx
      rw [hpc] at howns
      dsimp only [step, State.advance] at hstep
      rw [hpc] at hstep
      dsimp only at hstep ⊢
      split_ifs at hstep ⊢ with hhead
      · obtain rfl := Option.some.inj hstep
        exact next_eq_of_inv h hhead howns h'
      · exact hrefuse t (by rw [hpc]; rfl) hstep
    · cases hx
  | fail t => exact fun hswap => hrefuse t hswap hstep
  | _ => trivial

/-- In a run of such steps every block stays in one place. -/
theorem Reachable.inv {s : State Thread Block} (h : Reachable Steady s) : ∃ l, Inv s l := by
  induction h with
  | init => exact ⟨[], inv_init⟩
  | step hs hok hstep ih =>
    obtain ⟨l, hinv⟩ := ih
    exact inv_step hinv hok hstep

/-- Every state that such steps lead to is safe, with any number of threads. -/
theorem safe_of_steady {s : State Thread Block} (h : Reachable Steady s) : Safe s := by
  obtain ⟨l, hinv⟩ := h.inv
  exact hinv.safe

end

/-! ## Runs of two threads -/

namespace Sample

/-- Thread 0 allocates two blocks and gives them back, so that 0 is in front of 1. -/
def filled : List (Action (Fin 2) Nat) :=
  [.allocate 0, .allocate 1, .callDelete 0 1, .advance 0, .advance 0, .advance 0,
    .callDelete 0 0, .advance 0, .advance 0, .advance 0]

/-- A `New` that finds a block and is not interrupted. -/
def new (t : Fin 2) : List (Action (Fin 2) Nat) :=
  [.callNew t, .advance t, .advance t, .advance t, .advance t, .advance t]

def delete (t : Fin 2) (block : Nat) : List (Action (Fin 2) Nat) :=
  [.callDelete t block, .advance t, .advance t, .advance t]

/-- Thread 1 has read block 0 and its `next` pointer. -/
def read : List (Action (Fin 2) Nat) := filled ++ [.callNew 1, .advance 1, .advance 1]

/-- Both blocks are taken before the exchange, which fails. -/
def emptied : List (Action (Fin 2) Nat) := read ++ new 0 ++ new 0 ++ [.advance 1]

/-- Both blocks are taken and 0 is given back before the exchange; thread 1 then takes another
    block. -/
def returned : List (Action (Fin 2) Nat) :=
  read ++ new 0 ++ new 0 ++ delete 0 0 ++ [.advance 1, .advance 1, .advance 1] ++ (new 1).take 4

/-- Block 0 is taken and given back on top of a third block. -/
def buried : List (Action (Fin 2) Nat) :=
  read ++ new 0 ++ [.allocate 2] ++ delete 0 2 ++ delete 0 0 ++ [.advance 1]

/-- Block 0 is taken before the exchange, which fails and is tried again. -/
def contended : List (Action (Fin 2) Nat) :=
  read ++ new 0 ++ [.advance 1, .advance 1, .fail 1, .advance 1, .advance 1]

end Sample

section
open Sample

/-- A `New` that had to try again takes the block that is left. -/
theorem safe_contended :
    ∃ s : State (Fin 2) Nat, Reachable Steady s ∧ s.inCall 1 = [1] ∧ 0 ∈ s.held ∧ Safe s := by
  have hrun : (run Steady init contended).map
      (fun s : State (Fin 2) Nat => (s.inCall 1, decide (0 ∈ s.held))) = some ([1], true) := by
    decide +kernel
  obtain ⟨s, hs, heq⟩ := Option.map_eq_some_iff.mp hrun
  obtain ⟨hcall, hheld⟩ := Prod.mk.inj heq
  have hreach : Reachable Steady s := Reachable.init.run hs
  exact ⟨s, hreach, hcall, of_decide_eq_true hheld, safe_of_steady hreach⟩

/-- A block is handed out that its holder has not given back, a block that was given back is
    lost, and a null head is followed. -/
theorem not_safe :
    (¬ ∀ s : State (Fin 2) Nat, Reachable (fun _ _ => True) s → Exclusive s) ∧
      (¬ ∀ s : State (Fin 2) Nat, Reachable (fun _ _ => True) s → Kept s) ∧
      ¬ ∀ s : State (Fin 2) Nat, Reachable (fun _ _ => True) s → NonNull s := by
  refine ⟨fun h => ?_, fun h => ?_, fun h => ?_⟩
  · have hrun : (run (fun _ _ => True) init returned).map
        (fun s : State (Fin 2) Nat => (s.inCall 1, decide (1 ∈ s.held))) = some ([1], true) := by
      decide +kernel
    obtain ⟨s, hs, heq⟩ := Option.map_eq_some_iff.mp hrun
    obtain ⟨hcall, hheld⟩ := Prod.mk.inj heq
    exact (h s (Reachable.init.run hs) 1 1 (hcall ▸ List.mem_singleton_self 1)).1
      (of_decide_eq_true hheld)
  · have hrun : (run (fun _ _ => True) init buried).map
        (fun s : State (Fin 2) Nat => (s.head, s.next 1, decide (2 ∈ s.allocated),
          decide (2 ∉ s.held ∧ ∀ t, 2 ∉ s.inCall t))) = some (some 1, none, true, true) := by
      decide +kernel
    obtain ⟨s, hs, heq⟩ := Option.map_eq_some_iff.mp hrun
    simp only [Prod.mk.injEq, decide_eq_true_eq] at heq
    obtain ⟨hhead, hnext, hallocated, hheld, hcall⟩ := heq
    rcases h s (Reachable.init.run hs) 2 hallocated with ⟨l, hseg⟩ | hmem | ⟨t, hmem⟩
    · rw [hhead] at hseg
      cases l with
      | nil => cases hseg
      | cons a l =>
        obtain rfl : a = 1 := (Option.some.inj hseg.1).symm
        have hrest : Segment s.next none l (some 2) := hnext ▸ hseg.2
        cases l with
        | nil => cases hrest
        | cons b l => cases hrest.1
    · exact hheld hmem
    · exact hcall t hmem
  · have hrun : (run (fun _ _ => True) init emptied).map (fun s : State (Fin 2) Nat => s.pc 1) =
        some (.newNext none) := by
      decide +kernel
    obtain ⟨s, hs, hpc⟩ := Option.map_eq_some_iff.mp hrun
    exact h s (Reachable.init.run hs) 1 hpc

end

end Proxy.Freelist
