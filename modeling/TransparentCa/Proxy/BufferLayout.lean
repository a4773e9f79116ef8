import TransparentCa.Lib.LinkedList
import TransparentCa.Proxy.Buffer

/- Where the bytes of a buffer are. A cell (`Addr × Nat`) is a block and an index into its
   `buf`; a list of ranges is a list of cells. `Rep b front rear` says how the pointers and
   headers lay out the blocks: `front` are the full blocks before `end_`, `rear` is `end_`
   and what follows it. The space begins at the first block that is not full
   (`Rep.stepper`), and one step of the stepper is one block further, or a new block
   (`next_spec`). -/
namespace Proxy
open LinkedList

abbrev Cell := Addr × Nat

def SysBuf.cells (r : SysBuf) : List Cell := (List.range' r.start r.len).map (fun i => (r.block, i))

/-- The cells of a list of ranges, in order. -/
def cells (rs : List SysBuf) : List Cell := rs.flatMap SysBuf.cells

/-- The bytes in a list of ranges. -/
def gather (h : Heap) (rs : List SysBuf) : List UInt8 :=
  (cells rs).map (fun c => h.bytes c.1 c.2)

@[simp] theorem cells_nil : cells [] = [] := rfl
@[simp] theorem cells_cons (r : SysBuf) (rs : List SysBuf) :
    cells (r :: rs) = r.cells ++ cells rs := rfl
@[simp] theorem cells_append (rs rs' : List SysBuf) :
    cells (rs ++ rs') = cells rs ++ cells rs' :=
  List.flatMap_append
@[simp] theorem length_sysBuf_cells (r : SysBuf) : r.cells.length = r.len := by
  simp [SysBuf.cells]

theorem cells_eq_nil {r : SysBuf} (h : r.len = 0) : r.cells = [] := by
  rw [← List.length_eq_zero_iff, length_sysBuf_cells, h]

theorem take_sysBuf_cells (r : SysBuf) {n : Nat} (h : n ≤ r.len) :
    r.cells.take n = SysBuf.cells ⟨r.block, r.start, n⟩ := by
  unfold SysBuf.cells
  rw [← List.map_take, List.take_range'_of_length_ge h]

/-- The first `n` cells begin with as many of the first range as there are. -/
theorem take_cells_append {r : SysBuf} {n len : Nat} (rest : List Cell) (hn : len ≤ n)
    (hr : len ≤ r.len) (hlen : len = n ∨ len = r.len) :
    (r.cells ++ rest).take n = SysBuf.cells ⟨r.block, r.start, len⟩ ++ rest.take (n - len) := by
  rw [List.take_append, length_sysBuf_cells]
  rcases hlen with rfl | rfl
  · have hzero : len - r.len = 0 := by omega
    rw [take_sysBuf_cells r hr, hzero, Nat.sub_self]
  · rw [List.take_of_length_le (by simpa using hn)]

theorem drop_sysBuf_cells (r : SysBuf) (n : Nat) :
    r.cells.drop n = SysBuf.cells ⟨r.block, r.start + n, r.len - n⟩ := by
  unfold SysBuf.cells
  rw [← List.map_drop, List.drop_range']
  simp

namespace Heap

/-- The heap will not hand out the blocks `l`. -/
structure Owns (h : Heap) (l : List Addr) : Prop where
  fresh : ∀ a ∈ l, a < h.fresh
  free_fresh : ∀ a ∈ h.free, a < h.fresh
  free_disjoint : ∀ a ∈ h.free, a ∉ l
  free_nodup : h.free.Nodup

/-- A block is given out that nobody has, and its header is a new one. -/
theorem Owns.new {blockSize : Nat} {h : Heap} {l : List Addr} (halign : ValidAlignment blockSize)
    (hl : h.Owns l) :
    ∃ a h', h.new blockSize = (some a, h') ∧ a ∉ l ∧ h'.Owns (l ++ [a]) ∧
      h'.block = Function.update h.block a Block.init ∧ h'.bytes = h.bytes := by
  unfold Heap.new
  cases hfree : h.free with
  | nil =>
    have hfresh : h.fresh ∉ l := fun hmem => Nat.lt_irrefl _ (hl.fresh _ hmem)
    refine ⟨h.fresh, _, if_pos halign, hfresh, ⟨?_, ?_, ?_, ?_⟩, rfl, rfl⟩
    · intro a ha
      rcases List.mem_append.mp ha with ha | ha
      · exact Nat.lt_succ_of_lt (hl.fresh a ha)
      · rw [List.mem_singleton.mp ha]
        exact Nat.lt_succ_self _
    · intro a ha
      exact Nat.lt_succ_of_lt (hl.free_fresh a ha)
    · intro a ha
      rw [show h.free = [] from hfree] at ha
      exact absurd ha List.not_mem_nil
    · exact hl.free_nodup
  | cons x free =>
    have hnodup := hl.free_nodup
    rw [hfree, List.nodup_cons] at hnodup
    have hx : x ∈ h.free := by rw [hfree]; exact List.mem_cons_self
    refine ⟨x, _, rfl, hl.free_disjoint x hx, ⟨?_, ?_, ?_, hnodup.2⟩, rfl, rfl⟩
    · intro a ha
      rcases List.mem_append.mp ha with ha | ha
      · exact hl.fresh a ha
      · rw [List.mem_singleton.mp ha]
        exact hl.free_fresh x hx
    · intro a ha
      exact hl.free_fresh a (by rw [hfree]; exact List.mem_cons_of_mem x ha)
    · intro a ha hmem
      rcases List.mem_append.mp hmem with hmem | hmem
      · exact hl.free_disjoint a (by rw [hfree]; exact List.mem_cons_of_mem x ha) hmem
      · rw [List.mem_singleton.mp hmem] at ha
        exact hnodup.1 ha

/-- Without a free block and without an alignment there is no block. -/
theorem new_eq_none {blockSize : Nat} {h : Heap} (halign : ¬ValidAlignment blockSize)
    (hfree : h.free = []) : h.new blockSize = (none, h) := by
  unfold Heap.new
  rw [hfree]
  exact if_neg halign

theorem Owns.setBlock {h : Heap} {l : List Addr} (hl : h.Owns l) (a : Addr) (x : Block) :
    (h.setBlock a x).Owns l :=
  ⟨hl.fresh, hl.free_fresh, hl.free_disjoint, hl.free_nodup⟩

theorem Owns.delete {h : Heap} {a : Addr} {l : List Addr} (hl : h.Owns (a :: l))
    (hnodup : (a :: l).Nodup) : (h.delete a).Owns l := by
  rw [List.nodup_cons] at hnodup
  refine ⟨fun x hx => hl.fresh x (List.mem_cons_of_mem a hx), ?_, ?_, ?_⟩
  · intro x hx
    rcases List.mem_cons.mp hx with rfl | hx
    · exact hl.fresh x List.mem_cons_self
    · exact hl.free_fresh x hx
  · intro x hx
    rcases List.mem_cons.mp hx with rfl | hx
    · exact hnodup.1
    · exact fun hmem => hl.free_disjoint x hx (List.mem_cons_of_mem a hmem)
  · refine List.nodup_cons.mpr ⟨fun hmem => ?_, hl.free_nodup⟩
    exact hl.free_disjoint a hmem List.mem_cons_self

end Heap

namespace BasicBuffer

variable {blockSize : Nat}

def dataBuf (b : BasicBuffer blockSize) (a : Addr) : SysBuf :=
  ⟨a, (b.block a).offset, (b.block a).len⟩

def spaceBuf (b : BasicBuffer blockSize) (a : Addr) : SysBuf :=
  ⟨a, (b.block a).spaceHead, (b.block a).spaceLen blockSize⟩

/-- The data cells of the blocks `l`. -/
def dataCells (b : BasicBuffer blockSize) (l : List Addr) : List Cell := cells (l.map b.dataBuf)

/-- The space cells of the blocks `l`. -/
def spaceCells (b : BasicBuffer blockSize) (l : List Addr) : List Cell := cells (l.map b.spaceBuf)

/-- A block that lies wholly in the data: no space is left behind its data. -/
def Full (b : BasicBuffer blockSize) (a : Addr) : Prop :=
  (b.block a).offset + (b.block a).len = Block.capacity blockSize ∧ 0 < (b.block a).len

/-- How the blocks of the buffer lie: full ones, then `end_`, then empty ones; only the
first may have been drained in part. -/
structure Rep (b : BasicBuffer blockSize) (front rear : List Addr) : Prop where
  linked : Linked (fun a => (b.block a).next) b.head_ (front ++ rear)
  nodup : (front ++ rear).Nodup
  count : b.block_cnt_ = (front ++ rear).length
  end_eq : b.end_ = rear.head?
  tail_eq : rear ≠ [] → b.tail_ = rear.getLast?
  front_nil : rear = [] → front = []
  offset : ∀ a ∈ (front ++ rear).tail, (b.block a).offset = 0
  full : ∀ a ∈ front, b.Full a
  bounded : ∀ e ∈ rear.head?, (b.block e).offset + (b.block e).len ≤ Block.capacity blockSize
  last : ∀ e ∈ rear.head?, 0 < (b.block e).len ∨
    (front = [] ∧ (b.block e).offset < Block.capacity blockSize)
  empty : ∀ a ∈ rear.tail, (b.block a).len = 0
  owns : b.heap.Owns (front ++ rear)

theorem dataCells_append (b : BasicBuffer blockSize) (l l' : List Addr) :
    b.dataCells (l ++ l') = b.dataCells l ++ b.dataCells l' := by
  simp [dataCells]

theorem spaceCells_append (b : BasicBuffer blockSize) (l l' : List Addr) :
    b.spaceCells (l ++ l') = b.spaceCells l ++ b.spaceCells l' := by
  simp [spaceCells]

theorem dataCells_cons (b : BasicBuffer blockSize) (a : Addr) (l : List Addr) :
    b.dataCells (a :: l) = (b.dataBuf a).cells ++ b.dataCells l := rfl

theorem spaceCells_cons (b : BasicBuffer blockSize) (a : Addr) (l : List Addr) :
    b.spaceCells (a :: l) = (b.spaceBuf a).cells ++ b.spaceCells l := rfl

/-- Two buffers that place data and space alike in the blocks `l`. -/
def SamePlace (b b' : BasicBuffer blockSize) (l : List Addr) : Prop :=
  ∀ a ∈ l, (b'.block a).offset = (b.block a).offset ∧ (b'.block a).len = (b.block a).len

theorem SamePlace.refl (b : BasicBuffer blockSize) (l : List Addr) : SamePlace b b l :=
  fun _ _ => ⟨rfl, rfl⟩

theorem SamePlace.trans {b b' b'' : BasicBuffer blockSize} {l : List Addr}
    (h : SamePlace b b' l) (h' : SamePlace b' b'' l) : SamePlace b b'' l :=
  fun a ha => ⟨(h' a ha).1.trans (h a ha).1, (h' a ha).2.trans (h a ha).2⟩

theorem SamePlace.mono {b b' : BasicBuffer blockSize} {l l' : List Addr}
    (h : SamePlace b b' l) (hl : ∀ a ∈ l', a ∈ l) : SamePlace b b' l' :=
  fun a ha => h a (hl a ha)

theorem SamePlace.dataCells {b b' : BasicBuffer blockSize} {l : List Addr}
    (h : SamePlace b b' l) : b'.dataCells l = b.dataCells l := by
  unfold BasicBuffer.dataCells
  congr 1
  apply List.map_congr_left
  intro a ha
  simp only [dataBuf, (h a ha).1, (h a ha).2]

theorem SamePlace.spaceCells {b b' : BasicBuffer blockSize} {l : List Addr}
    (h : SamePlace b b' l) : b'.spaceCells l = b.spaceCells l := by
  unfold BasicBuffer.spaceCells
  congr 1
  apply List.map_congr_left
  intro a ha
  simp only [spaceBuf, Block.spaceHead, Block.spaceLen, (h a ha).1, (h a ha).2]

theorem dataCells_eq_nil {b : BasicBuffer blockSize} {l : List Addr}
    (h : ∀ a ∈ l, (b.block a).len = 0) : b.dataCells l = [] := by
  induction l with
  | nil => rfl
  | cons a l ih =>
    rw [dataCells_cons, ih (fun x hx => h x (List.mem_cons_of_mem a hx)), cells_eq_nil]
    · rfl
    · exact h a List.mem_cons_self

theorem spaceCells_eq_nil {b : BasicBuffer blockSize} {l : List Addr}
    (h : ∀ a ∈ l, (b.block a).spaceLen blockSize = 0) : b.spaceCells l = [] := by
  induction l with
  | nil => rfl
  | cons a l ih =>
    rw [spaceCells_cons, ih (fun x hx => h x (List.mem_cons_of_mem a hx)), cells_eq_nil]
    · rfl
    · exact h a List.mem_cons_self

theorem Full.spaceLen_eq {b : BasicBuffer blockSize} {a : Addr} (h : b.Full a) :
    (b.block a).spaceLen blockSize = 0 := by
  unfold Block.spaceLen
  have hsum := h.1
  omega

/-! ## Stepping to the space -/

namespace Rep

variable {b : BasicBuffer blockSize} {front rear : List Addr}

/-- The stepper starts at the first block with space: everything before it is full, and
everything behind it is empty. -/
theorem stepper (h : b.Rep front rear) (hcap : 0 < Block.capacity blockSize) :
    ∃ done rest, front ++ rear = done ++ rest ∧ b.spaceStepper = rest.head? ∧
      (∀ a ∈ done, b.Full a) ∧ (∀ a ∈ rest, 0 < (b.block a).spaceLen blockSize) ∧
      (∀ a ∈ rest.tail, (b.block a).len = 0) := by
  have hempty : ∀ a ∈ rear.tail, 0 < (b.block a).spaceLen blockSize := by
    intro a ha
    have hoffset : (b.block a).offset = 0 := by
      apply h.offset
      cases front with
      | nil => exact ha
      | cons x front => exact List.mem_append_right _ (List.mem_of_mem_tail ha)
    unfold Block.spaceLen
    rw [hoffset, h.empty a ha]
    omega
  unfold spaceStepper
  rw [h.end_eq]
  cases rear with
  | nil =>
    refine ⟨[], [], ?_, rfl, ?_, ?_, ?_⟩
    · rw [h.front_nil rfl]
    all_goals exact fun a ha => absurd ha List.not_mem_nil
  | cons e rear =>
    have hbound := h.bounded e rfl
    have hlast := h.last e rfl
    simp only [List.head?_cons]
    by_cases hspace : (b.block e).spaceLen blockSize = 0
    · rw [if_pos hspace]
      refine ⟨front ++ [e], rear, by simp, h.linked.next_eq, ?_, hempty, ?_⟩
      · intro a ha
        rcases List.mem_append.mp ha with ha | ha
        · exact h.full a ha
        · rw [List.mem_singleton] at ha
          subst ha
          unfold Block.spaceLen at hspace
          refine ⟨by omega, ?_⟩
          rcases hlast with hlast | ⟨-, hlast⟩ <;> omega
      · exact fun a ha => h.empty a (List.mem_of_mem_tail ha)
    · rw [if_neg hspace]
      refine ⟨front, e :: rear, rfl, rfl, h.full, ?_, h.empty⟩
      intro a ha
      rcases List.mem_cons.mp ha with rfl | ha
      · omega
      · exact hempty a ha

end Rep

/-- What `Reserve` may do to a buffer with the blocks `l`: link more blocks in behind them. -/
structure Grown (b b' : BasicBuffer blockSize) (l : List Addr) : Prop where
  place : SamePlace b b' l
  bytes : b'.heap.bytes = b.heap.bytes
  data_size : b'.data_size_ = b.data_size_
  reserved : b'.reserved_ = b.reserved_
  peeked : b'.peeked_ = b.peeked_

theorem Grown.refl (b : BasicBuffer blockSize) (l : List Addr) : Grown b b l :=
  ⟨.refl b l, rfl, rfl, rfl, rfl⟩

theorem Grown.trans {b b' b'' : BasicBuffer blockSize} {l more : List Addr} (h : Grown b b' l)
    (h' : Grown b' b'' (l ++ more)) : Grown b b'' l where
  place := h.place.trans (h'.place.mono (fun _ ha => List.mem_append_left _ ha))
  bytes := h'.bytes.trans h.bytes
  data_size := h'.data_size.trans h.data_size
  reserved := h'.reserved.trans h.reserved
  peeked := h'.peeked.trans h.peeked

/-- A new block `a` stands behind the blocks `l`, where data and space lie as before. -/
structure LinkedIn (b b' : BasicBuffer blockSize) (l : List Addr) (a : Addr) : Prop where
  fresh : a ∉ l
  init : b'.block a = Block.init
  place : SamePlace b b' l
  linked : Linked (fun x => (b'.block x).next) b'.head_ (l ++ [a])
  end_eq : b'.end_ = b.end_
  tail_eq : b'.tail_ = some a
  count : b'.block_cnt_ = b.block_cnt_ + 1
  owns : b'.heap.Owns (l ++ [a])

theorem Rep.linkedIn {b b' : BasicBuffer blockSize} {front rear : List Addr} {a : Addr}
    (h : b.Rep front rear) (hrear : rear ≠ []) (hin : LinkedIn b b' (front ++ rear) a) :
    b'.Rep front (rear ++ [a]) := by
  have hwhole : front ++ (rear ++ [a]) = front ++ rear ++ [a] := (List.append_assoc front rear [a]).symm
  have hhead : (rear ++ [a]).head? = rear.head? := List.head?_append_of_ne_nil _ hrear
  exact
    { linked := hwhole ▸ hin.linked
      nodup := by
        rw [hwhole]
        exact List.nodup_append.mpr ⟨h.nodup, List.nodup_singleton a, by
          intro y hy z hz heq
          rw [List.mem_singleton] at hz
          exact hin.fresh (hz ▸ heq ▸ hy)⟩
      count := by rw [hwhole, List.length_append, ← h.count, hin.count, List.length_singleton]
      end_eq := by rw [hhead, ← h.end_eq, hin.end_eq]
      tail_eq := fun _ => by rw [List.getLast?_concat, hin.tail_eq]
      front_nil := fun hnil => absurd hnil (List.append_ne_nil_of_right_ne_nil _ (by simp))
      offset := by
        intro y hy
        have hne : front ++ rear ≠ [] := List.append_ne_nil_of_right_ne_nil front hrear
        rw [hwhole, List.tail_append_of_ne_nil hne] at hy
        rcases List.mem_append.mp hy with hy | hy
        · rw [(hin.place y (List.mem_of_mem_tail hy)).1]
          exact h.offset y hy
        · rw [List.mem_singleton.mp hy, hin.init]
          rfl
      full := by
        intro y hy
        have hplace := hin.place y (List.mem_append_left _ hy)
        unfold Full
        rw [hplace.1, hplace.2]
        exact h.full y hy
      bounded := by
        intro e he
        rw [hhead] at he
        have hplace := hin.place e (List.mem_append_right _ (List.mem_of_head? he))
        rw [hplace.1, hplace.2]
        exact h.bounded e he
      last := by
        intro e he
        rw [hhead] at he
        have hplace := hin.place e (List.mem_append_right _ (List.mem_of_head? he))
        rw [hplace.1, hplace.2]
        exact h.last e he
      empty := by
        intro y hy
        rw [List.tail_append_of_ne_nil hrear] at hy
        rcases List.mem_append.mp hy with hy | hy
        · rw [(hin.place y (List.mem_append_right _ (List.mem_of_mem_tail hy))).2]
          exact h.empty y hy
        · rw [List.mem_singleton.mp hy, hin.init]
          rfl
      owns := hwhole ▸ hin.owns }

/-- The only block of a buffer. -/
theorem Rep.first {b' : BasicBuffer blockSize} {a : Addr} (hcap : 0 < Block.capacity blockSize)
    (hinit : b'.block a = Block.init) (hhead : b'.head_ = some a) (hend : b'.end_ = some a)
    (htail : b'.tail_ = some a) (hcount : b'.block_cnt_ = 1) (howns : b'.heap.Owns [a]) :
    b'.Rep [] [a] where
  linked := ⟨hhead, congrArg Block.next hinit⟩
  nodup := List.nodup_singleton _
  count := hcount
  end_eq := hend
  tail_eq _ := htail
  front_nil hnil := by cases hnil
  offset _ hx := absurd hx List.not_mem_nil
  full _ hx := absurd hx List.not_mem_nil
  bounded := by
    intro e he
    obtain rfl := Option.some.inj he
    rw [hinit]
    exact Nat.zero_le _
  last := by
    intro e he
    obtain rfl := Option.some.inj he
    refine .inr ⟨rfl, ?_⟩
    rw [hinit]
    exact hcap
  empty _ hx := absurd hx List.not_mem_nil
  owns := howns

/-- The block that is linked in behind the others. -/
theorem appendNewBlock_spec {b : BasicBuffer blockSize} {front rear : List Addr}
    (h : b.Rep front rear) (hcap : 0 < Block.capacity blockSize)
    (halign : ValidAlignment blockSize) :
    ∃ a b', b.appendNewBlock 1 = some b' ∧ b'.tail_ = some a ∧ b'.block a = Block.init ∧
      b'.Rep front (rear ++ [a]) ∧ Grown b b' (front ++ rear) := by
  obtain ⟨a, heap, heq, hnew, howns, hblock, hbytes⟩ := h.owns.new halign
  unfold appendNewBlock
  cases hhead : b.head_ with
  | none =>
    have hnil : front ++ rear = [] := by
      rw [← List.head?_eq_none_iff, ← h.linked.head]
      exact hhead
    obtain ⟨rfl, rfl⟩ := List.append_eq_nil_iff.mp hnil
    have ha : heap.block a = Block.init := by
      rw [hblock, Function.update_self]
    simp only [heq]
    refine ⟨a, _, rfl, rfl, ha, ?_, fun x hx => absurd hx List.not_mem_nil, hbytes, rfl, rfl, rfl⟩
    exact .first hcap ha rfl rfl rfl (congrArg (· + 1) h.count) howns
  | some x =>
    have hrear : rear ≠ [] := by
      intro hnil
      have hhead' := h.linked.head
      rw [hnil, h.front_nil hnil, hhead] at hhead'
      cases hhead'
    obtain ⟨rear', t, rfl⟩ : ∃ rear' t, rear = rear' ++ [t] :=
      ⟨rear.dropLast, rear.getLast hrear, (List.dropLast_append_getLast hrear).symm⟩
    have htail : b.tail_ = some t := by
      rw [h.tail_eq hrear, List.getLast?_concat]
    have ht : t ∈ front ++ (rear' ++ [t]) := by simp
    have hne : a ≠ t := fun heq => hnew (heq ▸ ht)
    simp only [appendBlocks, htail, heq]
    generalize hb' : ({ b with
      heap := heap.setBlock t { heap.block t with next := some a }
      tail_ := some a
      block_cnt_ := b.block_cnt_ + 1 } : BasicBuffer blockSize) = b'
    -- Of the old blocks only the last one has changed, and there only `next`.
    have hlast : b'.block t = { b.block t with next := some a } := by
      subst hb'
      simp [BasicBuffer.block, Heap.setBlock, hblock, Function.update_of_ne hne.symm]
    have hother : ∀ y, y ≠ t → y ≠ a → b'.block y = b.block y := by
      intro y hyt hya
      subst hb'
      simp [BasicBuffer.block, Heap.setBlock, hblock, Function.update_of_ne hyt,
        Function.update_of_ne hya]
    have hinit : b'.block a = Block.init := by
      subst hb'
      simp [BasicBuffer.block, Heap.setBlock, hblock, Function.update_of_ne hne]
    have hplace : SamePlace b b' (front ++ (rear' ++ [t])) := by
      intro y hy
      by_cases hyt : y = t
      · subst hyt
        rw [hlast]
        exact ⟨rfl, rfl⟩
      · rw [hother y hyt (fun heq => hnew (heq ▸ hy))]
        exact ⟨rfl, rfl⟩
    have hlinked : Linked (fun y => (b'.block y).next) b.head_ (front ++ (rear' ++ [t]) ++ [a]) := by
      have hold := h.linked
      have hnodup := h.nodup
      rw [← List.append_assoc] at hold hnodup ⊢
      refine hold.snoc (fun y hy => ?_) (by rw [hlast]) (by rw [hinit]; rfl)
      have hyt : y ≠ t := fun heq => by
        rw [List.nodup_append] at hnodup
        exact hnodup.2.2 y hy t (List.mem_singleton_self t) heq
      rw [hother y hyt (fun heq => hnew (heq ▸ by simp at hy ⊢; tauto))]
    have hin : LinkedIn b b' (front ++ (rear' ++ [t])) a :=
      { fresh := hnew
        init := hinit
        place := hplace
        linked := by subst hb'; exact hlinked
        end_eq := by subst hb'; rfl
        tail_eq := by subst hb'; rfl
        count := by subst hb'; rfl
        owns := by subst hb'; exact howns.setBlock t _ }
    exact ⟨a, b', rfl, hin.tail_eq, hinit, h.linkedIn hrear hin, hplace, by subst hb'; exact hbytes,
      by subst hb'; rfl, by subst hb'; rfl, by subst hb'; rfl⟩

/-- One step of the stepper: to the first of the blocks `rest` ahead of it, or to a new
block when there is none. -/
theorem next_spec {b : BasicBuffer blockSize} {front rear done rest : List Addr}
    (h : b.Rep front rear) (hcap : 0 < Block.capacity blockSize)
    (halign : ValidAlignment blockSize) (hchain : front ++ rear = done ++ rest)
    (hroom : ∀ a ∈ rest, 0 < (b.block a).spaceLen blockSize) :
    ∃ a rest' more b', b.next rest.head? = some (a, rest'.head?, b') ∧ rest ++ more = a :: rest' ∧
      b'.Rep front (rear ++ more) ∧ Grown b b' (front ++ rear) ∧
      (∀ x ∈ a :: rest', 0 < (b'.block x).spaceLen blockSize) ∧
      ∀ x ∈ more, (b'.block x).len = 0 := by
  cases rest with
  | cons a rest =>
    have hnext : (b.block a).next = rest.head? := by
      have hlinked := h.linked
      rw [hchain] at hlinked
      exact hlinked.next_eq
    refine ⟨a, rest, [], b, ?_, by simp, ?_, .refl b _, hroom,
      fun x hx => absurd hx List.not_mem_nil⟩
    · simp only [List.head?_cons, next, hnext]
    · rwa [List.append_nil]
  | nil =>
    obtain ⟨a, b', happend, htail, hinit, hrep, hgrown⟩ := appendNewBlock_spec h hcap halign
    refine ⟨a, [], [a], b', ?_, rfl, hrep, hgrown, ?_, ?_⟩
    · simp only [List.head?_nil, next, happend, htail, hinit, Option.bind_eq_bind,
        Option.bind_some]
      rfl
    · intro x hx
      rw [List.mem_singleton.mp hx, hinit]
      unfold Block.spaceLen Block.init
      omega
    · intro x hx
      rw [List.mem_singleton.mp hx, hinit]
      rfl

end BasicBuffer
end Proxy
