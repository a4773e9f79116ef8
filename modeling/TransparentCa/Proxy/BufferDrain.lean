import TransparentCa.Proxy.BufferReserve

/- What the loop of `Drain` does to the cells: the first data cells are gone, and the blocks
   that held only them. When the last data goes with its block, `end_` is left pointing at a
   freed block until it is set to the head. -/
namespace Proxy
open LinkedList

namespace BasicBuffer

variable {blockSize : Nat}

/-- A block after `k` of its bytes were drained. -/
def drainedBlock (x : Block) (k : Nat) : Block :=
  { x with offset := x.offset + k, len := x.len - k }

/-- The buffer once its first block `h` has been drained and given back. -/
def pruned (b : BasicBuffer blockSize) (h : Addr) (x : Block) : BasicBuffer blockSize :=
  { b.setBlock h x with
    heap := (b.setBlock h x).heap.delete h
    block_cnt_ := b.block_cnt_ - 1
    head_ := x.next }

theorem pruned_block_of_ne (b : BasicBuffer blockSize) {h y : Addr} (x : Block) (hy : y ≠ h) :
    (b.pruned h x).block y = b.block y := by
  show Function.update (Function.update b.heap.block h x) h _ y = b.heap.block y
  rw [Function.update_of_ne hy, Function.update_of_ne hy]

theorem pruned_place {b : BasicBuffer blockSize} {h : Addr} {tl : List Addr} (x : Block)
    (hh : h ∉ tl) : SamePlace b (b.pruned h x) tl := by
  intro y hy
  rw [pruned_block_of_ne b x (ne_of_mem_of_not_mem hy hh)]
  exact ⟨rfl, rfl⟩

theorem pruned_linked {b : BasicBuffer blockSize} {h : Addr} {tl : List Addr} {x : Block}
    (hlinked : Linked (fun y => (b.block y).next) b.head_ (h :: tl)) (hh : h ∉ tl)
    (hx : x.next = (b.block h).next) :
    Linked (fun y => ((b.pruned h x).block y).next) (b.pruned h x).head_ tl := by
  show Linked _ x.next tl
  rw [hx]
  apply hlinked.2.congr
  intro y hy
  rw [pruned_block_of_ne b x (ne_of_mem_of_not_mem hy hh)]

/-- The first block goes, and is not the last one with data. -/
theorem pruned_front {b : BasicBuffer blockSize} {front rear : List Addr} {h : Addr} {x : Block}
    (hrep : b.Rep (h :: front) rear) (hx : x.next = (b.block h).next) :
    (b.pruned h x).Rep front rear := by
  have hnodup := List.nodup_cons.mp hrep.nodup
  have hrear : rear ≠ [] := by
    intro hnil
    cases hrep.front_nil hnil
  have hsame : ∀ y ∈ front ++ rear, (b.pruned h x).block y = b.block y :=
    fun _ hy => pruned_block_of_ne b x (ne_of_mem_of_not_mem hy hnodup.1)
  have hmem : ∀ e ∈ rear.head?, e ∈ front ++ rear :=
    fun e he => List.mem_append_right _ (List.mem_of_head? he)
  exact
    { linked := pruned_linked hrep.linked hnodup.1 hx
      nodup := hnodup.2
      count := by
        show b.block_cnt_ - 1 = _
        rw [hrep.count]
        simp
      end_eq := hrep.end_eq
      tail_eq := hrep.tail_eq
      front_nil := fun hnil => absurd hnil hrear
      offset := by
        intro y hy
        rw [hsame y (List.mem_of_mem_tail hy)]
        exact hrep.offset y (List.mem_of_mem_tail hy)
      full := by
        intro y hy
        unfold Full
        rw [hsame y (List.mem_append_left _ hy)]
        exact hrep.full y (List.mem_cons_of_mem h hy)
      bounded := by
        intro e he
        rw [hsame e (hmem e he)]
        exact hrep.bounded e he
      last := by
        intro e he
        rw [hsame e (hmem e he)]
        rcases hrep.last e he with hlen | ⟨hnil, -⟩
        · exact .inl hlen
        · cases hnil
      empty := by
        intro y hy
        rw [hsame y (List.mem_append_right _ (List.mem_of_mem_tail hy))]
        exact hrep.empty y hy
      owns := (hrep.owns.setBlock h x).delete hrep.nodup }

/-- The first block goes, and the last data with it: `end_` is left dangling and is then set
to the head. -/
theorem pruned_end {b : BasicBuffer blockSize} {back : List Addr} {h : Addr} {x : Block}
    (hrep : b.Rep [] (h :: back)) (hcap : 0 < Block.capacity blockSize)
    (hx : x.next = (b.block h).next) :
    ({ b.pruned h x with end_ := (b.pruned h x).head_ } : BasicBuffer blockSize).Rep [] back := by
  have hnodup := List.nodup_cons.mp hrep.nodup
  have hsame : ∀ y ∈ back, (b.pruned h x).block y = b.block y :=
    fun _ hy => pruned_block_of_ne b x (ne_of_mem_of_not_mem hy hnodup.1)
  have hlinked := pruned_linked hrep.linked hnodup.1 hx
  have hzero : ∀ y ∈ back, (b.block y).offset = 0 ∧ (b.block y).len = 0 :=
    fun y hy => ⟨hrep.offset y hy, hrep.empty y hy⟩
  exact
    { linked := hlinked
      nodup := hnodup.2
      count := by
        show b.block_cnt_ - 1 = _
        rw [hrep.count]
        simp
      end_eq := hlinked.head
      tail_eq := by
        intro hback
        have htail := hrep.tail_eq (List.cons_ne_nil h back)
        rw [List.getLast?_cons_of_ne_nil hback] at htail
        exact htail
      front_nil := fun _ => rfl
      offset := by
        intro y hy
        show ((b.pruned h x).block y).offset = 0
        rw [hsame y (List.mem_of_mem_tail hy)]
        exact (hzero y (List.mem_of_mem_tail hy)).1
      full := nofun
      bounded := by
        intro e he
        show ((b.pruned h x).block e).offset + ((b.pruned h x).block e).len ≤ _
        rw [hsame e (List.mem_of_head? he), (hzero e (List.mem_of_head? he)).1,
          (hzero e (List.mem_of_head? he)).2]
        exact Nat.zero_le _
      last := by
        intro e he
        refine .inr ⟨rfl, ?_⟩
        show ((b.pruned h x).block e).offset < _
        rw [hsame e (List.mem_of_head? he), (hzero e (List.mem_of_head? he)).1]
        exact hcap
      empty := by
        intro y hy
        show ((b.pruned h x).block y).len = 0
        rw [hsame y (List.mem_of_mem_tail hy)]
        exact (hzero y (List.mem_of_mem_tail hy)).2
      owns := (hrep.owns.setBlock h x).delete hrep.nodup }

/-- `k` bytes drained from the first block, which stays: it has data left, or it is the last
one and has space left. -/
theorem drained_block {b : BasicBuffer blockSize} {front rear tl : List Addr} {h : Addr} {k : Nat}
    (hrep : b.Rep front rear) (hchain : front ++ rear = h :: tl) (hk : k ≤ (b.block h).len)
    (hstay : k < (b.block h).len ∨
      (front = [] ∧ (b.block h).offset + (b.block h).len < Block.capacity blockSize)) :
    (b.setBlock h (drainedBlock (b.block h) k)).Rep front rear := by
  generalize hx : drainedBlock (b.block h) k = x
  have hself : ((b.setBlock h x).block h).offset = (b.block h).offset + k ∧
      ((b.setBlock h x).block h).len = (b.block h).len - k := by
    rw [setBlock_block_self, ← hx]
    exact ⟨rfl, rfl⟩
  have hnext : x.next = (b.block h).next := by
    rw [← hx]
    rfl
  have hnodup := hrep.nodup
  rw [hchain, List.nodup_cons] at hnodup
  have htl : (front ++ rear).tail = tl := by rw [hchain]; rfl
  have hsame : ∀ y ∈ tl, (b.setBlock h x).block y = b.block y :=
    fun _ hy => setBlock_block_of_ne b x (ne_of_mem_of_not_mem hy hnodup.1)
  have hcases : ∀ y ∈ front ++ rear, y = h ∨ y ∈ tl := by
    intro y hy
    rw [hchain] at hy
    exact List.mem_cons.mp hy
  exact
    { linked := setBlock_linked hrep.linked hnext
      nodup := hrep.nodup
      count := hrep.count
      end_eq := hrep.end_eq
      tail_eq := hrep.tail_eq
      front_nil := hrep.front_nil
      offset := by
        intro y hy
        rw [hsame y (htl ▸ hy)]
        exact hrep.offset y hy
      full := by
        intro y hy
        unfold Full
        have hfull := hrep.full y hy
        unfold Full at hfull
        rcases hcases y (List.mem_append_left _ hy) with rfl | hmem
        · -- Before the last block with data, a block that stays has data left.
          rw [hself.1, hself.2]
          rcases hstay with hstay | ⟨hnil, -⟩
          · omega
          · rw [hnil] at hy
            cases hy
        · rw [hsame y hmem]
          exact hfull
      bounded := by
        intro e he
        have hbound := hrep.bounded e he
        rcases hcases e (List.mem_append_right _ (List.mem_of_head? he)) with rfl | hmem
        · rw [hself.1, hself.2]
          omega
        · rw [hsame e hmem]
          exact hbound
      last := by
        intro e he
        have hlast := hrep.last e he
        rcases hcases e (List.mem_append_right _ (List.mem_of_head? he)) with rfl | hmem
        · rw [hself.1, hself.2]
          rcases hstay with hstay | ⟨hnil, hstay⟩
          · exact .inl (by omega)
          · exact .inr ⟨hnil, by omega⟩
        · rw [hsame e hmem]
          exact hlast
      empty := by
        intro y hy
        -- A block after the last one with data is never the first block.
        have hmem : y ∈ tl := by
          rw [← htl]
          cases front with
          | nil => exact hy
          | cons z front => exact List.mem_append_right _ (List.mem_of_mem_tail hy)
        rw [hsame y hmem]
        exact hrep.empty y hy
      owns := hrep.owns.setBlock h x }

/-- The same, for the cells: the first `k` data cells are gone. -/
theorem drained_cells {b : BasicBuffer blockSize} {tl : List Addr} {h : Addr} {k : Nat}
    (hh : h ∉ tl) (hk : k ≤ (b.block h).len) :
    (b.setBlock h (drainedBlock (b.block h) k)).dataCells (h :: tl) =
        (b.dataCells (h :: tl)).drop k ∧
      (b.setBlock h (drainedBlock (b.block h) k)).spaceCells (h :: tl) =
        b.spaceCells (h :: tl) := by
  generalize hb' : b.setBlock h (drainedBlock (b.block h) k) = b'
  have hself : b'.block h = drainedBlock (b.block h) k := by
    rw [← hb', setBlock_block_self]
  have hplace : SamePlace b b' tl := by
    intro y hy
    rw [← hb', setBlock_block_of_ne b _ (ne_of_mem_of_not_mem hy hh)]
    exact ⟨rfl, rfl⟩
  have hlen : k ≤ (b.dataBuf h).cells.length := by
    rw [length_sysBuf_cells]
    exact hk
  constructor
  · rw [dataCells_cons, dataCells_cons, hplace.dataCells, List.drop_append_of_le_length hlen,
      drop_sysBuf_cells]
    simp only [dataBuf, hself, drainedBlock]
  · have hspace : b'.spaceBuf h = b.spaceBuf h := by
      simp only [spaceBuf, hself, drainedBlock, Block.spaceHead, Block.spaceLen, SysBuf.mk.injEq, true_and]
      omega
    rw [spaceCells_cons, spaceCells_cons, hplace.spaceCells, hspace]

/-- A full first block holds the first data cells, and no space. -/
theorem full_cells {b : BasicBuffer blockSize} {tl : List Addr} {h : Addr}
    (hfull : (b.block h).offset + (b.block h).len = Block.capacity blockSize) :
    (b.dataCells (h :: tl)).drop (b.block h).len = b.dataCells tl ∧
      b.spaceCells (h :: tl) = b.spaceCells tl := by
  constructor
  · rw [dataCells_cons]
    exact List.drop_left' (length_sysBuf_cells _)
  · have hnil : (b.spaceBuf h).cells = [] := by
      apply cells_eq_nil
      show Block.capacity blockSize - (b.block h).offset - (b.block h).len = 0
      omega
    rw [spaceCells_cons, hnil, List.nil_append]

/-- Without data, the buffer ends where it begins. -/
theorem Rep.end_eq_head {b : BasicBuffer blockSize} {front rear : List Addr}
    (hrep : b.Rep front rear) (hdata : b.dataCells (front ++ rear) = []) : b.end_ = b.head_ := by
  cases front with
  | nil => rw [hrep.end_eq, hrep.linked.head, List.nil_append]
  | cons h front =>
    have hlen := congrArg List.length hdata
    rw [List.cons_append, dataCells_cons, List.length_append, length_sysBuf_cells] at hlen
    have hpos : 0 < (b.dataBuf h).len := (hrep.full h List.mem_cons_self).2
    simp only [List.length_nil] at hlen
    omega

theorem Rep.with_end_head {b : BasicBuffer blockSize} {front rear : List Addr}
    (hrep : b.Rep front rear) (hdata : b.dataCells (front ++ rear) = []) :
    ({ b with end_ := b.head_ } : BasicBuffer blockSize) = b :=
  congrArg (fun p => ({ b with end_ := p } : BasicBuffer blockSize)) (hrep.end_eq_head hdata).symm

theorem drainLoop_zero (fuel : Nat) (b : BasicBuffer blockSize) : drainLoop fuel 0 b = some b := by
  unfold drainLoop
  rfl

/-- The buffer after a round of the loop, by what the round left of its first block `h`. -/
theorem drainLoop_succ {b : BasicBuffer blockSize} {h : Addr} (hhead : b.head_ = some h)
    (fuel remaining : Nat) {k : Nat}
    (hk : k = if (b.block h).len < remaining + 1 then (b.block h).len else remaining + 1) :
    drainLoop (fuel + 1) (remaining + 1) b =
      if (drainedBlock (b.block h) k).len = 0 ∧
          (drainedBlock (b.block h) k).spaceLen blockSize = 0 then
        drainLoop fuel (remaining + 1 - k) (b.pruned h (drainedBlock (b.block h) k))
      else drainLoop fuel (remaining + 1 - k) (b.setBlock h (drainedBlock (b.block h) k)) := by
  subst hk
  simp only [drainLoop, hhead, Option.bind_eq_bind, Option.bind_some, Block.drain]
  rfl

/-- A round on a first block with more data than is asked for. -/
theorem drainLoop_part {b : BasicBuffer blockSize} {front rear back : List Addr} {h : Addr}
    (hrep : b.Rep front rear) (hchain : front ++ rear = h :: back) (fuel : Nat) {remaining : Nat}
    (hlt : remaining + 1 < (b.block h).len) :
    ∃ b', drainLoop (fuel + 1) (remaining + 1) b = some b' ∧ Beside b b' ∧
      b'.Holds ((b.dataCells (front ++ rear)).drop (remaining + 1))
        (b.spaceCells (front ++ rear)) := by
  have hnodup := hrep.nodup
  have hlinked := hrep.linked
  rw [hchain] at hnodup hlinked
  have hk : remaining + 1 =
      if (b.block h).len < remaining + 1 then (b.block h).len else remaining + 1 := by
    rw [if_neg (by omega)]
  have hle : remaining + 1 ≤ (b.block h).len := Nat.le_of_lt hlt
  obtain ⟨hdata, hspace⟩ := drained_cells (List.nodup_cons.mp hnodup).1 hle
  rw [← hchain] at hdata hspace
  refine ⟨b.setBlock h (drainedBlock (b.block h) (remaining + 1)), ?_, ⟨rfl, rfl, rfl, rfl⟩,
    front, rear, drained_block hrep hchain hle (.inl hlt), hdata, hspace⟩
  have hstay : ¬ ((drainedBlock (b.block h) (remaining + 1)).len = 0 ∧
      (drainedBlock (b.block h) (remaining + 1)).spaceLen blockSize = 0) := by
    intro hgone
    have hlen : (b.block h).len - (remaining + 1) = 0 := hgone.1
    omega
  rw [drainLoop_succ hlinked.1 fuel remaining hk, if_neg hstay, Nat.sub_self, drainLoop_zero]

/-- A round that empties a full first block: the block goes. -/
theorem drainLoop_full {b : BasicBuffer blockSize} {back : List Addr} {h : Addr}
    (hlinked : Linked (fun y => (b.block y).next) b.head_ (h :: back)) (hh : h ∉ back)
    (hfull : (b.block h).offset + (b.block h).len = Block.capacity blockSize) (fuel : Nat)
    {remaining : Nat} (hle : (b.block h).len ≤ remaining + 1) :
    ∃ x : Block, x.next = (b.block h).next ∧
      drainLoop (fuel + 1) (remaining + 1) b =
        drainLoop fuel (remaining + 1 - (b.block h).len) (b.pruned h x) ∧
      (b.pruned h x).dataCells back = (b.dataCells (h :: back)).drop (b.block h).len ∧
      (b.pruned h x).spaceCells back = b.spaceCells (h :: back) := by
  have hk : (b.block h).len =
      if (b.block h).len < remaining + 1 then (b.block h).len else remaining + 1 := by
    split <;> omega
  obtain ⟨hdata, hspace⟩ := @full_cells _ b back h hfull
  have hgone : (drainedBlock (b.block h) (b.block h).len).len = 0 ∧
      (drainedBlock (b.block h) (b.block h).len).spaceLen blockSize = 0 := by
    refine ⟨Nat.sub_self _, ?_⟩
    show Block.capacity blockSize - ((b.block h).offset + (b.block h).len) - _ = 0
    omega
  refine ⟨drainedBlock (b.block h) (b.block h).len, rfl, ?_,
    (pruned_place _ hh).dataCells.trans hdata.symm, (pruned_place _ hh).spaceCells.trans hspace.symm⟩
  rw [drainLoop_succ hlinked.1 fuel remaining hk, if_pos hgone]

/-- A round that empties the only block with data: it stays for its space, or goes. -/
theorem drainLoop_last {b : BasicBuffer blockSize} {back : List Addr} {h : Addr}
    (hrep : b.Rep [] (h :: back)) (hcap : 0 < Block.capacity blockSize) (fuel : Nat)
    {remaining : Nat} (hall : remaining + 1 = (b.block h).len) :
    ∃ b', drainLoop (fuel + 1) (remaining + 1) b = some b' ∧ Beside b b' ∧
      ({ b' with end_ := b'.head_ } : BasicBuffer blockSize).Holds []
        (b.spaceCells (h :: back)) := by
  have hnodup := List.nodup_cons.mp hrep.nodup
  have hback : b.dataCells back = [] := dataCells_eq_nil hrep.empty
  have hempty : (b.dataCells (h :: back)).drop (b.block h).len = [] := by
    rw [dataCells_cons, hback, List.append_nil]
    exact List.drop_of_length_le (Nat.le_of_eq (length_sysBuf_cells _))
  have hbound := hrep.bounded h rfl
  have hle : remaining + 1 ≤ (b.block h).len := Nat.le_of_eq hall
  by_cases hfull : (b.block h).offset + (b.block h).len = Block.capacity blockSize
  · obtain ⟨x, hx, hround, hdata, hspace⟩ :=
      drainLoop_full hrep.linked hnodup.1 hfull fuel (Nat.le_of_eq hall.symm)
    refine ⟨b.pruned h x, ?_, ⟨rfl, rfl, rfl, rfl⟩, [], back, pruned_end hrep hcap hx,
      hdata.trans hempty, hspace⟩
    rw [hround, hall, Nat.sub_self, drainLoop_zero]
  · have hk : remaining + 1 =
        if (b.block h).len < remaining + 1 then (b.block h).len else remaining + 1 := by
      rw [if_neg (by omega)]
    obtain ⟨hdata, hspace⟩ := drained_cells hnodup.1 hle
    have hstay := drained_block hrep rfl hle (.inr ⟨rfl, by omega⟩)
    have hnil : (b.setBlock h (drainedBlock (b.block h) (remaining + 1))).dataCells (h :: back) =
        [] := by
      rw [hdata, hall]
      exact hempty
    have hroom : ¬ ((drainedBlock (b.block h) (remaining + 1)).len = 0 ∧
        (drainedBlock (b.block h) (remaining + 1)).spaceLen blockSize = 0) := by
      intro hgone
      have hspace : Block.capacity blockSize - ((b.block h).offset + (remaining + 1)) -
          ((b.block h).len - (remaining + 1)) = 0 := hgone.2
      omega
    refine ⟨b.setBlock h (drainedBlock (b.block h) (remaining + 1)), ?_, ⟨rfl, rfl, rfl, rfl⟩, ?_⟩
    · rw [drainLoop_succ hrep.linked.1 fuel remaining hk, if_neg hroom, Nat.sub_self,
        drainLoop_zero]
    · rw [hstay.with_end_head hnil]
      exact ⟨[], h :: back, hstay, hnil, hspace⟩

/-- The loop ends at once when nothing remains to be drained. -/
theorem drainLoop_done (fuel : Nat) {data space : List Cell} {b : BasicBuffer blockSize}
    (h : b.Holds data space) :
    ∃ b', drainLoop fuel 0 b = some b' ∧ Beside b b' ∧
      (0 < data.length → b'.Holds (data.drop 0) space) ∧
      (0 = data.length →
        ({ b' with end_ := b'.head_ } : BasicBuffer blockSize).Holds [] space) := by
  refine ⟨b, drainLoop_zero fuel b, ⟨rfl, rfl, rfl, rfl⟩, fun _ => h, fun hnil => ?_⟩
  obtain ⟨front, rear, hrep, rfl, rfl⟩ := h
  have hdata : b.dataCells (front ++ rear) = [] := List.length_eq_zero_iff.mp hnil.symm
  rw [hrep.with_end_head hdata]
  exact ⟨front, rear, hrep, hdata, rfl⟩

/-- Draining everything leaves `end_` to be set. -/
theorem drainLoop_spec (hcap : 0 < Block.capacity blockSize) (fuel : Nat) :
    ∀ (remaining : Nat) (data space : List Cell) (b : BasicBuffer blockSize),
      remaining ≤ fuel → b.Holds data space → remaining ≤ data.length →
      ∃ b', drainLoop fuel remaining b = some b' ∧ Beside b b' ∧
        (remaining < data.length → b'.Holds (data.drop remaining) space) ∧
        (remaining = data.length →
          ({ b' with end_ := b'.head_ } : BasicBuffer blockSize).Holds [] space) := by
  induction fuel with
  | zero =>
    intro remaining data space b hfuel h _
    obtain rfl : remaining = 0 := by omega
    exact drainLoop_done 0 h
  | succ fuel ih =>
    intro remaining data space b hfuel h hle
    cases remaining with
    | zero => exact drainLoop_done (fuel + 1) h
    | succ remaining =>
      obtain ⟨front, rear, hrep, rfl, rfl⟩ := h
      cases hchain : front ++ rear with
      | nil =>
        rw [hchain] at hle
        simp [dataCells] at hle
      | cons h back =>
        have hnodup := hrep.nodup
        have hlinked := hrep.linked
        rw [hchain] at hle hnodup hlinked
        have hlength : (b.dataCells (h :: back)).length =
            (b.block h).len + (b.dataCells back).length := by
          rw [dataCells_cons, List.length_append, length_sysBuf_cells]
          rfl
        by_cases hpart : remaining + 1 < (b.block h).len
        · -- The first block keeps some of its data, and the loop ends.
          obtain ⟨b', hround, hbeside, hholds⟩ := drainLoop_part hrep hchain fuel hpart
          rw [hchain] at hholds
          exact ⟨b', hround, hbeside, fun _ => hholds, fun hall => by omega⟩
        · cases front with
          | nil =>
            -- It is the last block with data, so `remaining` was all there is.
            obtain rfl : rear = h :: back := hchain
            have hback : b.dataCells back = [] := dataCells_eq_nil hrep.empty
            rw [hback, List.length_nil, Nat.add_zero] at hlength
            obtain ⟨b', hround, hbeside, hholds⟩ :=
              drainLoop_last hrep hcap fuel (by omega : remaining + 1 = (b.block h).len)
            exact ⟨b', hround, hbeside, fun hlt => by omega, fun _ => hholds⟩
          | cons z front =>
            -- A full block is given back, and the loop goes on with the rest.
            obtain ⟨rfl, rfl⟩ := List.cons.inj hchain
            have hfull := hrep.full z List.mem_cons_self
            obtain ⟨x, hx, hround, hdata, hspace⟩ := drainLoop_full hlinked
              (List.nodup_cons.mp hnodup).1 hfull.1 fuel (Nat.le_of_not_lt hpart)
            have hpos := hfull.2
            obtain ⟨b', hloop, hbeside, hsome, hall⟩ := ih (remaining + 1 - (b.block z).len) _ _ _
              (by omega) ⟨front, rear, pruned_front hrep hx, hdata, hspace⟩
              (by rw [List.length_drop]; omega)
            rw [List.length_drop] at hsome hall
            refine ⟨b', hround.trans hloop,
              ⟨hbeside.bytes, hbeside.data_size, hbeside.reserved, hbeside.peeked⟩,
              fun hlt => ?_, fun heq => hall (by omega)⟩
            have hsplit : remaining + 1 = (b.block z).len + (remaining + 1 - (b.block z).len) := by
              omega
            rw [hsplit, ← List.drop_drop]
            exact hsome (by omega)

end BasicBuffer
end Proxy
