import TransparentCa.Proxy.BufferLayout

/- What the loops of `Reserve` and `Commit` do to the cells. `Holds b data space`: the cells
   of the block list, behind what was drained of the first block, are `data` and then
   `space`. A reservation covers the first cells of the space, linking in blocks where there
   are too few; a commit turns the first cells of the space into data. Each loop ends after
   as many rounds as bytes are asked for. -/
namespace Proxy
open LinkedList

namespace BasicBuffer

variable {blockSize : Nat}

/-! ## Reserve -/

/-- `ret` covers the next `n` cells of space from the blocks `rest` on, after the blocks
`more` have been linked in. -/
structure Reserves (b b' : BasicBuffer blockSize) (front rear rest more : List Addr)
    (ret : List SysBuf) (n : Nat) : Prop where
  rep : b'.Rep front (rear ++ more)
  grown : Grown b b' (front ++ rear)
  empty : ∀ a ∈ more, (b'.block a).len = 0
  cells_eq : cells ret = (b'.spaceCells (rest ++ more)).take n
  le : n ≤ (b'.spaceCells (rest ++ more)).length

theorem Reserves.nil {b : BasicBuffer blockSize} {front rear rest : List Addr}
    (h : b.Rep front rear) : Reserves b b front rear rest [] [] 0 where
  rep := by rwa [List.append_nil]
  grown := .refl b _
  empty := nofun
  cells_eq := rfl
  le := Nat.zero_le _

/-- The range in one block, and the ranges in the blocks behind it. A block is left with
space only by the last range. -/
theorem Reserves.cons {b b₁ b' : BasicBuffer blockSize}
    {front rear done rest rest' more₁ more : List Addr} {a : Addr} {ret : List SysBuf} {n len : Nat}
    (hchain : front ++ rear = done ++ rest) (hrest : rest ++ more₁ = a :: rest')
    (hgrown : Grown b b₁ (front ++ rear)) (hempty : ∀ x ∈ more₁, (b₁.block x).len = 0)
    (h : Reserves b₁ b' front (rear ++ more₁) rest' more ret n)
    (hlen : len ≤ (b₁.block a).spaceLen blockSize)
    (hlast : n = 0 ∨ len = (b₁.block a).spaceLen blockSize) :
    Reserves b b' front rear rest (more₁ ++ more) (⟨a, (b₁.block a).spaceHead, len⟩ :: ret)
      (len + n) := by
  have ha : a ∈ front ++ (rear ++ more₁) := by
    rw [← List.append_assoc, hchain, List.append_assoc, hrest]
    simp
  have hspace : b'.spaceBuf a = b₁.spaceBuf a := by
    simp only [spaceBuf, Block.spaceHead, Block.spaceLen, (h.grown.place a ha).1,
      (h.grown.place a ha).2]
  have hwhole : b'.spaceCells (rest ++ (more₁ ++ more)) =
      (b₁.spaceBuf a).cells ++ b'.spaceCells (rest' ++ more) := by
    rw [← List.append_assoc, hrest, List.cons_append, spaceCells_cons, hspace]
  have hle := h.le
  exact
    { rep := by
        rw [← List.append_assoc]
        exact h.rep
      grown := by
        have hrest := h.grown
        rw [← List.append_assoc] at hrest
        exact hgrown.trans hrest
      empty := by
        intro x hx
        rcases List.mem_append.mp hx with hx | hx
        · rw [(h.grown.place x (by simp [hx])).2]
          exact hempty x hx
        · exact h.empty x hx
      cells_eq := by
        have hlast' : len = len + n ∨ len = (b₁.spaceBuf a).len := by
          rcases hlast with rfl | hlast
          · exact .inl rfl
          · exact .inr hlast
        rw [hwhole, take_cells_append _ (Nat.le_add_right len n) hlen hlast',
          Nat.add_sub_cancel_left, cells_cons, h.cells_eq]
        rfl
      le := by
        have hlen' : len ≤ (b₁.spaceBuf a).len := hlen
        rw [hwhole, List.length_append, length_sysBuf_cells]
        rcases hlast with rfl | hlast
        · omega
        · have hall : len = (b₁.spaceBuf a).len := hlast
          omega }

theorem reserveLoop_spec (hcap : 0 < Block.capacity blockSize) (halign : ValidAlignment blockSize)
    {front : List Addr} (fuel : Nat) :
    ∀ (remaining : Nat) (rear done rest : List Addr) (ret : List SysBuf)
      (b : BasicBuffer blockSize), remaining ≤ fuel → b.Rep front rear →
      front ++ rear = done ++ rest → (∀ a ∈ rest, 0 < (b.block a).spaceLen blockSize) →
      ∃ ret' b' more, reserveLoop fuel remaining rest.head? ret b = some (ret ++ ret', b') ∧
        Reserves b b' front rear rest more ret' remaining := by
  induction fuel with
  | zero =>
    intro remaining rear done rest ret b hfuel h hchain hroom
    obtain rfl : remaining = 0 := by omega
    exact ⟨[], b, [], by simp [reserveLoop], .nil h⟩
  | succ fuel ih =>
    intro remaining rear done rest ret b hfuel h hchain hroom
    cases remaining with
    | zero => exact ⟨[], b, [], by simp [reserveLoop], .nil h⟩
    | succ remaining =>
      obtain ⟨a, rest', more₁, b₁, hnext, hrest, hrep₁, hgrown₁, hroom₁, hempty₁⟩ :=
        next_spec h hcap halign hchain hroom
      simp only [reserveLoop, hnext, Option.bind_eq_bind, Option.bind_some]
      generalize hlen : (if remaining + 1 ≥ (b₁.block a).spaceLen blockSize then
        (b₁.block a).spaceLen blockSize else remaining + 1) = len
      have hpos := hroom₁ a List.mem_cons_self
      have hlen' : 0 < len ∧ len ≤ remaining + 1 ∧ len ≤ (b₁.block a).spaceLen blockSize ∧
          (remaining + 1 - len = 0 ∨ len = (b₁.block a).spaceLen blockSize) := by
        subst hlen
        split <;> omega
      have hchain₁ : front ++ (rear ++ more₁) = (done ++ [a]) ++ rest' := by
        rw [← List.append_assoc, hchain, List.append_assoc, hrest]
        simp
      obtain ⟨ret', b', more, hloop, hres⟩ :=
        ih (remaining + 1 - len) (rear ++ more₁) (done ++ [a]) rest'
          (ret ++ [⟨a, (b₁.block a).spaceHead, len⟩]) b₁ (by omega) hrep₁ hchain₁
          (fun x hx => hroom₁ x (List.mem_cons_of_mem a hx))
      have hcons := Reserves.cons hchain hrest hgrown₁ hempty₁ hres hlen'.2.2.1 hlen'.2.2.2
      rw [Nat.add_sub_cancel' hlen'.2.1] at hcons
      exact ⟨_, b', more₁ ++ more, by rw [hloop]; simp, hcons⟩

theorem reserveAtLeastLoop_spec (hcap : 0 < Block.capacity blockSize)
    (halign : ValidAlignment blockSize) {front : List Addr} {size : Nat} (fuel : Nat) :
    ∀ (reservedSize : Nat) (rear done rest : List Addr) (ret : List SysBuf)
      (b : BasicBuffer blockSize), size - reservedSize ≤ fuel → b.Rep front rear →
      front ++ rear = done ++ rest → (∀ a ∈ rest, 0 < (b.block a).spaceLen blockSize) →
      ∃ ret' n b' more, reserveAtLeastLoop fuel size reservedSize rest.head? ret b =
          some (ret ++ ret', reservedSize + n, b') ∧ size ≤ reservedSize + n ∧
        Reserves b b' front rear rest more ret' n := by
  induction fuel with
  | zero =>
    intro reservedSize rear done rest ret b hfuel h hchain hroom
    have hdone : ¬ reservedSize < size := by omega
    refine ⟨[], 0, b, [], ?_, by omega, .nil h⟩
    unfold reserveAtLeastLoop
    simp [hdone]
  | succ fuel ih =>
    intro reservedSize rear done rest ret b hfuel h hchain hroom
    unfold reserveAtLeastLoop
    by_cases hmore : reservedSize < size
    · obtain ⟨a, rest', more₁, b₁, hnext, hrest, hrep₁, hgrown₁, hroom₁, hempty₁⟩ :=
        next_spec h hcap halign hchain hroom
      simp only [hmore, if_true, hnext, Option.bind_eq_bind, Option.bind_some]
      have hpos := hroom₁ a List.mem_cons_self
      have hchain₁ : front ++ (rear ++ more₁) = (done ++ [a]) ++ rest' := by
        rw [← List.append_assoc, hchain, List.append_assoc, hrest]
        simp
      obtain ⟨ret', n, b', more, hloop, hsize, hres⟩ :=
        ih (reservedSize + (b₁.block a).spaceLen blockSize) (rear ++ more₁) (done ++ [a]) rest'
          (ret ++ [⟨a, (b₁.block a).spaceHead, (b₁.block a).spaceLen blockSize⟩]) b₁ (by omega)
          hrep₁ hchain₁ (fun x hx => hroom₁ x (List.mem_cons_of_mem a hx))
      refine ⟨_, _, b', more₁ ++ more, ?_, ?_,
        Reserves.cons hchain hrest hgrown₁ hempty₁ hres (Nat.le_refl _) (.inr rfl)⟩
      · rw [hloop]
        simp [Nat.add_assoc]
      · omega
    · refine ⟨[], 0, b, [], ?_, by omega, .nil h⟩
      simp [hmore]

/-! ## The cells of a buffer -/

/-- The buffer's cells: `data` first, `space` behind it. -/
def Holds (b : BasicBuffer blockSize) (data space : List Cell) : Prop :=
  ∃ front rear, b.Rep front rear ∧ b.dataCells (front ++ rear) = data ∧
    b.spaceCells (front ++ rear) = space

/-- What no operation on the cells changes. -/
structure Beside (b b' : BasicBuffer blockSize) : Prop where
  bytes : b'.heap.bytes = b.heap.bytes
  data_size : b'.data_size_ = b.data_size_
  reserved : b'.reserved_ = b.reserved_
  peeked : b'.peeked_ = b.peeked_

/-- What the ranges of a reservation say about the cells. -/
theorem Reserves.holds {b b' : BasicBuffer blockSize} {front rear done rest more : List Addr}
    {ret : List SysBuf} {n : Nat} (h : Reserves b b' front rear rest more ret n)
    (hchain : front ++ rear = done ++ rest) (hdone : ∀ a ∈ done, b.Full a) :
    ∃ extra, b'.Holds (b.dataCells (front ++ rear)) (b.spaceCells (front ++ rear) ++ extra) ∧
      cells ret = (b.spaceCells (front ++ rear) ++ extra).take n ∧
      n ≤ (b.spaceCells (front ++ rear) ++ extra).length := by
  have hfull : b'.spaceCells done = [] := by
    rw [SamePlace.spaceCells (h.grown.place.mono (fun a ha => by rw [hchain]; simp [ha]))]
    exact spaceCells_eq_nil (fun a ha => (hdone a ha).spaceLen_eq)
  have hspace : b'.spaceCells (front ++ (rear ++ more)) =
      b.spaceCells (front ++ rear) ++ b'.spaceCells more := by
    rw [← List.append_assoc, spaceCells_append, h.grown.place.spaceCells]
  have hrest : b'.spaceCells (rest ++ more) =
      b.spaceCells (front ++ rear) ++ b'.spaceCells more := by
    rw [← hspace, ← List.append_assoc, hchain, List.append_assoc, spaceCells_append _ done, hfull]
    rfl
  refine ⟨b'.spaceCells more, ⟨front, rear ++ more, h.rep, ?_, hspace⟩, ?_, ?_⟩
  · rw [← List.append_assoc, dataCells_append, h.grown.place.dataCells, dataCells_eq_nil h.empty,
      List.append_nil]
  · rw [h.cells_eq, hrest]
  · rw [← hrest]
    exact h.le

/-- The cells lie in the blocks, whatever the counters and flags say. -/
theorem Rep.with_flags {b : BasicBuffer blockSize} {front rear : List Addr} (n : Nat)
    (r p : Bool) (h : b.Rep front rear) :
    ({ b with data_size_ := n, reserved_ := r, peeked_ := p } : BasicBuffer blockSize).Rep
      front rear :=
  ⟨h.linked, h.nodup, h.count, h.end_eq, h.tail_eq, h.front_nil, h.offset, h.full, h.bounded,
    h.last, h.empty, h.owns⟩

theorem Holds.with_flags {b : BasicBuffer blockSize} {data space : List Cell} (n : Nat)
    (r p : Bool) (h : b.Holds data space) :
    ({ b with data_size_ := n, reserved_ := r, peeked_ := p } : BasicBuffer blockSize).Holds
      data space := by
  obtain ⟨front, rear, hrep, rfl, rfl⟩ := h
  exact ⟨front, rear, hrep.with_flags n r p, rfl, rfl⟩

theorem reserve_spec {b : BasicBuffer blockSize} {data space : List Cell}
    (hcap : 0 < Block.capacity blockSize) (halign : ValidAlignment blockSize)
    (h : b.Holds data space) (hreserved : b.reserved_ = false)
    {fuel size : Nat} (hfuel : size ≤ fuel) :
    ∃ ret b' extra, b.reserve fuel size = some (ret, b') ∧ b'.Holds data (space ++ extra) ∧
      cells ret = (space ++ extra).take size ∧ size ≤ (space ++ extra).length ∧
      Beside { b with reserved_ := true } b' := by
  obtain ⟨front, rear, hrep, rfl, rfl⟩ := h
  have hrep' := hrep.with_flags b.data_size_ true b.peeked_
  obtain ⟨done, rest, hchain, hstepper, hfull, hroom, -⟩ := hrep'.stepper hcap
  obtain ⟨ret, b', more, hloop, hres⟩ :=
    reserveLoop_spec hcap halign fuel size rear done rest [] _ hfuel hrep' hchain hroom
  obtain ⟨extra, hholds, hcells, hle⟩ := hres.holds hchain hfull
  refine ⟨ret, b', extra, ?_, hholds, hcells, hle,
    ⟨hres.grown.bytes, hres.grown.data_size, hres.grown.reserved, hres.grown.peeked⟩⟩
  simp only [reserve, hreserved, Bool.false_eq_true, if_false]
  rw [hstepper, hloop]
  rfl

theorem reserveAtLeast_spec {b : BasicBuffer blockSize} {data space : List Cell}
    (hcap : 0 < Block.capacity blockSize) (halign : ValidAlignment blockSize)
    (h : b.Holds data space) (hreserved : b.reserved_ = false)
    {fuel size : Nat} (hfuel : size ≤ fuel) :
    ∃ ret n b' extra, b.reserveAtLeast fuel size = some (ret, n, b') ∧ size ≤ n ∧
      b'.Holds data (space ++ extra) ∧ cells ret = (space ++ extra).take n ∧
      n ≤ (space ++ extra).length ∧ Beside { b with reserved_ := true } b' := by
  obtain ⟨front, rear, hrep, rfl, rfl⟩ := h
  have hrep' := hrep.with_flags b.data_size_ true b.peeked_
  obtain ⟨done, rest, hchain, hstepper, hfull, hroom, -⟩ := hrep'.stepper hcap
  obtain ⟨ret, n, b', more, hloop, hsize, hres⟩ :=
    reserveAtLeastLoop_spec hcap halign fuel 0 rear done rest [] _ (by omega) hrep' hchain hroom
  obtain ⟨extra, hholds, hcells, hle⟩ := hres.holds hchain hfull
  refine ⟨ret, n, b', extra, ?_, by omega, hholds, hcells, hle,
    ⟨hres.grown.bytes, hres.grown.data_size, hres.grown.reserved, hres.grown.peeked⟩⟩
  simp only [reserveAtLeast, hreserved, Bool.false_eq_true, if_false]
  rw [hstepper, hloop]
  simp

/-! ## Commit -/

theorem setBlock_block_self (b : BasicBuffer blockSize) (a : Addr) (x : Block) :
    (b.setBlock a x).block a = x :=
  Function.update_self ..

theorem setBlock_block_of_ne (b : BasicBuffer blockSize) {a y : Addr} (x : Block) (h : y ≠ a) :
    (b.setBlock a x).block y = b.block y :=
  Function.update_of_ne h ..

/-- Rewriting the header of one block leaves the links as they are, as long as its own is
not touched. -/
theorem setBlock_linked {b : BasicBuffer blockSize} {a : Addr} {x : Block} {p : Option Addr}
    {l : List Addr} (h : Linked (fun y => (b.block y).next) p l) (hx : x.next = (b.block a).next) :
    Linked (fun y => ((b.setBlock a x).block y).next) p l := by
  apply h.congr
  intro y _
  by_cases hy : y = a
  · subst hy
    rw [setBlock_block_self, hx]
  · rw [setBlock_block_of_ne b x hy]

/-- `k` bytes committed to the first block with space. -/
theorem commit_block {b : BasicBuffer blockSize} {front rear done back : List Addr} {a : Addr}
    {k : Nat} (h : b.Rep front rear) (hchain : front ++ rear = done ++ a :: back)
    (hfull : ∀ y ∈ done, b.Full y) (hempty : ∀ y ∈ back, (b.block y).len = 0)
    (hk : 0 < k) (hle : k ≤ (b.block a).spaceLen blockSize) :
    ({ b.setBlock a { b.block a with len := (b.block a).len + k } with
      end_ := some a } : BasicBuffer blockSize).Rep done (a :: back) := by
  have hnodup := h.nodup
  rw [hchain] at hnodup
  have hother : ∀ y ∈ done ++ back, y ≠ a := by
    intro y hy heq
    subst heq
    exact (List.nodup_middle.mp hnodup).notMem hy
  have hrear : rear ≠ [] := by
    intro hnil
    rw [hnil, h.front_nil hnil] at hchain
    simp at hchain
  -- The list is the same, only cut at another block: `hchain` carries what is said of it.
  exact
    { linked := by
        rw [← hchain]
        exact setBlock_linked h.linked rfl
      nodup := hnodup
      count := by
        rw [← hchain]
        exact h.count
      end_eq := rfl
      tail_eq := by
        intro _
        have hlast := congrArg List.getLast? hchain
        rw [List.getLast?_append_of_ne_nil _ hrear,
          List.getLast?_append_of_ne_nil _ (List.cons_ne_nil a back)] at hlast
        exact (h.tail_eq hrear).trans hlast
      front_nil := fun hnil => by cases hnil
      offset := by
        intro y hy
        rw [← hchain] at hy
        show ((b.setBlock a _).block y).offset = 0
        by_cases hya : y = a
        · subst hya
          rw [setBlock_block_self]
          exact h.offset y hy
        · rw [setBlock_block_of_ne b _ hya]
          exact h.offset y hy
      full := by
        intro y hy
        show _ + _ = _ ∧ 0 < _
        have hblock : (b.setBlock a { b.block a with len := (b.block a).len + k }).block y =
            b.block y := setBlock_block_of_ne b _ (hother y (List.mem_append_left _ hy))
        exact hblock ▸ hfull y hy
      bounded := by
        intro e he
        obtain rfl := Option.some.inj he
        show ((b.setBlock a _).block a).offset + ((b.setBlock a _).block a).len ≤ _
        rw [setBlock_block_self]
        unfold Block.spaceLen at hle
        show (b.block a).offset + ((b.block a).len + k) ≤ _
        omega
      last := by
        intro e he
        obtain rfl := Option.some.inj he
        refine .inl ?_
        show 0 < ((b.setBlock a _).block a).len
        rw [setBlock_block_self]
        exact Nat.lt_add_left _ hk
      empty := by
        intro y hy
        show ((b.setBlock a _).block y).len = 0
        rw [setBlock_block_of_ne b _ (hother y (List.mem_append_right _ hy))]
        exact hempty y hy
      owns := by
        rw [← hchain]
        exact h.owns.setBlock a _ }

/-- The same, for the cells: the first `k` space cells become data. -/
theorem commit_cells {b : BasicBuffer blockSize} {done back : List Addr} {a : Addr} {k : Nat}
    (hnodup : (done ++ a :: back).Nodup) (hfull : ∀ y ∈ done, b.Full y)
    (hempty : ∀ y ∈ back, (b.block y).len = 0) (hle : k ≤ (b.block a).spaceLen blockSize) :
    (b.setBlock a { b.block a with len := (b.block a).len + k }).dataCells (done ++ a :: back) =
        b.dataCells (done ++ a :: back) ++ (b.spaceCells (done ++ a :: back)).take k ∧
      (b.setBlock a { b.block a with len := (b.block a).len + k }).spaceCells (done ++ a :: back) =
        (b.spaceCells (done ++ a :: back)).drop k := by
  generalize hb' : b.setBlock a { b.block a with len := (b.block a).len + k } = b'
  have hself : b'.block a = { b.block a with len := (b.block a).len + k } := by
    rw [← hb', setBlock_block_self]
  have hplace : SamePlace b b' (done ++ back) := by
    intro y hy
    have hya : y ≠ a := by
      intro heq
      subst heq
      exact (List.nodup_middle.mp hnodup).notMem hy
    rw [← hb', setBlock_block_of_ne b _ hya]
    exact ⟨rfl, rfl⟩
  have hdone : SamePlace b b' done := hplace.mono (fun _ hy => List.mem_append_left _ hy)
  have hback : SamePlace b b' back := hplace.mono (fun _ hy => List.mem_append_right _ hy)
  have hnil : b.spaceCells done = [] := spaceCells_eq_nil (fun y hy => (hfull y hy).spaceLen_eq)
  -- The block's data grows by `k` cells at its end, its space shrinks by them.
  have hdata : (b'.dataBuf a).cells = (b.dataBuf a).cells ++ (b.spaceBuf a).cells.take k := by
    rw [take_sysBuf_cells _ hle]
    simp only [SysBuf.cells, dataBuf, spaceBuf, Block.spaceHead, hself]
    rw [← List.map_append, List.range'_append_1]
  have hspace : (b'.spaceBuf a).cells = (b.spaceBuf a).cells.drop k := by
    rw [drop_sysBuf_cells]
    simp only [SysBuf.cells, spaceBuf, Block.spaceHead, Block.spaceLen, hself, Nat.add_assoc,
      Nat.sub_sub]
  have htake : k ≤ (b.spaceBuf a).cells.length := by
    rw [length_sysBuf_cells]
    exact hle
  constructor
  · rw [dataCells_append, dataCells_append, dataCells_cons, dataCells_cons, hdone.dataCells,
      hback.dataCells, dataCells_eq_nil hempty, hdata, spaceCells_append, hnil, spaceCells_cons,
      List.nil_append, List.take_append_of_le_length htake]
    simp
  · rw [spaceCells_append, spaceCells_append, spaceCells_cons, spaceCells_cons, hdone.spaceCells,
      hback.spaceCells, hspace, hnil, List.nil_append, List.nil_append,
      List.drop_append_of_le_length htake]

theorem Holds.with_end {b : BasicBuffer blockSize} {front rear : List Addr}
    {p : Option Addr} (h : ({ b with end_ := p } : BasicBuffer blockSize).Rep front rear) :
    ({ b with end_ := p } : BasicBuffer blockSize).Holds (b.dataCells (front ++ rear))
      (b.spaceCells (front ++ rear)) :=
  ⟨front, rear, h, rfl, rfl⟩

/-- From a filled block the stepper goes on to the next one. -/
theorem spaceStepper_filled (b : BasicBuffer blockSize) {a : Addr} {x : Block}
    (hx : x.spaceLen blockSize = 0) :
    ({ b.setBlock a x with end_ := some a } : BasicBuffer blockSize).spaceStepper = x.next := by
  show (if ((b.setBlock a x).block a).spaceLen blockSize = 0 then
    ((b.setBlock a x).block a).next else some a) = x.next
  rw [setBlock_block_self, if_pos hx]

theorem commitLoop_spec (hcap : 0 < Block.capacity blockSize) (fuel : Nat) :
    ∀ (remaining : Nat) (data space : List Cell) (b : BasicBuffer blockSize) (block_ : Option Addr),
      remaining ≤ fuel → b.Holds data space → remaining ≤ space.length →
      (0 < remaining → block_ = b.spaceStepper) →
      ∃ b', commitLoop fuel remaining block_ b = some b' ∧
        b'.Holds (data ++ space.take remaining) (space.drop remaining) ∧ Beside b b' := by
  induction fuel with
  | zero =>
    intro remaining data space b block_ hfuel h _ _
    obtain rfl : remaining = 0 := by omega
    exact ⟨b, by simp [commitLoop], by simpa using h, rfl, rfl, rfl, rfl⟩
  | succ fuel ih =>
    intro remaining data space b block_ hfuel h hle hblock
    cases remaining with
    | zero => exact ⟨b, by simp [commitLoop], by simpa using h, rfl, rfl, rfl, rfl⟩
    | succ remaining =>
      obtain ⟨front, rear, hrep, rfl, rfl⟩ := h
      obtain ⟨done, rest, hchain, hstepper, hfull, hroom, hempty⟩ := hrep.stepper hcap
      rw [hchain] at hle ⊢
      cases rest with
      | nil =>
        -- Without a block with space there is nothing to commit to.
        rw [List.append_nil, spaceCells_eq_nil (fun a ha => (hfull a ha).spaceLen_eq)] at hle
        simp at hle
      | cons a back =>
        have hnodup := hrep.nodup
        have hlinked := hrep.linked
        rw [hchain] at hnodup hlinked
        have hpos := hroom a List.mem_cons_self
        generalize hk : (if remaining + 1 < (b.block a).spaceLen blockSize then remaining + 1
          else (b.block a).spaceLen blockSize) = k
        have hk' : 0 < k ∧ k ≤ (b.block a).spaceLen blockSize ∧ k ≤ remaining + 1 ∧
            (k = remaining + 1 ∨ k = (b.block a).spaceLen blockSize) := by
          subst hk
          split <;> omega
        have hrep' := commit_block hrep hchain hfull hempty hk'.1 hk'.2.1
        obtain ⟨hdata, hspace⟩ := commit_cells hnodup hfull hempty hk'.2.1
        have hholds := Holds.with_end hrep'
        rw [hdata, hspace] at hholds
        simp only [commitLoop, hblock (Nat.succ_pos _), hstepper, List.head?_cons, next,
          Option.bind_eq_bind, Option.bind_some, Block.commit, hk]
        obtain ⟨b', hloop, hholds', hbeside⟩ := ih (remaining + 1 - k) _ _ _
          (b.block a).next (by omega) hholds (by rw [List.length_drop]; omega) (by
            intro hmore
            have hkspace : k = (b.block a).spaceLen blockSize := by omega
            have hfilled : Block.spaceLen blockSize
                { b.block a with len := (b.block a).len + k } = 0 := by
              unfold Block.spaceLen at hkspace ⊢
              show _ - (b.block a).offset - ((b.block a).len + k) = 0
              omega
            exact (spaceStepper_filled b hfilled).symm)
        refine ⟨b', hloop, ?_, hbeside.bytes, hbeside.data_size, hbeside.reserved,
          hbeside.peeked⟩
        have hsum : remaining + 1 = k + (remaining + 1 - k) := by omega
        rw [hsum, List.take_add, ← List.drop_drop, ← List.append_assoc]
        exact hholds'

end BasicBuffer
end Proxy
