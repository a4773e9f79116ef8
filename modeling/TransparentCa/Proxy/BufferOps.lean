import TransparentCa.Proxy.BufferDrain

/- The operations of the buffer on its cells: one lemma for each says how it moves data and
   space, that it ends, that no `assert` fails, and that nothing beside the cells changes. The
   cells of all blocks are what was drained of the first one, the data, and the space, so
   that `space_size` is the number of space cells. -/
namespace Proxy
open LinkedList

namespace BasicBuffer

variable {blockSize : Nat}

/-! ## Peek and the sizes -/

theorem peekLoop_spec {b : BasicBuffer blockSize} {p : Option Addr} {l l' : List Addr}
    {ret : List SysBuf} {fuel : Nat} (hlinked : Linked (fun y => (b.block y).next) p (l ++ l'))
    (hdata : ∀ a ∈ l, 0 < (b.block a).len) (hempty : ∀ a ∈ l', (b.block a).len = 0)
    (hfuel : l.length ≤ fuel) : b.peekLoop fuel p ret = some (ret ++ l.map b.dataBuf) := by
  induction l generalizing p ret fuel with
  | nil =>
    cases l' with
    | nil =>
      rw [show p = none from hlinked]
      unfold peekLoop
      simp
    | cons a l' =>
      rw [hlinked.1]
      unfold peekLoop
      simp [hempty a List.mem_cons_self]
  | cons a l ih =>
    cases fuel with
    | zero => simp at hfuel
    | succ fuel =>
      have hlen := hdata a List.mem_cons_self
      rw [hlinked.1]
      unfold peekLoop
      rw [if_pos hlen]
      simp only
      rw [ih hlinked.2 (fun x hx => hdata x (List.mem_cons_of_mem a hx)) (by simpa using hfuel)]
      simp [dataBuf]

/-- The blocks with data come first. -/
theorem Rep.split_data {b : BasicBuffer blockSize} {front rear : List Addr}
    (hrep : b.Rep front rear) : ∃ l l', front ++ rear = l ++ l' ∧
      (∀ a ∈ l, 0 < (b.block a).len) ∧ ∀ a ∈ l', (b.block a).len = 0 := by
  cases rear with
  | nil =>
    rw [hrep.front_nil rfl]
    exact ⟨[], [], rfl, nofun, nofun⟩
  | cons e back =>
    by_cases hlen : 0 < (b.block e).len
    · refine ⟨front ++ [e], back, by simp, fun a ha => ?_, hrep.empty⟩
      rcases List.mem_append.mp ha with ha | ha
      · exact (hrep.full a ha).2
      · rw [List.mem_singleton.mp ha]
        exact hlen
    · refine ⟨front, e :: back, rfl, fun a ha => (hrep.full a ha).2, fun a ha => ?_⟩
      rcases List.mem_cons.mp ha with rfl | ha
      · omega
      · exact hrep.empty a ha

theorem peek_spec {b : BasicBuffer blockSize} {data space : List Cell} (h : b.Holds data space)
    (hpeeked : b.peeked_ = false) {fuel : Nat} (hfuel : b.block_cnt_ ≤ fuel) :
    ∃ ret, b.peek fuel = some (ret, { b with peeked_ := true }) ∧ cells ret = data := by
  obtain ⟨front, rear, hrep, rfl, rfl⟩ := h
  obtain ⟨l, l', hsplit, hdata, hempty⟩ := hrep.split_data
  have hlinked := hrep.linked
  have hcount := hrep.count
  rw [hsplit] at hlinked hcount
  have hlength : l.length ≤ fuel := by
    rw [List.length_append] at hcount
    omega
  have hloop : ({ b with peeked_ := true } : BasicBuffer blockSize).peekLoop fuel b.head_ [] =
      some ([] ++ l.map b.dataBuf) := peekLoop_spec hlinked hdata hempty hlength
  refine ⟨l.map b.dataBuf, ?_, ?_⟩
  · simp only [peek, hpeeked, Bool.false_eq_true, if_false]
    rw [hloop]
    rfl
  · rw [hsplit, dataCells_append, dataCells_eq_nil hempty, List.append_nil]
    rfl

/-- All cells of the blocks `l`. -/
def blockCells (blockSize : Nat) (l : List Addr) : List Cell :=
  cells (l.map (fun a => ⟨a, 0, Block.capacity blockSize⟩))

/-- The cells of one block: drained, data, space. -/
theorem block_cells {b : BasicBuffer blockSize} {a : Addr}
    (hbound : (b.block a).offset + (b.block a).len ≤ Block.capacity blockSize) :
    SysBuf.cells ⟨a, 0, Block.capacity blockSize⟩ =
      SysBuf.cells ⟨a, 0, (b.block a).offset⟩ ++ ((b.dataBuf a).cells ++ (b.spaceBuf a).cells) := by
  have hspace : Block.capacity blockSize =
      (b.block a).offset + ((b.block a).len + (b.block a).spaceLen blockSize) := by
    unfold Block.spaceLen
    omega
  have hfirst := @List.range'_append_1 0 (b.block a).offset
    ((b.block a).len + (b.block a).spaceLen blockSize)
  rw [Nat.zero_add] at hfirst
  simp only [SysBuf.cells, dataBuf, spaceBuf, Block.spaceHead]
  rw [← List.map_append, ← List.map_append, List.range'_append_1, hfirst, ← hspace]

theorem blockCells_append (l l' : List Addr) :
    blockCells blockSize (l ++ l') = blockCells blockSize l ++ blockCells blockSize l' := by
  simp [blockCells]

theorem blockCells_cons (a : Addr) (l : List Addr) :
    blockCells blockSize (a :: l) =
      SysBuf.cells ⟨a, 0, Block.capacity blockSize⟩ ++ blockCells blockSize l := rfl

theorem blockCells_full {b : BasicBuffer blockSize} {l : List Addr} (hfull : ∀ a ∈ l, b.Full a)
    (hoffset : ∀ a ∈ l, (b.block a).offset = 0) : blockCells blockSize l = b.dataCells l := by
  induction l with
  | nil => rfl
  | cons a l ih =>
    have hlen := (hfull a List.mem_cons_self).1
    rw [hoffset a List.mem_cons_self, Nat.zero_add] at hlen
    rw [blockCells_cons, dataCells_cons, ih (fun x hx => hfull x (List.mem_cons_of_mem a hx))
      (fun x hx => hoffset x (List.mem_cons_of_mem a hx))]
    simp only [dataBuf, hoffset a List.mem_cons_self, hlen]

theorem blockCells_empty {b : BasicBuffer blockSize} {l : List Addr}
    (hempty : ∀ a ∈ l, (b.block a).len = 0) (hoffset : ∀ a ∈ l, (b.block a).offset = 0) :
    blockCells blockSize l = b.spaceCells l := by
  induction l with
  | nil => rfl
  | cons a l ih =>
    rw [blockCells_cons, spaceCells_cons, ih (fun x hx => hempty x (List.mem_cons_of_mem a hx))
      (fun x hx => hoffset x (List.mem_cons_of_mem a hx))]
    simp [spaceBuf, Block.spaceHead, Block.spaceLen, hoffset a List.mem_cons_self,
      hempty a List.mem_cons_self]

/-- The cells of all blocks: what was drained of the first one, the data, the space. -/
theorem Rep.layout {b : BasicBuffer blockSize} {front rear : List Addr} (hrep : b.Rep front rear) :
    blockCells blockSize (front ++ rear) =
      cells ((front ++ rear).head?.toList.map (fun h => ⟨h, 0, (b.block h).offset⟩)) ++
        (b.dataCells (front ++ rear) ++ b.spaceCells (front ++ rear)) := by
  cases rear with
  | nil =>
    rw [hrep.front_nil rfl]
    rfl
  | cons e back =>
    have hbound := hrep.bounded e rfl
    have hlen : ∀ a ∈ back, (b.block a).len = 0 := hrep.empty
    have hback : b.dataCells back = [] := dataCells_eq_nil hlen
    have hoffset := hrep.offset
    cases front with
    | nil =>
      simp only [List.nil_append, List.tail_cons] at hoffset
      rw [List.nil_append, blockCells_cons, dataCells_cons, spaceCells_cons, hback,
        blockCells_empty hlen hoffset, block_cells hbound]
      simp
    | cons h front =>
      simp only [List.cons_append, List.tail_cons] at hoffset
      have hfull := hrep.full h List.mem_cons_self
      have hrest : ∀ a ∈ front, b.Full a := fun a ha => hrep.full a (List.mem_cons_of_mem h ha)
      have hnil : b.spaceCells (h :: front) = [] :=
        spaceCells_eq_nil (fun a ha => (hrep.full a ha).spaceLen_eq)
      have hspace : (b.spaceBuf h).cells = [] := cells_eq_nil hfull.spaceLen_eq
      have he : SysBuf.cells ⟨e, 0, (b.block e).offset⟩ = [] := by
        apply cells_eq_nil
        exact hoffset e (by simp)
      rw [List.cons_append, blockCells_cons, blockCells_append, blockCells_cons,
        blockCells_full hrest (fun a ha => hoffset a (by simp [ha])),
        blockCells_empty hlen (fun a ha => hoffset a (by simp [ha])),
        block_cells (Nat.le_of_eq hfull.1), block_cells hbound, he, hspace,
        ← List.cons_append, spaceCells_append, hnil, spaceCells_cons, dataCells_append,
        dataCells_cons, dataCells_cons, hback]
      simp

theorem nodup_blockCells {l : List Addr} (h : l.Nodup) : (blockCells blockSize l).Nodup := by
  unfold blockCells cells
  rw [List.flatMap_map, List.nodup_flatMap]
  refine ⟨fun a _ => ?_, h.imp ?_⟩
  · refine List.Nodup.map ?_ List.nodup_range'
    intro i j hij
    exact (Prod.mk.inj hij).2
  · intro a a' hne x hx hx'
    simp only [SysBuf.cells, List.mem_map] at hx hx'
    obtain ⟨i, -, rfl⟩ := hx
    obtain ⟨j, -, hj⟩ := hx'
    exact hne (Prod.mk.inj hj).1.symm

/-- The blocks of the buffer: `block_cnt_` of them, from `head_` on. -/
def blocks (b : BasicBuffer blockSize) : List Addr :=
  follow b.block_cnt_ b.head_
where
  follow : Nat → Option Addr → List Addr
    | 0, _ => []
    | _ + 1, none => []
    | n + 1, some a => a :: follow n (b.block a).next

theorem Rep.blocks_eq {b : BasicBuffer blockSize} {front rear : List Addr}
    (hrep : b.Rep front rear) : b.blocks = front ++ rear := by
  have hfollow : ∀ (l : List Addr) (p : Option Addr), Linked (fun y => (b.block y).next) p l →
      blocks.follow b l.length p = l := by
    intro l
    induction l with
    | nil => exact fun _ _ => rfl
    | cons a l ih =>
      intro p hp
      rw [hp.1, List.length_cons]
      unfold blocks.follow
      rw [ih _ hp.2]
  unfold blocks
  rw [hrep.count]
  exact hfollow _ _ hrep.linked

theorem Holds.layout {b : BasicBuffer blockSize} {data space : List Cell} (h : b.Holds data space) :
    ∃ drained, blockCells blockSize b.blocks = drained ++ (data ++ space) := by
  obtain ⟨front, rear, hrep, rfl, rfl⟩ := h
  rw [hrep.blocks_eq]
  exact ⟨_, hrep.layout⟩

theorem Holds.nodup {b : BasicBuffer blockSize} {data space : List Cell} (h : b.Holds data space) :
    (data ++ space).Nodup := by
  obtain ⟨drained, hlayout⟩ := h.layout
  obtain ⟨front, rear, hrep, -, -⟩ := h
  have hnodup : (blockCells blockSize b.blocks).Nodup := by
    rw [hrep.blocks_eq]
    exact nodup_blockCells hrep.nodup
  rw [hlayout] at hnodup
  exact (List.nodup_append.mp hnodup).2.1

theorem Holds.spaceSize {b : BasicBuffer blockSize} {data space : List Cell}
    (h : b.Holds data space) (hsize : b.data_size_ = data.length) :
    b.spaceSize = space.length := by
  obtain ⟨front, rear, hrep, rfl, rfl⟩ := h
  have hlayout := congrArg List.length hrep.layout
  unfold BasicBuffer.spaceSize
  rw [hrep.linked.head]
  cases hchain : front ++ rear with
  | nil => rfl
  | cons h l =>
    have hcount := hrep.count
    rw [hchain] at hlayout hcount hsize
    have hcells : (blockCells blockSize (h :: l)).length =
        (h :: l).length * Block.capacity blockSize := by
      generalize h :: l = l'
      induction l' with
      | nil => simp [blockCells]
      | cons a l' ih =>
        rw [blockCells_cons, List.length_append, ih, length_sysBuf_cells, List.length_cons]
        simp only
        rw [Nat.add_mul]
        omega
    rw [hcells, ← hcount] at hlayout
    simp only [List.head?_cons, Option.toList_some, List.map_cons, List.map_nil, cells_cons,
      cells_nil, List.append_nil, List.length_append, length_sysBuf_cells] at hlayout ⊢
    omega

/-! ## The operations on the cells -/

theorem Holds.head_ne_none {b : BasicBuffer blockSize} {data space : List Cell}
    (h : b.Holds data space) (hspace : space ≠ []) : b.head_ ≠ none := by
  obtain ⟨front, rear, hrep, -, rfl⟩ := h
  intro hnone
  apply hspace
  have hhead := hrep.linked.head
  rw [hnone] at hhead
  rw [List.head?_eq_none_iff.mp hhead.symm]
  rfl

theorem commit_spec {b : BasicBuffer blockSize} {data space : List Cell}
    (hcap : 0 < Block.capacity blockSize) (h : b.Holds data space)
    (hsize : b.data_size_ = data.length) (hreserved : b.reserved_ = true) (hspace : space ≠ [])
    {fuel size : Nat} (hle : size ≤ space.length) (hfuel : size ≤ fuel) :
    ∃ b', b.commit fuel size = some b' ∧ b'.Holds (data ++ space.take size) (space.drop size) ∧
      Beside { b with data_size_ := b.data_size_ + size, reserved_ := false } b' := by
  have hassert : b.reserved_ ∧ b.head_ ≠ none ∧ size ≤ b.spaceSize := by
    refine ⟨hreserved, h.head_ne_none hspace, ?_⟩
    rw [h.spaceSize hsize]
    exact hle
  obtain ⟨b', hloop, hholds, hbeside⟩ :=
    commitLoop_spec hcap fuel size data space b _ hfuel h hle (fun _ => rfl)
  refine ⟨{ b' with data_size_ := b'.data_size_ + size, reserved_ := false }, ?_,
    hholds.with_flags _ false b'.peeked_, ?_⟩
  · unfold commit
    rw [if_pos hassert, hloop]
    rfl
  · exact ⟨hbeside.bytes, congrArg (· + size) hbeside.data_size, rfl, hbeside.peeked⟩

/-- In an empty buffer no block comes before `end_`, and the first block has no data left. -/
theorem Rep.of_empty {b : BasicBuffer blockSize} {front rear : List Addr} {h : Addr}
    (hrep : b.Rep front rear) (hdata : b.dataCells (front ++ rear) = [])
    (hhead : b.head_ = some h) :
    ∃ back, front = [] ∧ rear = h :: back ∧ (b.block h).len = 0 ∧ b.dataCells back = [] := by
  cases front with
  | cons z front =>
    -- A block before `end_` is full of data.
    have hlen := congrArg List.length hdata
    have hpos : 0 < (b.dataBuf z).len := (hrep.full z List.mem_cons_self).2
    rw [List.cons_append, dataCells_cons, List.length_append, length_sysBuf_cells] at hlen
    simp only [List.length_nil] at hlen
    omega
  | nil =>
    have hlinked := hrep.linked.head
    rw [hhead, List.nil_append] at hlinked
    cases rear with
    | nil => cases hlinked
    | cons z back =>
      obtain rfl : h = z := Option.some.inj hlinked
      rw [List.nil_append, dataCells_cons, List.append_eq_nil_iff] at hdata
      have hcells := congrArg List.length hdata.1
      rw [length_sysBuf_cells] at hcells
      exact ⟨back, rfl, rfl, hcells, hdata.2⟩

/-- The first block starts over when it has no data left. -/
theorem reset_block {b : BasicBuffer blockSize} {back : List Addr} {h : Addr}
    (hcap : 0 < Block.capacity blockSize) (hrep : b.Rep [] (h :: back))
    (hlen : (b.block h).len = 0) :
    (b.setBlock h { b.block h with offset := 0 }).Rep [] (h :: back) := by
  have hnodup := List.nodup_cons.mp hrep.nodup
  have hsame : ∀ y ∈ back, (b.setBlock h { b.block h with offset := 0 }).block y = b.block y :=
    fun _ hy => setBlock_block_of_ne b _ (ne_of_mem_of_not_mem hy hnodup.1)
  exact
    { linked := setBlock_linked hrep.linked rfl
      nodup := hrep.nodup
      count := hrep.count
      end_eq := hrep.end_eq
      tail_eq := hrep.tail_eq
      front_nil := fun _ => rfl
      offset := fun y hy => by rw [hsame y hy]; exact hrep.offset y hy
      full := nofun
      bounded := by
        intro e he
        obtain rfl := Option.some.inj he
        rw [setBlock_block_self]
        show 0 + (b.block h).len ≤ _
        omega
      last := by
        intro e he
        obtain rfl := Option.some.inj he
        rw [setBlock_block_self]
        exact .inr ⟨rfl, hcap⟩
      empty := fun y hy => by rw [hsame y hy]; exact hrep.empty y hy
      owns := hrep.owns.setBlock h _ }

/-- An empty buffer may start its first block over: the space begins earlier. -/
theorem reset_spec {b : BasicBuffer blockSize} {space : List Cell} {h : Addr}
    (hcap : 0 < Block.capacity blockSize) (hb : b.Holds [] space) (hhead : b.head_ = some h) :
    (b.setBlock h { b.block h with offset := 0 }).Holds []
      (SysBuf.cells ⟨h, 0, (b.block h).offset⟩ ++ space) := by
  obtain ⟨front, rear, hrep, hdata, rfl⟩ := hb
  obtain ⟨back, rfl, rfl, hlen, hback⟩ := hrep.of_empty hdata hhead
  have hreset := reset_block hcap hrep hlen
  have hnodup := List.nodup_cons.mp hrep.nodup
  have hbound := hrep.bounded h rfl
  generalize hb' : b.setBlock h { b.block h with offset := 0 } = b' at hreset ⊢
  have hself : b'.block h = { b.block h with offset := 0 } := by
    rw [← hb', setBlock_block_self]
  have hplace : SamePlace b b' back := by
    intro y hy
    rw [← hb', setBlock_block_of_ne b _ (ne_of_mem_of_not_mem hy hnodup.1)]
    exact ⟨rfl, rfl⟩
  have hcells : (b'.spaceBuf h).cells =
      SysBuf.cells ⟨h, 0, (b.block h).offset⟩ ++ (b.spaceBuf h).cells := by
    -- Without data, the cells of the block are its offset and its space.
    have hwhole := block_cells hbound
    have hdata' : (b.dataBuf h).cells = [] := cells_eq_nil hlen
    rw [hdata', List.nil_append] at hwhole
    rw [← hwhole]
    simp [spaceBuf, hself, Block.spaceHead, Block.spaceLen, hlen]
  refine ⟨[], h :: back, hreset, ?_, ?_⟩
  · rw [List.nil_append, dataCells_cons, hplace.dataCells, hback, List.append_nil]
    apply cells_eq_nil
    simp only [dataBuf, hself, hlen]
  · rw [List.nil_append, spaceCells_cons, spaceCells_cons, hplace.spaceCells, hcells,
      List.append_assoc]

/-- What `Drain` does after its loop when data is left. -/
theorem drained_of_data {b : BasicBuffer blockSize} {data space : List Cell} {size : Nat}
    (h : b.Holds data space) (hsize : b.data_size_ - size = data.length) (hdata : data ≠ []) :
    (b.drained size).Holds data space ∧
      Beside { b with data_size_ := b.data_size_ - size, peeked_ := false } (b.drained size) := by
  have hne : ¬ b.data_size_ - size = 0 := by
    rw [hsize]
    exact fun hnil => hdata (List.length_eq_zero_iff.mp hnil)
  have hsame : b.drained size =
      { b with data_size_ := b.data_size_ - size, peeked_ := false } := by
    unfold drained
    simp only [hne, if_false, false_and]
    cases b.head_ <;> rfl
  rw [hsame]
  exact ⟨h.with_flags _ b.reserved_ false, rfl, rfl, rfl, rfl⟩

/-- What `Drain` does after its loop when the buffer is empty. -/
theorem drained_of_empty {b : BasicBuffer blockSize} {space : List Cell} {size : Nat}
    (hcap : 0 < Block.capacity blockSize)
    (h : ({ b with end_ := b.head_ } : BasicBuffer blockSize).Holds [] space)
    (hsize : b.data_size_ - size = 0) :
    (∃ again, (b.drained size).Holds [] (again ++ space) ∧ (b.reserved_ = true → again = [])) ∧
      Beside { b with data_size_ := b.data_size_ - size, peeked_ := false } (b.drained size) := by
  have hholds := h.with_flags (b.data_size_ - size) b.reserved_ false
  unfold drained
  simp only [hsize, if_true, true_and] at hholds ⊢
  cases hhead : b.head_ with
  | none =>
    rw [hhead] at hholds
    exact ⟨⟨[], hholds, fun _ => rfl⟩, rfl, rfl, rfl, rfl⟩
  | some a =>
    rw [hhead] at hholds
    by_cases hreserved : b.reserved_ = false
    · simp only [hreserved, if_true] at hholds ⊢
      exact ⟨⟨_, reset_spec hcap hholds rfl, fun htrue => by cases htrue⟩, rfl, rfl, rfl, rfl⟩
    · simp only [if_neg hreserved]
      exact ⟨⟨[], hholds, fun _ => rfl⟩, rfl, rfl, rfl, rfl⟩

theorem drain_spec {b : BasicBuffer blockSize} {data space : List Cell}
    (hcap : 0 < Block.capacity blockSize) (h : b.Holds data space)
    (hsize : b.data_size_ = data.length) (hpeeked : b.peeked_ = true) {fuel size : Nat}
    (hle : size ≤ data.length) (hfuel : size ≤ fuel) :
    ∃ b' again, b.drain fuel size = some b' ∧ b'.Holds (data.drop size) (again ++ space) ∧
      (b.reserved_ = true → again = []) ∧
      Beside { b with data_size_ := b.data_size_ - size, peeked_ := false } b' := by
  obtain ⟨b₁, hloop, hbeside, hsome, hall⟩ :=
    drainLoop_spec hcap fuel size data space b hfuel h hle
  have hassert : b.peeked_ ∧ size ≤ b.data_size_ := ⟨hpeeked, by rw [hsize]; exact hle⟩
  have hdrain : b.drain fuel size = some (b₁.drained size) := by
    unfold drain
    rw [if_pos hassert, hloop]
    rfl
  have hleft : b₁.data_size_ - size = (data.drop size).length := by
    rw [hbeside.data_size, hsize, List.length_drop]
  have hflags : ∀ {b₂ : BasicBuffer blockSize},
      Beside { b₁ with data_size_ := b₁.data_size_ - size, peeked_ := false } b₂ →
      Beside { b with data_size_ := b.data_size_ - size, peeked_ := false } b₂ := by
    intro b₂ h₂
    exact ⟨h₂.bytes.trans hbeside.bytes,
      h₂.data_size.trans (congrArg (· - size) hbeside.data_size),
      h₂.reserved.trans hbeside.reserved, h₂.peeked⟩
  rcases Nat.lt_or_eq_of_le hle with hlt | heq
  · have hne : data.drop size ≠ [] := by
      intro hnil
      have hlen := congrArg List.length hnil
      rw [List.length_drop, List.length_nil] at hlen
      omega
    obtain ⟨hholds, hrest⟩ := drained_of_data (hsome hlt) hleft hne
    exact ⟨_, [], hdrain, hholds, fun _ => rfl, hflags hrest⟩
  · have hnil : data.drop size = [] := by rw [heq, List.drop_length]
    rw [hnil] at hleft ⊢
    obtain ⟨⟨again, hholds, hagain⟩, hrest⟩ := drained_of_empty hcap (hall heq) hleft
    refine ⟨_, again, hdrain, hholds, fun hreserved => hagain ?_, hflags hrest⟩
    rw [hbeside.reserved]
    exact hreserved

end BasicBuffer
end Proxy
