import TransparentCa.Proxy.BufferOps

/- The buffer is a queue of bytes. A `Client` uses a buffer as asynchronous IO does: it holds
   the ranges of at most one reservation and of at most one peek, and reserving, writing,
   committing, peeking and draining may come in any order that respects this; other buffers
   may use the heap and the free list in between. `queue` is the specification: what was
   found in the reserved ranges at each commit, less what was drained. In every reachable
   state the buffer agrees with it, when a block can be allocated at all (`client_fifo_iff`). -/
namespace Proxy

/-! ## Loops that end -/

/-- The computation ends with `r`, given enough rounds. -/
def Ends {α : Type} (f : Nat → Option α) (r : α) : Prop :=
  ∃ rounds, ∀ fuel, rounds ≤ fuel → f fuel = some r

theorem Ends.unique {α : Type} {f : Nat → Option α} {r r' : α} (h : Ends f r) (h' : Ends f r') :
    r = r' := by
  obtain ⟨n, hn⟩ := h
  obtain ⟨n', hn'⟩ := h'
  have heq := (hn (max n n') (Nat.le_max_left ..)).symm.trans (hn' _ (Nat.le_max_right ..))
  exact Option.some.inj heq

theorem Ends.of_mono {α : Type} {f : Nat → Option α} {r : α} {rounds : Nat}
    (hmono : ∀ fuel r, f fuel = some r → f (fuel + 1) = some r) (h : f rounds = some r) :
    Ends f r := by
  refine ⟨rounds, fun fuel hfuel => ?_⟩
  induction hfuel with
  | refl => exact h
  | step _ ih => exact hmono _ r ih

namespace BasicBuffer

variable {blockSize : Nat}

theorem reserveLoop_mono (fuel : Nat) : ∀ (remaining : Nat) (p : Option Addr) (ret : List SysBuf)
    (b : BasicBuffer blockSize) (r : List SysBuf × BasicBuffer blockSize),
    reserveLoop fuel remaining p ret b = some r →
      reserveLoop (fuel + 1) remaining p ret b = some r := by
  induction fuel with
  | zero =>
    intro remaining p ret b r h
    cases remaining with
    | zero => simpa [reserveLoop] using h
    | succ remaining => simp [reserveLoop] at h
  | succ fuel ih =>
    intro remaining p ret b r h
    cases remaining with
    | zero => simpa [reserveLoop] using h
    | succ remaining =>
      unfold reserveLoop at h ⊢
      cases hnext : b.next p with
      | none => simp [hnext] at h
      | some x =>
        rw [hnext] at h
        exact ih _ _ _ _ r h

theorem reserveAtLeastLoop_mono (fuel : Nat) : ∀ (size reservedSize : Nat) (p : Option Addr)
    (ret : List SysBuf) (b : BasicBuffer blockSize) (r : List SysBuf × Nat × BasicBuffer blockSize),
    reserveAtLeastLoop fuel size reservedSize p ret b = some r →
      reserveAtLeastLoop (fuel + 1) size reservedSize p ret b = some r := by
  induction fuel with
  | zero =>
    intro size reservedSize p ret b r h
    unfold reserveAtLeastLoop at h ⊢
    by_cases hmore : reservedSize < size
    · simp [hmore] at h
    · simpa [hmore] using h
  | succ fuel ih =>
    intro size reservedSize p ret b r h
    unfold reserveAtLeastLoop at h ⊢
    by_cases hmore : reservedSize < size
    · simp only [hmore, if_true] at h ⊢
      cases hnext : b.next p with
      | none => simp [hnext] at h
      | some x =>
        rw [hnext] at h
        exact ih _ _ _ _ _ r h
    · simpa [hmore] using h

theorem commitLoop_mono (fuel : Nat) : ∀ (remaining : Nat) (p : Option Addr)
    (b r : BasicBuffer blockSize), commitLoop fuel remaining p b = some r →
      commitLoop (fuel + 1) remaining p b = some r := by
  induction fuel with
  | zero =>
    intro remaining p b r h
    cases remaining with
    | zero => simpa [commitLoop] using h
    | succ remaining => simp [commitLoop] at h
  | succ fuel ih =>
    intro remaining p b r h
    cases remaining with
    | zero => simpa [commitLoop] using h
    | succ remaining =>
      unfold commitLoop at h ⊢
      cases hnext : b.next p with
      | none => simp [hnext] at h
      | some x =>
        rw [hnext] at h
        exact ih _ _ _ r h

theorem drainLoop_mono (fuel : Nat) : ∀ (remaining : Nat) (b r : BasicBuffer blockSize),
    drainLoop fuel remaining b = some r → drainLoop (fuel + 1) remaining b = some r := by
  induction fuel with
  | zero =>
    intro remaining b r h
    cases remaining with
    | zero => simpa [drainLoop] using h
    | succ remaining => simp [drainLoop] at h
  | succ fuel ih =>
    intro remaining b r h
    cases remaining with
    | zero => simpa [drainLoop] using h
    | succ remaining =>
      unfold drainLoop at h ⊢
      cases hhead : b.head_ with
      | none => simp [hhead] at h
      | some x =>
        simp only [hhead, Option.bind_eq_bind, Option.bind_some] at h ⊢
        split at h
        · next hgone =>
          rw [if_pos hgone]
          exact ih _ _ r h
        · next hstay =>
          rw [if_neg hstay]
          exact ih _ _ r h

theorem peekLoop_mono (b : BasicBuffer blockSize) (fuel : Nat) : ∀ (p : Option Addr)
    (ret r : List SysBuf), b.peekLoop fuel p ret = some r →
      b.peekLoop (fuel + 1) p ret = some r := by
  induction fuel with
  | zero =>
    intro p ret r h
    cases p with
    | none => simpa [peekLoop] using h
    | some a =>
      unfold peekLoop at h ⊢
      by_cases hlen : (b.block a).len > 0
      · simp [hlen] at h
      · simpa [hlen] using h
  | succ fuel ih =>
    intro p ret r h
    cases p with
    | none => simpa [peekLoop] using h
    | some a =>
      unfold peekLoop at h ⊢
      by_cases hlen : (b.block a).len > 0
      · simp only [hlen, if_true] at h ⊢
        exact ih _ _ r h
      · simpa [hlen] using h

section
variable {b : BasicBuffer blockSize}

theorem ends_reserve {size : Nat} {r : List SysBuf × BasicBuffer blockSize}
    (h : b.reserve size size = some r) : Ends (fun fuel => b.reserve fuel size) r := by
  refine Ends.of_mono (fun fuel r h => ?_) h
  unfold reserve at h ⊢
  cases hreserved : b.reserved_ with
  | true => simp [hreserved] at h
  | false =>
    simp only [hreserved, Bool.false_eq_true, if_false] at h ⊢
    exact reserveLoop_mono fuel _ _ _ _ r h

theorem ends_reserveAtLeast {size : Nat} {r : List SysBuf × Nat × BasicBuffer blockSize}
    (h : b.reserveAtLeast size size = some r) :
    Ends (fun fuel => b.reserveAtLeast fuel size) r := by
  refine Ends.of_mono (fun fuel r h => ?_) h
  unfold reserveAtLeast at h ⊢
  cases hreserved : b.reserved_ with
  | true => simp [hreserved] at h
  | false =>
    simp only [hreserved, Bool.false_eq_true, if_false] at h ⊢
    exact reserveAtLeastLoop_mono fuel _ _ _ _ _ r h

theorem ends_commit {size : Nat} {r : BasicBuffer blockSize} (h : b.commit size size = some r) :
    Ends (fun fuel => b.commit fuel size) r := by
  refine Ends.of_mono (fun fuel r h => ?_) h
  unfold commit at h ⊢
  split at h
  · next hassert =>
    rw [if_pos hassert]
    cases hloop : commitLoop fuel size b.spaceStepper b with
    | none => simp [hloop] at h
    | some b' =>
      rw [hloop] at h
      rw [commitLoop_mono fuel _ _ _ _ hloop]
      exact h
  · cases h

theorem ends_drain {size : Nat} {r : BasicBuffer blockSize} (h : b.drain size size = some r) :
    Ends (fun fuel => b.drain fuel size) r := by
  refine Ends.of_mono (fun fuel r h => ?_) h
  unfold drain at h ⊢
  split at h
  · next hassert =>
    rw [if_pos hassert]
    cases hloop : drainLoop fuel size b with
    | none => simp [hloop] at h
    | some b' =>
      rw [hloop] at h
      rw [drainLoop_mono fuel _ _ _ hloop]
      exact h
  · cases h

theorem ends_peek {r : List SysBuf × BasicBuffer blockSize}
    (h : b.peek b.block_cnt_ = some r) : Ends (fun fuel => b.peek fuel) r := by
  refine Ends.of_mono (fun fuel r h => ?_) h
  unfold peek at h ⊢
  cases hpeeked : b.peeked_ with
  | true => simp [hpeeked] at h
  | false =>
    simp only [hpeeked, Bool.false_eq_true, if_false] at h ⊢
    cases hloop : peekLoop { b with peeked_ := true } fuel b.head_ [] with
    | none =>
      rw [hloop] at h
      cases h
    | some ret =>
      rw [hloop] at h
      rw [peekLoop_mono _ fuel _ _ _ hloop]
      exact h

end
end BasicBuffer

/-! ## Clients -/

/-- A buffer in use: the ranges of the outstanding reservation and of the outstanding peek,
and the bytes that were committed and not yet drained. -/
structure Client (blockSize : Nat) where
  buf : BasicBuffer blockSize
  reservation : Option (List SysBuf)
  view : Option (List SysBuf)
  queue : List UInt8

namespace Client

variable {blockSize : Nat}

/-- A buffer as it is constructed. -/
def init (heap : Heap) : Client blockSize := ⟨BasicBuffer.init heap, none, none, []⟩

inductive Step : Client blockSize → Client blockSize → Prop where
  | reserve (c : Client blockSize) (size : Nat) (ranges : List SysBuf)
      (buf : BasicBuffer blockSize) (hsize : 1 ≤ size) (hfree : c.reservation = none)
      (h : Ends (fun fuel => c.buf.reserve fuel size) (ranges, buf)) :
      Step c { c with buf := buf, reservation := some ranges }
  | reserveAtLeast (c : Client blockSize) (size reservedSize : Nat) (ranges : List SysBuf)
      (buf : BasicBuffer blockSize) (hsize : 1 ≤ size) (hfree : c.reservation = none)
      (h : Ends (fun fuel => c.buf.reserveAtLeast fuel size) (ranges, reservedSize, buf)) :
      Step c { c with buf := buf, reservation := some ranges }
  -- Whoever fills the reserved ranges may write there, and only there.
  | write (c : Client blockSize) (ranges : List SysBuf) (bytes : Addr → Nat → UInt8)
      (hranges : c.reservation = some ranges)
      (h : ∀ a i, (a, i) ∉ cells ranges → bytes a i = c.buf.heap.bytes a i) :
      Step c { c with buf := { c.buf with heap := { c.buf.heap with bytes := bytes } } }
  | commit (c : Client blockSize) (size : Nat) (ranges : List SysBuf)
      (buf : BasicBuffer blockSize) (hranges : c.reservation = some ranges)
      (hsize : size ≤ (cells ranges).length)
      (h : Ends (fun fuel => c.buf.commit fuel size) buf) :
      Step c { c with
        buf := buf
        reservation := none
        queue := c.queue ++ (gather c.buf.heap ranges).take size }
  | peek (c : Client blockSize) (ranges : List SysBuf) (buf : BasicBuffer blockSize)
      (hfree : c.view = none) (h : Ends (fun fuel => c.buf.peek fuel) (ranges, buf)) :
      Step c { c with buf := buf, view := some ranges }
  | drain (c : Client blockSize) (size : Nat) (ranges : List SysBuf)
      (buf : BasicBuffer blockSize) (hranges : c.view = some ranges)
      (hsize : size ≤ c.buf.dataSize) (h : Ends (fun fuel => c.buf.drain fuel size) buf) :
      Step c { c with buf := buf, view := none, queue := c.queue.drop size }
  -- Other buffers share the heap and the free list, and leave this buffer's blocks alone.
  | others (c : Client blockSize) (heap : Heap)
      (hblock : ∀ a ∈ c.buf.blocks, heap.block a = c.buf.heap.block a)
      (hbytes : ∀ a ∈ c.buf.blocks, heap.bytes a = c.buf.heap.bytes a)
      (howns : heap.Owns c.buf.blocks) :
      Step c { c with buf := { c.buf with heap := heap } }

inductive Reachable : Client blockSize → Prop where
  | init (heap : Heap) (h : heap.Owns []) : Reachable (init heap)
  | step {c c' : Client blockSize} (hc : Reachable c) (h : Step c c') : Reachable c'

/-- The buffer's cells are `data` and then `room`: the data cells hold the queue, the view
covers the first of them, and the reservation the first cells of the room. -/
structure Layout (c : Client blockSize) (data room : List Cell) : Prop where
  cells_eq : ∃ drained, BasicBuffer.blockCells blockSize c.buf.blocks = drained ++ (data ++ room)
  distinct : (data ++ room).Nodup
  queue_eq : data.map (fun x => c.buf.heap.bytes x.1 x.2) = c.queue
  data_size : c.buf.dataSize = c.queue.length
  space_size : c.buf.spaceSize = room.length
  view_eq : ∀ ranges ∈ c.view, cells ranges <+: data
  reservation_eq : ∀ ranges ∈ c.reservation, cells ranges <+: room

/-- The client after a commit of the first `size` bytes of its reservation `ranges`. -/
def committed (c : Client blockSize) (buf : BasicBuffer blockSize) (ranges : List SysBuf)
    (size : Nat) : Client blockSize :=
  { c with
    buf := buf
    reservation := none
    queue := c.queue ++ (gather c.buf.heap ranges).take size }

/-- The client after `size` bytes were drained. -/
def drained (c : Client blockSize) (buf : BasicBuffer blockSize) (size : Nat) : Client blockSize :=
  { c with buf := buf, view := none, queue := c.queue.drop size }

/-- The state of the buffer, and what each operation the client may call next does: it ends,
no `assert` fails, and the cells move as they should. -/
structure Fifo (c : Client blockSize) (data room : List Cell) : Prop where
  layout : c.Layout data room
  peek : c.view = none → ∃ ranges buf, Ends (fun fuel => c.buf.peek fuel) (ranges, buf) ∧
    cells ranges = data ∧ gather c.buf.heap ranges = c.queue
  reserve : c.reservation = none → ∀ size, 1 ≤ size → ∃ ranges buf extra,
    Ends (fun fuel => c.buf.reserve fuel size) (ranges, buf) ∧
    cells ranges = (room ++ extra).take size ∧ (cells ranges).length = size ∧
    Layout { c with buf := buf, reservation := some ranges } data (room ++ extra)
  reserveAtLeast : c.reservation = none → ∀ size, 1 ≤ size → ∃ ranges reservedSize buf extra,
    Ends (fun fuel => c.buf.reserveAtLeast fuel size) (ranges, reservedSize, buf) ∧
    cells ranges = (room ++ extra).take reservedSize ∧ (cells ranges).length = reservedSize ∧
    size ≤ reservedSize ∧
    Layout { c with buf := buf, reservation := some ranges } data (room ++ extra)
  commit : ∀ ranges ∈ c.reservation, ∀ size ≤ (cells ranges).length, ∃ buf,
    Ends (fun fuel => c.buf.commit fuel size) buf ∧
    (c.committed buf ranges size).Layout (data ++ (cells ranges).take size) (room.drop size)
  drain : c.view ≠ none → ∀ size ≤ c.buf.dataSize, ∃ buf again,
    Ends (fun fuel => c.buf.drain fuel size) buf ∧
    (c.drained buf size).Layout (data.drop size) (again ++ room)

/-! ## The invariant -/

structure Inv (c : Client blockSize) (data room : List Cell) : Prop where
  holds : c.buf.Holds data room
  size : c.buf.data_size_ = data.length
  queue_eq : data.map (fun x => c.buf.heap.bytes x.1 x.2) = c.queue
  reserved : c.buf.reserved_ = c.reservation.isSome
  peeked : c.buf.peeked_ = c.view.isSome
  view_eq : ∀ ranges ∈ c.view, cells ranges <+: data
  reservation_eq : ∀ ranges ∈ c.reservation, cells ranges <+: room ∧ cells ranges ≠ []

namespace Inv

variable {c : Client blockSize} {data room : List Cell}

theorem layout (h : c.Inv data room) : c.Layout data room where
  cells_eq := h.holds.layout
  distinct := h.holds.nodup
  queue_eq := h.queue_eq
  data_size := by
    rw [← h.queue_eq, List.length_map]
    exact h.size
  space_size := h.holds.spaceSize h.size
  view_eq := h.view_eq
  reservation_eq := fun ranges hranges => (h.reservation_eq ranges hranges).1

/-- A reservation covers the first cells of the room, which may have grown. -/
theorem reserve_of (h : c.Inv data room) {buf : BasicBuffer blockSize} {extra : List Cell}
    {ranges : List SysBuf} {n : Nat} (hn : 1 ≤ n) (hholds : buf.Holds data (room ++ extra))
    (hcells : cells ranges = (room ++ extra).take n) (hle : n ≤ (room ++ extra).length)
    (hbeside : BasicBuffer.Beside { c.buf with reserved_ := true } buf) :
    Inv { c with buf := buf, reservation := some ranges } data (room ++ extra) ∧
      (cells ranges).length = n := by
  have hlength : (cells ranges).length = n := by
    rw [hcells, List.length_take]
    omega
  refine ⟨?_, hlength⟩
  exact
    { holds := hholds
      size := hbeside.data_size.trans h.size
      queue_eq := by
        rw [← h.queue_eq]
        show List.map (fun x : Cell => buf.heap.bytes x.1 x.2) data = _
        rw [hbeside.bytes]
      reserved := hbeside.reserved
      peeked := hbeside.peeked.trans h.peeked
      view_eq := h.view_eq
      reservation_eq := by
        intro ranges' hranges'
        obtain rfl := Option.some.inj hranges'
        refine ⟨?_, fun hnil => ?_⟩
        · rw [hcells]
          exact List.take_prefix _ _
        · rw [hnil] at hlength
          simp at hlength
          omega }

theorem reserve (h : c.Inv data room) (hcap : 0 < Block.capacity blockSize)
    (halign : ValidAlignment blockSize) (hfree : c.reservation = none) {size : Nat} (hsize : 1 ≤ size) :
    ∃ ranges buf extra, Ends (fun fuel => c.buf.reserve fuel size) (ranges, buf) ∧
      cells ranges = (room ++ extra).take size ∧ (cells ranges).length = size ∧
      Inv { c with buf := buf, reservation := some ranges } data (room ++ extra) := by
  have hreserved : c.buf.reserved_ = false := by rw [h.reserved, hfree]; rfl
  obtain ⟨ranges, buf, extra, heq, hholds, hcells, hle, hbeside⟩ :=
    BasicBuffer.reserve_spec hcap halign h.holds hreserved (Nat.le_refl size)
  obtain ⟨hinv, hlength⟩ := h.reserve_of hsize hholds hcells hle hbeside
  exact ⟨ranges, buf, extra, BasicBuffer.ends_reserve heq, hcells, hlength, hinv⟩

theorem reserveAtLeast (h : c.Inv data room) (hcap : 0 < Block.capacity blockSize)
    (halign : ValidAlignment blockSize) (hfree : c.reservation = none) {size : Nat} (hsize : 1 ≤ size) :
    ∃ ranges n buf extra, Ends (fun fuel => c.buf.reserveAtLeast fuel size) (ranges, n, buf) ∧
      cells ranges = (room ++ extra).take n ∧ (cells ranges).length = n ∧ size ≤ n ∧
      Inv { c with buf := buf, reservation := some ranges } data (room ++ extra) := by
  have hreserved : c.buf.reserved_ = false := by rw [h.reserved, hfree]; rfl
  obtain ⟨ranges, n, buf, extra, heq, hn, hholds, hcells, hle, hbeside⟩ :=
    BasicBuffer.reserveAtLeast_spec hcap halign h.holds hreserved (Nat.le_refl size)
  obtain ⟨hinv, hlength⟩ := h.reserve_of (Nat.le_trans hsize hn) hholds hcells hle hbeside
  exact ⟨ranges, n, buf, extra, BasicBuffer.ends_reserveAtLeast heq, hcells, hlength, hn, hinv⟩

theorem commit (h : c.Inv data room) (hcap : 0 < Block.capacity blockSize)
    {ranges : List SysBuf} (hranges : c.reservation = some ranges) {size : Nat}
    (hsize : size ≤ (cells ranges).length) :
    ∃ buf, Ends (fun fuel => c.buf.commit fuel size) buf ∧
      (c.committed buf ranges size).Inv (data ++ (cells ranges).take size) (room.drop size) := by
  obtain ⟨⟨rest, hrest⟩, hne⟩ := h.reservation_eq ranges hranges
  have hroom : room ≠ [] := by
    rw [← hrest]
    exact List.append_ne_nil_of_left_ne_nil hne rest
  have htake : room.take size = (cells ranges).take size := by
    rw [← hrest]
    exact List.take_append_of_le_length hsize
  have hle : size ≤ room.length := by
    rw [← hrest, List.length_append]
    omega
  obtain ⟨buf, heq, hholds, hbeside⟩ := BasicBuffer.commit_spec hcap h.holds h.size
    (by rw [h.reserved, hranges]; rfl) hroom hle (Nat.le_refl size)
  rw [htake] at hholds
  refine ⟨buf, BasicBuffer.ends_commit heq, ?_⟩
  exact
    { holds := hholds
      size := by
        show buf.data_size_ = _
        rw [hbeside.data_size, List.length_append, List.length_take, Nat.min_eq_left hsize]
        exact congrArg (· + size) h.size
      queue_eq := by
        show List.map (fun x : Cell => buf.heap.bytes x.1 x.2) _ = c.queue ++ _
        rw [List.map_append, hbeside.bytes, ← h.queue_eq, gather, List.map_take]
      reserved := hbeside.reserved
      peeked := hbeside.peeked.trans h.peeked
      view_eq := fun view hview => (h.view_eq view hview).trans (List.prefix_append _ _)
      reservation_eq := nofun }

theorem peek (h : c.Inv data room) (hfree : c.view = none) :
    ∃ ranges buf, Ends (fun fuel => c.buf.peek fuel) (ranges, buf) ∧ cells ranges = data ∧
      gather c.buf.heap ranges = c.queue ∧
      Inv { c with buf := buf, view := some ranges } data room := by
  obtain ⟨ranges, heq, hcells⟩ := BasicBuffer.peek_spec h.holds
    (by rw [h.peeked, hfree]; rfl) (Nat.le_refl _)
  refine ⟨ranges, _, BasicBuffer.ends_peek heq, hcells, ?_, ?_⟩
  · rw [gather, hcells]
    exact h.queue_eq
  · exact
      { holds := h.holds.with_flags c.buf.data_size_ c.buf.reserved_ true
        size := h.size
        queue_eq := h.queue_eq
        reserved := h.reserved
        peeked := rfl
        view_eq := by
          intro ranges' hranges'
          obtain rfl := Option.some.inj hranges'
          rewrite [hcells]
          exact List.prefix_rfl
        reservation_eq := h.reservation_eq }

theorem drain (h : c.Inv data room) (hcap : 0 < Block.capacity blockSize) (hview : c.view ≠ none)
    {size : Nat} (hsize : size ≤ c.buf.dataSize) :
    ∃ buf again, Ends (fun fuel => c.buf.drain fuel size) buf ∧
      (c.drained buf size).Inv (data.drop size) (again ++ room) := by
  have hle : size ≤ data.length := by
    rw [← h.size]
    exact hsize
  obtain ⟨buf, again, heq, hholds, hagain, hbeside⟩ := BasicBuffer.drain_spec hcap h.holds h.size
    (by rw [h.peeked]; exact Option.isSome_iff_ne_none.mpr hview) hle (Nat.le_refl size)
  refine ⟨buf, again, BasicBuffer.ends_drain heq, ?_⟩
  exact
    { holds := hholds
      size := by
        show buf.data_size_ = _
        rw [hbeside.data_size, List.length_drop]
        exact congrArg (· - size) h.size
      queue_eq := by
        show List.map (fun x : Cell => buf.heap.bytes x.1 x.2) _ = c.queue.drop size
        rw [hbeside.bytes, ← h.queue_eq, List.map_drop]
      reserved := hbeside.reserved.trans h.reserved
      peeked := hbeside.peeked
      view_eq := nofun
      reservation_eq := by
        -- An outstanding reservation keeps the head block from starting over.
        intro ranges hranges
        have hreserved : c.buf.reserved_ = true := by
          rw [h.reserved]
          exact Option.isSome_iff_exists.mpr ⟨ranges, hranges⟩
        rw [hagain hreserved]
        exact h.reservation_eq ranges hranges }

/-- The cells lie in the buffer's blocks, whatever else the heap holds. -/
theorem holds_with_heap (h : c.buf.Holds data room) {heap : Heap}
    (hblock : ∀ a ∈ c.buf.blocks, heap.block a = c.buf.heap.block a)
    (howns : heap.Owns c.buf.blocks) :
    ({ c.buf with heap := heap } : BasicBuffer blockSize).Holds data room := by
  obtain ⟨front, rear, hrep, rfl, rfl⟩ := h
  rw [hrep.blocks_eq] at hblock howns
  have hfront : ∀ a ∈ front, heap.block a = c.buf.heap.block a :=
    fun a ha => hblock a (List.mem_append_left _ ha)
  have hrear : ∀ a ∈ rear, heap.block a = c.buf.heap.block a :=
    fun a ha => hblock a (List.mem_append_right _ ha)
  have hplace : BasicBuffer.SamePlace c.buf { c.buf with heap := heap } (front ++ rear) := by
    intro a ha
    simp only [BasicBuffer.block, hblock a ha, and_self]
  refine ⟨front, rear, ?_, hplace.dataCells, hplace.spaceCells⟩
  exact
    { linked := hrep.linked.congr (fun a ha => congrArg Block.next (hblock a ha))
      nodup := hrep.nodup
      count := hrep.count
      end_eq := hrep.end_eq
      tail_eq := hrep.tail_eq
      front_nil := hrep.front_nil
      offset := by
        intro a ha
        rw [(hplace a (List.mem_of_mem_tail ha)).1]
        exact hrep.offset a ha
      full := by
        intro a ha
        unfold BasicBuffer.Full BasicBuffer.block
        rw [hfront a ha]
        exact hrep.full a ha
      bounded := by
        intro e he
        unfold BasicBuffer.block
        rw [hrear e (List.mem_of_mem_head? he)]
        exact hrep.bounded e he
      last := by
        intro e he
        unfold BasicBuffer.block
        rw [hrear e (List.mem_of_mem_head? he)]
        exact hrep.last e he
      empty := by
        intro a ha
        unfold BasicBuffer.block
        rw [hrear a (List.mem_of_mem_tail ha)]
        exact hrep.empty a ha
      owns := howns }

/-- A data cell lies in one of the buffer's blocks. -/
theorem block_mem (h : c.Inv data room) {x : Cell} (hx : x ∈ data) : x.1 ∈ c.buf.blocks := by
  obtain ⟨drained, hlayout⟩ := h.holds.layout
  have hmem : x ∈ BasicBuffer.blockCells blockSize c.buf.blocks := by
    rw [hlayout]
    simp [hx]
  simp only [BasicBuffer.blockCells, cells, List.mem_flatMap, List.mem_map, SysBuf.cells] at hmem
  obtain ⟨r, ⟨a, ha, rfl⟩, i, -, rfl⟩ := hmem
  exact ha

/-- Another heap in which the buffer's headers and the data's bytes are the same. -/
theorem with_heap (h : c.Inv data room) {heap : Heap}
    (hblock : ∀ a ∈ c.buf.blocks, heap.block a = c.buf.heap.block a)
    (hbytes : ∀ x ∈ data, heap.bytes x.1 x.2 = c.buf.heap.bytes x.1 x.2)
    (howns : heap.Owns c.buf.blocks) :
    Inv { c with buf := ({ c.buf with heap := heap } : BasicBuffer blockSize) } data room where
  holds := holds_with_heap h.holds hblock howns
  size := h.size
  queue_eq := by
    rw [← h.queue_eq]
    exact List.map_congr_left hbytes
  reserved := h.reserved
  peeked := h.peeked
  view_eq := h.view_eq
  reservation_eq := h.reservation_eq

theorem owns (h : c.Inv data room) : c.buf.heap.Owns c.buf.blocks := by
  obtain ⟨front, rear, hrep, -, -⟩ := h.holds
  rw [hrep.blocks_eq]
  exact hrep.owns

/-- The reserved ranges and the data share no cell. -/
theorem not_reserved (h : c.Inv data room) {ranges : List SysBuf}
    (hranges : c.reservation = some ranges) {x : Cell} (hx : x ∈ data) : x ∉ cells ranges := by
  intro hmem
  have hroom : x ∈ room := (h.reservation_eq ranges hranges).1.subset hmem
  exact (List.nodup_append.mp h.holds.nodup).2.2 x hx x hroom rfl

end Inv

/-! ## Runs -/

theorem inv_init {heap : Heap} (h : heap.Owns []) : (init heap : Client blockSize).Inv [] [] where
  holds := by
    refine ⟨[], [], ?_, rfl, rfl⟩
    exact
      { linked := rfl
        nodup := List.nodup_nil
        count := rfl
        end_eq := rfl
        tail_eq := fun hne => (hne rfl).elim
        front_nil := fun _ => rfl
        offset := nofun
        full := nofun
        bounded := nofun
        last := nofun
        empty := nofun
        owns := h }
  size := rfl
  queue_eq := rfl
  reserved := rfl
  peeked := rfl
  view_eq := nofun
  reservation_eq := nofun

theorem inv_step {c c' : Client blockSize} (hcap : 0 < Block.capacity blockSize)
    (halign : ValidAlignment blockSize) (hstep : Step c c') {data room : List Cell} (h : c.Inv data room) :
    ∃ data' room', c'.Inv data' room' := by
  cases hstep with
  | reserve size ranges buf hsize hfree hends =>
    obtain ⟨ranges', buf', extra, hends', -, -, hinv⟩ := h.reserve hcap halign hfree hsize
    cases hends.unique hends'
    exact ⟨_, _, hinv⟩
  | reserveAtLeast size n ranges buf hsize hfree hends =>
    obtain ⟨ranges', n', buf', extra, hends', -, -, -, hinv⟩ := h.reserveAtLeast hcap halign hfree hsize
    cases hends.unique hends'
    exact ⟨_, _, hinv⟩
  | write ranges bytes hranges hkeep =>
    refine ⟨data, room, h.with_heap (fun _ _ => rfl) ?_ ?_⟩
    · intro x hx
      exact hkeep x.1 x.2 (h.not_reserved hranges hx)
    · exact ⟨h.owns.fresh, h.owns.free_fresh, h.owns.free_disjoint, h.owns.free_nodup⟩
  | commit size ranges buf hranges hsize hends =>
    obtain ⟨buf', hends', hinv⟩ := h.commit hcap hranges hsize
    cases hends.unique hends'
    exact ⟨_, _, hinv⟩
  | peek ranges buf hfree hends =>
    obtain ⟨ranges', buf', hends', -, -, hinv⟩ := h.peek hfree
    cases hends.unique hends'
    exact ⟨_, _, hinv⟩
  | drain size ranges buf hranges hsize hends =>
    have hview : c.view ≠ none := by
      rw [hranges]
      exact Option.some_ne_none ranges
    obtain ⟨buf', again, hends', hinv⟩ := h.drain hcap hview hsize
    cases hends.unique hends'
    exact ⟨_, _, hinv⟩
  | others heap hblock hbytes howns =>
    refine ⟨data, room, h.with_heap hblock (fun x hx => ?_) howns⟩
    exact congrFun (hbytes x.1 (h.block_mem hx)) x.2

theorem Reachable.inv {c : Client blockSize} (hcap : 0 < Block.capacity blockSize)
    (halign : ValidAlignment blockSize) (hc : Reachable c) : ∃ data room, c.Inv data room := by
  induction hc with
  | init heap h => exact ⟨[], [], inv_init h⟩
  | step _ hstep ih =>
    obtain ⟨data, room, h⟩ := ih
    exact inv_step hcap halign hstep h

theorem Inv.fifo {c : Client blockSize} {data room : List Cell}
    (hcap : 0 < Block.capacity blockSize) (halign : ValidAlignment blockSize)
    (h : c.Inv data room) : c.Fifo data room where
  layout := h.layout
  peek := by
    intro hfree
    obtain ⟨ranges, buf, hends, hcells, hgather, -⟩ := h.peek hfree
    exact ⟨ranges, buf, hends, hcells, hgather⟩
  reserve := by
    intro hfree size hsize
    obtain ⟨ranges, buf, extra, hends, hcells, hlength, hinv⟩ := h.reserve hcap halign hfree hsize
    exact ⟨ranges, buf, extra, hends, hcells, hlength, hinv.layout⟩
  reserveAtLeast := by
    intro hfree size hsize
    obtain ⟨ranges, n, buf, extra, hends, hcells, hlength, hn, hinv⟩ :=
      h.reserveAtLeast hcap halign hfree hsize
    exact ⟨ranges, n, buf, extra, hends, hcells, hlength, hn, hinv.layout⟩
  commit := by
    intro ranges hranges size hsize
    obtain ⟨buf, hends, hinv⟩ := h.commit hcap hranges hsize
    exact ⟨buf, hends, hinv.layout⟩
  drain := by
    intro hview size hsize
    obtain ⟨buf, again, hends, hinv⟩ := h.drain hcap hview hsize
    exact ⟨buf, again, hends, hinv.layout⟩

/-- However reserving, filling, committing, peeking and draining follow each other, the buffer
is a queue of the committed bytes, and the next operation does what it should. -/
theorem Reachable.fifo {c : Client blockSize} (hblock : sizeofBlock < blockSize)
    (halign : ValidAlignment blockSize) (hc : Reachable c) : ∃ data room, c.Fifo data room := by
  have hcap : 0 < Block.capacity blockSize := Nat.sub_pos_of_lt hblock
  obtain ⟨data, room, h⟩ := hc.inv hcap halign
  exact ⟨data, room, h.fifo hcap halign⟩

/-! ## Block sizes that are no alignment -/

/-- Behind a header, a power of two is an alignment. -/
theorem validAlignment_iff (hblock : sizeofBlock < blockSize) :
    ValidAlignment blockSize ↔ blockSize.isPowerOfTwo := by
  refine ⟨And.right, fun hpower => ⟨?_, hpower⟩⟩
  obtain ⟨k, rfl⟩ := hpower
  have hk : 3 ≤ k := by
    by_contra hlt
    have hle : 2 ^ k ≤ 2 ^ 3 := Nat.pow_le_pow_right (by decide) (by omega)
    unfold sizeofBlock at hblock
    omega
  exact Nat.pow_dvd_pow 2 hk

/-- The first reservation follows a null pointer. -/
theorem reserve_eq_none (halign : ¬ValidAlignment blockSize) {heap : Heap} (hfree : heap.free = [])
    {size : Nat} (hsize : 1 ≤ size) (fuel : Nat) :
    (init heap : Client blockSize).buf.reserve fuel size = none := by
  obtain ⟨size, rfl⟩ := Nat.exists_eq_add_of_le' hsize
  have happend : ∀ b : BasicBuffer blockSize, b.head_ = none → b.heap = heap →
      b.appendNewBlock 1 = none := by
    intro b hhead hheap
    simp only [BasicBuffer.appendNewBlock, hhead, hheap, Heap.new_eq_none halign hfree, if_true]
  cases fuel with
  | zero => rfl
  | succ fuel =>
    simp only [init, BasicBuffer.init, BasicBuffer.reserve, BasicBuffer.spaceStepper,
      BasicBuffer.reserveLoop, BasicBuffer.next, Bool.false_eq_true, if_false]
    rw [happend _ rfl rfl]
    rfl

/-- A heap in which nothing has been allocated. -/
def untouched : Heap := ⟨fun _ => Block.init, fun _ _ => 0, [], 0⟩

theorem owns_untouched : untouched.Owns [] := ⟨nofun, nofun, nofun, List.nodup_nil⟩

theorem not_fifo_init (halign : ¬ValidAlignment blockSize) {data room : List Cell} :
    ¬(init untouched : Client blockSize).Fifo data room := by
  intro hfifo
  obtain ⟨ranges, buf, -, ⟨rounds, hends⟩, -⟩ := hfifo.reserve rfl 1 (Nat.le_refl 1)
  have hfree : untouched.free = [] := rfl
  have hnone := reserve_eq_none halign hfree (Nat.le_refl 1) rounds
  cases hnone.symm.trans (hends rounds (Nat.le_refl rounds))

/-- Every state of every client is a queue, exactly at the block sizes that are powers of two. -/
theorem client_fifo_iff (hblock : sizeofBlock < blockSize) :
    (∀ c : Client blockSize, Reachable c → ∃ data room, c.Fifo data room) ↔
      blockSize.isPowerOfTwo := by
  rw [← validAlignment_iff hblock]
  constructor
  · intro hall
    by_contra halign
    obtain ⟨data, room, hfifo⟩ := hall _ (.init untouched owns_untouched)
    exact not_fifo_init halign hfifo
  · intro halign c hc
    exact hc.fifo hblock halign

/-- Blocks of eight bytes: nine bytes reserved and filled, three of them committed. -/
theorem client_fifo_three_bytes : ∃ c : Client 32, c.queue = [7, 7, 7] ∧
    sizeofBlock < 32 ∧ ∃ data room, c.Fifo data room := by
  have h₀ : Reachable (init untouched : Client 32) := .init untouched owns_untouched
  have h₁ := h₀.step (.reserve _ 9 [⟨0, 0, 8⟩, ⟨1, 0, 1⟩] _ (by decide) rfl
    (BasicBuffer.ends_reserve rfl))
  have h₂ := h₁.step (.write _ [⟨0, 0, 8⟩, ⟨1, 0, 1⟩]
    (fun a i => if (a, i) ∈ cells [⟨0, 0, 8⟩, ⟨1, 0, 1⟩] then 7 else 0) rfl
    (fun a i hout => if_neg hout))
  have h₃ := h₂.step (.commit _ 3 [⟨0, 0, 8⟩, ⟨1, 0, 1⟩] _ rfl (by decide)
    (BasicBuffer.ends_commit rfl))
  exact ⟨_, rfl, by decide, (client_fifo_iff (by decide)).mpr (by decide) _ h₃⟩

/-- Blocks of 48 bytes are larger than a header, and the first byte cannot be reserved. -/
theorem no_block_of_fortyeight :
    sizeofBlock < 48 ∧ Reachable (init untouched : Client 48) ∧
      (∀ fuel, (init untouched : Client 48).buf.reserve fuel 1 = none) ∧
      ¬∃ data room, (init untouched : Client 48).Fifo data room := by
  have halign : ¬ValidAlignment 48 := by decide
  refine ⟨by decide, .init untouched owns_untouched,
    reserve_eq_none halign rfl (Nat.le_refl 1), ?_⟩
  rintro ⟨data, room, hfifo⟩
  exact not_fifo_init halign hfifo

end Client
end Proxy
