import TransparentCa.Proxy.BufferQueue

/- The buffer as its users see it: the bytes in it, and the sizes of the reservation and of the
   peek that are outstanding. `none` as the result of an operation is a use that the buffer
   does not allow. Every use that is allowed here is served by the buffer, and leaves the two
   in the same relation (`Simulates`). -/
namespace Proxy

structure ByteQueue where
  data : List UInt8
  reserved : Option Nat
  peeked : Option Nat
  deriving DecidableEq, Repr

namespace ByteQueue

def empty : ByteQueue := ⟨[], none, none⟩

def dataSize (q : ByteQueue) : Nat := q.data.length

/-- `ReserveAtLeast(size)` that reserved `n` bytes. -/
def reserveAtLeast (q : ByteQueue) (size n : Nat) : Option ByteQueue :=
  if q.reserved = none ∧ 1 ≤ size ∧ size ≤ n then some { q with reserved := some n } else none

/-- `Commit` of the bytes that were written to the front of the reserved ranges. -/
def commit (q : ByteQueue) (bytes : List UInt8) : Option ByteQueue :=
  match q.reserved with
  | some n =>
    if bytes.length ≤ n then some { q with data := q.data ++ bytes, reserved := none } else none
  | none => none

def peek (q : ByteQueue) : Option ByteQueue :=
  if q.peeked = none then some { q with peeked := some q.dataSize } else none

/-- `Drain(size)`, for at most what was peeked. -/
def drain (q : ByteQueue) (size : Nat) : Option ByteQueue :=
  match q.peeked with
  | some n => if size ≤ n then some { q with data := q.data.drop size, peeked := none } else none
  | none => none

/-- `CopyOut(to, size)`: the bytes, and the queue without them. -/
def copyOut (q : ByteQueue) (size : Nat) : Option (List UInt8 × ByteQueue) := do
  let q ← q.peek
  let out := q.data.take size
  let q ← q.drain out.length
  return (out, q)

end ByteQueue

namespace BasicBuffer

variable {blockSize : Nat}

/-- `ReserveAtLeast` stops at the first block with which the size is reached. -/
theorem reserveAtLeastLoop_lt (hcap : 0 < Block.capacity blockSize) (fuel : Nat) :
    ∀ (size k n : Nat) (p : Option Addr) (ret ret' : List SysBuf) (b b' : BasicBuffer blockSize),
      k < size + Block.capacity blockSize →
      reserveAtLeastLoop fuel size k p ret b = some (ret', n, b') →
        n < size + Block.capacity blockSize := by
  induction fuel with
  | zero =>
    intro size k n p ret ret' b b' hk h
    unfold reserveAtLeastLoop at h
    split at h
    · cases h
    · cases h
      exact hk
  | succ fuel ih =>
    intro size k n p ret ret' b b' hk h
    unfold reserveAtLeastLoop at h
    split at h
    · next hmore =>
      cases hnext : b.next p with
      | none => simp [hnext] at h
      | some x =>
        obtain ⟨a, p', b₁⟩ := x
        rw [hnext] at h
        have hspace : (b₁.block a).spaceLen blockSize ≤ Block.capacity blockSize := by
          unfold Block.spaceLen
          omega
        exact ih _ _ _ _ _ _ _ _ (by omega) h
    · cases h
      exact hk

theorem reserveAtLeast_lt (hcap : 0 < Block.capacity blockSize) {b : BasicBuffer blockSize}
    {size n : Nat} {ranges : List SysBuf} {b' : BasicBuffer blockSize}
    (h : Ends (fun fuel => b.reserveAtLeast fuel size) (ranges, n, b')) :
    n < size + Block.capacity blockSize := by
  obtain ⟨rounds, hends⟩ := h
  have heq := hends rounds (Nat.le_refl rounds)
  simp only [reserveAtLeast] at heq
  split at heq
  · cases heq
  · exact reserveAtLeastLoop_lt hcap rounds _ _ _ _ _ _ _ _ (by omega) heq

/-- The loop of `CopyOut` over the peeked ranges. -/
def copyOutLoop (heap : Heap) (size : Nat) : List SysBuf → Nat → List UInt8 → List UInt8 × Nat
  | [], copied, out => (out, copied)
  | buf :: bufs, copied, out =>
    if size > 0 then
      let remaining := size - copied
      let toCopy := if remaining > buf.len then buf.len else remaining
      copyOutLoop heap size bufs (copied + toCopy)
        (out ++ gather heap [⟨buf.block, buf.start, toCopy⟩])
    else (out, copied)

/-- The bytes copied, the number it returns, and the buffer. -/
def copyOut (fuel : Nat) (b : BasicBuffer blockSize) (size : Nat) :
    Option (List UInt8 × Nat × BasicBuffer blockSize) := do
  let (buffers, b) ← b.peek fuel
  let (out, copied) := copyOutLoop b.heap size buffers 0 []
  let b ← b.drain fuel copied
  return (out, copied, b)

theorem peek_heap {b b' : BasicBuffer blockSize} {fuel : Nat} {ranges : List SysBuf}
    (h : b.peek fuel = some (ranges, b')) : b'.heap = b.heap := by
  unfold peek at h
  split at h
  · cases h
  · simp only [Option.bind_eq_bind, Option.bind_eq_some_iff] at h
    obtain ⟨ret, -, h⟩ := h
    cases h
    rfl

theorem copyOutLoop_spec (heap : Heap) {size : Nat} (hsize : 0 < size) (ranges : List SysBuf) :
    ∀ (copied : Nat) (out : List UInt8), copied ≤ size →
      copyOutLoop heap size ranges copied out =
        (out ++ (gather heap ranges).take (size - copied),
          copied + ((gather heap ranges).take (size - copied)).length) := by
  induction ranges with
  | nil =>
    intro copied out _
    simp [copyOutLoop, gather]
  | cons r ranges ih =>
    intro copied out hle
    unfold copyOutLoop
    rw [if_pos hsize]
    simp only
    generalize hcopy : (if size - copied > r.len then r.len else size - copied) = toCopy
    have hbound : toCopy ≤ r.len ∧ toCopy ≤ size - copied ∧
        (toCopy = size - copied ∨ toCopy = r.len) := by
      rw [← hcopy]
      split <;> omega
    have htake : (gather heap (r :: ranges)).take (size - copied) =
        gather heap [⟨r.block, r.start, toCopy⟩] ++
          (gather heap ranges).take (size - (copied + toCopy)) := by
      unfold gather
      rw [← List.map_take, cells_cons,
        take_cells_append (cells ranges) hbound.2.1 hbound.1 hbound.2.2, List.map_append,
        List.map_take]
      simp only [cells_cons, cells_nil, List.append_nil, Nat.sub_add_eq]
    have hlength : (gather heap [⟨r.block, r.start, toCopy⟩]).length = toCopy := by
      simp [gather]
    rw [ih (copied + toCopy) _ (by omega), htake]
    simp only [List.append_assoc, List.length_append, hlength, Nat.add_assoc]

end BasicBuffer

/-! ## The buffer serves the queue -/

namespace Client

variable {blockSize : Nat}

/-- A buffer in use, and what its user knows of it. -/
structure Simulates (c : Client blockSize) (q : ByteQueue) : Prop where
  reachable : Reachable c
  data : c.queue = q.data
  reserved : c.reservation.map (fun ranges => (cells ranges).length) = q.reserved
  peeked : c.view.map (fun ranges => (cells ranges).length) = q.peeked

section
variable {c : Client blockSize} {q q' : ByteQueue}

theorem simulates_empty {heap : Heap} (h : heap.Owns []) :
    (init heap : Client blockSize).Simulates .empty :=
  ⟨.init heap h, rfl, rfl, rfl⟩

theorem simulates_reserveAtLeast (hcap : 0 < Block.capacity blockSize)
    (halign : ValidAlignment blockSize) (h : c.Simulates q)
    (hfree : q.reserved = none) {size : Nat} (hsize : 1 ≤ size) :
    ∃ ranges n buf q', Ends (fun fuel => c.buf.reserveAtLeast fuel size) (ranges, n, buf) ∧
      n < size + Block.capacity blockSize ∧ q.reserveAtLeast size n = some q' ∧
      Simulates { c with buf := buf, reservation := some ranges } q' := by
  have hnone : c.reservation = none := by
    rw [← Option.map_eq_none_iff, h.reserved, hfree]
  obtain ⟨data, room, hinv⟩ := h.reachable.inv hcap halign
  obtain ⟨ranges, n, buf, extra, hends, -, hlength, hn, -⟩ := hinv.reserveAtLeast hcap halign hnone hsize
  refine ⟨ranges, n, buf, _, hends, BasicBuffer.reserveAtLeast_lt hcap hends,
    if_pos ⟨hfree, hsize, hn⟩, ?_⟩
  exact
    { reachable := h.reachable.step (.reserveAtLeast c size n ranges buf hsize hnone hends)
      data := h.data
      reserved := congrArg some hlength
      peeked := h.peeked }

theorem simulates_peek (hcap : 0 < Block.capacity blockSize)
    (halign : ValidAlignment blockSize) (h : c.Simulates q)
    (hq : q.peek = some q') :
    ∃ ranges buf, Ends (fun fuel => c.buf.peek fuel) (ranges, buf) ∧
      gather c.buf.heap ranges = q.data ∧
      Simulates { c with buf := buf, view := some ranges } q' := by
  unfold ByteQueue.peek at hq
  split at hq
  · next hfree =>
    cases hq
    have hnone : c.view = none := by
      rw [← Option.map_eq_none_iff, h.peeked, hfree]
    obtain ⟨data, room, hinv⟩ := h.reachable.inv hcap halign
    obtain ⟨ranges, buf, hends, -, hgather, -⟩ := hinv.peek hnone
    have hlength : (cells ranges).length = q.dataSize := by
      rw [ByteQueue.dataSize, ← h.data, ← hgather, gather, List.length_map]
    refine ⟨ranges, buf, hends, hgather.trans h.data, ?_⟩
    exact
      { reachable := h.reachable.step (.peek c ranges buf hnone hends)
        data := h.data
        reserved := h.reserved
        peeked := congrArg some hlength }
  · cases hq

/-- A view covers the first bytes of the queue. -/
theorem Reachable.view_le (hcap : 0 < Block.capacity blockSize)
    (halign : ValidAlignment blockSize) (hc : Reachable c)
    {ranges : List SysBuf} (hview : c.view = some ranges) :
    (cells ranges).length ≤ c.buf.dataSize := by
  obtain ⟨data, room, hinv⟩ := hc.inv hcap halign
  have hshort := (hinv.view_eq ranges hview).length_le
  rw [← hinv.size] at hshort
  exact hshort

theorem simulates_drain (hcap : 0 < Block.capacity blockSize)
    (halign : ValidAlignment blockSize) (h : c.Simulates q) {size : Nat}
    (hq : q.drain size = some q') :
    ∃ buf, Ends (fun fuel => c.buf.drain fuel size) buf ∧ (c.drained buf size).Simulates q' := by
  unfold ByteQueue.drain at hq
  cases hpeeked : q.peeked with
  | none => simp [hpeeked] at hq
  | some n =>
    rw [hpeeked] at hq
    simp only at hq
    split at hq
    · next hle =>
      cases hq
      obtain ⟨ranges, hview, hlength⟩ := Option.map_eq_some_iff.mp (h.peeked.trans hpeeked)
      have hsize : size ≤ c.buf.dataSize := by
        have hview_le := h.reachable.view_le hcap halign hview
        omega
      obtain ⟨data, room, hinv⟩ := h.reachable.inv hcap halign
      obtain ⟨buf, again, hends, -⟩ := hinv.drain hcap (by rw [hview]; nofun) hsize
      refine ⟨buf, hends, ?_⟩
      exact
        { reachable := h.reachable.step (.drain c size ranges buf hview hsize hends)
          data := congrArg (List.drop size) h.data
          reserved := h.reserved
          peeked := rfl }
    · cases hq

/-- `CopyOut` takes the first bytes of the queue. -/
theorem simulates_copyOut (hcap : 0 < Block.capacity blockSize)
    (halign : ValidAlignment blockSize) (h : c.Simulates q) {size : Nat}
    {out : List UInt8} (hq : q.copyOut size = some (out, q')) :
    ∃ (buf : BasicBuffer blockSize) (c' : Client blockSize),
      Ends (fun fuel => c.buf.copyOut fuel size) (out, out.length, buf) ∧
      c'.buf = buf ∧ c'.Simulates q' := by
  simp only [ByteQueue.copyOut, Option.bind_eq_bind, Option.bind_eq_some_iff] at hq
  obtain ⟨q₁, hpeek, q₂, hdrain, hret⟩ := hq
  cases hret
  have hdata : q₁.data = q.data := by
    unfold ByteQueue.peek at hpeek
    split at hpeek <;> cases hpeek
    rfl
  obtain ⟨ranges, buf₁, ⟨rounds₁, hends₁⟩, hgather, hsim₁⟩ := simulates_peek hcap halign h hpeek
  obtain ⟨buf₂, ⟨rounds₂, hends₂⟩, hsim₂⟩ := simulates_drain hcap halign hsim₁ hdrain
  refine ⟨buf₂, _, ⟨max rounds₁ rounds₂, fun fuel hfuel => ?_⟩, rfl, hsim₂⟩
  have hpeeked := hends₁ fuel (by omega)
  have hdrained := hends₂ fuel (by omega)
  have hloop : BasicBuffer.copyOutLoop buf₁.heap size ranges 0 [] =
      (q₁.data.take size, (q₁.data.take size).length) := by
    rw [hdata, ← hgather, BasicBuffer.peek_heap hpeeked]
    cases size with
    | zero => cases ranges <;> simp [BasicBuffer.copyOutLoop]
    | succ size => simp [BasicBuffer.copyOutLoop_spec c.buf.heap (Nat.succ_pos size) ranges 0 []]
  simp only [BasicBuffer.copyOut] at hpeeked hdrained ⊢
  rw [hpeeked]
  simp only [Option.bind_eq_bind, Option.bind_some, hloop]
  rw [hdrained]
  rfl

/-- Bytes written to the front of distinct cells. -/
theorem exists_fill (f : Cell → UInt8) (l : List Cell) (hl : l.Nodup) :
    ∀ bytes : List UInt8, bytes.length ≤ l.length →
      ∃ g : Cell → UInt8, (∀ x, x ∉ l → g x = f x) ∧ (l.map g).take bytes.length = bytes := by
  induction l with
  | nil =>
    intro bytes hlen
    have hnil : bytes = [] := List.length_eq_zero_iff.mp (Nat.le_zero.mp hlen)
    exact ⟨f, fun _ _ => rfl, by simp [hnil]⟩
  | cons x l ih =>
    intro bytes hlen
    rw [List.nodup_cons] at hl
    cases bytes with
    | nil => exact ⟨f, fun _ _ => rfl, rfl⟩
    | cons b bytes =>
      obtain ⟨g, hout, hin⟩ := ih hl.2 bytes (by simpa using hlen)
      refine ⟨Function.update g x b, fun y hy => ?_, ?_⟩
      · rw [Function.update_of_ne (fun heq => hy (by simp [heq]))]
        exact hout y (fun hmem => hy (List.mem_cons_of_mem x hmem))
      · have hmap : l.map (Function.update g x b) = l.map g := by
          refine List.map_congr_left (fun y hy => Function.update_of_ne ?_ _ _)
          rintro rfl
          exact hl.1 hy
        rw [List.map_cons, Function.update_self, hmap, List.length_cons, List.take_succ_cons, hin]

/-- The bytes arrive in the reserved ranges, and are committed. -/
theorem simulates_commit (hcap : 0 < Block.capacity blockSize)
    (halign : ValidAlignment blockSize) (h : c.Simulates q)
    {bytes : List UInt8} (hq : q.commit bytes = some q') :
    ∃ c₁ ranges buf, Step c c₁ ∧ c₁.reservation = some ranges ∧
      Ends (fun fuel => c₁.buf.commit fuel bytes.length) buf ∧
      (c₁.committed buf ranges bytes.length).Simulates q' := by
  unfold ByteQueue.commit at hq
  cases hreserved : q.reserved with
  | none => simp [hreserved] at hq
  | some n =>
    rw [hreserved] at hq
    simp only at hq
    split at hq
    · next hle =>
      cases hq
      obtain ⟨ranges, hranges, hlength⟩ := Option.map_eq_some_iff.mp (h.reserved.trans hreserved)
      obtain ⟨data, room, hinv⟩ := h.reachable.inv hcap halign
      have hnodup : (cells ranges).Nodup := by
        have hroom := (List.nodup_append.mp hinv.holds.nodup).2.1
        exact hroom.sublist (hinv.reservation_eq ranges hranges).1.sublist
      obtain ⟨g, hout, hin⟩ := exists_fill (fun x => c.buf.heap.bytes x.1 x.2) (cells ranges)
        hnodup bytes (by omega)
      have hwrite : Step c { c with buf := { c.buf with heap :=
          { c.buf.heap with bytes := fun a i => g (a, i) } } } :=
        .write c ranges _ hranges (fun a i hnot => hout (a, i) hnot)
      obtain ⟨data', room', hinv'⟩ := (h.reachable.step hwrite).inv hcap halign
      obtain ⟨buf, hends, -⟩ := hinv'.commit hcap hranges
        (show bytes.length ≤ (cells ranges).length by omega)
      refine ⟨_, ranges, buf, hwrite, hranges, hends, ?_⟩
      exact
        { reachable := (h.reachable.step hwrite).step
            (.commit _ bytes.length ranges buf hranges (by omega) hends)
          data := by
            show c.queue ++ ((cells ranges).map g).take bytes.length = q.data ++ bytes
            rw [hin, h.data]
          reserved := rfl
          peeked := h.peeked }
    · cases hq

end
end Client
end Proxy
