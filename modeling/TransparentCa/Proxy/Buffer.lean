import Mathlib

/- `BasicBuffer`: a byte queue for scatter-gather IO, kept in a singly linked list of blocks
   of one size. A pointer to a block is an address in the heap (`none` for `nullptr`), and a
   pointer into a block's `buf` is the address with an index. `none` as the result of an
   operation stands for everything that must not happen: a failed `assert`, a null pointer
   followed, or a loop that has not ended after `fuel` rounds.

   A new block is aligned to its size, and sizes that are no alignment give no block: memory
   does not run out otherwise. A freed block goes to the free list, whose link overwrites the
   block's `next`, so that a pointer left dangling does not see the old list. -/
namespace Proxy

abbrev Addr := Nat

/-- `sizeof(Block)`: a pointer and two `size_t`. -/
def sizeofBlock : Nat := 24

/-- `sizeof(void*)`. -/
def sizeofPointer : Nat := 8

/-- What `posix_memalign` takes as an alignment. -/
def ValidAlignment (alignment : Nat) : Prop :=
  sizeofPointer ∣ alignment ∧ alignment.isPowerOfTwo

instance (alignment : Nat) : Decidable (ValidAlignment alignment) :=
  inferInstanceAs (Decidable (sizeofPointer ∣ alignment ∧ alignment.isPowerOfTwo))

/-- The header of a block; its `buf` is in the heap. -/
structure Block where
  next : Option Addr
  offset : Nat
  len : Nat
  deriving DecidableEq, Repr

namespace Block

/-- `Block()`. -/
def init : Block := ⟨none, 0, 0⟩

def capacity (blockSize : Nat) : Nat := blockSize - sizeofBlock

def spaceHead (b : Block) : Nat := b.offset + b.len

def spaceLen (blockSize : Nat) (b : Block) : Nat := capacity blockSize - b.offset - b.len

/-- The block, and what remains to be committed. -/
def commit (blockSize : Nat) (b : Block) (size : Nat) : Block × Nat :=
  let spaceLen := b.spaceLen blockSize
  let toCommit := if size < spaceLen then size else spaceLen
  ({ b with len := b.len + toCommit }, size - toCommit)

/-- The block, and what remains to be drained. -/
def drain (b : Block) (size : Nat) : Block × Nat :=
  let toDrain := if b.len < size then b.len else size
  ({ b with offset := b.offset + toDrain, len := b.len - toDrain }, size - toDrain)

end Block

/-- A range of bytes of a block's `buf`. -/
structure SysBuf where
  block : Addr
  start : Nat
  len : Nat
  deriving DecidableEq, Repr

/-- The headers and the bytes of all blocks, the free list, and the address that
`posix_memalign` gives next. -/
structure Heap where
  block : Addr → Block
  bytes : Addr → Nat → UInt8
  free : List Addr
  fresh : Addr

namespace Heap

def setBlock (h : Heap) (a : Addr) (b : Block) : Heap :=
  { h with block := Function.update h.block a b }

/-- `Block::Alloc`: `nullptr` when `posix_memalign(&new_block, kBlockSize, kBlockSize)` fails. -/
def alloc (blockSize : Nat) (h : Heap) : Option Addr × Heap :=
  if ValidAlignment blockSize then
    (some h.fresh, { h with
      block := Function.update h.block h.fresh Block.init
      fresh := h.fresh + 1 })
  else (none, h)

/-- `Freelist::New`: a block of the free list, initialized, else what `Block::Alloc` gives. -/
def new (blockSize : Nat) (h : Heap) : Option Addr × Heap :=
  match h.free with
  | [] => h.alloc blockSize
  | a :: free => (some a, { h with
      block := Function.update h.block a Block.init
      free := free })

/-- `Freelist::Delete`. -/
def delete (h : Heap) (a : Addr) : Heap :=
  { h with
    block := Function.update h.block a { h.block a with next := h.free.head? }
    free := a :: h.free }

end Heap

structure BasicBuffer (blockSize : Nat) where
  head_ : Option Addr
  end_ : Option Addr
  tail_ : Option Addr
  heap : Heap
  block_cnt_ : Nat
  data_size_ : Nat
  reserved_ : Bool
  peeked_ : Bool

namespace BasicBuffer

variable {blockSize : Nat}

/-- `BasicBuffer(freelist)`, in a heap that may hold other buffers. -/
def init (heap : Heap) : BasicBuffer blockSize := ⟨none, none, none, heap, 0, 0, false, false⟩

def block (b : BasicBuffer blockSize) (a : Addr) : Block := b.heap.block a

def setBlock (b : BasicBuffer blockSize) (a : Addr) (x : Block) : BasicBuffer blockSize :=
  { b with heap := b.heap.setBlock a x }

def spaceSize (b : BasicBuffer blockSize) : Nat :=
  match b.head_ with
  | none => 0
  | some h => b.block_cnt_ * Block.capacity blockSize - b.data_size_ - (b.block h).offset

def dataSize (b : BasicBuffer blockSize) : Nat := b.data_size_

/-! ## SpaceStepper -/

/-- `while (count--) { … }` of `AppendNewBlock`. -/
def appendBlocks : Nat → BasicBuffer blockSize → Option (BasicBuffer blockSize)
  | 0, b => some b
  | count + 1, b =>
    match b.tail_ with
    | none => none
    | some t =>
      let (a, heap) := b.heap.new blockSize
      appendBlocks count
        { b with
          heap := heap.setBlock t { heap.block t with next := a }
          tail_ := a
          block_cnt_ := b.block_cnt_ + 1 }

/-- For `count` at least 1. -/
def appendNewBlock (b : BasicBuffer blockSize) (count : Nat) : Option (BasicBuffer blockSize) :=
  match b.head_ with
  | none =>
    let (a, heap) := b.heap.new blockSize
    let b :=
      { b with
        heap := heap
        head_ := a
        tail_ := a
        end_ := a
        block_cnt_ := b.block_cnt_ + 1 }
    -- `assert(tail_ != nullptr)`, which `appendBlocks` makes of itself when it goes on.
    if b.tail_ = none then none else appendBlocks (count - 1) b
  | some _ => appendBlocks count b

/-- `SpaceStepper(buf)`: the first block with space from `end_` on, if there is one. -/
def spaceStepper (b : BasicBuffer blockSize) : Option Addr :=
  match b.end_ with
  | none => none
  | some e => if (b.block e).spaceLen blockSize = 0 then (b.block e).next else some e

/-- `Next()`: the block, and the stepper's new position. -/
def next (b : BasicBuffer blockSize) (block_ : Option Addr) :
    Option (Addr × Option Addr × BasicBuffer blockSize) :=
  match block_ with
  | none => do
    let b ← b.appendNewBlock 1
    let a ← b.tail_
    return (a, (b.block a).next, b)
  | some a => some (a, (b.block a).next, b)

/-! ## Reserve, Commit, Peek, Drain -/

/-- `while (remaining > 0) { … }` of `Reserve`. -/
def reserveLoop : Nat → Nat → Option Addr → List SysBuf → BasicBuffer blockSize →
    Option (List SysBuf × BasicBuffer blockSize)
  | _, 0, _, ret, b => some (ret, b)
  | 0, _ + 1, _, _, _ => none
  | fuel + 1, remaining + 1, block_, ret, b => do
    let (a, block_, b) ← b.next block_
    let spaceLen :=
      if remaining + 1 ≥ (b.block a).spaceLen blockSize then (b.block a).spaceLen blockSize
      else remaining + 1
    reserveLoop fuel (remaining + 1 - spaceLen) block_
      (ret ++ [⟨a, (b.block a).spaceHead, spaceLen⟩]) b

def reserve (fuel : Nat) (b : BasicBuffer blockSize) (size : Nat) :
    Option (List SysBuf × BasicBuffer blockSize) :=
  if b.reserved_ then none
  else
    let b := { b with reserved_ := true }
    reserveLoop fuel size b.spaceStepper [] b

/-- `while (reserved_size < size) { … }` of `ReserveAtLeast`. -/
def reserveAtLeastLoop : Nat → Nat → Nat → Option Addr → List SysBuf → BasicBuffer blockSize →
    Option (List SysBuf × Nat × BasicBuffer blockSize)
  | fuel, size, reservedSize, block_, ret, b =>
    if reservedSize < size then
      match fuel with
      | 0 => none
      | fuel + 1 => do
        let (a, block_, b) ← b.next block_
        let spaceLen := (b.block a).spaceLen blockSize
        reserveAtLeastLoop fuel size (reservedSize + spaceLen) block_
          (ret ++ [⟨a, (b.block a).spaceHead, spaceLen⟩]) b
    else some (ret, reservedSize, b)

/-- The ranges, and the size that was reserved. -/
def reserveAtLeast (fuel : Nat) (b : BasicBuffer blockSize) (size : Nat) :
    Option (List SysBuf × Nat × BasicBuffer blockSize) :=
  if b.reserved_ then none
  else
    let b := { b with reserved_ := true }
    reserveAtLeastLoop fuel size 0 b.spaceStepper [] b

/-- `while (remaining > 0) { … }` of `Commit`. -/
def commitLoop : Nat → Nat → Option Addr → BasicBuffer blockSize → Option (BasicBuffer blockSize)
  | _, 0, _, b => some b
  | 0, _ + 1, _, _ => none
  | fuel + 1, remaining + 1, block_, b => do
    let (a, block_, b) ← b.next block_
    let (x, remaining) := (b.block a).commit blockSize (remaining + 1)
    commitLoop fuel remaining block_ { b.setBlock a x with end_ := some a }

def commit (fuel : Nat) (b : BasicBuffer blockSize) (size : Nat) :
    Option (BasicBuffer blockSize) :=
  if b.reserved_ ∧ b.head_ ≠ none ∧ size ≤ b.spaceSize then do
    let b ← commitLoop fuel size b.spaceStepper b
    return { b with data_size_ := b.data_size_ + size, reserved_ := false }
  else none

/-- `for (Block* b = head_; b != nullptr && b->DataLen() > 0; b = b->next) { … }`. -/
def peekLoop (b : BasicBuffer blockSize) : Nat → Option Addr → List SysBuf → Option (List SysBuf)
  | _, none, ret => some ret
  | fuel, some a, ret =>
    if (b.block a).len > 0 then
      match fuel with
      | 0 => none
      | fuel + 1 =>
        peekLoop b fuel (b.block a).next (ret ++ [⟨a, (b.block a).offset, (b.block a).len⟩])
    else some ret

def peek (fuel : Nat) (b : BasicBuffer blockSize) :
    Option (List SysBuf × BasicBuffer blockSize) :=
  if b.peeked_ then none
  else do
    let b := { b with peeked_ := true }
    let ret ← b.peekLoop fuel b.head_ []
    return (ret, b)

/-- `while (remaining > 0) { … }` of `Drain`. -/
def drainLoop : Nat → Nat → BasicBuffer blockSize → Option (BasicBuffer blockSize)
  | _, 0, b => some b
  | 0, _ + 1, _ => none
  | fuel + 1, remaining + 1, b => do
    let h ← b.head_
    let (x, remaining) := (b.block h).drain (remaining + 1)
    let b := b.setBlock h x
    if x.len = 0 ∧ x.spaceLen blockSize = 0 then
      drainLoop fuel remaining
        { b with
          heap := b.heap.delete h
          block_cnt_ := b.block_cnt_ - 1
          head_ := x.next }
    else drainLoop fuel remaining b

/-- The rest of `Drain`, after the loop. -/
def drained (b : BasicBuffer blockSize) (size : Nat) : BasicBuffer blockSize :=
  let b := { b with data_size_ := b.data_size_ - size, peeked_ := false }
  -- The block with the last byte may be gone.
  let b := if b.data_size_ = 0 then { b with end_ := b.head_ } else b
  match b.head_ with
  | none => b
  | some h =>
    if b.data_size_ = 0 ∧ b.reserved_ = false then b.setBlock h { b.block h with offset := 0 }
    else b

def drain (fuel : Nat) (b : BasicBuffer blockSize) (size : Nat) :
    Option (BasicBuffer blockSize) :=
  if b.peeked_ ∧ size ≤ b.data_size_ then (drainLoop fuel size b).map (fun b => b.drained size)
  else none

end BasicBuffer
end Proxy
