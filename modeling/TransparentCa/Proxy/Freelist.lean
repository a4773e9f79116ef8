import TransparentCa.Lib.LinkedList

/- The free list as any number of threads use it. `head_` and `size_` are atomic and each
   access to one of them is a step of its own, as is each read of a `next` pointer that
   another thread may write. A compare-exchange is the weak one, which may also fail when the
   values agree. Which blocks are in whose hands is kept beside the memory: the code does not
   keep it, but its callers give back only what they hold. -/
namespace Proxy.Freelist
open LinkedList

variable {Thread Block : Type}

/-- Where a call of a thread stands: what it has in its local variables, and what it does
    next. -/
inductive Pc (Block : Type) where
  | idle
  /-- `New`: `head_.load()`. -/
  | newLoad
  /-- `BlockType::Alloc()`. -/
  | newAlloc
  /-- `old_head->next` for the next exchange. -/
  | newNext (old_head : Option Block)
  /-- `head_.compare_exchange_weak(old_head, next)`. -/
  | newSwap (old_head : Block) (next : Option Block)
  /-- `size_--`. -/
  | newSize (ret : Block)
  /-- `new (ret) BlockType()`. -/
  | newInit (ret : Block)
  /-- `Delete`: `new_head->next = head_.load()`. -/
  | deleteLoad (new_head : Block)
  /-- `head_.compare_exchange_weak(new_head->next, new_head)`. -/
  | deleteSwap (new_head : Block)
  /-- `size_++`. -/
  | deleteSize
  /-- `DeleteChain`: the loop over the blocks of the chain. -/
  | chainWalk (head tail : Block) (count : UInt64)
  /-- `tail->next = head_`. -/
  | chainLoad (head tail : Block) (count : UInt64)
  /-- `head_.compare_exchange_weak(tail->next, new_head)`. -/
  | chainSwap (head tail : Block) (count : UInt64)
  /-- `size_.fetch_add(count)`. -/
  | chainSize (count : UInt64)
  deriving DecidableEq

structure State (Thread Block : Type) where
  head : Option Block
  size : UInt64
  next : Block → Option Block
  pc : Thread → Pc Block
  /-- The blocks that `Alloc` returned. -/
  allocated : Finset Block
  /-- The blocks that are out with the callers. -/
  held : Finset Block
  /-- The blocks that a call was given or took off the list. -/
  inCall : Thread → List Block

/-- `Freelist()`. -/
def init : State Thread Block where
  head := none
  size := 0
  next := fun _ => none
  pc := fun _ => .idle
  allocated := ∅
  held := ∅
  inCall := fun _ => []

inductive Action (Thread Block : Type) where
  | callNew (t : Thread)
  | callDelete (t : Thread) (block : Block)
  /-- The chain is given by its first block. -/
  | callDeleteChain (t : Thread) (chain : List Block)
  /-- A caller writes the `next` pointer of a block that it holds. -/
  | setNext (block : Block) (next : Option Block)
  /-- A caller allocates a block itself, as `FillN` does. -/
  | allocate (block : Block)
  /-- `Alloc` of a `New`, which returns a new block or a null pointer. -/
  | newAlloc (t : Thread) (block : Option Block)
  /-- The next step of the thread's call. -/
  | advance (t : Thread)
  /-- The exchange fails though the values agree. -/
  | fail (t : Thread)

section
variable [DecidableEq Thread] [DecidableEq Block]

namespace State

def goto (s : State Thread Block) (t : Thread) (pc : Pc Block) : State Thread Block :=
  { s with pc := Function.update s.pc t pc }

def setNext (s : State Thread Block) (b : Block) (next : Option Block) : State Thread Block :=
  { s with next := Function.update s.next b next }

/-- The thread's call gets these blocks in place of those that it has. -/
def take (s : State Thread Block) (t : Thread) (blocks : List Block) : State Thread Block :=
  { s with inCall := Function.update s.inCall t blocks }

/-- A failed exchange of a thread: the expected value becomes that of `head_`. -/
def refuse (s : State Thread Block) (t : Thread) : Option (State Thread Block) :=
  match s.pc t with
  | .newSwap _ _ => some (s.goto t (.newNext s.head))
  | .deleteSwap new_head => some (s.setNext new_head s.head)
  | .chainSwap _ tail _ => some (s.setNext tail s.head)
  | _ => none

/-- The next step of a thread. A `New` that would follow the `next` pointer of a null head
    has none. -/
def advance (s : State Thread Block) (t : Thread) : Option (State Thread Block) :=
  match s.pc t with
  | .idle => none
  | .newLoad =>
    match s.head with
    | none => some (s.goto t .newAlloc)
    | some old_head => some (s.goto t (.newNext (some old_head)))
  | .newAlloc => none
  | .newNext none => none
  | .newNext (some old_head) => some (s.goto t (.newSwap old_head (s.next old_head)))
  | .newSwap old_head next =>
    if s.head = some old_head then
      some ({ s with head := next }.take t [old_head] |>.goto t (.newSize old_head))
    else s.refuse t
  | .newSize ret => some ({ s with size := s.size - 1 }.goto t (.newInit ret))
  | .newInit ret =>
    some ({ s.setNext ret none with held := insert ret s.held }.take t [] |>.goto t .idle)
  | .deleteLoad new_head => some (s.setNext new_head s.head |>.goto t (.deleteSwap new_head))
  | .deleteSwap new_head =>
    if s.head = s.next new_head then
      some ({ s with head := some new_head }.take t [] |>.goto t .deleteSize)
    else s.refuse t
  | .deleteSize => some ({ s with size := s.size + 1 }.goto t .idle)
  | .chainWalk head tail count =>
    match s.next tail with
    | none => some (s.goto t (.chainLoad head tail count))
    | some next => some (s.goto t (.chainWalk head next (count + 1)))
  | .chainLoad head tail count => some (s.setNext tail s.head |>.goto t (.chainSwap head tail count))
  | .chainSwap head tail count =>
    if s.head = s.next tail then
      some ({ s with head := some head }.take t [] |>.goto t (.chainSize count))
    else s.refuse t
  | .chainSize count => some ({ s with size := s.size + count }.goto t .idle)

end State

/-- One step. Callers give back blocks that they hold, once, and chains that end. -/
def step (s : State Thread Block) : Action Thread Block → Option (State Thread Block)
  | .callNew t => if s.pc t = .idle then some (s.goto t .newLoad) else none
  | .callDelete t block =>
    if s.pc t = .idle ∧ block ∈ s.held then
      some ({ s with held := s.held.erase block }.take t [block] |>.goto t (.deleteLoad block))
    else none
  | .callDeleteChain t chain =>
    if s.pc t = .idle ∧ chain.Nodup ∧ (∀ b ∈ chain, b ∈ s.held) ∧
        Linked s.next chain.head? chain then
      match chain with
      | [] => some s
      | head :: tail =>
        some ({ s with held := s.held \ chain.toFinset }.take t (head :: tail) |>.goto t
          (.chainWalk head head 1))
    else none
  | .setNext block next => if block ∈ s.held then some (s.setNext block next) else none
  | .allocate block =>
    if block ∉ s.allocated then
      some { s.setNext block none with
        allocated := insert block s.allocated, held := insert block s.held }
    else none
  | .newAlloc t block =>
    if s.pc t = .newAlloc then
      match block with
      | none => some (s.goto t .idle)
      | some block =>
        if block ∉ s.allocated then
          some ({ s.setNext block none with
            allocated := insert block s.allocated, held := insert block s.held }.goto t .idle)
        else none
    else none
  | .advance t => s.advance t
  | .fail t => s.refuse t

/-- The states that steps of a kind lead to. -/
inductive Reachable (ok : State Thread Block → Action Thread Block → Prop) :
    State Thread Block → Prop
  | init : Reachable ok init
  | step {s s' : State Thread Block} {a : Action Thread Block} :
    Reachable ok s → ok s a → step s a = some s' → Reachable ok s'

/-- Steps that are all of a kind, one after the other. -/
def run (ok : State Thread Block → Action Thread Block → Prop) [∀ s a, Decidable (ok s a)]
    (s : State Thread Block) (actions : List (Action Thread Block)) :
    Option (State Thread Block) :=
  actions.foldlM (fun s a => if ok s a then step s a else none) s

theorem Reachable.run {ok : State Thread Block → Action Thread Block → Prop}
    [∀ s a, Decidable (ok s a)] {s s' : State Thread Block} {actions : List (Action Thread Block)}
    (h : Reachable ok s) (hrun : run ok s actions = some s') : Reachable ok s' := by
  induction actions generalizing s with
  | nil =>
    obtain rfl : s = s' := Option.some.inj hrun
    exact h
  | cons a actions ih =>
    rw [Freelist.run, List.foldlM_cons] at hrun
    split_ifs at hrun with hok
    · cases hstep : Freelist.step s a with
      | none =>
        rw [hstep] at hrun
        cases hrun
      | some u =>
        rw [hstep] at hrun
        exact ih (.step h hok hstep) hrun
    · cases hrun

end

/-! ## What is claimed of every state -/

/-- A block that a call has is in nobody else's hands. -/
def Exclusive (s : State Thread Block) : Prop :=
  ∀ t, ∀ b ∈ s.inCall t, b ∉ s.held ∧ ∀ t', b ∈ s.inCall t' → t' = t

/-- A block can be reached from the head, or somebody has it. -/
def Kept (s : State Thread Block) : Prop :=
  ∀ b ∈ s.allocated, (∃ l, Segment s.next s.head l (some b)) ∨ b ∈ s.held ∨ ∃ t, b ∈ s.inCall t

/-- No `New` is about to follow the `next` pointer of a null head. -/
def NonNull (s : State Thread Block) : Prop := ∀ t, s.pc t ≠ .newNext none

structure Safe (s : State Thread Block) : Prop where
  exclusive : Exclusive s
  kept : Kept s
  nonNull : NonNull s

end Proxy.Freelist
