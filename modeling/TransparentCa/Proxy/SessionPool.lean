import TransparentCa.Proxy.Protocol
import TransparentCa.Proxy.ProxyBridge

/- `ClientSessionPool`: connections to the proxy that stand by for inbound traffic. `Start`
   blocks on its calls one after the other; after it everything happens in handlers, which run
   on several threads. What completions bring is free. `none` as the result of a handler is an
   index outside `pool_` or `buffers_`.

   A handler does its work on its own slot and launches the next operation there, and a step is
   one completion with its handler up to this launch. `Start` and `Handle1stResp` go on behind
   it, to append a socket; what they still have to do is in `pending`, and a step of its own,
   since the operation that was launched may be over before that.

   The pool is proper when its sockets fit `pool_size_`, there is a buffer for each and one
   operation on each. It is in every run, from a backlog of two on (`pool_proper_iff`), as long
   as nobody else appends a socket between the check of the size and `emplace_back`. Otherwise
   it is not (`Good.overlap`). -/
namespace Proxy

inductive MessageType where
  | kBindRequest
  | kBindResponse
  | kListenRequest
  | kListenResponse
  | kNewConnectionResponse
  | kInvalidMessage
  deriving DecidableEq, Repr

/-- The handler of an outstanding operation of a slot. -/
inductive Awaits where
  | connect
  | firstResp
  | secondResp
  | sendFd
  deriving DecidableEq, Repr

/-- What a function does behind its launch: it looks whether its socket is the last one and the
pool is not full, and appends the next socket. -/
inductive Tail where
  | check
  | grow
  deriving DecidableEq, Repr

structure ClientSessionPool where
  /-- `pool_.size()`. -/
  pool_ : Nat
  /-- The data of the micro buffers. -/
  buffers_ : List (List UInt8)
  proxy_bind_request_ : List UInt8
  number_of_errors_ : Nat
  pool_size_ : Nat
  port_ : UInt16
  stop_ : Bool
  /-- The slots' operations, with the indices that their handlers are bound to. -/
  outstanding : List (Nat × Awaits)
  /-- The slots whose `Handle1stResp`, or `Start`, has launched its read and is not over. -/
  pending : List (Nat × Tail)
  /-- The wait for an error of the client's socket. -/
  monitoring : Bool
  deriving DecidableEq, Repr

namespace ClientSessionPool

def k2ndBindResponseSize : Nat := 22

def kMicroBufferSize : Nat := 24

def kMaxConnections : Int := 128

/-! ## Start -/

/-- How the blocking calls of `Start` go, in their order. -/
structure Startup where
  /-- `none` when the read fails. -/
  bindReq : Option (MessageType × UInt16)
  connected : Bool
  requestWritten : Bool
  proxyResp : Option (List.Vector UInt8 12)
  bindRespWritten : Bool
  listenReq : Option (MessageType × Int32)
  listenRespWritten : Bool

def bindReqTemplate : List UInt8 :=
  [0x05, 0x01, 0x00, 0x05, 0x02, 0x00, 0x01, 0x00, 0x00, 0x00, 0x00, 0x00, 0x00]

/-- `memcpy` of the port to the last two bytes. -/
def setPort (request port : List UInt8) : List UInt8 := request.take (request.length - 2) ++ port

/-- What is written to the proxy for `port`. -/
def bindRequest (port : UInt16) : List UInt8 := setPort bindReqTemplate (htons port)

/-- A handler is bound to the operation. -/
def await (index : Nat) (awaits : Awaits) (p : ClientSessionPool) : ClientSessionPool :=
  { p with outstanding := p.outstanding ++ [(index, awaits)] }

/-- The end of `Start`, when the application listens: the first socket is past its first
response. That `Start` appends the second one is pending. -/
def hydrate (request : List UInt8) (port : UInt16) (backlog : Int32) : ClientSessionPool :=
  let poolSize := (if backlog.toInt > kMaxConnections then kMaxConnections else backlog.toInt).toNat
  await 0 .secondResp
    { pool_ := 1, buffers_ := List.replicate poolSize (List.replicate kMicroBufferSize 0)
      proxy_bind_request_ := request, number_of_errors_ := 0, pool_size_ := poolSize
      port_ := port, stop_ := false, outstanding := [], pending := [(0, .grow)], monitoring := true }

/-- `none` when it returns false. -/
def start (io : Startup) : Option ClientSessionPool := do
  let (type, port) ← io.bindReq
  guard (type = .kBindRequest)
  guard io.connected
  let request := bindRequest port
  guard io.requestWritten
  let resp ← io.proxyResp
  guard (resp.toList.getD 3 0 = 0x00)
  let bound := resp.toList.drop 10
  let request := setPort request bound
  guard io.bindRespWritten
  let (type, backlog) ← io.listenReq
  guard (type = .kListenRequest)
  guard io.listenRespWritten
  guard (0 ≤ backlog.toInt)
  return hydrate request (ntohs bound) backlog

/-! ## The handlers -/

/-- The socket at `index` is closed, made anew and connected. -/
def initiateSocket (index : Nat) (p : ClientSessionPool) : Option ClientSessionPool :=
  if index < p.pool_ then some (p.await index .connect) else none

def failed (index : Nat) (p : ClientSessionPool) : Option ClientSessionPool :=
  initiateSocket index { p with number_of_errors_ := p.number_of_errors_ + 1 }

def handleConnect (index : Nat) (ec writeError : ErrorCode) (p : ClientSessionPool) :
    Option ClientSessionPool :=
  if index < p.pool_ then
    if p.stop_ then some p
    else if ec.failed then p.failed index
    else if writeError.failed then p.failed index
    else if index < p.buffers_.length then some (p.await index .firstResp)
    else none
  else none

/-- What a read of the slot left in its buffer. -/
def received (index : Nat) (bytes : List UInt8) (p : ClientSessionPool) : ClientSessionPool :=
  { p with buffers_ := p.buffers_.modify index (fun data => bytes ++ data.drop bytes.length) }

def handle1stResp (index : Nat) (ec : ErrorCode) (p : ClientSessionPool) :
    Option ClientSessionPool := do
  let buf ← p.buffers_[index]?
  if index < p.pool_ then
    if p.stop_ then some p
    else if ec.failed then p.failed index
    else if buf.getD 3 0 ≠ 0x00 then p.failed index
    else some (await index .secondResp { p with pending := p.pending ++ [(index, .check)] })
  else none

/-- The last lines of `Handle1stResp`, or of `Start` for the slot 0. -/
def runTail (index : Nat) (p : ClientSessionPool) : Tail → Option ClientSessionPool
  -- If this is the last socket in the pool, and the pool is not hydrated yet.
  | .check =>
    if index = p.pool_ - 1 ∧ p.pool_ < p.pool_size_ then
      some { p with pending := p.pending ++ [(index, .grow)] }
    else some p
  | .grow =>
    let p := { p with pool_ := p.pool_ + 1 }
    if index + 1 < p.pool_ then some (p.await (index + 1) .connect) else none

/-- A `NewConnectionResponse`, in the buffer that it is sent from. -/
def newConnectionResponse (buf : List UInt8) : List UInt8 :=
  [0x04, 0x00, 0x00, 0x00] ++ (buf.drop 4).take 16 ++ (buf.drop 20).take 2 ++ buf.drop 22

def handle2ndResp (index bytesRead : Nat) (ec : ErrorCode) (p : ClientSessionPool) :
    Option ClientSessionPool := do
  let buf ← p.buffers_[index]?
  if p.stop_ then some p
  else if ec.failed ∨ bytesRead < k2ndBindResponseSize ∨ buf.getD 1 0 ≠ 0x00 then p.failed index
  else
    some (await index .sendFd { p with buffers_ := p.buffers_.set index (newConnectionResponse buf) })

def stop (p : ClientSessionPool) : ClientSessionPool := { p with stop_ := true }

/-- `sent` is what `sendmsg` returned. -/
def handleSendFd (index : Nat) (ec : ErrorCode) (sent : Int) (p : ClientSessionPool) :
    Option ClientSessionPool :=
  if index < p.pool_ ∧ index < p.buffers_.length then
    if p.stop_ then some p
    else if ec.failed then p.failed index
    else if sent ≤ 0 then some p.stop
    else p.initiateSocket index
  else none

def handleClientError (p : ClientSessionPool) : ClientSessionPool :=
  if p.stop_ then p else p.stop

/-! ## Runs -/

inductive Action where
  | connect (index : Nat) (ec writeError : ErrorCode)
  | firstResp (index : Nat) (ec : ErrorCode) (bytes : List UInt8)
  | secondResp (index : Nat) (ec : ErrorCode) (bytes : List UInt8)
  /-- `sent` is what `sendmsg` returned. -/
  | sendFd (index : Nat) (ec : ErrorCode) (sent : Int)
  | clientError
  | tail (index : Nat) (tail : Tail)

/-- One completion with its handler, or a step of what is pending. -/
inductive Step (p : ClientSessionPool) : Action → Option ClientSessionPool → Prop where
  | connect {l l' : List (Nat × Awaits)} {index : Nat}
      (h : p.outstanding = l ++ (index, .connect) :: l') (ec writeError : ErrorCode) :
      Step p (.connect index ec writeError)
        (handleConnect index ec writeError { p with outstanding := l ++ l' })
  | firstResp {l l' : List (Nat × Awaits)} {index : Nat}
      (h : p.outstanding = l ++ (index, .firstResp) :: l') (ec : ErrorCode) (bytes : List UInt8)
      (hbytes : bytes.length ≤ 12) :
      Step p (.firstResp index ec bytes)
        (handle1stResp index ec (received index bytes { p with outstanding := l ++ l' }))
  | secondResp {l l' : List (Nat × Awaits)} {index : Nat}
      (h : p.outstanding = l ++ (index, .secondResp) :: l') (ec : ErrorCode) (bytes : List UInt8)
      (hbytes : bytes.length ≤ k2ndBindResponseSize) :
      Step p (.secondResp index ec bytes) (handle2ndResp index bytes.length ec
        (received index bytes { p with outstanding := l ++ l' }))
  | sendFd {l l' : List (Nat × Awaits)} {index : Nat}
      (h : p.outstanding = l ++ (index, .sendFd) :: l') (ec : ErrorCode) (sent : Int) :
      Step p (.sendFd index ec sent) (handleSendFd index ec sent { p with outstanding := l ++ l' })
  | clientError (h : p.monitoring = true) :
      Step p .clientError (some (handleClientError { p with monitoring := false }))
  | tail {l l' : List (Nat × Tail)} {index : Nat} {tail : Tail}
      (h : p.pending = l ++ (index, tail) :: l') :
      Step p (.tail index tail) (runTail index { p with pending := l ++ l' } tail)

/-- The states of a pool from `p` on, by steps that `allowed` holds of. -/
inductive Reachable (allowed : ClientSessionPool → Action → Prop) (p : ClientSessionPool) :
    ClientSessionPool → Prop where
  | refl : Reachable allowed p p
  | step {q q' : ClientSessionPool} {a : Action} (hq : Reachable allowed p q) (ha : allowed q a)
      (h : Step q a (some q')) : Reachable allowed p q'

/-- A socket is appended behind the slot that appends it: nobody has appended one since the
check, or since `Start` launched the first read. -/
def InOrder (p : ClientSessionPool) : Action → Prop
  | .tail index .grow => index + 1 = p.pool_
  | _ => True

/-! ## The invariant -/

/-- The sizes, and the indices of what is outstanding or pending. -/
structure Fits (p : ClientSessionPool) : Prop where
  size : p.pool_ ≤ p.pool_size_
  buffers : p.pool_size_ = p.buffers_.length
  indices : ∀ o ∈ p.outstanding, o.1 < p.pool_
  pending : ∀ t ∈ p.pending, t.1 < p.pool_
  room : ∀ t ∈ p.pending, t.2 = .grow → t.1 + 1 < p.pool_size_

structure Good (p : ClientSessionPool) : Prop extends p.Fits where
  slots : p.stop_ = false → (p.outstanding.map Prod.fst).Perm (List.range p.pool_)

/-- The operation of the slot `index` has completed, and its handler runs. -/
structure Idle (index : Nat) (p : ClientSessionPool) : Prop extends p.Fits where
  lt : index < p.pool_
  slots : p.stop_ = false → (index :: p.outstanding.map Prod.fst).Perm (List.range p.pool_)

section
variable {p : ClientSessionPool} {index : Nat}

theorem Good.idle (h : p.Good) {l l' : List (Nat × Awaits)} {awaits : Awaits}
    (hlist : p.outstanding = l ++ (index, awaits) :: l') :
    Idle index { p with outstanding := l ++ l' } where
  size := h.size
  buffers := h.buffers
  indices := by
    intro o ho
    apply h.indices o
    rw [hlist]
    exact (List.mem_append.mp ho).elim (List.mem_append_left _)
      (fun hmem => List.mem_append_right _ (List.mem_cons_of_mem _ hmem))
  pending := h.pending
  room := h.room
  lt := by
    apply h.indices (index, awaits)
    rw [hlist]
    exact List.mem_append_right _ List.mem_cons_self
  slots := by
    intro hstop
    have hperm := h.slots hstop
    rw [hlist, List.map_append, List.map_cons] at hperm
    show (index :: (l ++ l').map Prod.fst).Perm _
    rw [List.map_append]
    exact List.perm_middle.symm.trans hperm

theorem Idle.lt_buffers (h : p.Idle index) : index < p.buffers_.length := by
  have hlt := h.lt
  have hsize := h.size
  rw [h.buffers] at hsize
  omega

theorem Idle.received (h : p.Idle index) (bytes : List UInt8) :
    Idle index (p.received index bytes) where
  size := h.size
  buffers := h.buffers.trans (List.length_modify ..).symm
  indices := h.indices
  pending := h.pending
  room := h.room
  lt := h.lt
  slots := h.slots

theorem Idle.await (h : p.Idle index) (awaits : Awaits) : (p.await index awaits).Good where
  size := h.size
  buffers := h.buffers
  indices := by
    intro o ho
    rcases List.mem_append.mp ho with hmem | hmem
    · exact h.indices o hmem
    · rw [List.mem_singleton.mp hmem]
      exact h.lt
  pending := h.pending
  room := h.room
  slots := by
    intro hstop
    show ((p.outstanding ++ [(index, awaits)]).map Prod.fst).Perm _
    rw [List.map_append]
    exact (List.perm_append_singleton index _).trans (h.slots hstop)

/-- Once the pool has stopped, the slots may stay idle. -/
theorem Idle.stopped (h : p.Idle index) (hstop : p.stop_ = true) : p.Good where
  toFits := h.toFits
  slots := by
    intro hfalse
    rw [hstop] at hfalse
    cases hfalse

theorem Idle.initiateSocket (h : p.Idle index) :
    ∃ p', p.initiateSocket index = some p' ∧ p'.Good :=
  ⟨_, if_pos h.lt, h.await .connect⟩

theorem Idle.failed (h : p.Idle index) : ∃ p', p.failed index = some p' ∧ p'.Good :=
  Idle.initiateSocket ⟨⟨h.size, h.buffers, h.indices, h.pending, h.room⟩, h.lt, h.slots⟩

/-- The check is pending. -/
theorem Idle.check (h : p.Idle index) :
    Idle index { p with pending := p.pending ++ [(index, .check)] } where
  size := h.size
  buffers := h.buffers
  indices := h.indices
  pending := by
    intro t ht
    rcases List.mem_append.mp ht with hmem | hmem
    · exact h.pending t hmem
    · rw [List.mem_singleton.mp hmem]
      exact h.lt
  room := by
    intro t ht hgrow
    rcases List.mem_append.mp ht with hmem | hmem
    · exact h.room t hmem hgrow
    · rw [List.mem_singleton.mp hmem] at hgrow
      cases hgrow
  lt := h.lt
  slots := h.slots

/-! ## The handlers keep it -/

theorem Idle.handleConnect (h : p.Idle index) (ec writeError : ErrorCode) :
    ∃ p', p.handleConnect index ec writeError = some p' ∧ p'.Good := by
  unfold ClientSessionPool.handleConnect
  rw [if_pos h.lt]
  split_ifs with hstop hec hwrite hbuffers
  · exact ⟨_, rfl, h.stopped hstop⟩
  · exact h.failed
  · exact h.failed
  · exact ⟨_, rfl, h.await .firstResp⟩
  · exact absurd h.lt_buffers hbuffers

theorem Idle.handle1stResp (h : p.Idle index) (ec : ErrorCode) :
    ∃ p', p.handle1stResp index ec = some p' ∧ p'.Good := by
  unfold ClientSessionPool.handle1stResp
  rw [List.getElem?_eq_getElem h.lt_buffers, Option.bind_eq_bind, Option.bind_some, if_pos h.lt]
  split_ifs with hstop hec hresp
  · exact ⟨_, rfl, h.stopped hstop⟩
  · exact h.failed
  · exact h.failed
  · exact ⟨_, rfl, h.check.await .secondResp⟩

theorem Idle.handle2ndResp (h : p.Idle index) (ec : ErrorCode) (bytesRead : Nat) :
    ∃ p', p.handle2ndResp index bytesRead ec = some p' ∧ p'.Good := by
  unfold ClientSessionPool.handle2ndResp
  rw [List.getElem?_eq_getElem h.lt_buffers, Option.bind_eq_bind, Option.bind_some]
  split_ifs with hstop hresp
  · exact ⟨_, rfl, h.stopped hstop⟩
  · exact h.failed
  · refine ⟨_, rfl, Idle.await ?_ .sendFd⟩
    exact ⟨⟨h.size, h.buffers.trans List.length_set.symm, h.indices, h.pending, h.room⟩, h.lt,
      h.slots⟩

theorem Idle.handleSendFd (h : p.Idle index) (ec : ErrorCode) (sent : Int) :
    ∃ p', p.handleSendFd index ec sent = some p' ∧ p'.Good := by
  unfold ClientSessionPool.handleSendFd
  rw [if_pos ⟨h.lt, h.lt_buffers⟩]
  split_ifs with hstop hec hsent
  · exact ⟨_, rfl, h.stopped hstop⟩
  · exact h.failed
  · exact ⟨_, rfl, ⟨h.size, h.buffers, h.indices, h.pending, h.room⟩, nofun⟩
  · exact h.initiateSocket

/-! ## What is pending -/

section
variable {l l' : List (Nat × Tail)}

/-- What is pending begins. -/
theorem Good.tail {tail : Tail} (h : p.Good) (hlist : p.pending = l ++ (index, tail) :: l') :
    Good { p with pending := l ++ l' } := by
  have hmem : ∀ t ∈ l ++ l', t ∈ p.pending := by
    intro t ht
    rw [hlist]
    exact (List.mem_append.mp ht).elim (List.mem_append_left _)
      (fun hin => List.mem_append_right _ (List.mem_cons_of_mem _ hin))
  exact
    { size := h.size
      buffers := h.buffers
      indices := h.indices
      pending := fun t ht => h.pending t (hmem t ht)
      room := fun t ht => h.room t (hmem t ht)
      slots := h.slots }

theorem Good.runTail_check (h : p.Good) (hindex : index < p.pool_) :
    ∃ p', p.runTail index .check = some p' ∧ p'.Good := by
  unfold runTail
  by_cases hlast : index = p.pool_ - 1 ∧ p.pool_ < p.pool_size_
  · have hmem : ∀ t ∈ p.pending ++ [(index, Tail.grow)], t ∈ p.pending ∨ t = (index, Tail.grow) :=
      fun t ht => (List.mem_append.mp ht).imp_right List.mem_singleton.mp
    refine ⟨_, if_pos hlast, ⟨h.size, h.buffers, h.indices, fun t ht => ?_, fun t ht hgrow => ?_⟩,
      h.slots⟩
    · rcases hmem t ht with hin | rfl
      · exact h.pending t hin
      · exact hindex
    · rcases hmem t ht with hin | rfl
      · exact h.room t hin hgrow
      · show index + 1 < p.pool_size_
        omega
  · exact ⟨p, if_neg hlast, h⟩

/-- One more socket, which connects. -/
theorem Good.runTail_grow (h : p.Good) (horder : index + 1 = p.pool_) (hroom : index + 1 < p.pool_size_) :
    ∃ p', p.runTail index .grow = some p' ∧ p'.Good := by
  refine ⟨_, if_pos (show index + 1 < p.pool_ + 1 by omega), ?_⟩
  rw [horder]
  exact
    { size := horder ▸ hroom
      buffers := h.buffers
      indices := by
        intro o ho
        rcases List.mem_append.mp ho with hmem | hmem
        · exact Nat.lt_succ_of_lt (h.indices o hmem)
        · rw [List.mem_singleton.mp hmem]
          exact Nat.lt_succ_self p.pool_
      pending := fun t ht => Nat.lt_succ_of_lt (h.pending t ht)
      room := h.room
      slots := by
        intro hstop
        show ((p.outstanding ++ [(p.pool_, Awaits.connect)]).map Prod.fst).Perm
          (List.range (p.pool_ + 1))
        rw [List.map_append, List.range_succ]
        exact (h.slots hstop).append_right _ }

/-- A socket that somebody else has appended already is connected once more. -/
theorem Good.overlap (h : p.Good) (hstop : p.stop_ = false)
    (hlist : p.pending = l ++ (index, .grow) :: l') (horder : index + 1 ≠ p.pool_) :
    ∃ p', Step p (.tail index .grow) (some p') ∧ 2 ≤ (p'.outstanding.map Prod.fst).count (index + 1) := by
  have hindex : index < p.pool_ := by
    apply h.pending (index, .grow)
    rw [hlist]
    exact List.mem_append_right _ List.mem_cons_self
  have hlt : index + 1 < p.pool_ := by omega
  have hstep := Step.tail hlist
  rw [runTail, if_pos (show index + 1 < p.pool_ + 1 by omega)] at hstep
  refine ⟨_, hstep, ?_⟩
  have hone : (p.outstanding.map Prod.fst).count (index + 1) = 1 := by
    rw [(h.slots hstop).count_eq]
    exact List.count_eq_one_of_mem List.nodup_range (List.mem_range.mpr hlt)
  show 2 ≤ ((p.outstanding ++ [(index + 1, Awaits.connect)]).map Prod.fst).count (index + 1)
  rw [List.map_append, List.count_append, hone]
  simp

end

/-- No handler has an index outside the pool or the buffers, and until somebody appends a
socket out of order the pool stays good. -/
theorem good_step (h : p.Good) {a : Action} {r : Option ClientSessionPool} (hstep : Step p a r) :
    ∃ p', r = some p' ∧ (p.InOrder a → p'.Good) := by
  have hkeep : ∀ {r : Option ClientSessionPool}, (∃ p', r = some p' ∧ p'.Good) →
      ∃ p', r = some p' ∧ (p.InOrder a → p'.Good) :=
    fun ⟨p', hp', hgood⟩ => ⟨p', hp', fun _ => hgood⟩
  cases hstep with
  | connect hlist ec writeError => exact hkeep ((h.idle hlist).handleConnect ec writeError)
  | firstResp hlist ec bytes hbytes =>
    exact hkeep (((h.idle hlist).received bytes).handle1stResp ec)
  | secondResp hlist ec bytes hbytes =>
    exact hkeep (((h.idle hlist).received bytes).handle2ndResp ec bytes.length)
  | sendFd hlist ec sent => exact hkeep ((h.idle hlist).handleSendFd ec sent)
  | clientError hmonitoring =>
    refine hkeep ⟨_, rfl, ?_⟩
    unfold handleClientError
    split_ifs with hstop
    · exact ⟨⟨h.size, h.buffers, h.indices, h.pending, h.room⟩, h.slots⟩
    · exact ⟨⟨h.size, h.buffers, h.indices, h.pending, h.room⟩, nofun⟩
  | @tail l l' index tail hlist =>
    have hmem : (index, tail) ∈ p.pending := by
      rw [hlist]
      exact List.mem_append_right _ List.mem_cons_self
    cases tail with
    | check => exact hkeep ((h.tail hlist).runTail_check (h.pending _ hmem))
    | grow =>
      have hlt : index + 1 < p.pool_ + 1 := Nat.succ_lt_succ (h.pending _ hmem)
      refine ⟨_, if_pos hlt, fun horder => ?_⟩
      obtain ⟨p', hp', hgood⟩ := (h.tail hlist).runTail_grow horder (h.room _ hmem rfl)
      cases (if_pos hlt).symm.trans hp'
      exact hgood

theorem good_reachable (h : p.Good) {q : ClientSessionPool} (hq : Reachable InOrder p q) :
    q.Good := by
  induction hq with
  | refl => exact h
  | step _ horder hstep ih =>
    obtain ⟨p', hp', hgood⟩ := good_step ih hstep
    cases hp'
    exact hgood horder

/-- The sockets fit the pool, every handler's index is below both sizes, and until the pool
stops each slot has one operation. -/
structure Proper (p : ClientSessionPool) : Prop where
  size : p.pool_ ≤ p.pool_size_ ∧ p.pool_size_ = p.buffers_.length
  indices : ∀ o ∈ p.outstanding, o.1 < p.pool_ ∧ o.1 < p.buffers_.length
  slots : p.stop_ = false → ∀ index < p.pool_, (p.outstanding.map Prod.fst).count index = 1
  handlers : ∀ a r, Step p a r → r ≠ none

theorem Good.proper (h : p.Good) : p.Proper where
  size := ⟨h.size, h.buffers⟩
  indices := by
    intro o ho
    have hlt := h.indices o ho
    have hsize := h.size
    rw [h.buffers] at hsize
    exact ⟨hlt, by omega⟩
  slots := by
    intro hstop index hlt
    rw [(h.slots hstop).count_eq]
    exact List.count_eq_one_of_mem List.nodup_range (List.mem_range.mpr hlt)
  handlers := by
    intro a r hstep
    obtain ⟨p', rfl, -⟩ := good_step h hstep
    exact Option.some_ne_none _

end

/-! ## The backlog -/

theorem poolSize_hydrate (request : List UInt8) (port : UInt16) (backlog : Int32) :
    (hydrate request port backlog).pool_size_ =
      (if backlog.toInt > kMaxConnections then kMaxConnections else backlog.toInt).toNat := rfl

/-- The first slot, and room for the second one. -/
theorem good_hydrate {request : List UInt8} {port : UInt16} {backlog : Int32}
    (h : 2 ≤ (hydrate request port backlog).pool_size_) : (hydrate request port backlog).Good where
  size := Nat.le_of_succ_le h
  buffers := List.length_replicate.symm
  indices := by
    intro o ho
    rw [List.mem_singleton.mp (show o ∈ [(0, Awaits.secondResp)] from ho)]
    exact Nat.one_pos
  pending := by
    intro t ht
    rw [List.mem_singleton.mp (show t ∈ [(0, Tail.grow)] from ht)]
    exact Nat.one_pos
  room := by
    intro t ht _
    rw [List.mem_singleton.mp (show t ∈ [(0, Tail.grow)] from ht)]
    exact h
  slots := fun _ => List.Perm.refl _

/-- `Start` appends the second socket. -/
theorem reachable_second (request : List UInt8) (port : UInt16) (backlog : Int32) :
    ∃ q, Reachable InOrder (hydrate request port backlog) q ∧ q.pool_ = 2 ∧
      q.pool_size_ = (hydrate request port backlog).pool_size_ := by
  have hpending : (hydrate request port backlog).pending = [] ++ (0, .grow) :: [] := rfl
  exact ⟨_, .step (a := .tail 0 .grow) .refl rfl (.tail hpending), rfl, rfl⟩

/-- What a successful `Start` went through. -/
theorem start_eq_some {io : Startup} {p : ClientSessionPool} (h : start io = some p) :
    ∃ port resp backlog, io.bindReq = some (.kBindRequest, port) ∧ io.proxyResp = some resp ∧
      io.listenReq = some (.kListenRequest, backlog) ∧ 0 ≤ backlog.toInt ∧
      p = hydrate (setPort (bindRequest port) (resp.toList.drop 10))
        (ntohs (resp.toList.drop 10)) backlog := by
  simp only [start, Option.bind_eq_bind, Option.bind_eq_some_iff, Option.guard_eq_some', exists_const] at h
  obtain ⟨⟨type, port⟩, hbind, htype, -, -, resp, hresp, -, -, ⟨type', backlog⟩, hlisten, htype', -, hpos, hp⟩ := h
  cases htype
  cases htype'
  cases hp
  exact ⟨port, resp, backlog, hbind, hresp, hlisten, hpos, rfl⟩

/-- As long as sockets are appended in order, the pool is proper in every state of every run
exactly if the backlog is two at least. -/
theorem pool_proper_iff {io : Startup} {p : ClientSessionPool} (h : start io = some p) :
    (∀ q, Reachable InOrder p q → q.Proper) ↔
      ∃ type backlog, io.listenReq = some (type, backlog) ∧ 2 ≤ backlog.toInt := by
  obtain ⟨port, resp, backlog, -, -, hlisten, hpos, rfl⟩ := start_eq_some h
  -- The two sockets of `Start` fit the pool exactly then.
  have hsize : 2 ≤ (hydrate (setPort (bindRequest port) (resp.toList.drop 10))
      (ntohs (resp.toList.drop 10)) backlog).pool_size_ ↔ 2 ≤ backlog.toInt := by
    rw [poolSize_hydrate]
    unfold kMaxConnections
    split <;> omega
  constructor
  · intro hproper
    obtain ⟨q, hq, htwo, hsame⟩ := reachable_second (setPort (bindRequest port)
      (resp.toList.drop 10)) (ntohs (resp.toList.drop 10)) backlog
    have hfits := (hproper q hq).size.1
    rw [htwo, hsame] at hfits
    exact ⟨_, backlog, hlisten, hsize.mp hfits⟩
  · rintro ⟨type, backlog', hlisten', hle⟩ q hq
    rw [hlisten] at hlisten'
    cases hlisten'
    exact (good_reachable (good_hydrate (hsize.mpr hle)) hq).proper

namespace Sample

/-- An application that binds port 4660 and listens. -/
def startup (backlog : Int32) : Startup :=
  { bindReq := some (.kBindRequest, 0x1234)
    connected := true
    requestWritten := true
    proxyResp := some ⟨[0x05, 0x00, 0x05, 0x00, 0x00, 0x01, 0x00, 0x00, 0x00, 0x00, 0x12, 0x34], rfl⟩
    bindRespWritten := true
    listenReq := some (.kListenRequest, backlog)
    listenRespWritten := true }

def pool (backlog : Int32) : ClientSessionPool :=
  hydrate (setPort (bindRequest 0x1234) [0x12, 0x34]) (ntohs [0x12, 0x34]) backlog

end Sample

theorem pool_proper_backlog :
    start (Sample.startup 64) = some (Sample.pool 64) ∧
      ∀ q, Reachable InOrder (Sample.pool 64) q → q.Proper := by
  have hstart : start (Sample.startup 64) = some (Sample.pool 64) := rfl
  exact ⟨hstart, (pool_proper_iff hstart).mpr ⟨.kListenRequest, 64, rfl, by decide⟩⟩

/-- With a backlog of 0 there are two sockets and no buffer, and the handler of the second
connection has an index outside `buffers_`. -/
theorem pool_overflows :
    start (Sample.startup 0) = some (Sample.pool 0) ∧
      ∃ q, Reachable InOrder (Sample.pool 0) q ∧ q.pool_ = 2 ∧ q.pool_size_ = 0 ∧
        Step q (.connect 1 .success .success) none ∧ ¬ q.Proper := by
  have hpending : (Sample.pool 0).pending = [] ++ (0, .grow) :: [] := rfl
  refine ⟨rfl, _, .step (a := .tail 0 .grow) .refl rfl (.tail hpending), rfl, rfl, ?_, ?_⟩
  · exact Step.connect (show _ = [(0, Awaits.secondResp)] ++ (1, Awaits.connect) :: [] from rfl)
      .success .success
  · intro h
    exact absurd h.size.1 (by decide)

/-- With a backlog of 2, while `Start` is about to append the second socket: a connection comes
in at the first one and is handed over, and the socket connects again. The last lines of its
`Handle1stResp` append a socket, and then `Start` does. -/
theorem pool_overlaps :
    start (Sample.startup 2) = some (Sample.pool 2) ∧
      ∃ q, Reachable (fun _ _ => True) (Sample.pool 2) q ∧ q.pool_ = 3 ∧ q.pool_size_ = 2 ∧
        q.stop_ = false ∧ (q.outstanding.map Prod.fst).count 1 = 2 := by
  have h₀ : Reachable (fun _ _ => True) (Sample.pool 2) (Sample.pool 2) := .refl
  have h₁ := h₀.step trivial (.secondResp (show _ = [] ++ (0, Awaits.secondResp) :: [] from rfl)
    .success (List.replicate 22 0) (by decide))
  have h₂ := h₁.step trivial (.sendFd (show _ = [] ++ (0, Awaits.sendFd) :: [] from rfl) .success
    24)
  have h₃ := h₂.step trivial (.connect (show _ = [] ++ (0, Awaits.connect) :: [] from rfl) .success
    .success)
  have h₄ := h₃.step trivial (.firstResp (show _ = [] ++ (0, Awaits.firstResp) :: [] from rfl)
    .success (List.replicate 12 0) (by decide))
  have h₅ := h₄.step trivial (.tail (show _ = [(0, Tail.grow)] ++ (0, Tail.check) :: [] from rfl))
  have h₆ := h₅.step trivial (.tail (show _ = [(0, Tail.grow)] ++ (0, Tail.grow) :: [] from rfl))
  have h₇ := h₆.step trivial (.tail (show _ = [] ++ (0, Tail.grow) :: [] from rfl))
  exact ⟨rfl, _, h₇, rfl, rfl, rfl, rfl⟩

end ClientSessionPool
end Proxy
