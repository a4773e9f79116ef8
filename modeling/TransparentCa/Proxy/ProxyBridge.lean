import TransparentCa.Lib.Alone
import TransparentCa.Proxy.ByteQueue
import TransparentCa.Proxy.HandshakeGrammar

/- `ProxyBridge`: one proxy session, from the handshake to the end of forwarding. All handlers
   run on one strand, so a step is one completion with its handler. The two directions have a
   buffer, four flags and two handlers each; `Flow` is one of them. The buffers are byte
   queues, whose operations `BasicBuffer` serves (`Client.Simulates`), and `none` is a failed
   `assert`. What completions bring is free: any error, any bytes as far as the buffer of the
   operation has room, in any order. -/
namespace Proxy
open Effects

/-- `boost::system::error_code`. -/
inductive ErrorCode where
  | success
  | eof
  | other (value : Int)
  deriving DecidableEq, Repr

def ErrorCode.failed : ErrorCode → Bool
  | .success => false
  | .eof => true
  | .other _ => true

/-- One direction: bytes are read from the source into the buffer and written to the sink. -/
structure Flow where
  buff : ByteQueue
  /-- `reading_client_` or `reading_dest_`. -/
  reading : Bool
  /-- `writing_dest_` or `writing_client_`. -/
  writing : Bool
  /-- `client_readable_` or `dest_readable_`. -/
  readable : Bool
  /-- `dest_writable_` or `client_writable_`. -/
  writable : Bool
  /-- The sizes of the buffers that outstanding `async_read_some` on the source fill. -/
  reads : List Nat
  /-- What outstanding `async_write_some` on the sink were given. -/
  writes : List (List UInt8)
  /-- `shutdown(shutdown_send)` was called on the sink. -/
  sinkShutdown : Bool
  /-- `shutdown(shutdown_receive)` was called on the source. -/
  sourceShutdown : Bool
  /-- The bytes from the source: what the handshake left, and all that were read since. -/
  received : List UInt8
  /-- The bytes written to the sink. -/
  sent : List UInt8
  /-- The errors of the reads, and of the writes, so far. -/
  readErrors : List ErrorCode
  writeErrors : List ErrorCode
  deriving DecidableEq, Repr

namespace Flow

def kMaxBufferSize : Nat := 32 * 1024

def kReadSize : Nat := 8 * 1024

def init : Flow :=
  ⟨.empty, false, false, true, true, [], [], false, false, [], [], [], []⟩

/-! ## ForwardTraffic -/

/-- A read of the source, if there is none and it may go on; `n` bytes are reserved. -/
def scheduleRead (n : Nat) (f : Flow) : Option Flow :=
  if ¬ f.reading ∧ f.readable ∧ f.writable ∧ f.buff.dataSize < kMaxBufferSize then do
    let buff ← f.buff.reserveAtLeast kReadSize n
    return { f with buff := buff, reading := true, reads := f.reads ++ [n] }
  else return f

/-- A write to the sink, if there is none and it may go on. -/
def scheduleWrite (f : Flow) : Option Flow :=
  if ¬ f.writing ∧ f.writable ∧ f.buff.dataSize > 0 then do
    let buff ← f.buff.peek
    return { f with buff := buff, writing := true, writes := f.writes ++ [f.buff.data] }
  else return f

/-! ## The handlers -/

/-- `ClientReadHandler` or `DestReadHandler`, before `ForwardTraffic`. -/
def readHandler (ec : ErrorCode) (bytes : List UInt8) (f : Flow) : Option Flow := do
  let f := { f with reading := false }
  let buff ← f.buff.commit bytes
  let f := { f with buff := buff, received := f.received ++ bytes }
  if ec.failed then
    let f := { f with readable := false, readErrors := f.readErrors ++ [ec] }
    if f.buff.dataSize = 0 then return { f with sinkShutdown := true } else return f
  else return f

/-- `DestWriteHandler` or `ClientWriteHandler`, before `ForwardTraffic`: of `bytes`, the first
`written` were written. -/
def writeHandler (ec : ErrorCode) (bytes : List UInt8) (written : Nat) (f : Flow) : Option Flow := do
  let f := { f with writing := false }
  let buff ← f.buff.drain written
  let f := { f with buff := buff, sent := f.sent ++ bytes.take written }
  let f :=
    if ec.failed then
      { f with writable := false, sourceShutdown := true, writeErrors := f.writeErrors ++ [ec] }
    else f
  if ¬ f.readable ∧ f.buff.dataSize = 0 then
    return { f with writable := false, sinkShutdown := true }
  else return f

end Flow

/-- Operations that the callbacks of the handshake started and that have not completed. -/
structure Pending where
  /-- `async_connect` on the destination's socket. -/
  connects : Nat
  /-- `async_accept` on an acceptor. -/
  accepts : Nat
  /-- `async_wait` on the client's socket. -/
  waits : Nat
  deriving DecidableEq, Repr

structure ProxyBridge where
  /-- `upstream_buff_`: from the client to the destination. -/
  up : Flow
  /-- `downstream_buff_`: from the destination to the client. -/
  down : Flow
  socks5_state_ : Socks5State
  /-- The sizes of the buffers that outstanding reads of the handshake fill. -/
  handshakeReads : List Nat
  pending : Pending
  /-- `ForwardTraffic` was called. -/
  forwarding : Bool
  deriving DecidableEq, Repr

namespace ProxyBridge

/-- `SetSocks5StateCallbacks`: what the callbacks answer, and what they start. -/
inductive Answers : Pending → (o : Callback) → Except CallbackError o.Val → Pending → Prop where
  | connect (p : Pending) (addr : SockAddr) :
      Answers p (.connect addr) (Except.ok CallbackStatus.kStatusInProgress)
        { p with connects := p.connects + 1 }
  | response (p : Pending) (data : List UInt8) (status : CallbackStatus)
      (h : status ≠ .kStatusInProgress) : Answers p (.response data) (Except.ok status) p
  | destAddress (p : Pending) (remote : Bool) (status : CallbackStatus) (addr : SockAddr)
      (h : status ≠ .kStatusInProgress) :
      Answers p (.destAddress remote) (Except.ok (status, addr)) p
  -- A connection is awaited, and meanwhile an error of the client.
  | bind (p : Pending) (port bound : UInt16) :
      Answers p (.bind port) (Except.ok (CallbackStatus.kStatusOK, bound))
        { p with accepts := p.accepts + 1, waits := p.waits + 1 }
  -- There is no acceptor for the port.
  | bindFail (p : Pending) (port bound : UInt16) :
      Answers p (.bind port) (Except.ok (CallbackStatus.kStatusFail, bound)) p

/-- A bridge with a connected client, and all callbacks set. -/
def init : ProxyBridge :=
  ⟨.init, .init, .init true true true true, [], ⟨0, 0, 0⟩, false⟩

/-- An `async_read_some` of the handshake, into `n` reserved bytes. -/
def readHandshake (n : Nat) (b : ProxyBridge) : Option ProxyBridge := do
  let buff ← b.up.buff.reserveAtLeast 1 n
  return { b with
    up := { b.up with buff := buff }
    handshakeReads := b.handshakeReads ++ [n] }

def performSocks5Handshake (n : Nat) (b : ProxyBridge) : Option ProxyBridge := b.readHandshake n

/-- `Socks5HandshakeHandler`. The loop of `Proceed` on the committed bytes ended as `out`, and
left `pending` operations; it copies out of the buffer, so that no peek may be outstanding. -/
def socks5HandshakeHandler (n : Nat) (ec : ErrorCode) (bytes : List UInt8)
    (out : Except CallbackError (Socks5State × List UInt8)) (pending : Pending)
    (b : ProxyBridge) : Option ProxyBridge := do
  let buff ← b.up.buff.commit bytes
  if ec.failed then return { b with up := { b.up with buff := buff, received := buff.data } }
  match out with
  | .error _ => none
  | .ok (s, rest) =>
    if buff.peeked ≠ none then none
    else
      let b := { b with
        up := { b.up with buff := { buff with data := rest }, received := rest }
        socks5_state_ := s
        pending := pending }
      if s.insufficientBuffer rest then b.readHandshake n else return b

/-- `ForwardTraffic`: its four conditions, in this order. -/
def forwardTraffic (n m : Nat) (b : ProxyBridge) : Option ProxyBridge := do
  let up ← b.up.scheduleRead n
  let down ← b.down.scheduleWrite
  let down ← down.scheduleRead m
  let up ← up.scheduleWrite
  return { b with up := up, down := down, forwarding := true }

def clientReadHandler (n m : Nat) (ec : ErrorCode) (bytes : List UInt8) (b : ProxyBridge) :
    Option ProxyBridge := do
  let up ← b.up.readHandler ec bytes
  forwardTraffic n m { b with up := up }

def clientWriteHandler (n m : Nat) (ec : ErrorCode) (bytes : List UInt8) (written : Nat)
    (b : ProxyBridge) : Option ProxyBridge := do
  let down ← b.down.writeHandler ec bytes written
  forwardTraffic n m { b with down := down }

def destReadHandler (n m : Nat) (ec : ErrorCode) (bytes : List UInt8) (b : ProxyBridge) :
    Option ProxyBridge := do
  let down ← b.down.readHandler ec bytes
  forwardTraffic n m { b with down := down }

def destWriteHandler (n m : Nat) (ec : ErrorCode) (bytes : List UInt8) (written : Nat)
    (b : ProxyBridge) : Option ProxyBridge := do
  let up ← b.up.writeHandler ec bytes written
  forwardTraffic n m { b with up := up }

/-- A connection to the destination is there; `out` is how `ConnectionSucceed` ended. -/
def connected (n m : Nat) (out : Except CallbackError (Bool × Socks5State)) (b : ProxyBridge) :
    Option ProxyBridge :=
  match out with
  | .error _ => none
  | .ok (ok, s) =>
    let b := { b with socks5_state_ := s }
    if ok then b.forwardTraffic n m else return b

def connectHandler (n m : Nat) (ec : ErrorCode) (out : Except CallbackError (Bool × Socks5State))
    (b : ProxyBridge) : Option ProxyBridge :=
  if ec.failed then return b else b.connected n m out

/-- The handler of `async_accept`: `StopWaitingInbound(false)` or `AcceptInboundConnection`.
Either cancels the wait on the client's socket, which then completes. -/
def acceptHandler (n m : Nat) (ec : ErrorCode) (out : Except CallbackError (Bool × Socks5State))
    (b : ProxyBridge) : Option ProxyBridge :=
  if ec.failed then return b else b.connected n m out

/-- `ReserveAtLeast(size)` reserves `n` bytes: whole blocks, up to the first that makes the
size. -/
def Rounded (capacity size n : Nat) : Prop := size ≤ n ∧ n < size + capacity

/-- One completion with its handler; `none` when an `assert` of a buffer fails. -/
inductive Step (capacity : Nat) : ProxyBridge → Option ProxyBridge → Prop where
  | handshake {b : ProxyBridge} {l l' : List Nat} {size : Nat}
      (h : b.handshakeReads = l ++ size :: l') (n : Nat) (hn : Rounded capacity 1 n)
      (ec : ErrorCode) (bytes : List UInt8) (hbytes : bytes.length ≤ size)
      (out : Except CallbackError (Socks5State × List UInt8)) (pending : Pending)
      (hout : ec.failed = false → ∀ buff, b.up.buff.commit bytes = some buff → ∃ tr,
        Prog.Runs (b.socks5_state_.proceedAll buff.data) tr out ∧
          Served Answers b.pending tr pending) :
      Step capacity b
        (socks5HandshakeHandler n ec bytes out pending { b with handshakeReads := l ++ l' })
  | connect {b : ProxyBridge} {k : Nat} (h : b.pending.connects = k + 1) (n m : Nat)
      (hn : Rounded capacity Flow.kReadSize n) (hm : Rounded capacity Flow.kReadSize m)
      (ec : ErrorCode) (out : Except CallbackError (Bool × Socks5State))
      (hout : ec.failed = false → ∃ tr, Prog.Runs b.socks5_state_.connectionSucceed tr out ∧
        Served Answers b.pending tr b.pending) :
      Step capacity b
        (connectHandler n m ec out { b with pending := { b.pending with connects := k } })
  | accept {b : ProxyBridge} {k : Nat} (h : b.pending.accepts = k + 1) (n m : Nat)
      (hn : Rounded capacity Flow.kReadSize n) (hm : Rounded capacity Flow.kReadSize m)
      (ec : ErrorCode) (out : Except CallbackError (Bool × Socks5State))
      (hout : ec.failed = false → ∃ tr, Prog.Runs b.socks5_state_.connectionSucceed tr out ∧
        Served Answers b.pending tr b.pending) :
      Step capacity b
        (acceptHandler n m ec out { b with pending := { b.pending with accepts := k } })
  -- At most, the accept is cancelled, which then completes with an error.
  | wait {b : ProxyBridge} {k : Nat} (h : b.pending.waits = k + 1) :
      Step capacity b (some { b with pending := { b.pending with waits := k } })
  | clientRead {b : ProxyBridge} {l l' : List Nat} {size : Nat} (h : b.up.reads = l ++ size :: l')
      (n m : Nat) (hn : Rounded capacity Flow.kReadSize n)
      (hm : Rounded capacity Flow.kReadSize m) (ec : ErrorCode) (bytes : List UInt8)
      (hbytes : bytes.length ≤ size) :
      Step capacity b
        (clientReadHandler n m ec bytes { b with up := { b.up with reads := l ++ l' } })
  | destRead {b : ProxyBridge} {l l' : List Nat} {size : Nat}
      (h : b.down.reads = l ++ size :: l') (n m : Nat) (hn : Rounded capacity Flow.kReadSize n)
      (hm : Rounded capacity Flow.kReadSize m) (ec : ErrorCode) (bytes : List UInt8)
      (hbytes : bytes.length ≤ size) :
      Step capacity b
        (destReadHandler n m ec bytes { b with down := { b.down with reads := l ++ l' } })
  | destWrite {b : ProxyBridge} {l l' : List (List UInt8)} {bytes : List UInt8}
      (h : b.up.writes = l ++ bytes :: l') (n m : Nat) (hn : Rounded capacity Flow.kReadSize n)
      (hm : Rounded capacity Flow.kReadSize m) (ec : ErrorCode) (written : Nat)
      (hwritten : written ≤ bytes.length) :
      Step capacity b
        (destWriteHandler n m ec bytes written { b with up := { b.up with writes := l ++ l' } })
  | clientWrite {b : ProxyBridge} {l l' : List (List UInt8)} {bytes : List UInt8}
      (h : b.down.writes = l ++ bytes :: l') (n m : Nat) (hn : Rounded capacity Flow.kReadSize n)
      (hm : Rounded capacity Flow.kReadSize m) (ec : ErrorCode) (written : Nat)
      (hwritten : written ≤ bytes.length) :
      Step capacity b (clientWriteHandler n m ec bytes written
        { b with down := { b.down with writes := l ++ l' } })

/-- The states of a bridge, from `PerformSocks5Handshake` on, or from `ForwardTraffic` on when
it was constructed with both sockets open. -/
inductive Reachable (capacity : Nat) : ProxyBridge → Prop where
  | handshake {n : Nat} (hn : Rounded capacity 1 n) {b : ProxyBridge}
      (h : init.performSocks5Handshake n = some b) : Reachable capacity b
  | forward {n m : Nat} (hn : Rounded capacity Flow.kReadSize n)
      (hm : Rounded capacity Flow.kReadSize m) {b : ProxyBridge}
      (h : init.forwardTraffic n m = some b) : Reachable capacity b
  | step {b b' : ProxyBridge} (hb : Reachable capacity b) (h : Step capacity b (some b')) :
      Reachable capacity b'

end ProxyBridge
end Proxy
