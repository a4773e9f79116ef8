import TransparentCa.Lib.Prog
import TransparentCa.Proxy.Protocol

/- `Socks5State`: the proxy's side of the SOCKS5 handshake. The callbacks are the calls of a
   program, so that nothing is assumed about their answers; a callback that is not set is an
   empty `std::function`, and calling it throws. The buffer is the queue of its bytes. -/
namespace Proxy
open Effects

inductive HandshakeState where
  | kGreetingHeader
  | kGreetingMethods
  | kRequestHeader
  | kRequestAddrV4
  | kRequestAddrV6
  | kRequestBind
  | kWaitConnect
  | kWaitAccept
  | kResponse
  | kSuccess
  | kFail
  deriving DecidableEq, Repr

inductive CallbackStatus where
  | kStatusOK
  | kStatusInProgress
  | kStatusFail
  deriving DecidableEq, Repr

/-- A call of one of the callbacks. -/
inductive Callback where
  | response (data : List UInt8)
  | connect (addr : SockAddr)
  | destAddress (remote : Bool)
  | bind (port : UInt16)
  deriving DecidableEq

/-- What a callback returns, with what it writes through its reference arguments. -/
def Callback.Val : Callback → Type
  | .response _ => CallbackStatus
  | .connect _ => CallbackStatus
  | .destAddress _ => CallbackStatus × SockAddr
  | .bind _ => CallbackStatus × UInt16

inductive CallbackError where
  | badFunctionCall
  | thrown
  deriving DecidableEq, Repr

abbrev Callbacks (α : Type) : Type := Prog Callback Callback.Val CallbackError α

namespace Callback

def callResponse (data : List UInt8) : Callbacks CallbackStatus :=
  (Prog.invoke (response data) : Callbacks (Val (response data)))

def callConnect (addr : SockAddr) : Callbacks CallbackStatus :=
  (Prog.invoke (connect addr) : Callbacks (Val (connect addr)))

def callDestAddress (remote : Bool) : Callbacks (CallbackStatus × SockAddr) :=
  (Prog.invoke (destAddress remote) : Callbacks (Val (destAddress remote)))

def callBind (port : UInt16) : Callbacks (CallbackStatus × UInt16) :=
  (Prog.invoke (bind port) : Callbacks (Val (bind port)))

end Callback

/-- The state of the handshake, and which callbacks are set. -/
structure Socks5State where
  response_callback_ : Bool
  connect_callback_ : Bool
  dest_address_callback_ : Bool
  bind_callback_ : Bool
  state_ : HandshakeState
  required_size_ : Nat
  deriving DecidableEq, Repr

namespace Socks5State

/-- A new handshake with the given callbacks. -/
def init (response connect destAddress bind : Bool) : Socks5State :=
  ⟨response, connect, destAddress, bind, .kGreetingHeader, 2⟩

/-- `CopyOut`: the bytes copied, and the buffer without them. -/
def copyOut (buffer : List UInt8) (size : Nat) : List UInt8 × List UInt8 :=
  (buffer.take size, buffer.drop size)

def insufficientBuffer (s : Socks5State) (buffer : List UInt8) : Bool :=
  buffer.length < s.required_size_

/-- A call of the response callback, where the code does not ask whether it is set. -/
def respond (s : Socks5State) (data : List UInt8) : Callbacks CallbackStatus :=
  if s.response_callback_ then Callback.callResponse data else throw .badFunctionCall

def errRespTemplate : List UInt8 := [0x05, 0x01, 0x00, 0x01, 0x00, 0x00, 0x00, 0x00, 0x00, 0x00]

def createResp (s : Socks5State) (isBind : Bool) : Callbacks (List UInt8) :=
  if s.dest_address_callback_ then do
    let (ret, addr) ← Callback.callDestAddress isBind
    if ret = .kStatusOK then return [0x05, 0x00, 0x00] ++ fillAddrPort addr
    return errRespTemplate
  else return errRespTemplate

/-! ## Proceed -/

/-- What `Proceed` returns, the state and the buffer after it. -/
abbrev Outcome : Type := Bool × Socks5State × List UInt8

/-- `break` out of the `switch`, with the state set. -/
def goto (s : Socks5State) (state : HandshakeState) (buffer : List UInt8) : Callbacks Outcome :=
  return (state ≠ .kFail, { s with state_ := state }, buffer)

def greetingHeader (s : Socks5State) (buffer : List UInt8) : Callbacks Outcome :=
  let (greeting, buffer) := copyOut buffer 2
  if greeting.getD 0 0 ≠ 0x05 ∨ greeting.getD 1 0 = 0 then s.goto .kFail buffer
  else goto { s with required_size_ := (greeting.getD 1 0).toNat } .kGreetingMethods buffer

def greetingMethods (s : Socks5State) (buffer : List UInt8) : Callbacks Outcome :=
  let (methods, buffer) := copyOut buffer s.required_size_
  if 0x00 ∉ methods then s.goto .kFail buffer
  else if s.response_callback_ then do
    let ret ← s.respond [0x05, 0x00]
    if ret ≠ .kStatusOK then s.goto .kFail buffer
    else goto { s with required_size_ := 4 } .kRequestHeader buffer
  else goto { s with required_size_ := 4 } .kRequestHeader buffer

def requestHeader (s : Socks5State) (buffer : List UInt8) : Callbacks Outcome :=
  let (header, buffer) := copyOut buffer 4
  let cmd := header.getD 1 0
  let atyp := header.getD 3 0
  if header.getD 0 0 ≠ 0x05 ∨ header.getD 2 0 ≠ 0x00 then s.goto .kFail buffer
  else if cmd = 0x01 then
    if atyp = 0x01 then goto { s with required_size_ := 6 } .kRequestAddrV4 buffer
    else if atyp = 0x03 then s.goto .kFail buffer
    else if atyp = 0x04 then goto { s with required_size_ := 16 + 2 } .kRequestAddrV6 buffer
    else s.goto .kFail buffer
  else if cmd = 0x02 then
    if atyp = 0x01 then goto { s with required_size_ := 6 } .kRequestBind buffer
    else if atyp = 0x03 then s.goto .kFail buffer
    else if atyp = 0x04 then goto { s with required_size_ := 16 + 2 } .kRequestBind buffer
    else s.goto .kFail buffer
  else s.goto .kFail buffer

/-- The end of `kRequestAddrV4` and of `kRequestAddrV6`: the connection to `addr`. -/
def requestConnect (s : Socks5State) (addr : SockAddr) (buffer : List UInt8) :
    Callbacks Outcome :=
  -- No matter what, no more data is required from the client.
  let s := { s with required_size_ := 0 }
  if s.connect_callback_ then do
    let ret ← Callback.callConnect addr
    match ret with
    | .kStatusOK => s.goto .kResponse buffer
    | .kStatusInProgress => return (false, { s with state_ := .kWaitConnect }, buffer)
    | .kStatusFail => s.goto .kFail buffer
  else s.goto .kWaitConnect buffer

def requestAddrV4 (s : Socks5State) (buffer : List UInt8) : Callbacks Outcome :=
  let (addr, buffer) := copyOut buffer 4
  let (port, buffer) := copyOut buffer 2
  s.requestConnect (.inet (copyTo 4 addr) (copyTo 2 port)) buffer

def requestAddrV6 (s : Socks5State) (buffer : List UInt8) : Callbacks Outcome :=
  let (addr, buffer) := copyOut buffer 16
  let (port, buffer) := copyOut buffer 2
  s.requestConnect (.inet6 (copyTo 16 addr) (copyTo 2 port)) buffer

/-- The reply to a BIND request, before a connection is accepted. -/
def bindResp (port : UInt16) : List UInt8 :=
  [0x05, 0x00, 0x00, 0x01, 0x00, 0x00, 0x00, 0x00] ++ htons port

def requestBind (s : Socks5State) (buffer : List UInt8) : Callbacks Outcome :=
  let (_, buffer) := copyOut buffer (s.required_size_ - 2)
  let (bytes, buffer) := copyOut buffer 2
  let s := { s with required_size_ := 0 }
  if s.bind_callback_ then do
    let (ret, port) ← Callback.callBind (ntohs bytes)
    if ret = .kStatusFail then s.goto .kFail buffer
    else do
      let ret ← s.respond (bindResp port)
      if ret = .kStatusFail then s.goto .kFail buffer
      else return (false, { s with state_ := .kWaitAccept }, buffer)
  else throw .badFunctionCall

def response (s : Socks5State) (buffer : List UInt8) : Callbacks Outcome := do
  let resp ← s.createResp false
  let ret ← s.respond resp
  if ret ≠ .kStatusOK then s.goto .kFail buffer
  else goto { s with required_size_ := 1 } .kSuccess buffer

/-- The `switch` of `Proceed`. -/
def transition (s : Socks5State) (buffer : List UInt8) : Callbacks Outcome :=
  match s.state_ with
  | .kGreetingHeader => s.greetingHeader buffer
  | .kGreetingMethods => s.greetingMethods buffer
  | .kRequestHeader => s.requestHeader buffer
  | .kRequestAddrV4 => s.requestAddrV4 buffer
  | .kRequestAddrV6 => s.requestAddrV6 buffer
  | .kRequestBind => s.requestBind buffer
  | .kWaitConnect => return (false, s, buffer)
  | .kWaitAccept => return (false, s, buffer)
  | .kResponse => s.response buffer
  | .kSuccess => return (false, s, buffer)
  | .kFail => return (false, { s with required_size_ := 0 }, buffer)

def proceed (s : Socks5State) (buffer : List UInt8) : Callbacks Outcome :=
  if s.insufficientBuffer buffer then return (false, s, buffer) else s.transition buffer

/-- `ConnectionSucceed`: what it returns, and the state after it. -/
def connectionSucceed (s : Socks5State) : Callbacks (Bool × Socks5State) :=
  if s.state_ = .kWaitConnect ∨ s.state_ = .kWaitAccept then do
    let resp ← s.createResp (s.state_ = .kWaitAccept)
    let ret ← s.respond resp
    let s := if ret ≠ .kStatusOK then { s with state_ := .kFail } else s
    -- Not in an `else`: this comes after a failed response as well.
    let s := { s with state_ := .kSuccess }
    return (s.state_ = .kSuccess, s)
  else return (false, { s with state_ := .kFail })

end Socks5State
end Proxy
