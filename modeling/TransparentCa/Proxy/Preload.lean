import TransparentCa.Proxy.ClientConnect
import TransparentCa.Proxy.SessionPool
import TransparentCa.Proxy.StatusFlags

/- The hooks of the preload library that put another socket under the application's descriptor:
   `epoll_ctl` and `connect` a VSOCK socket, `bind` a UNIX domain socket on which it and `listen`
   make requests of the socket vendor. The descriptor must come back with the file status flags
   that it had. Exactly when it does is `keeps_flags_iff`. -/
namespace Proxy.Preload

/-- What `SO_DOMAIN` reads. -/
inductive Domain where
  | AF_INET
  | AF_INET6
  | AF_VSOCK
  | AF_UNIX
  | other
  deriving DecidableEq, Repr

/-- What `SO_TYPE` reads. -/
inductive SockType where
  | SOCK_STREAM
  | other
  deriving DecidableEq, Repr

/-- What is open under the descriptor. -/
structure Socket where
  domain : Domain
  type : SockType
  /-- The file status flags. -/
  fl : Flags
  deriving DecidableEq, Repr

/-- What is given to `send`. -/
inductive Request where
  | socks5 (bytes : List UInt8)
  | bindRequest (port : UInt16)
  | listenRequest (backlog : Int32)
  deriving DecidableEq

/-- The outcomes of the system calls that a hook makes. -/
structure Calls where
  /-- `getsockopt` of `SO_TYPE` and of `SO_DOMAIN` succeeds. -/
  soType : Bool
  soDomain : Bool
  socket : Bool
  dup2 : Bool
  connect : Int
  send : Request → Int
  /-- What `recv_all` finds at the socket. -/
  arrivals : List Arrival
  /-- What `recv` of a response returns, and the type in what it received. -/
  recv : Int × MessageType
  /-- `getpeername` succeeds. -/
  getpeername : Bool
  /-- What the function of the C library returns, where a hook calls it on the arguments that it
  got. It leaves the flags as they are. -/
  libc : Int

def Socket.setfl (os : Fcntl) (fl : Flags) (s : Socket) : Socket := { s with fl := os.setfl s.fl fl }

/-- `ConvertToVsock`: the flags of the original socket, or −1. -/
def convertToVsock (c : Calls) (s : Socket) : Flags × Socket :=
  if ¬ c.socket then (-1, s)
  else
    let flags := s.fl
    if ¬ c.dup2 then (-1, s) else (flags, ⟨.AF_VSOCK, .SOCK_STREAM, O_RDWR⟩)

inductive EpollOp where
  | EPOLL_CTL_ADD
  | EPOLL_CTL_MOD
  | EPOLL_CTL_DEL
  | other
  deriving DecidableEq, Repr

def epollCtl (os : Fcntl) (c : Calls) (op : EpollOp) (s : Socket) : Int × Socket :=
  if op ≠ .EPOLL_CTL_ADD then (c.libc, s)
  else if ¬ c.soType ∨ ¬ c.soDomain then (c.libc, s)
  else if s.type ≠ .SOCK_STREAM ∨ (s.domain ≠ .AF_INET ∧ s.domain ≠ .AF_INET6) then (c.libc, s)
  else
    let (fl, s) := convertToVsock c s
    (c.libc, s.setfl os fl)

def connect (os : Fcntl) (c : Calls) (addr : SockAddr) (s : Socket) : Int × Socket :=
  if ¬ c.soType ∨ ¬ c.soDomain then (c.libc, s)
  else if s.type ≠ .SOCK_STREAM ∨
      (s.domain ≠ .AF_INET ∧ s.domain ≠ .AF_INET6 ∧ s.domain ≠ .AF_VSOCK) ∨ ¬ addr.IsInet then
    (c.libc, s)
  else
    let (fl, s) := if s.domain = .AF_VSOCK then (s.fl, s) else convertToVsock c s
    let s := s.setfl os (fl &&& ~~~O_NONBLOCK)
    if c.connect < 0 then (-1, s.setfl os fl)
    else
      let ret := (socks5ClientConnect (fun bytes => c.send (.socks5 bytes)) addr c.arrivals).ret
      (ret, s.setfl os fl)

/-- `sizeof(BindRequest)` and `sizeof(BindResponse)`. -/
def sizeofBind : Int := 8

/-- The rest of `bind`, for an address of family `domain` with the port `sin_port`. -/
def bindPort (os : Fcntl) (c : Calls) (domain : Domain) (sin_port : List UInt8) (s : Socket) :
    Int × Socket :=
  if ¬ c.soType ∨ s.type ≠ .SOCK_STREAM then (c.libc, s)
  else if ¬ c.soDomain ∨ (s.domain ≠ .AF_VSOCK ∧ s.domain ≠ .AF_INET ∧ s.domain ≠ .AF_INET6) then
    (c.libc, s)
  else if s.domain ≠ domain ∧ s.domain ≠ .AF_VSOCK then (c.libc, s)
  else
    let port := ntohs sin_port
    if ¬ c.socket then (-1, s)
    else
      let fl := s.fl
      if ¬ c.dup2 then (-1, s)
      else
        let s : Socket := ⟨.AF_UNIX, .SOCK_STREAM, O_RDWR⟩
        if c.connect < 0 then (-1, s)
        else if c.send (.bindRequest port) ≠ sizeofBind then (-1, s)
        else
          let (numBytes, type) := c.recv
          if numBytes ≠ sizeofBind then (-1, s)
          else if type ≠ .kBindResponse then (-1, s)
          else (0, s.setfl os fl)

def bind (os : Fcntl) (c : Calls) (addr : SockAddr) (s : Socket) : Int × Socket :=
  match addr with
  | .inet _ sin_port => bindPort os c .AF_INET sin_port.toList s
  | .inet6 _ sin6_port => bindPort os c .AF_INET6 sin6_port.toList s
  | .other _ => (c.libc, s)

/-- `sizeof(ListenRequest)`. -/
def sizeofListenRequest : Int := 8

/-- `sizeof(ListenResponse)`. -/
def sizeofListenResponse : Int := 4

def listen (os : Fcntl) (c : Calls) (backlog : Int32) (s : Socket) : Int × Socket :=
  if ¬ c.soDomain then (c.libc, s)
  else if s.domain ≠ .AF_UNIX then (c.libc, s)
  else if ¬ c.getpeername then (c.libc, s)
  else if c.send (.listenRequest backlog) ≠ sizeofListenRequest then (-1, s)
  else
    let fl := s.fl
    let s := s.setfl os (fl &&& ~~~O_NONBLOCK)
    let (numBytes, type) := c.recv
    if numBytes ≠ sizeofListenResponse then (-1, s)
    else if type ≠ .kListenResponse then (-1, s)
    else (0, s.setfl os fl)

/-- A call of a hook. -/
inductive Hook where
  | epollCtl (op : EpollOp)
  | connect (addr : SockAddr)
  | bind (addr : SockAddr)
  | listen (backlog : Int32)

/-- What the hook returns, and what is under the descriptor then. -/
def Hook.call (os : Fcntl) (c : Calls) (s : Socket) : Hook → Int × Socket
  | .epollCtl op => Preload.epollCtl os c op s
  | .connect addr => Preload.connect os c addr s
  | .bind addr => Preload.bind os c addr s
  | .listen backlog => Preload.listen os c backlog s

/-! ## When the flags are kept -/

/-- A TCP socket, which is to become a VSOCK socket. -/
def Tcp (c : Calls) (s : Socket) : Prop :=
  c.soType ∧ c.soDomain ∧ s.type = .SOCK_STREAM ∧ (s.domain = .AF_INET ∨ s.domain = .AF_INET6)

def Calls.Converts (c : Calls) : Prop := c.socket ∧ c.dup2

/-- The domain of the addresses that `bind` can take. -/
def family : SockAddr → Domain
  | .inet _ _ => .AF_INET
  | .inet6 _ _ => .AF_INET6
  | .other _ => .other

/-- The port in the address, in network byte order. -/
def sinPort : SockAddr → List UInt8
  | .inet _ port => port.toList
  | .inet6 _ port => port.toList
  | .other _ => []

/-- A socket that `bind` replaces. -/
def Bindable (c : Calls) (addr : SockAddr) (s : Socket) : Prop :=
  addr.IsInet ∧ c.soType ∧ c.soDomain ∧ s.type = .SOCK_STREAM ∧
    (s.domain = family addr ∨ s.domain = .AF_VSOCK)

/-- The socket vendor grants the `BindRequest`. -/
def Calls.Binds (c : Calls) (port : UInt16) : Prop :=
  0 ≤ c.connect ∧ c.send (.bindRequest port) = sizeofBind ∧ c.recv = (sizeofBind, .kBindResponse)

instance (c : Calls) (port : UInt16) : Decidable (c.Binds port) :=
  inferInstanceAs (Decidable (_ ∧ _ ∧ _))

/-- A connection to the socket vendor, on which the `ListenRequest` is sent. -/
def Listenable (c : Calls) (backlog : Int32) (s : Socket) : Prop :=
  c.soDomain ∧ s.domain = .AF_UNIX ∧ c.getpeername ∧
    c.send (.listenRequest backlog) = sizeofListenRequest

/-- The socket vendor grants the `ListenRequest`. -/
def Calls.Listens (c : Calls) : Prop := c.recv = (sizeofListenResponse, .kListenResponse)

instance (c : Calls) : Decidable c.Listens := inferInstanceAs (Decidable (_ = _))

/-- A conversion that fails has the flags set to −1; `bind` gives up with the flags of its new
socket, and `listen` in blocking mode. -/
def Hook.KeepsWhen (os : Fcntl) (c : Calls) (s : Socket) : Hook → Prop
  | .epollCtl op => op = .EPOLL_CTL_ADD → Tcp c s → c.Converts ∨ os.setfl s.fl (-1) = s.fl
  | .connect addr => addr.IsInet → Tcp c s →
      c.Converts ∨ os.setfl (os.setfl s.fl (-1 &&& ~~~O_NONBLOCK)) (-1) = s.fl
  | .bind addr => Bindable c addr s → c.Converts → c.Binds (ntohs (sinPort addr)) ∨ s.fl = O_RDWR
  | .listen backlog => Listenable c backlog s → c.Listens ∨ s.fl &&& ~~~O_NONBLOCK = s.fl

section
variable {os : Fcntl} {c : Calls} {s : Socket}

theorem convertToVsock_of (h : c.Converts) :
    convertToVsock c s = (s.fl, ⟨.AF_VSOCK, .SOCK_STREAM, O_RDWR⟩) := by
  unfold convertToVsock
  rw [if_neg (not_not_intro h.1), if_neg (not_not_intro h.2)]

theorem convertToVsock_of_not (h : ¬ c.Converts) : convertToVsock c s = (-1, s) := by
  unfold convertToVsock
  by_cases hsocket : c.socket
  · have hdup : ¬ c.dup2 := fun hdup => h ⟨hsocket, hdup⟩
    rw [if_neg (not_not_intro hsocket), if_pos hdup]
  · rw [if_pos hsocket]

/-! ### epoll_ctl -/

theorem epollCtl_of_tcp (h : Tcp c s) :
    epollCtl os c .EPOLL_CTL_ADD s =
      (c.libc, (convertToVsock c s).2.setfl os (convertToVsock c s).1) := by
  obtain ⟨htype, hdomain, hstream, hinet⟩ := h
  unfold epollCtl
  rw [if_neg (by simp), if_neg (by simp [htype, hdomain]), if_neg (by simp [hstream]; tauto)]

theorem epollCtl_libc {op : EpollOp} (h : ¬ (op = .EPOLL_CTL_ADD ∧ Tcp c s)) :
    epollCtl os c op s = (c.libc, s) := by
  unfold epollCtl
  split_ifs with hop hopt hsock
  · rfl
  · rfl
  · rfl
  · refine absurd ⟨not_not.mp hop, ?_⟩ h
    unfold Tcp
    tauto

theorem keeps_epollCtl (op : EpollOp) (h : os.Status s.fl) :
    (epollCtl os c op s).2.fl = s.fl ↔ (Hook.epollCtl op).KeepsWhen os c s := by
  unfold Hook.KeepsWhen
  by_cases htakes : op = .EPOLL_CTL_ADD ∧ Tcp c s
  · obtain ⟨rfl, htcp⟩ := htakes
    rw [epollCtl_of_tcp htcp]
    by_cases hconv : c.Converts
    · rw [convertToVsock_of hconv]
      refine ⟨fun _ _ _ => .inl hconv, fun _ => ?_⟩
      exact os.setfl_status os.status_new h
    · rw [convertToVsock_of_not hconv]
      refine ⟨fun hfl _ _ => .inr hfl, fun hkeeps => ?_⟩
      exact (hkeeps rfl htcp).resolve_left hconv
  · rw [epollCtl_libc htakes]
    exact ⟨fun _ hop htcp => absurd ⟨hop, htcp⟩ htakes, fun _ => rfl⟩

/-! ### connect -/

/-- What `connect` does once it has the flags that it will apply again. -/
theorem connect_taken {addr : SockAddr} (haddr : addr.IsInet) (htype : c.soType)
    (hdomain : c.soDomain) (hstream : s.type = .SOCK_STREAM)
    (hsock : s.domain = .AF_INET ∨ s.domain = .AF_INET6 ∨ s.domain = .AF_VSOCK) :
    (connect os c addr s).2 =
      let (fl, s) := if s.domain = .AF_VSOCK then (s.fl, s) else convertToVsock c s
      (s.setfl os (fl &&& ~~~O_NONBLOCK)).setfl os fl := by
  have hother : ¬ (s.domain ≠ .AF_INET ∧ s.domain ≠ .AF_INET6 ∧ s.domain ≠ .AF_VSOCK) := by
    tauto
  unfold connect
  rw [if_neg (by simp [htype, hdomain]), if_neg (by simp [hstream, hother, haddr])]
  dsimp only
  split
  · rfl
  · rfl

theorem connect_libc {addr : SockAddr}
    (h : ¬ (addr.IsInet ∧ c.soType ∧ c.soDomain ∧ s.type = .SOCK_STREAM ∧
      (s.domain = .AF_INET ∨ s.domain = .AF_INET6 ∨ s.domain = .AF_VSOCK))) :
    connect os c addr s = (c.libc, s) := by
  unfold connect
  by_cases hopt : ¬ c.soType ∨ ¬ c.soDomain
  · rw [if_pos hopt]
  · rw [if_neg hopt, if_pos (by tauto)]

theorem keeps_connect (addr : SockAddr) (h : os.Status s.fl) :
    (connect os c addr s).2.fl = s.fl ↔ (Hook.connect addr).KeepsWhen os c s := by
  have hblock := os.status_block h
  unfold Hook.KeepsWhen
  by_cases htakes : addr.IsInet ∧ c.soType ∧ c.soDomain ∧ s.type = .SOCK_STREAM ∧
      (s.domain = .AF_INET ∨ s.domain = .AF_INET6 ∨ s.domain = .AF_VSOCK)
  · obtain ⟨haddr, htype, hdomain, hstream, hsock⟩ := htakes
    rw [connect_taken haddr htype hdomain hstream hsock]
    by_cases hvsock : s.domain = .AF_VSOCK
    · -- Nothing to convert: the flags come from the socket itself.
      have hnot : ¬ Tcp c s := fun htcp => by simp [Tcp, hvsock] at htcp
      rw [if_pos hvsock]
      refine ⟨fun _ _ htcp => absurd htcp hnot, fun _ => ?_⟩
      show os.setfl (os.setfl s.fl (s.fl &&& ~~~O_NONBLOCK)) s.fl = s.fl
      rw [os.setfl_status h hblock, os.setfl_status hblock h]
    · have htcp : Tcp c s := ⟨htype, hdomain, hstream, by tauto⟩
      rw [if_neg hvsock]
      by_cases hconv : c.Converts
      · rw [convertToVsock_of hconv]
        refine ⟨fun _ _ _ => .inl hconv, fun _ => ?_⟩
        show os.setfl (os.setfl O_RDWR (s.fl &&& ~~~O_NONBLOCK)) s.fl = s.fl
        rw [os.setfl_status os.status_new hblock, os.setfl_status hblock h]
      · rw [convertToVsock_of_not hconv]
        refine ⟨fun hfl _ _ => .inr hfl, fun hkeeps => ?_⟩
        exact (hkeeps haddr htcp).resolve_left hconv
  · rw [connect_libc htakes]
    refine ⟨fun _ haddr htcp => ?_, fun _ => rfl⟩
    obtain ⟨htype, hdomain, hstream, hinet⟩ := htcp
    exact absurd ⟨haddr, htype, hdomain, hstream, by tauto⟩ htakes

/-! ### bind -/

theorem bindPort_libc {domain : Domain} {port : List UInt8}
    (h : ¬ (c.soType ∧ c.soDomain ∧ s.type = .SOCK_STREAM ∧
      (s.domain = domain ∨ s.domain = .AF_VSOCK))) :
    bindPort os c domain port s = (c.libc, s) := by
  unfold bindPort
  by_cases htype : ¬ c.soType ∨ s.type ≠ .SOCK_STREAM
  · rw [if_pos htype]
  · rw [if_neg htype]
    by_cases hdomain : ¬ c.soDomain ∨
        (s.domain ≠ .AF_VSOCK ∧ s.domain ≠ .AF_INET ∧ s.domain ≠ .AF_INET6)
    · rw [if_pos hdomain]
    · rw [if_neg hdomain, if_pos (by tauto)]

/-- What is under the descriptor after `bind` had a socket to replace. -/
theorem bindPort_taken {domain : Domain} {port : List UInt8} (htype : c.soType)
    (hdomain : c.soDomain) (hstream : s.type = .SOCK_STREAM)
    (hsock : s.domain = domain ∨ s.domain = .AF_VSOCK)
    (hinet : domain = .AF_INET ∨ domain = .AF_INET6) (hconv : c.Converts) :
    (bindPort os c domain port s).2.fl =
      if c.Binds (ntohs port) then os.setfl O_RDWR s.fl else O_RDWR := by
  have hother : ¬ (s.domain ≠ .AF_VSOCK ∧ s.domain ≠ .AF_INET ∧ s.domain ≠ .AF_INET6) := by
    rintro ⟨hvsock, hv4, hv6⟩
    rcases hsock with rfl | hsock
    · exact hinet.elim hv4 hv6
    · exact hvsock hsock
  unfold bindPort
  rw [if_neg (by simp [htype, hstream]), if_neg (by simp [hdomain, hother]), if_neg (by tauto)]
  dsimp only
  rw [if_neg (not_not_intro hconv.1), if_neg (not_not_intro hconv.2)]
  by_cases hconnect : c.connect < 0
  · rw [if_pos hconnect, if_neg (fun h => absurd h.1 (Int.not_le.mpr hconnect))]
  · rw [if_neg hconnect]
    by_cases hsend : c.send (.bindRequest (ntohs port)) = sizeofBind
    · rw [if_neg (not_not_intro hsend)]
      by_cases hnum : c.recv.1 = sizeofBind
      · rw [if_neg (not_not_intro hnum)]
        by_cases hresp : c.recv.2 = .kBindResponse
        · rw [if_neg (not_not_intro hresp),
            if_pos ⟨Int.not_lt.mp hconnect, hsend, Prod.ext hnum hresp⟩]
          rfl
        · rw [if_pos hresp, if_neg (fun h => hresp (congrArg Prod.snd h.2.2))]
      · rw [if_pos hnum, if_neg (fun h => hnum (congrArg Prod.fst h.2.2))]
    · rw [if_pos hsend, if_neg (fun h => hsend h.2.1)]

theorem bindPort_unconverted {domain : Domain} {port : List UInt8} (h : ¬ c.Converts) :
    (bindPort os c domain port s).2 = s := by
  unfold bindPort
  split_ifs with _ _ _ hsocket hdup
  all_goals first | rfl | exact absurd ⟨hsocket, hdup⟩ h

theorem bind_eq {addr : SockAddr} (h : addr.IsInet) :
    bind os c addr s = bindPort os c (family addr) (sinPort addr) s := by
  cases addr with
  | inet _ _ => rfl
  | inet6 _ _ => rfl
  | other _ => exact h.elim

theorem family_of_isInet {addr : SockAddr} (h : addr.IsInet) :
    family addr = .AF_INET ∨ family addr = .AF_INET6 := by
  cases addr with
  | inet _ _ => exact .inl rfl
  | inet6 _ _ => exact .inr rfl
  | other _ => exact h.elim

theorem bind_libc {addr : SockAddr} (h : ¬ Bindable c addr s) :
    bind os c addr s = (c.libc, s) := by
  by_cases haddr : addr.IsInet
  · rw [bind_eq haddr, bindPort_libc (fun hbind => h ⟨haddr, hbind⟩)]
  · cases addr with
    | inet _ _ => exact absurd trivial haddr
    | inet6 _ _ => exact absurd trivial haddr
    | other _ => rfl

theorem keeps_bind (addr : SockAddr) (h : os.Status s.fl) :
    (bind os c addr s).2.fl = s.fl ↔ (Hook.bind addr).KeepsWhen os c s := by
  unfold Hook.KeepsWhen
  by_cases htakes : Bindable c addr s
  · obtain ⟨haddr, htype, hdomain, hstream, hsock⟩ := id htakes
    rw [bind_eq haddr]
    by_cases hconv : c.Converts
    · rw [bindPort_taken htype hdomain hstream hsock (family_of_isInet haddr) hconv]
      by_cases hbinds : c.Binds (ntohs (sinPort addr))
      · rw [if_pos hbinds, os.setfl_status os.status_new h]
        exact ⟨fun _ _ _ => .inl hbinds, fun _ => rfl⟩
      · rw [if_neg hbinds]
        refine ⟨fun hfl _ _ => .inr hfl.symm, fun hkeeps => ?_⟩
        exact ((hkeeps htakes hconv).resolve_left hbinds).symm
    · rw [bindPort_unconverted hconv]
      exact ⟨fun _ _ h => absurd h hconv, fun _ => rfl⟩
  · rw [bind_libc htakes]
    exact ⟨fun _ h => absurd h htakes, fun _ => rfl⟩

/-! ### listen -/

theorem listen_libc {backlog : Int32} (h : ¬ Listenable c backlog s) :
    (listen os c backlog s).2 = s := by
  unfold listen
  by_cases hdomain : c.soDomain
  · rw [if_neg (not_not_intro hdomain)]
    by_cases hunix : s.domain = .AF_UNIX
    · rw [if_neg (not_not_intro hunix)]
      by_cases hpeer : c.getpeername
      · have hsend : c.send (.listenRequest backlog) ≠ sizeofListenRequest :=
          fun hsend => h ⟨hdomain, hunix, hpeer, hsend⟩
        rw [if_neg (not_not_intro hpeer), if_pos hsend]
      · rw [if_pos hpeer]
    · rw [if_pos hunix]
  · rw [if_pos hdomain]

theorem listen_taken {backlog : Int32} (h : Listenable c backlog s) :
    (listen os c backlog s).2.fl =
      if c.Listens then os.setfl (os.setfl s.fl (s.fl &&& ~~~O_NONBLOCK)) s.fl
      else os.setfl s.fl (s.fl &&& ~~~O_NONBLOCK) := by
  obtain ⟨hdomain, hunix, hpeer, hsend⟩ := h
  unfold listen
  rw [if_neg (not_not_intro hdomain), if_neg (not_not_intro hunix), if_neg (not_not_intro hpeer),
    if_neg (not_not_intro hsend)]
  dsimp only
  by_cases hnum : c.recv.1 = sizeofListenResponse
  · rw [if_neg (not_not_intro hnum)]
    by_cases hresp : c.recv.2 = .kListenResponse
    · have hlistens : c.Listens := Prod.ext hnum hresp
      rw [if_neg (not_not_intro hresp), if_pos hlistens]
      rfl
    · have hlistens : ¬ c.Listens := fun h => hresp (congrArg Prod.snd (show c.recv = _ from h))
      rw [if_pos hresp, if_neg hlistens]
      rfl
  · have hlistens : ¬ c.Listens := fun h => hnum (congrArg Prod.fst (show c.recv = _ from h))
    rw [if_pos hnum, if_neg hlistens]
    rfl

theorem keeps_listen (backlog : Int32) (h : os.Status s.fl) :
    (listen os c backlog s).2.fl = s.fl ↔ (Hook.listen backlog).KeepsWhen os c s := by
  have hblock := os.status_block h
  unfold Hook.KeepsWhen
  by_cases htakes : Listenable c backlog s
  · rw [listen_taken htakes, os.setfl_status h hblock]
    by_cases hlistens : c.Listens
    · rw [if_pos hlistens, os.setfl_status hblock h]
      exact ⟨fun _ _ => .inl hlistens, fun _ => rfl⟩
    · rw [if_neg hlistens]
      exact ⟨fun hfl _ => .inr hfl, fun hkeeps => (hkeeps htakes).resolve_left hlistens⟩
  · rw [listen_libc htakes]
    exact ⟨fun _ h => absurd h htakes, fun _ => rfl⟩

end

/-- A hook returns with the flags that the descriptor had on entry exactly when no conversion
fails that `F_SETFL` of −1 tells apart, and no request of the socket vendor after which the new
flags are others. -/
theorem keeps_flags_iff (os : Fcntl) (c : Calls) (s : Socket) (hook : Hook)
    (h : os.Status s.fl) : (hook.call os c s).2.fl = s.fl ↔ hook.KeepsWhen os c s := by
  cases hook with
  | epollCtl op => exact keeps_epollCtl op h
  | connect addr => exact keeps_connect addr h
  | bind addr => exact keeps_bind addr h
  | listen backlog => exact keeps_listen backlog h

/-- Linux refuses −1, as sockets do not take `O_DIRECT`: there, only `bind` and `listen` can return
with other flags. -/
theorem keeps_flags_linux (c : Calls) {s : Socket} (h : Linux.fcntl.Status s.fl) (op : EpollOp)
    (addr : SockAddr) :
    (epollCtl Linux.fcntl c op s).2.fl = s.fl ∧ (connect Linux.fcntl c addr s).2.fl = s.fl := by
  have hset := Linux.setfl_direct s.fl (show (-1 : Flags) &&& O_DIRECT ≠ 0 by decide)
  have hblock := Linux.setfl_direct s.fl
    (show (-1 &&& ~~~O_NONBLOCK : Flags) &&& O_DIRECT ≠ 0 by decide)
  constructor
  · exact (keeps_epollCtl op h).mpr (fun _ _ => .inr hset)
  · refine (keeps_connect addr h).mpr (fun _ _ => .inr ?_)
    rw [hblock]
    exact hset

namespace Sample

/-- Everything succeeds but the socket vendor, which cannot be reached. -/
def unreachable : Calls where
  soType := true
  soDomain := true
  socket := true
  dup2 := true
  connect := -1
  send := fun _ => 8
  arrivals := []
  recv := (-1, .kInvalidMessage)
  getpeername := true
  libc := 0

/-- A TCP socket in non-blocking mode. -/
def nonBlocking : Socket := ⟨.AF_INET, .SOCK_STREAM, O_RDWR ||| O_NONBLOCK⟩

theorem status_nonBlocking : Linux.fcntl.Status nonBlocking.fl := rfl

/-- Port 80 of the unspecified address. -/
def port80 : SockAddr := .inet (copyTo 4 []) (copyTo 2 [0, 80])

end Sample

open Preload.Sample in
/-- A connection to the proxy that fails keeps the flags. -/
theorem keeps_flags_unreachable :
    Linux.fcntl.Status nonBlocking.fl ∧
      ((Hook.connect port80).call Linux.fcntl unreachable nonBlocking).2.fl = nonBlocking.fl :=
  ⟨status_nonBlocking,
    (keeps_flags_iff Linux.fcntl unreachable nonBlocking (.connect port80) status_nonBlocking).mpr
      (fun _ _ => .inl ⟨rfl, rfl⟩)⟩

open Preload.Sample in
/-- `bind` leaves the socket in blocking mode when the socket vendor cannot be reached. -/
theorem keeps_flags_bind :
    ¬ ∀ (os : Fcntl) (c : Calls) (s : Socket) (hook : Hook), os.Status s.fl →
      (hook.call os c s).2.fl = s.fl :=
  fun h =>
    absurd (h Linux.fcntl unreachable nonBlocking (.bind port80) status_nonBlocking) (by decide)

end Proxy.Preload
