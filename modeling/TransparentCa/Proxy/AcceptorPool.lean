import TransparentCa.Proxy.Socks5State

/- `AcceptorPool`: the acceptors that stand for bound ports, shared by all connections and kept
   for good. A caller gets the acceptor of the port it asks for, or one on a port of the
   kernel's choice for port 0. The two ways into the map differ when binding fails: with a
   port of its own the new entry is erased again, with port 0 the acceptor that did not come
   to listen is put in under the key 0, where every later request for port 0 finds it.

   Over whole histories the pool is as it should be exactly as long as that has not happened
   (`getAcceptor_proper_iff`). -/
namespace Proxy

/-- A socket made for accepting: the port it is bound to, and whether it listens. -/
structure Acceptor (E : Type) where
  executor : E
  boundPort : Option UInt16
  listening : Bool
  deriving DecidableEq, Repr

/-- How the calls for one acceptor go. -/
structure SocketCalls where
  /-- The constructor opens a socket, and throws if there is none. -/
  opened : Bool
  bind : Bool
  /-- The port the kernel binds when it may choose. -/
  ephemeral : { port : UInt16 // port ≠ 0 }
  local_endpoint : Bool
  listen : Bool
  deriving DecidableEq

/-- Bound, known where, and listening. -/
def SocketCalls.listens (os : SocketCalls) : Bool := os.bind && os.local_endpoint && os.listen

/-- `pool_`, the map from ports to acceptors. -/
abbrev AcceptorPool (E : Type) := UInt16 → Option (Acceptor E)

/-- One call of `GetAcceptor`. -/
structure GetAcceptorCall (E : Type) where
  executor : E
  port : UInt16
  os : SocketCalls
  deriving DecidableEq

/-- A pointer into the map is given by the key of its entry. -/
inductive GetAcceptorResult where
  | threw
  | nullptr
  | acceptor (entry : UInt16)
  deriving DecidableEq, Repr

namespace AcceptorPool

variable {E : Type}

/-- The acceptor afterwards, and the port it listens on, or 0. -/
def BindListen (acceptor : Acceptor E) (port : UInt16) (os : SocketCalls) : Acceptor E × UInt16 :=
  if os.bind then
    let bound : UInt16 := if port = 0 then os.ephemeral else port
    let acceptor := { acceptor with boundPort := some bound }
    if os.local_endpoint then
      if os.listen then ({ acceptor with listening := true }, bound) else (acceptor, 0)
    else (acceptor, 0)
  else (acceptor, 0)

/-- `try_emplace(key, acceptor)`: an entry that is there stays. Also whether there was none. -/
def try_emplace (pool_ : AcceptorPool E) (key : UInt16) (acceptor : Acceptor E) :
    AcceptorPool E × Bool :=
  match pool_ key with
  | some _ => (pool_, false)
  | none => (Function.update pool_ key (some acceptor), true)

/-- The part under the write lock: the map afterwards, what is returned, and what is left in
`port`. -/
def insertAcceptor (pool_ : AcceptorPool E) (call : GetAcceptorCall E) :
    AcceptorPool E × GetAcceptorResult × UInt16 :=
  let port := call.port
  let acceptor : Acceptor E := ⟨call.executor, none, false⟩
  if call.os.opened then
    if port = 0 then
      let (acceptor, bound_port) := BindListen acceptor port call.os
      ((try_emplace pool_ bound_port acceptor).1, .acceptor bound_port, bound_port)
    else if (try_emplace pool_ port acceptor).2 then
      -- The acceptor is bound where it stands in the map.
      let (acceptor, bound_port) := BindListen acceptor port call.os
      let pool' := Function.update pool_ port (some acceptor)
      if bound_port = 0 then (Function.update pool' port none, .nullptr, port)
      else (pool', .acceptor port, port)
    else (pool_, .acceptor port, port)
  else (pool_, .threw, port)

def GetAcceptor (pool_ : AcceptorPool E) (call : GetAcceptorCall E) :
    AcceptorPool E × GetAcceptorResult × UInt16 :=
  match pool_ call.port with
  | some _ => (pool_, .acceptor call.port, call.port)
  | none => insertAcceptor pool_ call

/-- The bind callback of a bridge: the status it gives and the port; `none` if it throws. -/
def bindCallback (pool_ : AcceptorPool E) (call : GetAcceptorCall E) :
    Option (CallbackStatus × UInt16) :=
  match GetAcceptor pool_ call with
  | (_, .threw, _) => none
  | (_, .nullptr, port) => some (.kStatusFail, port)
  | (_, .acceptor _, port) => some (.kStatusOK, port)

/-! ## What the pool is for -/

/-- Every entry is keyed by the port its acceptor is bound to and listens on. -/
def Sound (pool_ : AcceptorPool E) : Prop :=
  ∀ key acceptor, pool_ key = some acceptor →
    key ≠ 0 ∧ acceptor.boundPort = some key ∧ acceptor.listening = true


/-- The call goes as far as binding, and binding or listening fails. -/
def Fails (pool_ : AcceptorPool E) (call : GetAcceptorCall E) : Prop :=
  pool_ call.port = none ∧ call.os.opened = true ∧ call.os.listens = false

/-- What a call owes: the port of the acceptor it returns, and nothing for a failure. -/
structure CallProper (pool_ : AcceptorPool E) (call : GetAcceptorCall E) : Prop where
  port : ∀ entry, (GetAcceptor pool_ call).2.1 = .acceptor entry →
    (GetAcceptor pool_ call).2.2 = entry ∧ ((GetAcceptor pool_ call).1 entry).isSome
  failure : Fails pool_ call →
    (GetAcceptor pool_ call).2.1 = .nullptr ∧ (GetAcceptor pool_ call).1 = pool_

/-- The pool is sound throughout the calls, and each of them is proper. -/
def Proper (pool_ : AcceptorPool E) : List (GetAcceptorCall E) → Prop
  | [] => Sound pool_
  | call :: calls => Sound pool_ ∧ CallProper pool_ call ∧ Proper (GetAcceptor pool_ call).1 calls

/-- A port of the kernel's choice is asked for, and binding or listening fails. -/
def EphemeralFails (call : GetAcceptorCall E) : Prop :=
  call.port = 0 ∧ call.os.opened = true ∧ call.os.listens = false

/-! ## One call -/

theorem bindListen_listens (acceptor : Acceptor E) (port : UInt16) {os : SocketCalls}
    (h : os.listens = true) :
    ∃ bound, bound ≠ 0 ∧ (port ≠ 0 → bound = port) ∧
      BindListen acceptor port os = (⟨acceptor.executor, some bound, true⟩, bound) := by
  simp only [SocketCalls.listens, Bool.and_eq_true] at h
  obtain ⟨⟨hbind, hlocal⟩, hlisten⟩ := h
  refine ⟨if port = 0 then os.ephemeral else port, ?_, ?_, by simp [BindListen, *]⟩
  · split
    · exact os.ephemeral.property
    · assumption
  · intro hport
    rw [if_neg hport]

theorem bindListen_fails (acceptor : Acceptor E) (port : UInt16) {os : SocketCalls}
    (h : os.listens = false) : (BindListen acceptor port os).2 = 0 := by
  unfold BindListen
  cases hbind : os.bind with
  | false => rfl
  | true =>
    cases hlocal : os.local_endpoint with
    | false => rfl
    | true =>
      cases hlisten : os.listen with
      | false => rfl
      | true => simp [SocketCalls.listens, hbind, hlocal, hlisten] at h

theorem Sound.update {pool_ : AcceptorPool E} (hs : Sound pool_) {key : UInt16} (hkey : key ≠ 0)
    (executor : E) : Sound (Function.update pool_ key (some ⟨executor, some key, true⟩)) := by
  intro key' acceptor h
  by_cases heq : key' = key
  · subst heq
    rw [Function.update_self, Option.some.injEq] at h
    subst h
    exact ⟨hkey, rfl, rfl⟩
  · rw [Function.update_of_ne heq] at h
    exact hs key' acceptor h

theorem Sound.zero {pool_ : AcceptorPool E} (hs : Sound pool_) : pool_ 0 = none := by
  by_contra h
  obtain ⟨acceptor, ha⟩ := Option.ne_none_iff_exists'.mp h
  exact (hs 0 acceptor ha).1 rfl

theorem try_emplace_none {pool_ : AcceptorPool E} {key : UInt16} (h : pool_ key = none)
    (acceptor : Acceptor E) :
    try_emplace pool_ key acceptor = (Function.update pool_ key (some acceptor), true) := by
  simp only [try_emplace, h]

theorem isSome_try_emplace (pool_ : AcceptorPool E) (key : UInt16) (acceptor : Acceptor E) :
    ((try_emplace pool_ key acceptor).1 key).isSome := by
  unfold try_emplace
  split
  · next heq => simp [heq]
  · simp

theorem Sound.try_emplace {pool_ : AcceptorPool E} (hs : Sound pool_) {key : UInt16}
    (hkey : key ≠ 0) (executor : E) :
    Sound (AcceptorPool.try_emplace pool_ key ⟨executor, some key, true⟩).1 := by
  unfold AcceptorPool.try_emplace
  split
  · exact hs
  · exact hs.update hkey executor

/-- Everything a call can do. -/
theorem getAcceptor_cases (pool_ : AcceptorPool E) (call : GetAcceptorCall E) :
    ((pool_ call.port).isSome ∧ GetAcceptor pool_ call = (pool_, .acceptor call.port, call.port)) ∨
    (pool_ call.port = none ∧ call.os.opened = false ∧
      GetAcceptor pool_ call = (pool_, .threw, call.port)) ∨
    (∃ bound, bound ≠ 0 ∧ call.os.listens = true ∧ GetAcceptor pool_ call =
      ((try_emplace pool_ bound ⟨call.executor, some bound, true⟩).1, .acceptor bound, bound)) ∨
    (Fails pool_ call ∧ call.port ≠ 0 ∧ GetAcceptor pool_ call = (pool_, .nullptr, call.port)) ∨
    (Fails pool_ call ∧ call.port = 0 ∧
      ∃ acceptor, GetAcceptor pool_ call = ((try_emplace pool_ 0 acceptor).1, .acceptor 0, 0)) := by
  cases hfind : pool_ call.port with
  | some acceptor => exact .inl ⟨rfl, by simp only [GetAcceptor, hfind]⟩
  | none =>
    have hget : GetAcceptor pool_ call = insertAcceptor pool_ call := by
      simp only [GetAcceptor, hfind]
    rw [hget]
    cases hopened : call.os.opened with
    | false => exact .inr (.inl ⟨rfl, rfl, by simp [insertAcceptor, hopened]⟩)
    | true =>
      cases hlistens : call.os.listens with
      | true =>
        obtain ⟨bound, hbound, hfixed, hbind⟩ :=
          bindListen_listens (⟨call.executor, none, false⟩ : Acceptor E) call.port hlistens
        refine .inr (.inr (.inl ⟨bound, hbound, rfl, ?_⟩))
        by_cases hport : call.port = 0
        · simp only [insertAcceptor, hopened, hport, if_true] at hbind ⊢
          rw [hbind]
        · obtain rfl := hfixed hport
          simp only [insertAcceptor, hopened, hport, try_emplace_none hfind, hbind, if_true, if_false]
      | false =>
        have hbind := bindListen_fails (⟨call.executor, none, false⟩ : Acceptor E) call.port hlistens
        have hfails : Fails pool_ call := ⟨hfind, hopened, hlistens⟩
        by_cases hport : call.port = 0
        · refine .inr (.inr (.inr (.inr ⟨hfails, hport,
            (BindListen ⟨call.executor, none, false⟩ call.port call.os).1, ?_⟩)))
          simp only [insertAcceptor, hopened, if_true, if_pos hport, hbind]
        · refine .inr (.inr (.inr (.inl ⟨hfails, hport, ?_⟩)))
          simp only [insertAcceptor, hopened, hport, try_emplace_none hfind, hbind, if_true,
            if_false, Function.update_idem]
          rw [← hfind, Function.update_eq_self]

/-- A call that does not leave an acceptor under the key 0 keeps the pool and what it owes. -/
theorem getAcceptor_sound {pool_ : AcceptorPool E} (hs : Sound pool_) {call : GetAcceptorCall E}
    (h : ¬ EphemeralFails call) :
    Sound (GetAcceptor pool_ call).1 ∧ CallProper pool_ call := by
  rcases getAcceptor_cases pool_ call with ⟨hfind, heq⟩ | ⟨-, hopened, heq⟩ |
    ⟨bound, hbound, hlistens, heq⟩ | ⟨-, -, heq⟩ | ⟨hfails, hport, -⟩
  · refine ⟨by rwa [heq], ?_, fun hfails => ?_⟩
    · rintro entry hentry
      rw [heq] at hentry ⊢
      cases hentry
      exact ⟨rfl, hfind⟩
    · rw [hfails.1] at hfind
      cases hfind
  · refine ⟨by rwa [heq], ?_, fun hfails => ?_⟩
    · rintro entry hentry
      rw [heq] at hentry
      cases hentry
    · rw [hfails.2.1] at hopened
      cases hopened
  · refine ⟨by rw [heq]; exact hs.try_emplace hbound call.executor, ?_, fun hfails => ?_⟩
    · rintro entry hentry
      rw [heq] at hentry ⊢
      cases hentry
      exact ⟨rfl, isSome_try_emplace _ _ _⟩
    · rw [hfails.2.2] at hlistens
      cases hlistens
  · refine ⟨by rwa [heq], ?_, fun _ => by rw [heq]; exact ⟨rfl, rfl⟩⟩
    rintro entry hentry
    rw [heq] at hentry
    cases hentry
  · exact absurd ⟨hport, hfails.2⟩ h

/-- In a sound pool there is no entry for port 0, and the failure is put in its place. -/
theorem not_callProper_of_ephemeralFails {pool_ : AcceptorPool E} (hs : Sound pool_)
    {call : GetAcceptorCall E} (h : EphemeralFails call) : ¬ CallProper pool_ call := by
  intro hproper
  have hfails : Fails pool_ call := ⟨by rw [h.1, hs.zero], h.2⟩
  have hnull := (hproper.failure hfails).1
  rcases getAcceptor_cases pool_ call with ⟨-, heq⟩ | ⟨-, -, heq⟩ | ⟨_, -, -, heq⟩ |
    ⟨-, hport, -⟩ | ⟨-, -, _, heq⟩
  · rw [heq] at hnull; cases hnull
  · rw [heq] at hnull; cases hnull
  · rw [heq] at hnull; cases hnull
  · exact hport h.1
  · rw [heq] at hnull; cases hnull

/-! ## Whole histories -/

theorem proper_iff_of_sound {pool_ : AcceptorPool E} (hs : Sound pool_)
    (calls : List (GetAcceptorCall E)) :
    Proper pool_ calls ↔ ∀ call ∈ calls, ¬ EphemeralFails call := by
  induction calls generalizing pool_ with
  | nil => simp [Proper, hs]
  | cons call calls ih =>
    simp only [Proper, List.forall_mem_cons]
    constructor
    · rintro ⟨-, hcall, hrest⟩
      have hgood : ¬ EphemeralFails call :=
        fun hbad => not_callProper_of_ephemeralFails hs hbad hcall
      exact ⟨hgood, (ih (getAcceptor_sound hs hgood).1).mp hrest⟩
    · rintro ⟨hgood, hrest⟩
      obtain ⟨hs', hcall⟩ := getAcceptor_sound hs hgood
      exact ⟨hs, hcall, (ih hs').mpr hrest⟩

/-- The pool of a bridge that has served no bind request. -/
def empty : AcceptorPool E := fun _ => none

theorem sound_empty : Sound (empty : AcceptorPool E) := fun _ _ h => by cases h

/-- Over any history of calls, the pool and the calls are as they should be if and only if no
call for port 0 fails to bind or to listen. -/
theorem getAcceptor_proper_iff (calls : List (GetAcceptorCall E)) :
    Proper empty calls ↔ ∀ call ∈ calls, ¬ EphemeralFails call :=
  proper_iff_of_sound sound_empty calls

/-- The acceptor a bridge waits on listens on the port the client is told. -/
theorem bindCallback_listening {pool_ : AcceptorPool E} {call : GetAcceptorCall E}
    {calls : List (GetAcceptorCall E)} {port : UInt16} (h : Proper pool_ (call :: calls))
    (hok : bindCallback pool_ call = some (.kStatusOK, port)) :
    ∃ acceptor, (GetAcceptor pool_ call).1 port = some acceptor ∧
      acceptor.boundPort = some port ∧ acceptor.listening = true := by
  obtain ⟨-, hcall, hrest⟩ := h
  have hs : Sound (GetAcceptor pool_ call).1 := by
    cases calls with
    | nil => exact hrest
    | cons => exact hrest.1
  have hport := hcall.port
  unfold bindCallback at hok
  split at hok
  · cases hok
  · cases hok
  · next pool' entry port' heq =>
    obtain ⟨-, rfl⟩ := Prod.mk.inj (Option.some.inj hok)
    rw [heq] at hs hport ⊢
    obtain ⟨heq', hsome⟩ := hport entry rfl
    dsimp only at heq'
    subst heq'
    obtain ⟨acceptor, ha⟩ := Option.isSome_iff_exists.mp hsome
    exact ⟨acceptor, ha, (hs _ acceptor ha).2⟩

end AcceptorPool

/-! A first request for any port, when none can be bound. -/

/-- The acceptor that is not bound gets the key 0, and the client the status of success. -/
theorem unbound_acceptor_kept :
    let call : GetAcceptorCall Unit := ⟨(), 0, ⟨true, false, ⟨40000, by decide⟩, true, true⟩⟩
    AcceptorPool.bindCallback AcceptorPool.empty call = some (.kStatusOK, 0) ∧
      (AcceptorPool.GetAcceptor AcceptorPool.empty call).1 0 = some ⟨(), none, false⟩ ∧
      ¬ AcceptorPool.Proper AcceptorPool.empty [call] := by
  refine ⟨rfl, rfl, ?_⟩
  rintro ⟨-, -, hs⟩
  exact (hs 0 ⟨(), none, false⟩ rfl).1 rfl

end Proxy
