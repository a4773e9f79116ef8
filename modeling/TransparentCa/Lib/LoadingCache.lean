import TransparentCa.Lib.Interp

/- A cache that loads what it lacks, shared by many processes. Whose cache it is does not matter:
   `Cache` is what a user sees of one, its `get` over the ticker and the loader it was built with,
   and `ExpiresAfterWrite` is what its documentation says of a fixed lifetime. `Cache.system` puts
   it under programs that call `get` and whatever else they like.

   `Cache.locked` is such a cache. `get` reads the ticker and asks for a live entry; where there is
   none the key is taken, the value is loaded, the ticker is read again, and the entry is written;
   a load that throws gives the key back and leaves no entry. Whoever asks for a key that another
   process has taken waits. -/
namespace Effects
open Prog Effects.System

/-- What a process does with a cache and without. -/
inductive Use (K Op : Type) where
  | get (key : K)
  | other (o : Op)

abbrev Use.Val {K Op : Type} (V : Type) (Val : Op → Type) : Use K Op → Type
  | .get _ => V
  | .other o => Val o

/-! ## Programs beside others -/

section
variable {K V Op Op' : Type} {Val : Op → Type} {Val' : Op' → Type} {ε α β : Type}

/-- The calls of `p`, among those of someone else. -/
def Prog.pass (p : Prog Op' Val' ε β) : Prog (Op ⊕ Op') (Sum.elim Val Val') ε β :=
  p.interp (fun o => Prog.invoke (.inr o : Op ⊕ Op'))

/-- A call among those of someone else. -/
def lift (ev : Event Op' Val' ε) : Event (Op ⊕ Op') (Sum.elim Val Val') ε := ⟨.inr ev.op, ev.ans⟩

theorem runs_pass {p : Prog Op' Val' ε β} {tr : List (Event (Op ⊕ Op') (Sum.elim Val Val') ε)}
    {out : Except ε β} (h : Runs p.pass tr out) : ∃ t, Runs p t out ∧ tr = t.map lift := by
  obtain ⟨t, hrun, hexp⟩ := runs_interp h
  exact ⟨t, hrun, hexp.eq_map (fun o r t ht => runs_invoke.mp ht)⟩

/-- A loading cache as its user sees it: `get`, over the ticker and the loader that it was built
with, the calls that it makes besides theirs, and what becomes of its memory. -/
structure Cache (I K V ε : Type) where
  Memory : Type
  Op : Type
  Val : Op → Type
  empty : Memory → Prop
  step : I → Memory → (o : Op) → Except ε (Val o) → Memory → Prop
  env : Memory → Memory → Prop
  get : {Op' : Type} → {Val' : Op' → Type} → Prog Op' Val' ε Int → (K → Prog Op' Val' ε V) → K →
    Prog (Op ⊕ Op') (Sum.elim Val Val') ε V

namespace Cache

variable {I S : Type} (c : Cache I K V ε)

section
variable (ticker : Prog Op Val ε Int) (load : K → Prog Op Val ε V)

def answer : (o : Use K Op) → Prog (c.Op ⊕ Op) (Sum.elim c.Val Val) ε (o.Val V Val)
  | .get key => c.get ticker load key
  | .other o => Prog.invoke (.inr o : c.Op ⊕ Op)

/-- The cache, empty at first, between `callers` and `base`. -/
def system (base : System I S Op Val ε α)
    (callers : I → Prog (Use K Op) (Use.Val V Val) ε α → Prop) :
    System I (c.Memory × S) (c.Op ⊕ Op) (Sum.elim c.Val Val) ε α where
  init s := c.empty s.1 ∧ base.init s.2
  runs i p := ∃ q, callers i q ∧ p = q.interp (c.answer ticker load)
  step i s
    | .inl o, r, s' => c.step i s.1 o r s'.1 ∧ s'.2 = s.2
    | .inr o, r, s' => s'.1 = s.1 ∧ base.step i s.2 o r s'.2
  env s s' := (c.env s.1 s'.1 ∧ s'.2 = s.2) ∨ (s'.1 = s.1 ∧ base.env s.2 s'.2)

variable [DecidableEq I]

abbrev Log (I : Type) {Op Op' : Type} (Val : Op → Type) (Val' : Op' → Type) (ε α : Type) :=
  List (Entry I (Op ⊕ Op') (Sum.elim Val Val') ε α)

/-- In one run a process loaded `value` for the key, and after that the ticker said
`writtenAt`. -/
def Loaded {Val₀ : Op' → Type} (log : Log I Val₀ Val ε α) (key : K) (value : V)
    (writtenAt : Int) : Prop :=
  ∃ j newer run older loaded tick, log = newer ++ (run ++ older) ∧ .start j ∉ run ∧
    callsOf j run = (loaded ++ tick).map lift ∧ Runs (load key) loaded (.ok value) ∧
    Runs ticker tick (.ok writtenAt)

theorem Loaded.append {Val₀ : Op' → Type} {ticker : Prog Op Val ε Int} {load : K → Prog Op Val ε V}
    {log : Log I Val₀ Val ε α} {key : K} {value : V} {writtenAt : Int}
    (h : Loaded ticker load log key value writtenAt) (later : Log I Val₀ Val ε α) :
    Loaded ticker load (later ++ log) key value writtenAt := by
  obtain ⟨j, newer, run, older, loaded, tick, rfl, hrest⟩ := h
  exact ⟨j, later ++ newer, run, older, loaded, tick, by simp, hrest⟩

end

/-- What is documented: `get` returns the value for the key, obtaining it from the loader if
necessary, and an entry is gone once `life` has elapsed after it was written, by the ticker. So a
value that `get` returns was loaded for the key, and written less than `life` before the caller
looked at the ticker. -/
def ExpiresAfterWrite [DecidableEq I] (life : Int) : Prop :=
  ∀ (S Op : Type) (Val : Op → Type) (α : Type) (base : System I S Op Val ε α)
    (ticker : Prog Op Val ε Int) (load : K → Prog Op Val ε V)
    (callers : I → Prog (Use K Op) (Use.Val V Val) ε α → Prop)
    (w : State I (c.Memory × S) (c.Op ⊕ Op) (Sum.elim c.Val Val) ε α),
    (c.system ticker load base callers).Reachable w →
    ∀ (i : I) (newer run older : Log I c.Val Val ε α) (key : K) (value : V),
      w.log = newer ++ (run ++ older) → .start i ∉ run →
      Runs (c.get ticker load key) (callsOf i run) (.ok value) →
      ∃ now writtenAt tick, Runs ticker tick (.ok now) ∧ tick.map lift <:+: callsOf i run ∧
        now - writtenAt < life ∧ Loaded ticker load (run ++ older) key value writtenAt

end Cache

end

/-! ## A cache that locks its keys -/

structure Stored (V : Type) where
  value : V
  writtenAt : Int

/-- The entry can be used by whoever read the ticker at `now`. -/
def Stored.Live {V : Type} (life : Int) (e : Stored V) (now : Int) : Prop := now - e.writtenAt < life

namespace Locked

structure Memory (I K V : Type) where
  entries : K → Option (Stored V)
  /-- Who has taken the key. -/
  loading : K → Option I

inductive Call (K V : Type) where
  | find (key : K) (now : Int)
  | write (key : K) (entry : Stored V)
  | abandon (key : K)

abbrev Call.Val {K V : Type} : Call K V → Type
  | .find _ _ => Option V
  | .write _ _ => Unit
  | .abandon _ => Unit

variable {K V I Op : Type} {Val : Op → Type} {ε α β : Type}

abbrev LockedProg (K V : Type) {Op : Type} (Val : Op → Type) (ε α : Type) :=
  Prog (Call K V ⊕ Op) (Sum.elim Call.Val Val) ε α

def memoryCall (o : Call K V) : LockedProg K V Val ε o.Val :=
  Prog.invoke (.inl o : Call K V ⊕ Op)

section
variable (ticker : Prog Op Val ε Int) (load : K → Prog Op Val ε V)

/-- The loaded value and the time its load was over. -/
def newEntry (key : K) : LockedProg K V Val ε (Stored V) := do
  let value ← (load key).pass
  let writtenAt ← ticker.pass
  return ⟨value, writtenAt⟩

/-- The load of a key that was taken. -/
def loadTaken (key : K) : LockedProg K V Val ε V := do
  let entry ← (newEntry ticker load key).handle (fun e => do
    memoryCall (.abandon key)
    throw e)
  memoryCall (.write key entry)
  return entry.value

def get (key : K) : LockedProg K V Val ε V := do
  let now ← ticker.pass
  let found ← memoryCall (.find key now)
  match found with
  | some value => return value
  | none => loadTaken ticker load key

end

def step [DecidableEq K] (life : Int) (i : I) (s : Memory I K V) :
    (o : Call K V) → Except ε o.Val → Memory I K V → Prop
  | .find key now, r, s' =>
    (∃ e, s.entries key = some e ∧ e.Live life now ∧ r = .ok (some e.value) ∧ s' = s) ∨
    ((∀ e, s.entries key = some e → ¬ e.Live life now) ∧ s.loading key = none ∧ r = .ok none ∧
      s' = { s with loading := Function.update s.loading key (some i) })
  | .write key entry, r, s' => r = .ok () ∧
    s' = { entries := Function.update s.entries key (some entry)
           loading := Function.update s.loading key none }
  | .abandon key, r, s' => r = .ok () ∧
    s' = { s with loading := Function.update s.loading key none }

/-- An entry may be dropped at any time. -/
def Dropped [DecidableEq K] (s s' : Memory I K V) : Prop :=
  ∃ key, s' = { s with entries := Function.update s.entries key none }

end Locked

open Locked in
abbrev Cache.locked (I K V ε : Type) [DecidableEq K] (life : Int) : Cache I K V ε where
  Memory := Locked.Memory I K V
  Op := Call K V
  Val := Call.Val
  empty s := ∀ key, s.entries key = none ∧ s.loading key = none
  step := Locked.step life
  env := Dropped
  get := Locked.get

namespace Locked

/-! ### Runs of its `get` -/

section
variable {K V Op : Type} {Val : Op → Type} {ε β : Type}

abbrev LockedEvent (K V : Type) {Op : Type} (Val : Op → Type) (ε : Type) :=
  Event (Call K V ⊕ Op) (Sum.elim Call.Val Val) ε

def foundLive (key : K) (now : Int) (value : V) : LockedEvent K V Val ε :=
  ⟨.inl (.find key now), .ok (some value)⟩

def foundNone (key : K) (now : Int) : LockedEvent K V Val ε := ⟨.inl (.find key now), .ok none⟩

def written (key : K) (entry : Stored V) (r : Except ε Unit) : LockedEvent K V Val ε :=
  ⟨.inl (.write key entry), r⟩

def IsWrite : Call K V ⊕ Op → Prop
  | .inl (.write _ _) => True
  | _ => False

variable {ticker : Prog Op Val ε Int} {load : K → Prog Op Val ε V} {key : K}
  {tr : List (LockedEvent K V Val ε)}

/-- What is not of the cache does not write. -/
theorem uses_pass (p : Prog Op Val ε β) :
    (p.pass : LockedProg K V Val ε β).Uses (fun o => ¬ IsWrite o) :=
  uses_interp (uses_true p) (fun _ _ => Uses.invoke id)

theorem uses_newEntry :
    (newEntry ticker load key : LockedProg K V Val ε (Stored V)).Uses (fun o => ¬ IsWrite o) :=
  Uses.bind (uses_pass (load key)) (fun _ => Uses.bind (uses_pass ticker) (fun _ => trivial))

theorem runs_newEntry {entry : Stored V} (h : Runs (newEntry ticker load key) tr (.ok entry)) :
    ∃ loaded tick, Runs (load key) loaded (.ok entry.value) ∧
      Runs ticker tick (.ok entry.writtenAt) ∧ tr = (loaded ++ tick).map lift := by
  simp only [newEntry, bind_eq, pure_eq, runs_bind_ok] at h
  obtain ⟨value, t₁, t₂, rfl, hvalue, writtenAt, t₃, t₄, rfl, hwrittenAt, hreturn⟩ := h
  obtain ⟨rfl, hentry⟩ := runs_ret.mp hreturn
  rw [Except.ok.inj hentry]
  obtain ⟨loaded, hload, rfl⟩ := runs_pass hvalue
  obtain ⟨tick, hticker, rfl⟩ := runs_pass hwrittenAt
  exact ⟨loaded, tick, hload, hticker, by simp⟩

theorem not_runs_abandon {e : ε} {a : β} :
    ¬ Runs (do memoryCall (.abandon key); throw e : LockedProg K V Val ε β) tr (.ok a) :=
  not_runs_bind_raise

theorem runs_loadTaken_ok {value : V} (h : Runs (loadTaken ticker load key) tr (.ok value)) :
    ∃ loaded tick writtenAt, Runs (load key) loaded (.ok value) ∧ Runs ticker tick (.ok writtenAt) ∧
      tr = (loaded ++ tick).map lift ++ [written key ⟨value, writtenAt⟩ (.ok ())] := by
  simp only [loadTaken, bind_eq, pure_eq, runs_bind_ok] at h
  obtain ⟨entry, t₁, t₂, rfl, hentry, ⟨⟩, t₃, t₄, rfl, hwrite, hreturn⟩ := h
  obtain ⟨rfl, hvalue⟩ := runs_ret.mp hreturn
  obtain ⟨loaded, tick, hload, hticker, rfl⟩ :=
    runs_newEntry ((runs_handle_ok (fun _ _ _ => not_runs_abandon)).mp hentry)
  rw [Except.ok.inj hvalue, runs_invoke.mp hwrite]
  exact ⟨loaded, tick, entry.writtenAt, hload, hticker, by simp [written]⟩

theorem runs_loadTaken_write {entry : Stored V} {before after : List (LockedEvent K V Val ε)}
    {r : Except ε Unit} {out : Except ε V} {key' : K}
    (h : Runs (loadTaken ticker load key) (before ++ written key' entry r :: after) out) :
    key' = key ∧ ∃ loaded tick, Runs (load key) loaded (.ok entry.value) ∧
      Runs ticker tick (.ok entry.writtenAt) ∧ before = (loaded ++ tick).map lift := by
  have huses : ((newEntry ticker load key).handle (fun e => do
      memoryCall (.abandon key)
      throw e) : LockedProg K V Val ε (Stored V)).Uses (fun o => ¬ IsWrite o) :=
    Uses.handle uses_newEntry (fun e => Uses.bind (Uses.invoke id) (fun _ => trivial))
  obtain ⟨entry', t, rest, rfl, hentry, hwrite⟩ := runs_bind_split huses h (not_not.mpr trivial)
  obtain ⟨loaded, tick, hload, hticker, rfl⟩ :=
    runs_newEntry ((runs_handle_ok (fun _ _ _ => not_runs_abandon)).mp hentry)
  -- The write is the next call, and the last one.
  obtain ⟨answer, t₁, t₂, htr, hinvoke, hreturn⟩ := runs_bind_inv hwrite
  have hnil : t₂ = [] := by
    cases answer with
    | ok _ => exact (runs_ret.mp hreturn).1
    | error e => exact hreturn.1
  rw [runs_invoke.mp hinvoke, hnil, List.append_nil] at htr
  obtain ⟨rfl, hcons⟩ := List.append_eq_singleton_iff.mp htr |>.resolve_right (by simp)
  obtain ⟨hev, -⟩ := List.cons.inj hcons
  cases hev
  exact ⟨rfl, loaded, tick, hload, hticker, by simp⟩

/-- Before a write there is a whole load, which returned what is written. -/
theorem runs_get_write {entry : Stored V} {before after : List (LockedEvent K V Val ε)}
    {r : Except ε Unit} {out : Except ε V} {key' : K}
    (h : Runs (get ticker load key) (before ++ written key' entry r :: after) out) :
    key' = key ∧ ∃ first loaded tick, Runs (load key) loaded (.ok entry.value) ∧
      Runs ticker tick (.ok entry.writtenAt) ∧ before = first ++ (loaded ++ tick).map lift := by
  obtain ⟨now, t₁, before, rfl, hticker, h⟩ :=
    runs_bind_split (uses_pass ticker) h (not_not.mpr trivial)
  obtain ⟨found, t₂, before, rfl, hfind, h⟩ :=
    runs_bind_split (P := fun o => ¬ IsWrite o) (Uses.invoke id) h (not_not.mpr trivial)
  cases found with
  | some value => exact absurd (runs_ret.mp h).1 (by simp)
  | none =>
    obtain ⟨rfl, loaded, tick, hload, hwrittenAt, rfl⟩ := runs_loadTaken_write h
    exact ⟨rfl, t₁ ++ t₂, loaded, tick, hload, hwrittenAt, by simp⟩

/-- The value was found, or loaded and written. -/
theorem runs_get_ok {value : V} (h : Runs (get ticker load key) tr (.ok value)) :
    ∃ now tick, Runs ticker tick (.ok now) ∧
      (tr = tick.map lift ++ [foundLive key now value] ∨
        ∃ loaded tick' writtenAt, Runs (load key) loaded (.ok value) ∧
          Runs ticker tick' (.ok writtenAt) ∧
          tr = tick.map lift ++ foundNone key now :: ((loaded ++ tick').map lift ++
            [written key ⟨value, writtenAt⟩ (.ok ())])) := by
  unfold get at h
  rw [bind_eq, runs_bind_ok] at h
  obtain ⟨now, t₁, t₂, rfl, hnow, h⟩ := h
  obtain ⟨tick, hticker, rfl⟩ := runs_pass hnow
  rw [bind_eq, runs_bind_ok] at h
  obtain ⟨found, t₃, t₄, rfl, hfind, h⟩ := h
  rw [runs_invoke.mp hfind]
  refine ⟨now, tick, hticker, ?_⟩
  cases found with
  | some value' =>
    obtain ⟨rfl, hvalue⟩ := runs_ret.mp h
    rw [Except.ok.inj hvalue]
    exact .inl rfl
  | none =>
    obtain ⟨loaded, tick', writtenAt, hload, hwrittenAt, rfl⟩ := runs_loadTaken_ok h
    exact .inr ⟨loaded, tick', writtenAt, hload, hwrittenAt, rfl⟩

end

/-! ### Where its values come from -/

section
variable {K V Op : Type} {Val : Op → Type} {ε α β : Type} {ticker : Prog Op Val ε Int}
  {load : K → Prog Op Val ε V} {tr : List (LockedEvent K V Val ε)}

/-- Before each write there is a whole load, which returned what is written. -/
def WritesLoaded (ticker : Prog Op Val ε Int) (load : K → Prog Op Val ε V)
    (tr : List (LockedEvent K V Val ε)) : Prop :=
  ∀ before key entry r after, tr = before ++ written key entry r :: after →
    ∃ first loaded tick, before = first ++ (loaded ++ tick).map lift ∧
      Runs (load key) loaded (.ok entry.value) ∧ Runs ticker tick (.ok entry.writtenAt)

theorem writesLoaded_get {key : K} {out : Except ε V} (h : Runs (get ticker load key) tr out) :
    WritesLoaded ticker load tr := by
  intro before key' entry r after htr
  subst htr
  obtain ⟨rfl, first, loaded, tick, hload, hticker, rfl⟩ := runs_get_write h
  exact ⟨first, loaded, tick, rfl, hload, hticker⟩

variable {I S : Type} [DecidableEq K] {life : Int} {base : System I S Op Val ε α}
  {callers : I → Prog (Use K Op) (Use.Val V Val) ε α → Prop}

theorem writesLoaded_callers {q : Prog (Use K Op) (Use.Val V Val) ε α} {out : Except ε α}
    (h : Runs (q.interp ((Cache.locked I K V ε life).answer ticker load)) tr out) :
    WritesLoaded ticker load tr := by
  intro before key entry r after htr
  subst htr
  obtain ⟨tr₀, -, hexp⟩ := runs_interp h
  obtain ⟨⟨o, ans⟩, b₁, b₂, t₁, t₂, -, hrun, rfl, rfl⟩ := hexp.split
  cases o with
  | get key' =>
    have hwrites : WritesLoaded ticker load (b₁ ++ written key entry r :: b₂) :=
      writesLoaded_get hrun
    obtain ⟨first, loaded, tick, rfl, hload, hticker⟩ := hwrites b₁ key entry r b₂ rfl
    exact ⟨t₁ ++ first, loaded, tick, by simp, hload, hticker⟩
  | other o =>
    have hsingle := (runs_invoke.mp hrun).symm
    obtain ⟨rfl, hcons⟩ := List.append_eq_singleton_iff.mp hsingle.symm |>.resolve_right (by simp)
    cases (List.cons.inj hcons).1

variable [DecidableEq I]

abbrev LockedState (I K V S : Type) {Op : Type} (Val : Op → Type) (ε α : Type) :=
  State I (Memory I K V × S) (Call K V ⊕ Op) (Sum.elim Call.Val Val) ε α

/-- A process that writes an entry has loaded it. -/
theorem loaded_of_write [Inhabited ε] {w : LockedState I K V S Val ε α}
    (hw : ((Cache.locked I K V ε life).system ticker load base callers).Reachable w) {j : I}
    {key : K} {entry : Stored V} {r : Except ε Unit}
    {later earlier : Cache.Log I Call.Val Val ε α}
    (hlog : w.log = later ++ .call j (written key entry r) :: earlier) :
    Cache.Loaded ticker load earlier key entry.value entry.writtenAt := by
  obtain ⟨p, run, before, tr, out, rfl, hstart, ⟨q, -, rfl⟩, hrun⟩ := hw.called hlog
  obtain ⟨first, loaded, tick, hcalls, hload, hticker⟩ := writesLoaded_callers hrun _ _ _ _ _ rfl
  obtain ⟨run₂, run₁, rfl, -, hcalls₂⟩ := callsOf_eq_append hcalls
  refine ⟨j, [], run₂, run₁ ++ .start j :: before, loaded, tick, by simp, ?_, hcalls₂, hload,
    hticker⟩
  exact fun hmem => hstart (List.mem_append_left _ hmem)

/-- What is in the memory was written. -/
theorem written_of_entry {w : LockedState I K V S Val ε α}
    (hw : ((Cache.locked I K V ε life).system ticker load base callers).Reachable w) {key : K}
    {entry : Stored V} (h : w.store.1.entries key = some entry) :
    ∃ j, .call j (written key entry (.ok ())) ∈ w.log := by
  induction hw with
  | init s hs =>
    rw [(hs.1 key).1] at h
    cases h
  | @step w w' hw hstep ih =>
    -- A step that is no write of the key leaves its entry, or drops it.
    have hkeep : ∀ s' : Memory I K V, s'.entries key = w.store.1.entries key →
        s'.entries key = some entry →
        ∀ x, ∃ j, .call j (written key entry (.ok ())) ∈ x :: w.log := by
      intro s' hsame h' x
      obtain ⟨j, hj⟩ := ih (hsame ▸ h')
      exact ⟨j, List.mem_cons_of_mem x hj⟩
    cases hstep with
    | call i o k r s' hi hs =>
      cases o with
      | inr o => exact hkeep s'.1 (by rw [hs.1]) h _
      | inl o =>
        have hmemory := hs.1
        cases o with
        | find key' now =>
          rcases hmemory with ⟨e, -, -, -, hsame⟩ | ⟨-, -, -, hsame⟩
          · exact hkeep s'.1 (by rw [hsame]) h _
          · exact hkeep s'.1 (by rw [hsame]) h _
        | write key' entry' =>
          obtain ⟨rfl, hwritten⟩ := hmemory
          by_cases hkey : key = key'
          · subst hkey
            rw [hwritten] at h
            simp only [Function.update_self, Option.some.injEq] at h
            subst h
            exact ⟨i, List.mem_cons_self⟩
          · exact hkeep s'.1 (by rw [hwritten]; exact Function.update_of_ne hkey ..) h _
        | abandon key' => exact hkeep s'.1 (by rw [hmemory.2]) h _
    | env s' hs =>
      rcases hs with ⟨⟨key', hdropped⟩, -⟩ | ⟨hsame, -⟩
      · by_cases hkey : key = key'
        · subst hkey
          rw [hdropped] at h
          simp at h
        · exact hkeep s'.1 (by rw [hdropped]; exact Function.update_of_ne hkey ..) h _
      · exact hkeep s'.1 (by rw [hsame]) h _
    | start i p hp hi => exact hkeep _ rfl h _
    | ret i a hi => exact hkeep _ rfl h _
    | raise i e hi => exact hkeep _ rfl h _
    | stop i p hi => exact hkeep _ rfl h _

/-- The value that is found was loaded, and written less than a lifetime before the reading. -/
theorem found_loaded [Inhabited ε] {w : LockedState I K V S Val ε α}
    (hw : ((Cache.locked I K V ε life).system ticker load base callers).Reachable w) {i : I}
    {key : K} {now : Int} {value : V} {later earlier : Cache.Log I Call.Val Val ε α}
    (hlog : w.log = later ++ .call i (foundLive key now value) :: earlier) :
    ∃ writtenAt, now - writtenAt < life ∧
      Cache.Loaded ticker load earlier key value writtenAt := by
  obtain ⟨w₀, w₁, hw₀, rfl, -, -, hs⟩ := hw.answered hlog
  rcases hs.1 with ⟨e, he, hlive, hvalue, -⟩ | ⟨-, -, hnone, -⟩
  · obtain rfl : value = e.value := Option.some.inj (Except.ok.inj hvalue)
    obtain ⟨j, hwrite⟩ := written_of_entry hw₀ he
    obtain ⟨newer, older, hsplit⟩ := List.append_of_mem hwrite
    refine ⟨e.writtenAt, hlive, ?_⟩
    rw [hsplit, List.append_cons]
    exact (loaded_of_write hw₀ hsplit).append _
  · cases hnone

end

end Locked

/-- The cache that locks its keys does what is documented. -/
theorem Cache.locked_expiresAfterWrite {I K V ε : Type} [DecidableEq I] [DecidableEq K]
    [Inhabited ε] {life : Int} (hlife : 0 < life) :
    (Cache.locked I K V ε life).ExpiresAfterWrite life := by
  intro S Op Val α base ticker load callers w hw i newer run older key value hlog hstart hget
  obtain ⟨now, tick, hticker, hcase⟩ := Locked.runs_get_ok hget
  rcases hcase with htr | ⟨loaded, tick', writtenAt, hload, hwrittenAt, htr⟩
  · -- It was found.
    have hfound : .call i (Locked.foundLive key now value) ∈ run := by
      rw [← mem_callsOf, htr]
      simp
    obtain ⟨newer', older', rfl⟩ := List.append_of_mem hfound
    have hearlier : w.log = (newer ++ newer') ++ .call i (Locked.foundLive key now value) ::
        (older' ++ older) := by
      rw [hlog]
      simp
    obtain ⟨writtenAt, hlive, hloaded⟩ := Locked.found_loaded hw hearlier
    refine ⟨now, writtenAt, tick, hticker, ⟨[], _, htr.symm⟩, hlive, ?_⟩
    rw [List.append_assoc, List.cons_append, List.append_cons]
    exact hloaded.append _
  · -- The caller loaded it.
    rw [List.append_cons] at htr
    obtain ⟨run₂, run₁, rfl, -, hcalls⟩ := callsOf_eq_append htr
    obtain ⟨after, run₂, rfl, hcalls, -⟩ := callsOf_eq_append hcalls
    refine ⟨writtenAt, writtenAt, tick', hwrittenAt, ?_, by omega, i, after, run₂, run₁ ++ older,
      loaded, tick', by simp, ?_, hcalls, hload, hwrittenAt⟩
    · rw [htr]
      exact ⟨tick.map lift ++ [Locked.foundNone key now] ++ loaded.map lift, _, by simp; rfl⟩
    · exact fun hmem => hstart (by simp [hmem])

end Effects
