import Mathlib

/- Programs with explicit calls. A program of type `Prog Op Val ε α` returns a value,
   throws an exception, or makes one call `o : Op` and goes on with what the call gave:
   a value of type `Val o`, or an exception of the same type `ε` the program itself may
   throw. Nothing is said about who answers: `Runs p tr out` holds for every way the
   calls can be answered, with `tr` the calls and answers in order and `out` how the
   program ended. The rules below take a run apart along the program's structure; `Uses`
   bounds the calls a program can make whatever the answers are. -/
namespace Effects

inductive Prog (Op : Type) (Val : Op → Type) (ε α : Type) where
  | ret (a : α)
  | raise (e : ε)
  | call (o : Op) (k : Except ε (Val o) → Prog Op Val ε α)

/-- One call with its answer. -/
structure Event (Op : Type) (Val : Op → Type) (ε : Type) where
  op : Op
  ans : Except ε (Val op)

variable {Op : Type} {Val : Op → Type} {ε α β γ : Type}

namespace Prog

def bind : Prog Op Val ε α → (α → Prog Op Val ε β) → Prog Op Val ε β
  | .ret a, f => f a
  | .raise e, _ => .raise e
  | .call o k, f => .call o (fun r => (k r).bind f)

/-- `try p catch e => h e`. -/
def handle : Prog Op Val ε α → (ε → Prog Op Val ε α) → Prog Op Val ε α
  | .ret a, _ => .ret a
  | .raise e, h => h e
  | .call o k, h => .call o (fun r => (k r).handle h)

instance : Monad (Prog Op Val ε) where
  pure := .ret
  bind := .bind

instance : MonadExcept ε (Prog Op Val ε) where
  throw := .raise
  tryCatch := .handle

/-- One call: its value is returned, its exception thrown. -/
def invoke (o : Op) : Prog Op Val ε (Val o) :=
  .call o (fun r => match r with
    | .ok v => .ret v
    | .error e => .raise e)

def ofExcept : Except ε α → Prog Op Val ε α
  | .ok a => .ret a
  | .error e => .raise e

/-- `try p finally q`: `q` runs whichever way `p` ended, and an exception of `q` wins. -/
def finallyDo (p : Prog Op Val ε α) (q : Prog Op Val ε Unit) : Prog Op Val ε α :=
  ((p.bind (fun a => .ret (Except.ok a))).handle (fun e => .ret (.error e))).bind
    (fun r => q.bind (fun _ => ofExcept r))

@[simp] theorem pure_eq (a : α) : (pure a : Prog Op Val ε α) = .ret a := rfl
@[simp] theorem bind_eq (p : Prog Op Val ε α) (f : α → Prog Op Val ε β) : p >>= f = p.bind f := rfl
@[simp] theorem throw_eq (e : ε) : (throw e : Prog Op Val ε α) = .raise e := rfl
@[simp] theorem tryCatch_eq (p : Prog Op Val ε α) (h : ε → Prog Op Val ε α) :
    tryCatch p h = p.handle h := rfl

@[simp] theorem bind_ret (a : α) (f : α → Prog Op Val ε β) : (Prog.ret a).bind f = f a := rfl
@[simp] theorem bind_raise (e : ε) (f : α → Prog Op Val ε β) :
    (Prog.raise e : Prog Op Val ε α).bind f = .raise e := rfl
@[simp] theorem handle_ret (a : α) (h : ε → Prog Op Val ε α) :
    (Prog.ret a : Prog Op Val ε α).handle h = .ret a := rfl
@[simp] theorem handle_raise (e : ε) (h : ε → Prog Op Val ε α) :
    (Prog.raise e : Prog Op Val ε α).handle h = h e := rfl

theorem bind_call (o : Op) (k : Except ε (Val o) → Prog Op Val ε α) (f : α → Prog Op Val ε β) :
    (Prog.call o k).bind f = .call o (fun r => (k r).bind f) := rfl
theorem handle_call (o : Op) (k : Except ε (Val o) → Prog Op Val ε α) (h : ε → Prog Op Val ε α) :
    (Prog.call o k).handle h = .call o (fun r => (k r).handle h) := rfl

theorem bind_assoc (p : Prog Op Val ε α) (f : α → Prog Op Val ε β) (g : β → Prog Op Val ε γ) :
    (p.bind f).bind g = p.bind (fun a => (f a).bind g) := by
  induction p with
  | ret a => rfl
  | raise e => rfl
  | call o k ih => simp only [bind_call]; congr 1; funext r; exact ih r

theorem bind_pure_self (p : Prog Op Val ε α) : p.bind .ret = p := by
  induction p with
  | ret a => rfl
  | raise e => rfl
  | call o k ih => simp only [bind_call]; congr 1; funext r; exact ih r

theorem bind_congr {p q : Prog Op Val ε α} {f g : α → Prog Op Val ε β} (hp : p = q)
    (hf : ∀ a, f a = g a) : p.bind f = q.bind g := by
  rw [hp, funext hf]

theorem ite_bind (c : Prop) [Decidable c] (p q : Prog Op Val ε α) (f : α → Prog Op Val ε β) :
    (if c then p else q).bind f = if c then p.bind f else q.bind f := by
  split <;> rfl

/-! ## Runs -/

/-- `p` can make the calls `tr`, in this order and with these answers, and end as `out`. -/
inductive Runs : Prog Op Val ε α → List (Event Op Val ε) → Except ε α → Prop where
  | ret (a : α) : Runs (.ret a) [] (.ok a)
  | raise (e : ε) : Runs (.raise e) [] (.error e)
  | call (o : Op) (k : Except ε (Val o) → Prog Op Val ε α) (r : Except ε (Val o))
      {tr : List (Event Op Val ε)} {out : Except ε α} (h : Runs (k r) tr out) :
      Runs (.call o k) (⟨o, r⟩ :: tr) out

@[simp] theorem runs_ret {a : α} {tr : List (Event Op Val ε)} {out : Except ε α} :
    Runs (.ret a) tr out ↔ tr = [] ∧ out = .ok a := by
  constructor
  · rintro ⟨⟩; exact ⟨rfl, rfl⟩
  · rintro ⟨rfl, rfl⟩; exact .ret a

@[simp] theorem runs_raise {e : ε} {tr : List (Event Op Val ε)} {out : Except ε α} :
    Runs (.raise e) tr out ↔ tr = [] ∧ out = .error e := by
  constructor
  · rintro ⟨⟩; exact ⟨rfl, rfl⟩
  · rintro ⟨rfl, rfl⟩; exact .raise e

theorem runs_call {o : Op} {k : Except ε (Val o) → Prog Op Val ε α}
    {tr : List (Event Op Val ε)} {out : Except ε α} :
    Runs (.call o k) tr out ↔ ∃ r t, tr = ⟨o, r⟩ :: t ∧ Runs (k r) t out := by
  constructor
  · intro h
    cases h with
    | call _ _ r h => exact ⟨r, _, rfl, h⟩
  · rintro ⟨r, t, rfl, h⟩; exact .call o k r h

@[simp] theorem runs_ofExcept {x : Except ε α} {tr : List (Event Op Val ε)} {out : Except ε α} :
    Runs (ofExcept x) tr out ↔ tr = [] ∧ out = x := by
  cases x <;> simp [ofExcept]

theorem runs_invoke {o : Op} {tr : List (Event Op Val ε)} {out : Except ε (Val o)} :
    Runs (invoke o) tr out ↔ tr = [⟨o, out⟩] := by
  unfold invoke
  rw [runs_call]
  constructor
  · rintro ⟨r, t, rfl, h⟩
    cases r <;> simp at h <;> obtain ⟨rfl, rfl⟩ := h <;> rfl
  · rintro rfl
    refine ⟨out, [], rfl, ?_⟩
    cases out <;> simp

/-- A run that returns went through the first part and then the second. -/
theorem runs_bind_ok {p : Prog Op Val ε α} {f : α → Prog Op Val ε β}
    {tr : List (Event Op Val ε)} {b : β} :
    Runs (p.bind f) tr (.ok b) ↔
      ∃ a t₁ t₂, tr = t₁ ++ t₂ ∧ Runs p t₁ (.ok a) ∧ Runs (f a) t₂ (.ok b) := by
  induction p generalizing tr with
  | ret a => simp
  | raise e => simp
  | call o k ih =>
    simp only [bind_call, runs_call]
    constructor
    · rintro ⟨r, t, rfl, h⟩
      obtain ⟨a, t₁, t₂, rfl, h₁, h₂⟩ := (ih r).mp h
      exact ⟨a, ⟨o, r⟩ :: t₁, t₂, rfl, ⟨r, t₁, rfl, h₁⟩, h₂⟩
    · rintro ⟨a, t₁, t₂, rfl, ⟨r, t, rfl, h₁⟩, h₂⟩
      exact ⟨r, t ++ t₂, rfl, (ih r).mpr ⟨a, t, t₂, rfl, h₁, h₂⟩⟩

/-- A run that throws did so in the first part, or in the second after the first returned. -/
theorem runs_bind_error {p : Prog Op Val ε α} {f : α → Prog Op Val ε β}
    {tr : List (Event Op Val ε)} {e : ε} :
    Runs (p.bind f) tr (.error e) ↔
      Runs p tr (.error e) ∨
        ∃ a t₁ t₂, tr = t₁ ++ t₂ ∧ Runs p t₁ (.ok a) ∧ Runs (f a) t₂ (.error e) := by
  induction p generalizing tr with
  | ret a => simp
  | raise e' => simp
  | call o k ih =>
    simp only [bind_call, runs_call]
    constructor
    · rintro ⟨r, t, rfl, h⟩
      rcases (ih r).mp h with h | ⟨a, t₁, t₂, rfl, h₁, h₂⟩
      · exact .inl ⟨r, t, rfl, h⟩
      · exact .inr ⟨a, ⟨o, r⟩ :: t₁, t₂, rfl, ⟨r, t₁, rfl, h₁⟩, h₂⟩
    · rintro (⟨r, t, rfl, h⟩ | ⟨a, t₁, t₂, rfl, ⟨r, t, rfl, h₁⟩, h₂⟩)
      · exact ⟨r, t, rfl, (ih r).mpr (.inl h)⟩
      · exact ⟨r, t ++ t₂, rfl, (ih r).mpr (.inr ⟨a, t, t₂, rfl, h₁, h₂⟩)⟩

/-- The first part returned, and the second ends as it will. -/
theorem Runs.bind {p : Prog Op Val ε α} {f : α → Prog Op Val ε β} {t₁ t₂ : List (Event Op Val ε)}
    {a : α} {out : Except ε β} (h₁ : Runs p t₁ (.ok a)) (h₂ : Runs (f a) t₂ out) :
    Runs (p.bind f) (t₁ ++ t₂) out := by
  cases out with
  | ok b => exact runs_bind_ok.mpr ⟨a, t₁, t₂, rfl, h₁, h₂⟩
  | error e => exact runs_bind_error.mpr (.inr ⟨a, t₁, t₂, rfl, h₁, h₂⟩)

/-- A call that returned, and what comes after it. -/
theorem Runs.invoke_bind {o : Op} {v : Val o} {f : Val o → Prog Op Val ε β}
    {tr : List (Event Op Val ε)} {out : Except ε β} (h : Runs (f v) tr out) :
    Runs (Prog.bind (α := no_index Val o) (invoke o) f) (⟨o, .ok v⟩ :: tr) out :=
  Runs.bind (runs_invoke.mpr rfl) h

/-- Either way: the first part ended, and the second ran on if it returned. -/
theorem runs_bind_inv {p : Prog Op Val ε α} {f : α → Prog Op Val ε β} {tr : List (Event Op Val ε)}
    {out : Except ε β} (h : Runs (p.bind f) tr out) :
    ∃ r t₁ t₂, tr = t₁ ++ t₂ ∧ Runs p t₁ r ∧ match r with
      | .ok a => Runs (f a) t₂ out
      | .error e => t₂ = [] ∧ out = .error e := by
  cases out with
  | ok b =>
    obtain ⟨a, t₁, t₂, htr, h₁, h₂⟩ := runs_bind_ok.mp h
    exact ⟨.ok a, t₁, t₂, htr, h₁, h₂⟩
  | error e =>
    rcases runs_bind_error.mp h with h | ⟨a, t₁, t₂, htr, h₁, h₂⟩
    · exact ⟨.error e, tr, [], (List.append_nil tr).symm, h, rfl, rfl⟩
    · exact ⟨.ok a, t₁, t₂, htr, h₁, h₂⟩

/-! ## Runs in parts -/

/-- `p` can make the calls `tr`, with these answers, and go on as `q`. -/
inductive Leads : Prog Op Val ε α → List (Event Op Val ε) → Prog Op Val ε α → Prop where
  | nil (p : Prog Op Val ε α) : Leads p [] p
  | call (o : Op) (k : Except ε (Val o) → Prog Op Val ε α) (r : Except ε (Val o))
      {tr : List (Event Op Val ε)} {q : Prog Op Val ε α} (h : Leads (k r) tr q) :
      Leads (.call o k) (⟨o, r⟩ :: tr) q

/-- A run can be paused anywhere. -/
theorem Runs.leads {p : Prog Op Val ε α} {tr tr' : List (Event Op Val ε)} {out : Except ε α}
    (h : Runs p (tr ++ tr') out) : ∃ q, Leads p tr q ∧ Runs q tr' out := by
  induction tr generalizing p with
  | nil => exact ⟨p, .nil p, h⟩
  | cons ev tr ih =>
    cases h with
    | call o k r hrest =>
      obtain ⟨q, hq, hrun⟩ := ih hrest
      exact ⟨q, .call o k r hq, hrun⟩

/-! ## Handlers and finalizers -/

/-- A `try` ends as its body did when the body returned, else as its handler did. -/
theorem runs_handle {p : Prog Op Val ε α} {h : ε → Prog Op Val ε α}
    {tr : List (Event Op Val ε)} {out : Except ε α} :
    Runs (p.handle h) tr out ↔
      (∃ a, out = .ok a ∧ Runs p tr (.ok a)) ∨
        ∃ e t₁ t₂, tr = t₁ ++ t₂ ∧ Runs p t₁ (.error e) ∧ Runs (h e) t₂ out := by
  induction p generalizing tr with
  | ret a => simp [and_comm]
  | raise e => simp
  | call o k ih =>
    simp only [handle_call, runs_call]
    constructor
    · rintro ⟨r, t, rfl, hr⟩
      rcases (ih r).mp hr with ⟨a, rfl, h₁⟩ | ⟨e, t₁, t₂, rfl, h₁, h₂⟩
      · exact .inl ⟨a, rfl, r, t, rfl, h₁⟩
      · exact .inr ⟨e, ⟨o, r⟩ :: t₁, t₂, rfl, ⟨r, t₁, rfl, h₁⟩, h₂⟩
    · rintro (⟨a, rfl, r, t, rfl, h₁⟩ | ⟨e, t₁, t₂, rfl, ⟨r, t, rfl, h₁⟩, h₂⟩)
      · exact ⟨r, t, rfl, (ih r).mpr (.inl ⟨a, rfl, h₁⟩)⟩
      · exact ⟨r, t ++ t₂, rfl, (ih r).mpr (.inr ⟨e, t, t₂, rfl, h₁, h₂⟩)⟩

/-- However the body of a `try`/`finally` ends, the finalizer runs after it. -/
theorem runs_finallyDo_inv {p : Prog Op Val ε α} {q : Prog Op Val ε Unit}
    {tr : List (Event Op Val ε)} {out : Except ε α} (h : Runs (p.finallyDo q) tr out) :
    ∃ r t₁ t₂, tr = t₁ ++ t₂ ∧ Runs p t₁ r ∧ Runs (q.bind (fun _ => ofExcept r)) t₂ out := by
  obtain ⟨r, t₁, t₂, rfl, h₁, h₂⟩ := runs_bind_inv h
  rcases runs_handle.mp h₁ with ⟨r', rfl, hbody⟩ | ⟨e, t, t', rfl, hbody, hret⟩
  · obtain ⟨a, u₁, u₂, rfl, hp, hret⟩ := runs_bind_ok.mp hbody
    obtain ⟨rfl, heq⟩ := runs_ret.mp hret
    rw [Except.ok.inj heq] at h₂
    exact ⟨.ok a, u₁, t₂, by simp, hp, h₂⟩
  · obtain ⟨rfl, rfl⟩ := runs_ret.mp hret
    rcases runs_bind_error.mp hbody with hp | ⟨a, u₁, u₂, -, -, hret⟩
    · exact ⟨.error e, t, t₂, by simp, hp, h₂⟩
    · simp at hret

/-- A `try`/`finally` that returns: the body returned this value and then the
finalizer returned. -/
theorem runs_finallyDo_ok {p : Prog Op Val ε α} {q : Prog Op Val ε Unit}
    {tr : List (Event Op Val ε)} {a : α} :
    Runs (p.finallyDo q) tr (.ok a) ↔
      ∃ t₁ t₂, tr = t₁ ++ t₂ ∧ Runs p t₁ (.ok a) ∧ Runs q t₂ (.ok ()) := by
  unfold finallyDo
  rw [runs_bind_ok]
  constructor
  · rintro ⟨r, t₁, t₂, rfl, h₁, h₂⟩
    obtain ⟨_, t₃, t₄, rfl, h₃, h₄⟩ := runs_bind_ok.mp h₂
    simp only [runs_ofExcept] at h₄
    obtain ⟨rfl, rfl⟩ := h₄
    refine ⟨t₁, t₃, by simp, ?_, h₃⟩
    rcases runs_handle.mp h₁ with ⟨r', hr, h⟩ | ⟨e, t, t', rfl, h, h'⟩
    · obtain ⟨a', u₁, u₂, rfl, h₅, h₆⟩ := runs_bind_ok.mp h
      simp only [runs_ret, Except.ok.injEq] at h₆ hr
      obtain ⟨rfl, rfl⟩ := h₆
      cases hr
      simpa using h₅
    · simp at h'
  · rintro ⟨t₁, t₂, rfl, h₁, h₂⟩
    refine ⟨.ok a, t₁, t₂, rfl, ?_, ?_⟩
    · refine runs_handle.mpr (.inl ⟨.ok a, rfl, ?_⟩)
      exact runs_bind_ok.mpr ⟨a, t₁, [], by simp, h₁, by simp⟩
    · exact runs_bind_ok.mpr ⟨(), t₂, [], by simp, h₂, by simp [ofExcept]⟩

/-! The same rules with the rest of the program attached: rewriting with them walks a
straight-line program forward along a run that returns. -/

theorem runs_invoke_bind {o : Op} {f : Val o → Prog Op Val ε β} {tr : List (Event Op Val ε)}
    {b : β} : Runs (Prog.bind (α := no_index Val o) (invoke o) f) tr (.ok b) ↔
      ∃ v t, tr = ⟨o, .ok v⟩ :: t ∧ Runs (f v) t (.ok b) := by
  rw [runs_bind_ok]
  constructor
  · rintro ⟨v, t₁, t₂, rfl, h₁, h₂⟩
    rw [runs_invoke] at h₁
    exact ⟨v, t₂, by rw [h₁]; rfl, h₂⟩
  · rintro ⟨v, t, rfl, h⟩
    exact ⟨v, [_], t, rfl, runs_invoke.mpr rfl, h⟩

theorem runs_ofExcept_bind {x : Except ε α} {f : α → Prog Op Val ε β}
    {tr : List (Event Op Val ε)} {b : β} :
    Runs ((ofExcept x).bind f) tr (.ok b) ↔ ∃ a, x = .ok a ∧ Runs (f a) tr (.ok b) := by
  cases x <;> simp [ofExcept]

theorem runs_finallyDo_bind {p : Prog Op Val ε α} {q : Prog Op Val ε Unit}
    {f : α → Prog Op Val ε β} {tr : List (Event Op Val ε)} {b : β} :
    Runs ((p.finallyDo q).bind f) tr (.ok b) ↔
      Runs (p.bind (fun a => q.bind (fun _ => f a))) tr (.ok b) := by
  rw [runs_bind_ok, runs_bind_ok]
  constructor
  · rintro ⟨a, t₁, t₂, rfl, h₁, h₂⟩
    obtain ⟨t₃, t₄, rfl, h₃, h₄⟩ := runs_finallyDo_ok.mp h₁
    refine ⟨a, t₃, t₄ ++ t₂, by simp, h₃, ?_⟩
    exact runs_bind_ok.mpr ⟨(), t₄, t₂, rfl, h₄, h₂⟩
  · rintro ⟨a, t₁, t₂, rfl, h₁, h₂⟩
    obtain ⟨⟨⟩, t₃, t₄, rfl, h₃, h₄⟩ := runs_bind_ok.mp h₂
    refine ⟨a, t₁ ++ t₃, t₄, by simp, ?_, h₄⟩
    exact runs_finallyDo_ok.mpr ⟨t₁, t₃, rfl, h₁, h₃⟩

theorem not_runs_bind_raise {p : Prog Op Val ε α} {e : ε} {tr : List (Event Op Val ε)} {b : β} :
    ¬ Runs (p.bind (fun _ => .raise e)) tr (.ok b) := by
  intro h
  obtain ⟨_, _, _, _, _, h⟩ := runs_bind_ok.mp h
  simp at h

/-- A handler that only throws does not change the runs that return. -/
theorem runs_handle_ok {p : Prog Op Val ε α} {h : ε → Prog Op Val ε α}
    {tr : List (Event Op Val ε)} {a : α} (hh : ∀ e t a, ¬ Runs (h e) t (.ok a)) :
    Runs (p.handle h) tr (.ok a) ↔ Runs p tr (.ok a) := by
  rw [runs_handle]
  refine ⟨fun hr => ?_, fun hr => .inl ⟨a, rfl, hr⟩⟩
  rcases hr with ⟨a', ha, hr⟩ | ⟨e, t₁, t₂, -, -, hr⟩
  · cases ha
    exact hr
  · exact absurd hr (hh e t₂ a)

theorem runs_handle_bind {p : Prog Op Val ε α} {h : ε → Prog Op Val ε α}
    {f : α → Prog Op Val ε β} {tr : List (Event Op Val ε)} {b : β}
    (hh : ∀ e t a, ¬ Runs (h e) t (.ok a)) :
    Runs ((p.handle h).bind f) tr (.ok b) ↔ Runs (p.bind f) tr (.ok b) := by
  rw [runs_bind_ok, runs_bind_ok]
  simp only [runs_handle_ok hh]

/-! ## Answering from the history -/

/-- Run `p` with every call answered by `answer` from the calls made so far. -/
def exec (answer : List (Event Op Val ε) → (o : Op) → Except ε (Val o)) :
    Prog Op Val ε α → List (Event Op Val ε) → Except ε α × List (Event Op Val ε)
  | .ret a, _ => (.ok a, [])
  | .raise e, _ => (.error e, [])
  | .call o k, h =>
    let r := answer h o
    let rest := exec answer (k r) (h ++ [⟨o, r⟩])
    (rest.1, ⟨o, r⟩ :: rest.2)

theorem runs_exec (answer : List (Event Op Val ε) → (o : Op) → Except ε (Val o)) :
    ∀ (p : Prog Op Val ε α) (h : List (Event Op Val ε)),
      Runs p (exec answer p h).2 (exec answer p h).1
  | .ret a, _ => .ret a
  | .raise e, _ => .raise e
  | .call o k, h => .call o k _ (runs_exec answer (k (answer h o)) _)

theorem exec_invoke (answer : List (Event Op Val ε) → (o : Op) → Except ε (Val o)) (o : Op)
    (h : List (Event Op Val ε)) :
    exec answer (invoke o) h = (answer h o, [⟨o, answer h o⟩]) := by
  unfold invoke exec
  cases answer h o <;> rfl

/-- The first part runs, and the second after it if it returned. -/
theorem exec_bind (answer : List (Event Op Val ε) → (o : Op) → Except ε (Val o))
    (p : Prog Op Val ε α) (f : α → Prog Op Val ε β) (h : List (Event Op Val ε)) :
    exec answer (p.bind f) h =
      match exec answer p h with
      | (.ok a, t) => ((exec answer (f a) (h ++ t)).1, t ++ (exec answer (f a) (h ++ t)).2)
      | (.error e, t) => (.error e, t) := by
  induction p generalizing h with
  | ret a => simp [exec]
  | raise e => rfl
  | call o k ih =>
    simp only [bind_call, exec, ih]
    generalize exec answer (k (answer h o)) (h ++ [⟨o, answer h o⟩]) = x
    obtain ⟨e | a, t⟩ := x
    · rfl
    · simp

/-- Run `p` with every call answered by `answer`, whatever was called before it: the outcome,
and the calls. -/
def eval (answer : (o : Op) → Except ε (Val o)) : Prog Op Val ε α → Except ε α × List Op
  | .ret a => (.ok a, [])
  | .raise e => (.error e, [])
  | .call o k => ((eval answer (k (answer o))).1, o :: (eval answer (k (answer o))).2)

theorem runs_eval (answer : (o : Op) → Except ε (Val o)) (p : Prog Op Val ε α) :
    Runs p ((eval answer p).2.map (fun o => ⟨o, answer o⟩)) (eval answer p).1 := by
  induction p with
  | ret a => exact .ret a
  | raise e => exact .raise e
  | call o k ih => exact .call o k _ (ih (answer o))

@[simp] theorem eval_ret (answer : (o : Op) → Except ε (Val o)) (a : α) :
    eval answer (.ret a) = (.ok a, []) := rfl

theorem eval_invoke (answer : (o : Op) → Except ε (Val o)) (o : Op) :
    eval answer (invoke o) = (answer o, [o]) := by
  unfold invoke eval
  cases answer o <;> rfl

/-- The first part returns, and the second runs after it. -/
theorem eval_bind {answer : (o : Op) → Except ε (Val o)} {p : Prog Op Val ε α}
    {f : α → Prog Op Val ε β} {a : α} {calls : List Op} (h : eval answer p = (.ok a, calls)) :
    eval answer (p.bind f) = ((eval answer (f a)).1, calls ++ (eval answer (f a)).2) := by
  induction p generalizing calls with
  | ret b =>
    cases h
    rfl
  | raise e => cases h
  | call o k ih =>
    simp only [eval, Prod.mk.injEq] at h
    obtain ⟨hout, rfl⟩ := h
    simp only [bind_call, eval, ih (answer o) (Prod.ext hout rfl), List.cons_append]

/-! ## The values a program can return -/

/-- Every value `p` can return, whatever the answers, satisfies `P`. -/
def Returns (P : α → Prop) : Prog Op Val ε α → Prop
  | .ret a => P a
  | .raise _ => True
  | .call _ k => ∀ r, (k r).Returns P

@[simp] theorem returns_ret {P : α → Prop} {a : α} :
    (.ret a : Prog Op Val ε α).Returns P ↔ P a := Iff.rfl

@[simp] theorem returns_raise {P : α → Prop} {e : ε} :
    (.raise e : Prog Op Val ε α).Returns P ↔ True := Iff.rfl

theorem returns_invoke {o : Op} {P : Val o → Prop} :
    (invoke o : Prog Op Val ε (Val o)).Returns P ↔ ∀ v, P v := by
  refine ⟨fun h v => h (.ok v), fun h r => ?_⟩
  cases r with
  | ok v => exact h v
  | error e => trivial

theorem returns_bind {P : β → Prop} {p : Prog Op Val ε α} {f : α → Prog Op Val ε β} :
    (p.bind f).Returns P ↔ p.Returns (fun a => (f a).Returns P) := by
  induction p with
  | ret a => rfl
  | raise e => rfl
  | call o k ih => exact forall_congr' ih

theorem Returns.mono {P Q : α → Prop} {p : Prog Op Val ε α} (hp : p.Returns P)
    (h : ∀ a, P a → Q a) : p.Returns Q := by
  induction p with
  | ret a => exact h a hp
  | raise e => trivial
  | call o k ih => exact fun r => ih r (hp r)

theorem returns_true (p : Prog Op Val ε α) : p.Returns (fun _ => True) := by
  induction p with
  | ret a => trivial
  | raise e => trivial
  | call o k ih => exact ih

theorem Returns.and {P Q : α → Prop} {p : Prog Op Val ε α} (hp : p.Returns P)
    (hq : p.Returns Q) : p.Returns (fun a => P a ∧ Q a) := by
  induction p with
  | ret a => exact ⟨hp, hq⟩
  | raise e => trivial
  | call o k ih => exact fun r => ih r (hp r) (hq r)

theorem Returns.of_runs {P : α → Prop} {p : Prog Op Val ε α} {tr : List (Event Op Val ε)}
    {a : α} (hp : p.Returns P) (hr : Runs p tr (.ok a)) : P a := by
  generalize hout : Except.ok a = out at hr
  induction hr with
  | ret b =>
    cases hout
    exact hp
  | raise e => cases hout
  | call o k r _ ih => exact ih (hp r) hout

/-- Only the values that `p` can return matter for what follows it. -/
theorem bind_congr_of_returns {p : Prog Op Val ε α} {f g : α → Prog Op Val ε β}
    (h : p.Returns (fun a => f a = g a)) : p.bind f = p.bind g := by
  induction p with
  | ret a => exact h
  | raise e => rfl
  | call o k ih =>
    simp only [bind_call]
    congr 1
    funext r
    exact ih r (h r)

/-! ## The calls a program can make -/

/-- Every call `p` can make, whatever the answers, satisfies `P`. -/
def Uses (P : Op → Prop) : Prog Op Val ε α → Prop
  | .ret _ => True
  | .raise _ => True
  | .call o k => P o ∧ ∀ r, (k r).Uses P

namespace Uses

variable {P : Op → Prop}

theorem ret (a : α) : (Prog.ret a : Prog Op Val ε α).Uses P := trivial

theorem invoke {o : Op} (h : P o) : (Prog.invoke o : Prog Op Val ε (Val o)).Uses P := by
  refine ⟨h, fun r => ?_⟩
  cases r <;> trivial

theorem ofExcept (x : Except ε α) : (Prog.ofExcept x : Prog Op Val ε α).Uses P := by
  cases x <;> trivial

theorem bind {p : Prog Op Val ε α} {f : α → Prog Op Val ε β} (hp : p.Uses P)
    (hf : ∀ a, (f a).Uses P) : (p.bind f).Uses P := by
  induction p with
  | ret a => exact hf a
  | raise e => trivial
  | call o k ih => exact ⟨hp.1, fun r => ih r (hp.2 r)⟩

/-- Only the values that `p` can return go on. -/
theorem bind_of_returns {p : Prog Op Val ε α} {f : α → Prog Op Val ε β} {Q : α → Prop}
    (hp : p.Uses P) (hr : p.Returns Q) (hf : ∀ a, Q a → (f a).Uses P) : (p.bind f).Uses P := by
  induction p with
  | ret a => exact hf a hr
  | raise e => trivial
  | call o k ih => exact ⟨hp.1, fun r => ih r (hp.2 r) (hr r)⟩

theorem handle {p : Prog Op Val ε α} {h : ε → Prog Op Val ε α} (hp : p.Uses P)
    (hh : ∀ e, (h e).Uses P) : (p.handle h).Uses P := by
  induction p with
  | ret a => trivial
  | raise e => exact hh e
  | call o k ih => exact ⟨hp.1, fun r => ih r (hp.2 r)⟩

theorem finallyDo {p : Prog Op Val ε α} {q : Prog Op Val ε Unit} (hp : p.Uses P) (hq : q.Uses P) :
    (p.finallyDo q).Uses P :=
  bind (handle (bind hp (fun _ => trivial)) (fun _ => trivial))
    (fun r => bind hq (fun _ => ofExcept r))

theorem mono {Q : Op → Prop} {p : Prog Op Val ε α} (hp : p.Uses P) (h : ∀ o, P o → Q o) :
    p.Uses Q := by
  induction p with
  | ret a => trivial
  | raise e => trivial
  | call o k ih => exact ⟨h o hp.1, fun r => ih r (hp.2 r)⟩

/-- Every call in a run of `p` is one `p` can make. -/
theorem of_runs {p : Prog Op Val ε α} {tr : List (Event Op Val ε)} {out : Except ε α}
    (hr : Runs p tr out) (hp : p.Uses P) : ∀ ev ∈ tr, P ev.op := by
  induction hr with
  | ret a => simp
  | raise e => simp
  | call o k r _ ih =>
    intro ev hev
    rcases List.mem_cons.mp hev with rfl | hev
    · exact hp.1
    · exact ih (hp.2 r) ev hev

/-- A run with a call that the first part does not make got past the first part. -/
theorem runs_bind_mem {p : Prog Op Val ε α} {f : α → Prog Op Val ε β} {tr : List (Event Op Val ε)}
    {out : Except ε β} {ev : Event Op Val ε} (hp : p.Uses P) (h : Runs (p.bind f) tr out)
    (hev : ev ∈ tr) (hnot : ¬ P ev.op) :
    ∃ a t₁ t₂, tr = t₁ ++ t₂ ∧ Runs p t₁ (.ok a) ∧ Runs (f a) t₂ out ∧ ev ∈ t₂ := by
  obtain ⟨r, t₁, t₂, rfl, h₁, h₂⟩ := runs_bind_inv h
  rcases List.mem_append.mp hev with hfirst | hsecond
  · exact absurd (hp.of_runs h₁ ev hfirst) hnot
  · cases r with
    | ok a => exact ⟨a, t₁, t₂, rfl, h₁, h₂, hsecond⟩
    | error e =>
      rw [h₂.1] at hsecond
      exact absurd hsecond List.not_mem_nil

/-- A call that the second part does not make is one of the first part. -/
theorem runs_bind_mem_first {p : Prog Op Val ε α} {f : α → Prog Op Val ε β}
    {tr : List (Event Op Val ε)} {out : Except ε β} {ev : Event Op Val ε}
    (hf : ∀ a, (f a).Uses P) (h : Runs (p.bind f) tr out) (hev : ev ∈ tr) (hnot : ¬ P ev.op) :
    ∃ r t₁ t₂, tr = t₁ ++ t₂ ∧ Runs p t₁ r ∧ ev ∈ t₁ := by
  obtain ⟨r, t₁, t₂, rfl, h₁, h₂⟩ := runs_bind_inv h
  refine ⟨r, t₁, t₂, rfl, h₁, (List.mem_append.mp hev).resolve_right (fun hsecond => ?_)⟩
  cases r with
  | ok a => exact hnot ((hf a).of_runs h₂ ev hsecond)
  | error e =>
    rw [h₂.1] at hsecond
    exact List.not_mem_nil hsecond

theorem runs_ofExcept_bind_mem {x : Except ε α} {f : α → Prog Op Val ε β}
    {tr : List (Event Op Val ε)} {out : Except ε β} {ev : Event Op Val ε}
    (h : Runs ((Prog.ofExcept x).bind f) tr out) (hev : ev ∈ tr) :
    ∃ a, x = .ok a ∧ Runs (f a) tr out := by
  cases x with
  | ok a => exact ⟨a, rfl, h⟩
  | error e =>
    rw [(runs_raise.mp h).1] at hev
    exact absurd hev List.not_mem_nil

/-- A call that the handler does not make is one of the body. -/
theorem runs_handle_mem {p : Prog Op Val ε α} {h : ε → Prog Op Val ε α}
    {tr : List (Event Op Val ε)} {out : Except ε α} {ev : Event Op Val ε}
    (hh : ∀ e, (h e).Uses P) (hr : Runs (p.handle h) tr out) (hev : ev ∈ tr) (hnot : ¬ P ev.op) :
    ∃ r t₁ t₂, tr = t₁ ++ t₂ ∧ Runs p t₁ r ∧ ev ∈ t₁ := by
  rcases runs_handle.mp hr with ⟨a, -, hrun⟩ | ⟨e, t₁, t₂, rfl, h₁, h₂⟩
  · exact ⟨.ok a, tr, [], (List.append_nil tr).symm, hrun, hev⟩
  · rcases List.mem_append.mp hev with hbody | hhandler
    · exact ⟨.error e, t₁, t₂, rfl, h₁, hbody⟩
    · exact absurd ((hh e).of_runs h₂ ev hhandler) hnot

theorem runs_finallyDo_mem {p : Prog Op Val ε α} {q : Prog Op Val ε Unit}
    {tr : List (Event Op Val ε)} {out : Except ε α} {ev : Event Op Val ε} (hq : q.Uses P)
    (hr : Runs (p.finallyDo q) tr out) (hev : ev ∈ tr) (hnot : ¬ P ev.op) :
    ∃ r t₁ t₂, tr = t₁ ++ t₂ ∧ Runs p t₁ r ∧ ev ∈ t₁ := by
  obtain ⟨r, t₁, t₂, rfl, h₁, h₂⟩ := runs_finallyDo_inv hr
  refine ⟨r, t₁, t₂, rfl, h₁, (List.mem_append.mp hev).resolve_right (fun hfinal => ?_)⟩
  exact hnot ((hq.bind (fun _ => ofExcept r)).of_runs h₂ ev hfinal)

end Uses
end Prog
end Effects
