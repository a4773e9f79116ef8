import TransparentCa.Lib.Prog

/- Which exception a program ends with. A program is `Unmasked` if it never swallows the
   exception of a call: whenever a call of a run has failed, the run ends with the exception
   of the last one that did. Then a run that returns had no failing call, and one that throws
   without a failing call (a quiet one) throws an exception of the program's own. `Plain`
   programs have none of their own and stop at the first call that fails. -/
namespace Effects

variable {Op : Type} {Val : Op → Type} {ε α β : Type}

/-- The calls that failed, with their exceptions. -/
def failures (tr : List (Event Op Val ε)) : List (Op × ε) :=
  tr.filterMap (fun ev => match ev.ans with
    | .ok _ => none
    | .error e => some (ev.op, e))

@[simp] theorem failures_nil : failures ([] : List (Event Op Val ε)) = [] := rfl

@[simp] theorem failures_cons_ok (o : Op) (v : Val o) (tr : List (Event Op Val ε)) :
    failures (⟨o, .ok v⟩ :: tr) = failures tr := rfl

@[simp] theorem failures_cons_error (o : Op) (e : ε) (tr : List (Event Op Val ε)) :
    failures (⟨o, .error e⟩ :: tr) = (o, e) :: failures tr := rfl

@[simp] theorem failures_append (t₁ t₂ : List (Event Op Val ε)) :
    failures (t₁ ++ t₂) = failures t₁ ++ failures t₂ :=
  List.filterMap_append

/-- A failing call is one of the calls made. -/
theorem mem_of_mem_failures {tr : List (Event Op Val ε)} {o : Op} {e : ε}
    (h : (o, e) ∈ failures tr) : (⟨o, .error e⟩ : Event Op Val ε) ∈ tr := by
  induction tr with
  | nil => cases h
  | cons ev tr ih =>
    obtain ⟨o', r⟩ := ev
    cases r with
    | ok v => exact List.mem_cons_of_mem _ (ih h)
    | error e' =>
      rcases List.mem_cons.mp h with heq | h
      · cases heq
        exact List.mem_cons_self
      · exact List.mem_cons_of_mem _ (ih h)

def lastFailure (tr : List (Event Op Val ε)) : Option (Op × ε) := (failures tr).getLast?

theorem lastFailure_eq_none {tr : List (Event Op Val ε)} :
    lastFailure tr = none ↔ failures tr = [] :=
  List.getLast?_eq_none_iff

theorem lastFailure_append (t₁ t₂ : List (Event Op Val ε)) :
    lastFailure (t₁ ++ t₂) = (lastFailure t₂).or (lastFailure t₁) := by
  unfold lastFailure
  rw [failures_append, List.getLast?_append]

/-! ## What is asked of every call and the calls before it -/

theorem forall_split_nil {C : List α → α → Prop} :
    ∀ earlier a later, ([] : List α) = earlier ++ a :: later → C earlier a := by
  intro earlier a later h
  cases (List.append_eq_nil_iff.mp h.symm).2

theorem forall_split_snoc {C : List α → α → Prop} {l : List α} {a : α} :
    (∀ earlier b later, l ++ [a] = earlier ++ b :: later → C earlier b) ↔
      (∀ earlier b later, l = earlier ++ b :: later → C earlier b) ∧ C l a := by
  constructor
  · intro h
    refine ⟨fun earlier b later hl => ?_, h l a [] rfl⟩
    exact h earlier b (later ++ [a]) (by rw [hl]; simp)
  · rintro ⟨hl, ha⟩ earlier b later h
    rcases List.eq_nil_or_concat later with rfl | ⟨later', last, rfl⟩
    · obtain ⟨rfl, heq⟩ := List.append_inj' h rfl
      obtain rfl := (List.cons.inj heq).1
      exact ha
    · rw [List.concat_eq_append, ← List.cons_append, ← List.append_assoc] at h
      exact hl earlier b later' (List.append_inj' h rfl).1

namespace Prog

/-! ## Programs that swallow no exception -/

def Unmasked (p : Prog Op Val ε α) : Prop :=
  ∀ tr out, Runs p tr out → ∀ o e, lastFailure tr = some (o, e) → out = .error e

/-- Every exception is one of a call's. -/
def Sourced (p : Prog Op Val ε α) : Prop :=
  ∀ tr e, Runs p tr (.error e) → failures tr ≠ []

theorem sourced_invoke (o : Op) : Sourced (invoke o : Prog Op Val ε (Val o)) := by
  intro tr e h
  rw [runs_invoke.mp h]
  exact List.cons_ne_nil _ _

theorem Unmasked.quiet {p : Prog Op Val ε α} (hp : Unmasked p) {tr : List (Event Op Val ε)}
    {a : α} (h : Runs p tr (.ok a)) : failures tr = [] := by
  rw [← lastFailure_eq_none]
  cases hlast : lastFailure tr with
  | none => rfl
  | some f => cases hp tr _ h f.1 f.2 hlast

namespace Unmasked

theorem ret (a : α) : Unmasked (.ret a : Prog Op Val ε α) := by
  intro tr out h o e hlast
  rw [(runs_ret.mp h).1] at hlast
  cases hlast

theorem raise (e : ε) : Unmasked (.raise e : Prog Op Val ε α) := by
  intro tr out h o e hlast
  rw [(runs_raise.mp h).1] at hlast
  cases hlast

theorem ofExcept (x : Except ε α) : Unmasked (Prog.ofExcept x : Prog Op Val ε α) := by
  cases x with
  | ok a => exact ret a
  | error e => exact raise e

theorem invoke (o : Op) : Unmasked (Prog.invoke o : Prog Op Val ε (Val o)) := by
  intro tr out h o' e hlast
  rw [runs_invoke.mp h] at hlast
  cases out with
  | ok v => cases hlast
  | error e' =>
    obtain ⟨-, rfl⟩ := Prod.mk.inj (Option.some.inj hlast)
    rfl

/-- The second part is only needed for what the first one returns. -/
theorem bind_of_returns {p : Prog Op Val ε α} {f : α → Prog Op Val ε β} {Q : α → Prop}
    (hp : Unmasked p) (hr : p.Returns Q) (hf : ∀ a, Q a → Unmasked (f a)) :
    Unmasked (p.bind f) := by
  intro tr out h o e hlast
  obtain ⟨r, t₁, t₂, rfl, h₁, h₂⟩ := runs_bind_inv h
  rw [lastFailure_append] at hlast
  cases r with
  | ok a =>
    rw [lastFailure_eq_none.mpr (hp.quiet h₁), Option.or_none] at hlast
    exact hf a (hr.of_runs h₁) t₂ out h₂ o e hlast
  | error e' =>
    obtain ⟨rfl, rfl⟩ := h₂
    cases hp t₁ _ h₁ o e hlast
    rfl

theorem bind {p : Prog Op Val ε α} {f : α → Prog Op Val ε β} (hp : Unmasked p)
    (hf : ∀ a, Unmasked (f a)) : Unmasked (p.bind f) :=
  bind_of_returns hp (returns_true p) (fun a _ => hf a)

/-- A handler that throws the same exception again, unless one of its own calls fails. -/
theorem handle {p : Prog Op Val ε α} {h : ε → Prog Op Val ε α} (hp : Unmasked p)
    (hh : ∀ e, Unmasked (h e))
    (hagain : ∀ e tr out, Runs (h e) tr out → failures tr = [] → out = .error e) :
    Unmasked (p.handle h) := by
  intro tr out hrun o e hlast
  rcases runs_handle.mp hrun with ⟨a, rfl, hbody⟩ | ⟨e', t₁, t₂, rfl, hbody, hhandler⟩
  · cases hp tr _ hbody o e hlast
  · rw [lastFailure_append] at hlast
    cases hlast₂ : lastFailure t₂ with
    | some f =>
      rw [hlast₂] at hlast
      cases hlast
      exact hh e' t₂ out hhandler o e hlast₂
    | none =>
      rw [hlast₂, Option.none_or] at hlast
      cases hp t₁ _ hbody o e hlast
      exact hagain e t₂ out hhandler (lastFailure_eq_none.mp hlast₂)

/-- Around a part without calls any handler will do. -/
theorem handle_ofExcept {x : Except ε α} {h : ε → Prog Op Val ε α} (hh : ∀ e, Unmasked (h e)) :
    Unmasked ((Prog.ofExcept x).handle h) := by
  cases x with
  | ok a => exact ret a
  | error e => exact hh e

theorem finallyDo {p : Prog Op Val ε α} {q : Prog Op Val ε Unit} (hp : Unmasked p)
    (hq : Unmasked q) (hsourced : Sourced q) : Unmasked (p.finallyDo q) := by
  intro tr out h o e hlast
  obtain ⟨r, t₁, t₂, rfl, h₁, h₂⟩ := runs_finallyDo_inv h
  rw [lastFailure_append] at hlast
  cases hlast₂ : lastFailure t₂ with
  | some f =>
    rw [hlast₂] at hlast
    cases hlast
    exact hq.bind (fun _ => ofExcept r) t₂ out h₂ o e hlast₂
  | none =>
    rw [hlast₂, Option.none_or] at hlast
    cases hp t₁ r h₁ o e hlast
    -- The finalizer returned, so the body's exception goes on.
    obtain ⟨r', u₁, u₂, rfl, hu₁, hu₂⟩ := runs_bind_inv h₂
    cases r' with
    | ok v => exact (runs_ofExcept.mp hu₂).2
    | error e' =>
      have hquiet := lastFailure_eq_none.mp hlast₂
      rw [failures_append, List.append_eq_nil_iff] at hquiet
      exact absurd hquiet.1 (hsourced u₁ e' hu₁)

end Unmasked

/-! ## Programs that only make calls -/

/-- All calls return and the program does, or the first one that fails ends it. -/
def Plain (p : Prog Op Val ε α) : Prop :=
  ∀ tr out, Runs p tr out → match out with
    | .ok _ => failures tr = []
    | .error e => ∃ o, failures tr = [(o, e)]

namespace Plain

theorem ret (a : α) : Plain (.ret a : Prog Op Val ε α) := by
  intro tr out h
  obtain ⟨rfl, rfl⟩ := runs_ret.mp h
  rfl

theorem invoke (o : Op) : Plain (Prog.invoke o : Prog Op Val ε (Val o)) := by
  intro tr out h
  rw [runs_invoke.mp h]
  cases out with
  | ok v => rfl
  | error e => exact ⟨o, rfl⟩

theorem bind {p : Prog Op Val ε α} {f : α → Prog Op Val ε β} (hp : Plain p)
    (hf : ∀ a, Plain (f a)) : Plain (p.bind f) := by
  intro tr out h
  obtain ⟨r, t₁, t₂, rfl, h₁, h₂⟩ := runs_bind_inv h
  have hfirst := hp t₁ r h₁
  rw [failures_append]
  cases r with
  | ok a =>
    rw [show failures t₁ = [] from hfirst]
    exact hf a t₂ out h₂
  | error e =>
    obtain ⟨rfl, rfl⟩ := h₂
    rw [failures_nil, List.append_nil]
    exact hfirst

end Plain

/-! ## Runs in which no call fails -/

/-- After the calls `hist`, a run of `p` in which no call fails ends as `Q` says of all the
calls made by then. -/
def Quietly (p : Prog Op Val ε α) (hist : List (Event Op Val ε))
    (Q : List (Event Op Val ε) → Except ε α → Prop) : Prop :=
  ∀ tr out, Runs p tr out → failures tr = [] → Q (hist ++ tr) out

namespace Quietly

variable {hist : List (Event Op Val ε)}

theorem ret {a : α} {Q : List (Event Op Val ε) → Except ε α → Prop} (h : Q hist (.ok a)) :
    Quietly (.ret a) hist Q := by
  intro tr out hrun _
  obtain ⟨rfl, rfl⟩ := runs_ret.mp hrun
  rwa [List.append_nil]

theorem raise {e : ε} {Q : List (Event Op Val ε) → Except ε α → Prop} (h : Q hist (.error e)) :
    Quietly (.raise e) hist Q := by
  intro tr out hrun _
  obtain ⟨rfl, rfl⟩ := runs_raise.mp hrun
  rwa [List.append_nil]

theorem ofExcept {x : Except ε α} {Q : List (Event Op Val ε) → Except ε α → Prop}
    (h : Q hist x) : Quietly (Prog.ofExcept x) hist Q := by
  cases x with
  | ok a => exact ret h
  | error e => exact raise h

theorem invoke {o : Op} {Q : List (Event Op Val ε) → Except ε (Val o) → Prop}
    (h : ∀ v, Q (hist ++ [⟨o, .ok v⟩]) (.ok v)) : Quietly (Prog.invoke o) hist Q := by
  intro tr out hrun hquiet
  rw [runs_invoke] at hrun
  subst hrun
  cases out with
  | ok v => exact h v
  | error e => cases hquiet

theorem mono {p : Prog Op Val ε α} {Q Q' : List (Event Op Val ε) → Except ε α → Prop}
    (hp : Quietly p hist Q) (h : ∀ hist' r, Q hist' r → Q' hist' r) : Quietly p hist Q' :=
  fun tr out hrun hquiet => h _ _ (hp tr out hrun hquiet)

theorem bind {p : Prog Op Val ε α} {f : α → Prog Op Val ε β}
    {Q : List (Event Op Val ε) → Except ε β → Prop}
    (h : Quietly p hist (fun hist' r => match r with
      | .ok a => Quietly (f a) hist' Q
      | .error e => Q hist' (.error e))) : Quietly (p.bind f) hist Q := by
  intro tr out hrun hquiet
  obtain ⟨r, t₁, t₂, rfl, h₁, h₂⟩ := runs_bind_inv hrun
  rw [failures_append, List.append_eq_nil_iff] at hquiet
  have hfirst := h t₁ r h₁ hquiet.1
  cases r with
  | ok a =>
    rw [← List.append_assoc]
    exact hfirst t₂ out h₂ hquiet.2
  | error e =>
    obtain ⟨rfl, rfl⟩ := h₂
    rw [List.append_nil]
    exact hfirst

theorem handle {p : Prog Op Val ε α} {g : ε → Prog Op Val ε α}
    {Q : List (Event Op Val ε) → Except ε α → Prop}
    (h : Quietly p hist (fun hist' r => match r with
      | .ok a => Q hist' (.ok a)
      | .error e => Quietly (g e) hist' Q)) : Quietly (p.handle g) hist Q := by
  intro tr out hrun hquiet
  rcases runs_handle.mp hrun with ⟨a, rfl, hbody⟩ | ⟨e, t₁, t₂, rfl, h₁, h₂⟩
  · exact h tr (.ok a) hbody hquiet
  · rw [failures_append, List.append_eq_nil_iff] at hquiet
    rw [← List.append_assoc]
    exact h t₁ (.error e) h₁ hquiet.1 t₂ out h₂ hquiet.2

theorem finallyDo {p : Prog Op Val ε α} {q : Prog Op Val ε Unit}
    {Q : List (Event Op Val ε) → Except ε α → Prop}
    (h : Quietly p hist (fun hist' r => Quietly (q.bind (fun _ => Prog.ofExcept r)) hist' Q)) :
    Quietly (p.finallyDo q) hist Q := by
  intro tr out hrun hquiet
  obtain ⟨r, t₁, t₂, rfl, h₁, h₂⟩ := runs_finallyDo_inv hrun
  rw [failures_append, List.append_eq_nil_iff] at hquiet
  rw [← List.append_assoc]
  exact h t₁ r h₁ hquiet.1 t₂ out h₂ hquiet.2

theorem invoke_bind {o : Op} {f : Val o → Prog Op Val ε β}
    {Q : List (Event Op Val ε) → Except ε β → Prop}
    (h : ∀ v, Quietly (f v) (hist ++ [⟨o, .ok v⟩]) Q) :
    Quietly (Prog.bind (α := no_index Val o) (Prog.invoke o) f) hist Q :=
  bind (invoke h)

theorem ofExcept_bind {x : Except ε α} {f : α → Prog Op Val ε β}
    {Q : List (Event Op Val ε) → Except ε β → Prop} (herror : ∀ e, x = .error e → Q hist (.error e))
    (hok : ∀ a, x = .ok a → Quietly (f a) hist Q) :
    Quietly ((Prog.ofExcept x).bind f) hist Q := by
  cases x with
  | ok a => exact hok a rfl
  | error e => exact raise (herror e rfl)

end Quietly
end Prog
end Effects
