import TransparentCa.Lib.Interleave

/- Calls answered by programs. `p.interp f` runs `p` with every call `o` of it replaced by
   the program `f o` over other calls: an exception of `f o` is the answer of the call, so
   that `p` can handle it. Interpretation goes through `bind`, `handle` and `finallyDo`,
   and a run of `p.interp f` is a run of `p` with each event spelled out as a run of the
   program that answered it (`runs_interp`). -/
namespace Effects.Prog

variable {Op Op' : Type} {Val : Op → Type} {Val' : Op' → Type} {ε α β : Type}

/-- The outcome of `p` as a value. -/
def attempt (p : Prog Op Val ε α) : Prog Op Val ε (Except ε α) :=
  (p.bind (fun a => .ret (.ok a))).handle (fun e => .ret (.error e))

@[simp] theorem attempt_ret (a : α) : (Prog.ret a : Prog Op Val ε α).attempt = .ret (.ok a) := rfl
@[simp] theorem attempt_raise (e : ε) :
    (Prog.raise e : Prog Op Val ε α).attempt = .ret (.error e) := rfl
@[simp] theorem attempt_call (o : Op) (k : Except ε (Val o) → Prog Op Val ε α) :
    (Prog.call o k).attempt = .call o (fun r => (k r).attempt) := rfl

theorem attempt_bind_ofExcept (p : Prog Op Val ε α) : p.attempt.bind ofExcept = p := by
  induction p with
  | ret a => rfl
  | raise e => rfl
  | call o k ih =>
    simp only [attempt_call, bind]
    congr 1
    funext r
    exact ih r

/-- An attempt does not throw, so a handler around it only sees the rest. -/
theorem attempt_bind_handle (p : Prog Op Val ε α) (g : Except ε α → Prog Op Val ε β)
    (h : ε → Prog Op Val ε β) :
    (p.attempt.bind g).handle h = p.attempt.bind (fun r => (g r).handle h) := by
  induction p with
  | ret a => rfl
  | raise e => rfl
  | call o k ih =>
    simp only [attempt_call, bind, handle]
    congr 1
    funext r
    exact ih r

theorem runs_attempt {p : Prog Op Val ε α} {tr : List (Event Op Val ε)}
    {out : Except ε (Except ε α)} :
    Runs p.attempt tr out ↔ ∃ r, out = .ok r ∧ Runs p tr r := by
  induction p generalizing tr with
  | ret a =>
    rw [attempt_ret, runs_ret]
    refine ⟨fun h => ⟨_, h.2, runs_ret.mpr ⟨h.1, rfl⟩⟩, fun h => ?_⟩
    obtain ⟨r, hout, hr⟩ := h
    obtain ⟨htr, rfl⟩ := runs_ret.mp hr
    exact ⟨htr, hout⟩
  | raise e =>
    rw [attempt_raise, runs_ret]
    refine ⟨fun h => ⟨_, h.2, runs_raise.mpr ⟨h.1, rfl⟩⟩, fun h => ?_⟩
    obtain ⟨r, hout, hr⟩ := h
    obtain ⟨htr, rfl⟩ := runs_raise.mp hr
    exact ⟨htr, hout⟩
  | call o k ih =>
    simp only [attempt_call, runs_call, ih]
    refine ⟨fun h => ?_, fun h => ?_⟩
    · obtain ⟨v, t, rfl, r, hout, hr⟩ := h
      exact ⟨r, hout, v, t, rfl, hr⟩
    · obtain ⟨r, hout, v, t, rfl, hr⟩ := h
      exact ⟨v, t, rfl, r, hout, hr⟩

/-! ## Interpretation -/

/-- `p` with each call answered by the program `f` gives for it. -/
def interp (f : (o : Op) → Prog Op' Val' ε (Val o)) : Prog Op Val ε α → Prog Op' Val' ε α
  | .ret a => .ret a
  | .raise e => .raise e
  | .call o k => (f o).attempt.bind (fun r => (k r).interp f)

section
variable (f : (o : Op) → Prog Op' Val' ε (Val o))

@[simp] theorem interp_ret (a : α) : (Prog.ret a : Prog Op Val ε α).interp f = .ret a := rfl
@[simp] theorem interp_raise (e : ε) :
    (Prog.raise e : Prog Op Val ε α).interp f = .raise e := rfl

@[simp] theorem interp_invoke (o : Op) : (Prog.invoke o).interp f = f o := by
  refine Eq.trans ?_ (attempt_bind_ofExcept (f o))
  show (f o).attempt.bind _ = (f o).attempt.bind ofExcept
  congr 1
  funext r
  cases r <;> rfl

@[simp] theorem interp_ofExcept (x : Except ε α) :
    (Prog.ofExcept x : Prog Op Val ε α).interp f = ofExcept x := by
  cases x <;> rfl

@[simp] theorem interp_bind (p : Prog Op Val ε α) (g : α → Prog Op Val ε β) :
    (p.bind g).interp f = (p.interp f).bind (fun a => (g a).interp f) := by
  induction p with
  | ret a => rfl
  | raise e => rfl
  | call o k ih =>
    simp only [bind, interp, ih]
    exact (bind_assoc _ _ _).symm

@[simp] theorem interp_handle (p : Prog Op Val ε α) (h : ε → Prog Op Val ε α) :
    (p.handle h).interp f = (p.interp f).handle (fun e => (h e).interp f) := by
  induction p with
  | ret a => rfl
  | raise e => rfl
  | call o k ih =>
    simp only [handle, interp, ih]
    exact (attempt_bind_handle _ _ _).symm

@[simp] theorem interp_finallyDo (p : Prog Op Val ε α) (q : Prog Op Val ε Unit) :
    (p.finallyDo q).interp f = (p.interp f).finallyDo (q.interp f) := by
  simp [finallyDo]

end

/-! ## Runs of an interpreted program -/

/-- `tr` spells out the events of `tr₀`, each as a run of the program that answered it. -/
inductive Expands (f : (o : Op) → Prog Op' Val' ε (Val o)) :
    List (Event Op Val ε) → List (Event Op' Val' ε) → Prop where
  | nil : Expands f [] []
  | cons {o : Op} {r : Except ε (Val o)} {t : List (Event Op' Val' ε)}
      {tr₀ : List (Event Op Val ε)} {tr : List (Event Op' Val' ε)}
      (h : Runs (f o) t r) (ht : Expands f tr₀ tr) : Expands f (⟨o, r⟩ :: tr₀) (t ++ tr)

theorem runs_interp {f : (o : Op) → Prog Op' Val' ε (Val o)} {p : Prog Op Val ε α}
    {tr : List (Event Op' Val' ε)} {out : Except ε α} (h : Runs (p.interp f) tr out) :
    ∃ tr₀, Runs p tr₀ out ∧ Expands f tr₀ tr := by
  induction p generalizing tr with
  | ret a =>
    obtain ⟨rfl, rfl⟩ := runs_ret.mp h
    exact ⟨[], .ret a, .nil⟩
  | raise e =>
    obtain ⟨rfl, rfl⟩ := runs_raise.mp h
    exact ⟨[], .raise e, .nil⟩
  | call o k ih =>
    obtain ⟨answer, t₁, t₂, rfl, hanswer, h₂⟩ := runs_bind_inv h
    obtain ⟨r, rfl, h₁⟩ := runs_attempt.mp hanswer
    obtain ⟨tr₀, hrun, hexp⟩ := ih r h₂
    exact ⟨⟨o, r⟩ :: tr₀, .call o k r hrun, .cons h₁ hexp⟩

theorem Expands.of_append {f : (o : Op) → Prog Op' Val' ε (Val o)}
    {tr₁ tr₂ : List (Event Op Val ε)} {tr : List (Event Op' Val' ε)}
    (h : Expands f (tr₁ ++ tr₂) tr) :
    ∃ t₁ t₂, tr = t₁ ++ t₂ ∧ Expands f tr₁ t₁ ∧ Expands f tr₂ t₂ := by
  induction tr₁ generalizing tr with
  | nil => exact ⟨[], tr, rfl, .nil, h⟩
  | cons ev tr₁ ih =>
    cases h with
    | @cons o r t _ rest hrun hexp =>
      obtain ⟨t₁, t₂, rfl, h₁, h₂⟩ := ih hexp
      exact ⟨t ++ t₁, t₂, (List.append_assoc _ _ _).symm, .cons hrun h₁, h₂⟩

/-- Each event is spelled out somewhere. -/
theorem Expands.of_mem {f : (o : Op) → Prog Op' Val' ε (Val o)} {tr₀ : List (Event Op Val ε)}
    {tr : List (Event Op' Val' ε)} (h : Expands f tr₀ tr) {ev : Event Op Val ε} (hev : ev ∈ tr₀) :
    ∃ t, Runs (f ev.op) t ev.ans ∧ t <:+: tr := by
  induction h with
  | nil => exact absurd hev List.not_mem_nil
  | @cons o r t tr₀ tr hrun _ ih =>
    rcases List.mem_cons.mp hev with rfl | hev
    · exact ⟨t, hrun, (List.prefix_append t tr).isInfix⟩
    · obtain ⟨t', hrun', hpart⟩ := ih hev
      exact ⟨t', hrun', hpart.trans (List.suffix_append t tr).isInfix⟩

/-- The calls in the expansion are calls of the programs that answered. -/
theorem Expands.uses {f : (o : Op) → Prog Op' Val' ε (Val o)} {P : Op' → Prop}
    {tr₀ : List (Event Op Val ε)} {tr : List (Event Op' Val' ε)} (h : Expands f tr₀ tr)
    (hP : ∀ ev ∈ tr₀, (f ev.op).Uses P) : ∀ ev ∈ tr, P ev.op := by
  induction h with
  | nil => exact fun ev hev => absurd hev List.not_mem_nil
  | @cons o r t tr₀ tr hrun _ ih =>
    intro ev hev
    rcases List.mem_append.mp hev with hev | hev
    · exact (hP ⟨o, r⟩ List.mem_cons_self).of_runs hrun ev hev
    · exact ih (fun ev' hev' => hP ev' (List.mem_cons_of_mem _ hev')) ev hev

/-- A call in the expansion was made for some call of `p`. -/
theorem Expands.reaches {f : (o : Op) → Prog Op' Val' ε (Val o)} {R : Op → Op' → Prop}
    {tr₀ : List (Event Op Val ε)} {tr : List (Event Op' Val' ε)} (h : Expands f tr₀ tr)
    (hf : ∀ o, (f o).Uses (R o)) {ev : Event Op' Val' ε} (hev : ev ∈ tr) :
    ∃ ev₀ ∈ tr₀, R ev₀.op ev.op := by
  induction h with
  | nil => exact absurd hev List.not_mem_nil
  | @cons o r t tr₀ tr hrun _ ih =>
    rcases List.mem_append.mp hev with hev | hev
    · exact ⟨⟨o, r⟩, List.mem_cons_self, (hf o).of_runs hrun ev hev⟩
    · obtain ⟨ev₀, hmem, hR⟩ := ih hev
      exact ⟨ev₀, List.mem_cons_of_mem _ hmem, hR⟩

/-- An event of the expansion stands in the run of one program. -/
theorem Expands.split {f : (o : Op) → Prog Op' Val' ε (Val o)} {tr₀ : List (Event Op Val ε)}
    {before after : List (Event Op' Val' ε)} {ev : Event Op' Val' ε}
    (h : Expands f tr₀ (before ++ ev :: after)) :
    ∃ (ev₀ : Event Op Val ε) (b₁ b₂ t₁ t₂ : List (Event Op' Val' ε)), ev₀ ∈ tr₀ ∧
      Runs (f ev₀.op) (b₁ ++ ev :: b₂) ev₀.ans ∧ before = t₁ ++ b₁ ∧ after = b₂ ++ t₂ := by
  generalize htr : before ++ ev :: after = tr at h
  induction h generalizing before with
  | nil => simp at htr
  | @cons o r t tr₀ tr hrun _ ih =>
    rcases List.append_eq_append_iff.mp htr with ⟨u, rfl, hrest⟩ | ⟨u, rfl, hrest⟩
    · cases u with
      | nil =>
        obtain ⟨ev₀, b₁, b₂, t₁, t₂, hmem, hrun', hbefore, hafter⟩ :=
          ih (show [] ++ ev :: after = tr from hrest)
        obtain ⟨rfl, rfl⟩ := List.append_eq_nil_iff.mp hbefore.symm
        exact ⟨ev₀, [], b₂, before, t₂, List.mem_cons_of_mem _ hmem, hrun', by simp, hafter⟩
      | cons ev' u =>
        rw [List.cons_append, List.cons.injEq] at hrest
        obtain ⟨rfl, rfl⟩ := hrest
        exact ⟨⟨o, r⟩, before, u, [], tr, List.mem_cons_self, hrun, rfl, rfl⟩
    · obtain ⟨ev₀, b₁, b₂, t₁, t₂, hmem, hrun', rfl, rfl⟩ := ih hrest.symm
      exact ⟨ev₀, b₁, b₂, t ++ t₁, t₂, List.mem_cons_of_mem _ hmem, hrun', by simp, rfl⟩

theorem uses_attempt {P : Op → Prop} {p : Prog Op Val ε α} (hp : p.Uses P) : p.attempt.Uses P :=
  Uses.handle (Uses.bind hp (fun _ => trivial)) (fun _ => trivial)

theorem uses_true (p : Prog Op Val ε α) : p.Uses (fun _ => True) := by
  induction p with
  | ret a => trivial
  | raise e => trivial
  | call o k ih => exact ⟨trivial, ih⟩

/-- A program makes the calls of the programs that answer its own. -/
theorem uses_interp {f : (o : Op) → Prog Op' Val' ε (Val o)} {P : Op' → Prop} {Q : Op → Prop}
    {p : Prog Op Val ε α} (hp : p.Uses Q) (hf : ∀ o, Q o → (f o).Uses P) : (p.interp f).Uses P := by
  induction p with
  | ret a => trivial
  | raise e => trivial
  | call o k ih => exact Uses.bind (uses_attempt (hf o hp.1)) (fun r => ih r (hp.2 r))

theorem returns_interp {f : (o : Op) → Prog Op' Val' ε (Val o)} {R : α → Prop}
    {p : Prog Op Val ε α} (hp : p.Returns R) : (p.interp f).Returns R := by
  induction p with
  | ret a => exact hp
  | raise e => trivial
  | call o k ih => exact returns_bind.mpr ((returns_true _).mono (fun r _ => ih r (hp r)))

/-- What comes before a call that the first part does not make begins with a run of it. -/
theorem runs_bind_split {P : Op → Prop} {p : Prog Op Val ε α} {g : α → Prog Op Val ε β}
    {before after : List (Event Op Val ε)} {ev : Event Op Val ε} {out : Except ε β}
    (hp : p.Uses P) (h : Runs (p.bind g) (before ++ ev :: after) out) (hnot : ¬ P ev.op) :
    ∃ a t rest, before = t ++ rest ∧ Runs p t (.ok a) ∧ Runs (g a) (rest ++ ev :: after) out := by
  obtain ⟨r, t₁, t₂, htr, h₁, h₂⟩ := runs_bind_inv h
  have hmiss : ev ∉ t₁ := fun hev => hnot (hp.of_runs h₁ ev hev)
  rcases List.append_eq_append_iff.mp htr with ⟨rest, hfirst, hsecond⟩ | ⟨rest, hfirst, hsecond⟩
  · cases rest with
    | nil =>
      cases r with
      | ok a => exact ⟨a, t₁, [], by simp [hfirst], h₁, by rw [hsecond]; exact h₂⟩
      | error e =>
        rw [h₂.1] at hsecond
        cases hsecond
    | cons x rest =>
      obtain ⟨rfl, -⟩ := List.cons.inj hsecond
      exact absurd (by rw [hfirst]; simp) hmiss
  · cases r with
    | ok a => exact ⟨a, t₁, rest, hfirst, h₁, by rw [← hsecond]; exact h₂⟩
    | error e =>
      rw [h₂.1] at hsecond
      simp at hsecond

/-- A program with one call for each of `p`'s spells a run out one by one. -/
theorem Expands.eq_map {f : (o : Op) → Prog Op' Val' ε (Val o)} {lift : Event Op Val ε → Event Op' Val' ε}
    (hf : ∀ o r t, Runs (f o) t r → t = [lift ⟨o, r⟩]) {tr₀ : List (Event Op Val ε)}
    {tr : List (Event Op' Val' ε)} (h : Expands f tr₀ tr) : tr = tr₀.map lift := by
  induction h with
  | nil => rfl
  | cons hrun _ ih => rw [hf _ _ _ hrun, ih, List.map_cons, List.singleton_append]

/-! ## Programs that never return -/

/-- Whatever the answers, `p` makes such calls only, and does not return. -/
def Refuses (P : Op → Prop) (p : Prog Op Val ε α) : Prop := p.Uses P ∧ p.Returns (fun _ => False)

namespace Refuses

variable {P : Op → Prop}

theorem raise (e : ε) : (Prog.raise e : Prog Op Val ε α).Refuses P := ⟨trivial, trivial⟩

theorem bind {p : Prog Op Val ε α} {g : α → Prog Op Val ε β} (hp : p.Uses P)
    (hg : ∀ a, (g a).Refuses P) : (p.bind g).Refuses P :=
  ⟨Uses.bind hp (fun a => (hg a).1),
    returns_bind.mpr ((returns_true p).mono (fun a _ => (hg a).2))⟩

/-- What follows is never run. -/
theorem uses_bind {p : Prog Op Val ε α} {g : α → Prog Op Val ε β} (hp : p.Refuses P) :
    (p.bind g).Uses P :=
  Uses.bind_of_returns hp.1 hp.2 (fun _ hfalse => hfalse.elim)

theorem interp {f : (o : Op) → Prog Op' Val' ε (Val o)} {Q : Op' → Prop} {p : Prog Op Val ε α}
    (hp : p.Refuses P) (hf : ∀ o, P o → (f o).Uses Q) : (p.interp f).Refuses Q :=
  ⟨uses_interp hp.1 hf, returns_interp hp.2⟩

end Refuses

end Effects.Prog

/-! ## Interpretation among other processes -/

namespace Effects.Outline.Anywhere
open Effects.Prog

variable {I S Op Op' : Type} {Val : Op → Type} {Val' : Op' → Type} {ε α β L : Type}
  [DecidableEq I] {sys : System I S Op' Val' ε α} {P : Outline I S Op' Val' ε α L} {i : I}

theorem attempt {p : Prog Op' Val' ε β} (hp : P.Anywhere sys i p) :
    P.Anywhere sys i p.attempt :=
  handle (bind hp (fun _ _ => trivial)) (fun _ _ => trivial)

theorem interp {f : (o : Op) → Prog Op' Val' ε (Val o)} (hf : ∀ o, P.Anywhere sys i (f o))
    (p : Prog Op Val ε β) : P.Anywhere sys i (p.interp f) := by
  induction p with
  | ret a => exact fun _ => trivial
  | raise e => exact fun _ => trivial
  | call o k ih => exact bind (attempt (hf o)) ih

end Effects.Outline.Anywhere

namespace Effects.Outline.Ok
open Effects.Prog

variable {I S Op Op' : Type} {Val : Op → Type} {Val' : Op' → Type} {ε α β L : Type}
  [DecidableEq I] {sys : System I S Op' Val' ε α} {P : Outline I S Op' Val' ε α L} {i : I} {l : L}

theorem attempt {p : Prog Op' Val' ε β} (hp : P.Ok sys i l p (fun l' _ => l' = l)) :
    P.Ok sys i l p.attempt (fun l' _ => l' = l) := by
  refine handle (bind (hp.mono (fun l' r hl => ?_)))
  cases r <;> exact hl

/-- If every answering program comes back to the private state it starts from, so does the
program they answer. -/
theorem interp {f : (o : Op) → Prog Op' Val' ε (Val o)}
    (hf : ∀ o, P.Ok sys i l (f o) (fun l' _ => l' = l)) (p : Prog Op Val ε β) :
    P.Ok sys i l (p.interp f) (fun l' _ => l' = l) := by
  induction p with
  | ret a => rfl
  | raise e => rfl
  | call o k ih =>
    refine seq (attempt (hf o)) (fun l' r hl => ?_) (fun l' e hl => hl)
    rw [show l' = l from hl]
    exact ih r

end Effects.Outline.Ok
