import TransparentCa.Lib.Prog

/- One program over a store, with nothing in between its calls. `step s o r s'` says that
   in the store `s` the call `o` may answer `r` and leave `s'`. `Ensures step p s Q` holds
   when every run of `p` that such answers allow from `s` satisfies `Q` of the calls made,
   the outcome and the store at the end; the rules follow the program's structure. -/
namespace Effects

variable {S Op : Type} {Val : Op → Type} {ε α β : Type}

/-- The calls of `tr`, answered one after the other, take the store from `s` to `s'`. -/
inductive Served (step : S → (o : Op) → Except ε (Val o) → S → Prop) :
    S → List (Event Op Val ε) → S → Prop where
  | nil (s : S) : Served step s [] s
  | cons {s s₁ s₂ : S} {ev : Event Op Val ε} {tr : List (Event Op Val ε)}
      (h : step s ev.op ev.ans s₁) (ht : Served step s₁ tr s₂) : Served step s (ev :: tr) s₂

variable {step : S → (o : Op) → Except ε (Val o) → S → Prop}

theorem Served.append {s s₁ s₂ : S} {tr tr' : List (Event Op Val ε)} (h : Served step s tr s₁)
    (h' : Served step s₁ tr' s₂) : Served step s (tr ++ tr') s₂ := by
  induction h with
  | nil => exact h'
  | cons hstep _ ih => exact .cons hstep (ih h')

theorem Served.of_append {s s₂ : S} {tr tr' : List (Event Op Val ε)}
    (h : Served step s (tr ++ tr') s₂) : ∃ s₁, Served step s tr s₁ ∧ Served step s₁ tr' s₂ := by
  induction tr generalizing s with
  | nil => exact ⟨s, .nil s, h⟩
  | cons ev tr ih =>
    cases h with
    | cons hstep hrest =>
      obtain ⟨s₁, h₁, h₂⟩ := ih hrest
      exact ⟨s₁, .cons hstep h₁, h₂⟩

theorem Served.eq_of_nil {s s' : S} (h : Served step s [] s') : s' = s := by
  cases h
  rfl

/-- Calls that do not change the store can be made in any number and order. -/
theorem Served.unchanged {N : Op → Prop} {s s' : S} {tr : List (Event Op Val ε)}
    (h : Served step s tr s') (hN : ∀ o, N o → ∀ r s', step s o r s' → s' = s)
    (htr : ∀ ev ∈ tr, N ev.op) : s' = s := by
  induction tr generalizing s with
  | nil => exact h.eq_of_nil
  | cons ev tr ih =>
    cases h with
    | cons hstep hrest =>
      obtain rfl := hN ev.op (htr ev List.mem_cons_self) ev.ans _ hstep
      exact ih hrest hN (fun ev' hev' => htr ev' (List.mem_cons_of_mem ev hev'))

/-- Such calls were all answered in the same store. -/
theorem Served.step_of_mem {N : Op → Prop} {s s' : S} {tr : List (Event Op Val ε)}
    (h : Served step s tr s') (hN : ∀ o, N o → ∀ r s', step s o r s' → s' = s)
    (htr : ∀ ev ∈ tr, N ev.op) {ev : Event Op Val ε} (hev : ev ∈ tr) : step s ev.op ev.ans s := by
  induction tr generalizing s with
  | nil => cases hev
  | cons first tr ih =>
    cases h with
    | cons hstep hrest =>
      obtain rfl := hN first.op (htr first List.mem_cons_self) first.ans _ hstep
      rcases List.mem_cons.mp hev with rfl | hev
      · exact hstep
      · exact ih hrest hN (fun ev' hev' => htr ev' (List.mem_cons_of_mem first hev')) hev

/-- Seen through `view`, the calls are answered as `step'` allows. -/
theorem Served.through {T : Type} {step' : T → (o : Op) → Except ε (Val o) → T → Prop} {s s' : S}
    {tr : List (Event Op Val ε)} (h : Served step s tr s') (view : S → T)
    (hview : ∀ s o r s', step s o r s' → step' (view s) o r (view s')) :
    Served step' (view s) tr (view s') := by
  induction h with
  | nil s => exact .nil _
  | cons hstep _ ih => exact .cons (hview _ _ _ _ hstep) ih

/-- Whatever the answers, a run of `p` from `s` ends as `Q` says. -/
structure Ensures (step : S → (o : Op) → Except ε (Val o) → S → Prop) (p : Prog Op Val ε α) (s : S)
    (Q : List (Event Op Val ε) → Except ε α → S → Prop) : Prop where
  of_runs : ∀ tr out s', p.Runs tr out → Served step s tr s' → Q tr out s'

namespace Ensures

variable {s : S}

theorem mono {p : Prog Op Val ε α} {Q Q' : List (Event Op Val ε) → Except ε α → S → Prop}
    (hp : Ensures step p s Q) (h : ∀ tr out s', Q tr out s' → Q' tr out s') :
    Ensures step p s Q' :=
  ⟨fun tr out s' hr hs => h tr out s' (hp.of_runs tr out s' hr hs)⟩

theorem and {p : Prog Op Val ε α} {Q Q' : List (Event Op Val ε) → Except ε α → S → Prop}
    (hp : Ensures step p s Q) (hp' : Ensures step p s Q') :
    Ensures step p s (fun tr out s' => Q tr out s' ∧ Q' tr out s') :=
  ⟨fun tr out s' hr hs => ⟨hp.of_runs tr out s' hr hs, hp'.of_runs tr out s' hr hs⟩⟩

/-- What holds of runs over what `view` shows of the store. -/
theorem of_view {T : Type} {step' : T → (o : Op) → Except ε (Val o) → T → Prop} (view : S → T)
    (hview : ∀ s o r s', step s o r s' → step' (view s) o r (view s')) {p : Prog Op Val ε α}
    {Q : List (Event Op Val ε) → Except ε α → T → Prop} (hp : Ensures step' p (view s) Q) :
    Ensures step p s (fun tr out s' => Q tr out (view s')) :=
  ⟨fun tr out s' hr hs => hp.of_runs tr out (view s') hr (hs.through view hview)⟩

/-- What holds of every run may be used in the outcome. -/
theorem with_runs {p : Prog Op Val ε α} {Q : List (Event Op Val ε) → Except ε α → S → Prop}
    (hp : Ensures step p s Q) :
    Ensures step p s (fun tr out s' => Q tr out s' ∧ p.Runs tr out) :=
  ⟨fun tr out s' hr hs => ⟨hp.of_runs tr out s' hr hs, hr⟩⟩

/-- So may what is known of every call of the program. -/
theorem with_uses {N : Op → Prop} {p : Prog Op Val ε α}
    {Q : List (Event Op Val ε) → Except ε α → S → Prop} (hp : Ensures step p s Q)
    (huses : p.Uses N) :
    Ensures step p s (fun tr out s' => Q tr out s' ∧ ∀ ev ∈ tr, N ev.op) :=
  hp.with_runs.mono (fun _ _ _ h => ⟨h.1, huses.of_runs h.2⟩)

theorem ret {a : α} {Q : List (Event Op Val ε) → Except ε α → S → Prop} (h : Q [] (.ok a) s) :
    Ensures step (.ret a) s Q := by
  refine ⟨fun tr out s' hr hs => ?_⟩
  obtain ⟨rfl, rfl⟩ := Prog.runs_ret.mp hr
  rw [hs.eq_of_nil]
  exact h

theorem raise {e : ε} {Q : List (Event Op Val ε) → Except ε α → S → Prop} (h : Q [] (.error e) s) :
    Ensures step (.raise e) s Q := by
  refine ⟨fun tr out s' hr hs => ?_⟩
  obtain ⟨rfl, rfl⟩ := Prog.runs_raise.mp hr
  rw [hs.eq_of_nil]
  exact h

theorem ofExcept {x : Except ε α} {Q : List (Event Op Val ε) → Except ε α → S → Prop}
    (h : Q [] x s) : Ensures step (Prog.ofExcept x) s Q := by
  cases x with
  | ok a => exact ret h
  | error e => exact raise h

theorem invoke {o : Op} {Q : List (Event Op Val ε) → Except ε (Val o) → S → Prop}
    (h : ∀ r s', step s o r s' → Q [⟨o, r⟩] r s') : Ensures step (Prog.invoke o) s Q := by
  refine ⟨fun tr out s' hr hs => ?_⟩
  rw [Prog.runs_invoke] at hr
  subst hr
  cases hs with
  | cons hstep hrest =>
    rw [hrest.eq_of_nil]
    exact h out _ hstep

theorem bind {p : Prog Op Val ε α} {f : α → Prog Op Val ε β}
    {Q : List (Event Op Val ε) → Except ε β → S → Prop}
    (h : Ensures step p s (fun tr r s' => match r with
      | .ok a => Ensures step (f a) s' (fun tr' out s'' => Q (tr ++ tr') out s'')
      | .error e => Q tr (.error e) s')) : Ensures step (p.bind f) s Q := by
  refine ⟨fun tr out s' hr hs => ?_⟩
  obtain ⟨r, t₁, t₂, rfl, h₁, h₂⟩ := Prog.runs_bind_inv hr
  obtain ⟨s₁, hs₁, hs₂⟩ := hs.of_append
  have hfirst := h.of_runs t₁ r s₁ h₁ hs₁
  cases r with
  | ok a => exact hfirst.of_runs t₂ out s' h₂ hs₂
  | error e =>
    obtain ⟨rfl, rfl⟩ := h₂
    rw [hs₂.eq_of_nil, List.append_nil]
    exact hfirst

theorem handle {p : Prog Op Val ε α} {g : ε → Prog Op Val ε α}
    {Q : List (Event Op Val ε) → Except ε α → S → Prop}
    (h : Ensures step p s (fun tr r s' => match r with
      | .ok a => Q tr (.ok a) s'
      | .error e => Ensures step (g e) s' (fun tr' out s'' => Q (tr ++ tr') out s''))) :
    Ensures step (p.handle g) s Q := by
  refine ⟨fun tr out s' hr hs => ?_⟩
  rcases Prog.runs_handle.mp hr with ⟨a, rfl, hp⟩ | ⟨e, t₁, t₂, rfl, h₁, h₂⟩
  · exact h.of_runs tr (.ok a) s' hp hs
  · obtain ⟨s₁, hs₁, hs₂⟩ := hs.of_append
    exact (h.of_runs t₁ (.error e) s₁ h₁ hs₁).of_runs t₂ out s' h₂ hs₂

theorem finallyDo {p : Prog Op Val ε α} {q : Prog Op Val ε Unit}
    {Q : List (Event Op Val ε) → Except ε α → S → Prop}
    (h : Ensures step p s (fun tr r s' => Ensures step (q.bind (fun _ => Prog.ofExcept r)) s'
      (fun tr' out s'' => Q (tr ++ tr') out s''))) : Ensures step (p.finallyDo q) s Q := by
  refine ⟨fun tr out s' hr hs => ?_⟩
  obtain ⟨r, t₁, t₂, rfl, h₁, h₂⟩ := Prog.runs_finallyDo_inv hr
  obtain ⟨s₁, hs₁, hs₂⟩ := hs.of_append
  exact (h.of_runs t₁ r s₁ h₁ hs₁).of_runs t₂ out s' h₂ hs₂

theorem of_uses {N : Op → Prop} {p : Prog Op Val ε α} (hp : p.Uses N)
    (hN : ∀ o, N o → ∀ r s', step s o r s' → s' = s) :
    Ensures step p s (fun _ _ s' => s' = s) :=
  ⟨fun _ _ _ hr hs => hs.unchanged hN (hp.of_runs hr)⟩

end Ensures

/-! ## The calls made so far as the store

`Tracks p hist Q`: after the calls `hist`, every run of `p` ends as `Q` says of all the calls
made by then. -/

/-- Any answer may come; the call is added to the history. -/
def recorded (hist : List (Event Op Val ε)) (o : Op) (r : Except ε (Val o))
    (hist' : List (Event Op Val ε)) : Prop := hist' = hist ++ [⟨o, r⟩]

theorem served_recorded (hist tr : List (Event Op Val ε)) : Served recorded hist tr (hist ++ tr) := by
  induction tr generalizing hist with
  | nil =>
    rw [List.append_nil]
    exact .nil hist
  | cons ev tr ih =>
    rw [List.append_cons]
    exact .cons rfl (ih (hist ++ [ev]))

def Tracks (p : Prog Op Val ε α) (hist : List (Event Op Val ε))
    (Q : List (Event Op Val ε) → Except ε α → Prop) : Prop :=
  Ensures recorded p hist (fun _ out hist' => Q hist' out)

namespace Tracks

variable {hist : List (Event Op Val ε)}

theorem of_runs {p : Prog Op Val ε α} {Q : List (Event Op Val ε) → Except ε α → Prop}
    (hp : Tracks p [] Q) {tr : List (Event Op Val ε)} {out : Except ε α} (hr : p.Runs tr out) :
    Q tr out := Ensures.of_runs hp tr out tr hr (served_recorded [] tr)

theorem mono {p : Prog Op Val ε α} {Q Q' : List (Event Op Val ε) → Except ε α → Prop}
    (hp : Tracks p hist Q) (h : ∀ hist' out, Q hist' out → Q' hist' out) : Tracks p hist Q' :=
  Ensures.mono hp (fun _ out hist' => h hist' out)

theorem ret {a : α} {Q : List (Event Op Val ε) → Except ε α → Prop} (h : Q hist (.ok a)) :
    Tracks (.ret a) hist Q := Ensures.ret h

theorem raise {e : ε} {Q : List (Event Op Val ε) → Except ε α → Prop} (h : Q hist (.error e)) :
    Tracks (.raise e) hist Q := Ensures.raise h

theorem invoke {o : Op} {Q : List (Event Op Val ε) → Except ε (Val o) → Prop}
    (h : ∀ r, Q (hist ++ [⟨o, r⟩]) r) : Tracks (Prog.invoke o) hist Q := by
  apply Ensures.invoke
  rintro r hist' rfl
  exact h r

theorem bind {p : Prog Op Val ε α} {f : α → Prog Op Val ε β}
    {Q : List (Event Op Val ε) → Except ε β → Prop}
    (h : Tracks p hist (fun hist' r => match r with
      | .ok a => Tracks (f a) hist' Q
      | .error e => Q hist' (.error e))) : Tracks (p.bind f) hist Q := by
  apply Ensures.bind
  apply Ensures.mono h
  intro _ r hist' hr
  cases r with
  | ok a => exact hr
  | error e => exact hr

theorem handle {p : Prog Op Val ε α} {g : ε → Prog Op Val ε α}
    {Q : List (Event Op Val ε) → Except ε α → Prop}
    (h : Tracks p hist (fun hist' r => match r with
      | .ok a => Q hist' (.ok a)
      | .error e => Tracks (g e) hist' Q)) : Tracks (p.handle g) hist Q := by
  apply Ensures.handle
  apply Ensures.mono h
  intro _ r hist' hr
  cases r with
  | ok a => exact hr
  | error e => exact hr

theorem finallyDo {p : Prog Op Val ε α} {q : Prog Op Val ε Unit}
    {Q : List (Event Op Val ε) → Except ε α → Prop}
    (h : Tracks p hist (fun hist' r => Tracks (q.bind (fun _ => Prog.ofExcept r)) hist' Q)) :
    Tracks (p.finallyDo q) hist Q := Ensures.finallyDo h

/-- A call before the rest. -/
theorem invoke_bind {o : Op} {f : Val o → Prog Op Val ε β}
    {Q : List (Event Op Val ε) → Except ε β → Prop}
    (hfail : ∀ e, Q (hist ++ [⟨o, .error e⟩]) (.error e))
    (hok : ∀ v, Tracks (f v) (hist ++ [⟨o, .ok v⟩]) Q) :
    Tracks (Prog.bind (α := no_index Val o) (Prog.invoke o) f) hist Q := by
  apply bind
  apply invoke
  intro r
  cases r with
  | ok v => exact hok v
  | error e => exact hfail e

/-- A computation without calls before the rest. -/
theorem ofExcept_bind {x : Except ε α} {f : α → Prog Op Val ε β}
    {Q : List (Event Op Val ε) → Except ε β → Prop}
    (hfail : ∀ e, x = .error e → Q hist (.error e))
    (hok : ∀ a, x = .ok a → Tracks (f a) hist Q) : Tracks ((Prog.ofExcept x).bind f) hist Q := by
  cases x with
  | ok a => exact hok a rfl
  | error e => exact raise (hfail e rfl)

end Tracks

/-! ## What every part of a program keeps -/

/-- A run of `p` from a store with `J` ends in one. -/
def Keeps (step : S → (o : Op) → Except ε (Val o) → S → Prop) (J : S → Prop)
    (p : Prog Op Val ε α) : Prop :=
  ∀ s, J s → Ensures step p s (fun _ _ s' => J s')

namespace Keeps

variable {J : S → Prop}

theorem ret (a : α) : Keeps step J (.ret a : Prog Op Val ε α) := fun _ hs => Ensures.ret hs

theorem raise (e : ε) : Keeps step J (.raise e : Prog Op Val ε α) := fun _ hs => Ensures.raise hs

theorem bind {p : Prog Op Val ε α} {f : α → Prog Op Val ε β} (hp : Keeps step J p)
    (hf : ∀ a, Keeps step J (f a)) : Keeps step J (p.bind f) := by
  intro s hs
  apply Ensures.bind
  apply (hp s hs).mono
  intro tr r s' hs'
  cases r with
  | ok a => exact hf a s' hs'
  | error e => exact hs'

theorem handle {p : Prog Op Val ε α} {g : ε → Prog Op Val ε α} (hp : Keeps step J p)
    (hg : ∀ e, Keeps step J (g e)) : Keeps step J (p.handle g) := by
  intro s hs
  apply Ensures.handle
  apply (hp s hs).mono
  intro tr r s' hs'
  cases r with
  | ok a => exact hs'
  | error e => exact hg e s' hs'

/-- A program none of whose calls changes the store. -/
theorem of_uses {N : Op → Prop} {p : Prog Op Val ε α} (hp : p.Uses N)
    (hN : ∀ o, N o → ∀ s r s', step s o r s' → s' = s) : Keeps step J p := by
  intro s hs
  apply (Ensures.of_uses hp (fun o ho => hN o ho s)).mono
  intro tr r s' hs'
  rw [hs']
  exact hs

end Keeps

/-! ## Running against a server

A server keeps a state of its own, answers every call, and stands for the store that
`abs` reads off its state. -/

section
variable {T : Type} (serve : T → (o : Op) → Except ε (Val o) × T)

/-- The outcome, the calls made, and the server's state at the end. -/
def drive : Prog Op Val ε α → T → Except ε α × List (Event Op Val ε) × T
  | .ret a, t => (.ok a, [], t)
  | .raise e, t => (.error e, [], t)
  | .call o k, t =>
    let answer := serve t o
    let rest := drive (k answer.1) answer.2
    (rest.1, ⟨o, answer.1⟩ :: rest.2.1, rest.2.2)

theorem runs_drive (p : Prog Op Val ε α) (t : T) :
    p.Runs (drive serve p t).2.1 (drive serve p t).1 := by
  induction p generalizing t with
  | ret a => exact .ret a
  | raise e => exact .raise e
  | call o k ih => exact .call o k _ (ih (serve t o).1 (serve t o).2)

variable {serve}

variable (serve) in
/-- Every call that the run makes is one that `ok` allows. -/
def DriveAll (ok : T → Op → Prop) : Prog Op Val ε α → T → Prop
  | .ret _, _ => True
  | .raise _, _ => True
  | .call o k, t => ok t o ∧ DriveAll ok (k (serve t o).1) (serve t o).2

instance DriveAll.decidable {ok : T → Op → Prop} [∀ t o, Decidable (ok t o)] :
    (p : Prog Op Val ε α) → (t : T) → Decidable (DriveAll serve ok p t)
  | .ret _, _ => .isTrue trivial
  | .raise _, _ => .isTrue trivial
  | .call o k, t =>
    have : Decidable (DriveAll serve ok (k (serve t o).1) (serve t o).2) := DriveAll.decidable _ _
    inferInstanceAs (Decidable (ok t o ∧ DriveAll serve ok (k (serve t o).1) (serve t o).2))

/-- A server that does what the store may do, wherever it is asked to. -/
theorem served_driveAll (abs : T → S) {ok : T → Op → Prop}
    (h : ∀ t o, ok t o → step (abs t) o (serve t o).1 (abs (serve t o).2)) {p : Prog Op Val ε α}
    {t : T} (hall : DriveAll serve ok p t) :
    Served step (abs t) (drive serve p t).2.1 (abs (drive serve p t).2.2) := by
  induction p generalizing t with
  | ret a => exact .nil _
  | raise e => exact .nil _
  | call o k ih => exact .cons (h t o hall.1) (ih (serve t o).1 hall.2)

theorem driveAll_true (p : Prog Op Val ε α) (t : T) : DriveAll serve (fun _ _ => True) p t := by
  induction p generalizing t with
  | ret a => trivial
  | raise e => trivial
  | call o k ih => exact ⟨trivial, ih (serve t o).1 (serve t o).2⟩

theorem served_drive (abs : T → S)
    (h : ∀ t o, step (abs t) o (serve t o).1 (abs (serve t o).2)) (p : Prog Op Val ε α) (t : T) :
    Served step (abs t) (drive serve p t).2.1 (abs (drive serve p t).2.2) :=
  served_driveAll abs (fun t o _ => h t o) (driveAll_true p t)

@[simp] theorem drive_ret (a : α) (t : T) : drive serve (.ret a) t = (.ok a, [], t) := rfl
@[simp] theorem drive_raise (e : ε) (t : T) :
    drive serve (.raise e : Prog Op Val ε α) t = (.error e, [], t) := rfl

theorem drive_invoke (o : Op) (t : T) :
    drive serve (Prog.invoke o) t = ((serve t o).1, [⟨o, (serve t o).1⟩], (serve t o).2) := by
  simp only [Prog.invoke, drive]
  cases h : (serve t o).1 <;> rfl

theorem drive_bind {p : Prog Op Val ε α} {f : α → Prog Op Val ε β} {t t' : T} {a : α}
    {tr : List (Event Op Val ε)} (h : drive serve p t = (.ok a, tr, t')) :
    drive serve (p.bind f) t =
      ((drive serve (f a) t').1, tr ++ (drive serve (f a) t').2.1, (drive serve (f a) t').2.2) := by
  induction p generalizing t tr with
  | ret b => cases h; rfl
  | raise e => cases h
  | call o k ih =>
    simp only [drive, Prod.mk.injEq] at h
    obtain ⟨hout, rfl, rfl⟩ := h
    simp only [Prog.bind, drive, List.cons_append]
    rw [ih (serve t o).1 (Prod.ext hout rfl)]

theorem drive_handle {p : Prog Op Val ε α} {g : ε → Prog Op Val ε α} {t t' : T} {a : α}
    {tr : List (Event Op Val ε)} (h : drive serve p t = (.ok a, tr, t')) :
    drive serve (p.handle g) t = (.ok a, tr, t') := by
  induction p generalizing t tr with
  | ret b => exact h
  | raise e => cases h
  | call o k ih =>
    simp only [drive, Prod.mk.injEq] at h
    obtain ⟨hout, rfl, rfl⟩ := h
    simp only [Prog.handle, drive]
    rw [ih (serve t o).1 (Prod.ext hout rfl)]

end
end Effects
