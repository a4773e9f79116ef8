import TransparentCa.Lib.Interleave

/- Facts that no process can undo. A `Contract` names what every step keeps (`inv`) and how
   far any step may change the store (`guar`, reflexive and transitive); a fact is stable
   when such a change cannot make it false. `Meets i K p Q` checks the program `p` of process
   `i` against the contract from stores with `K`: at each call only the contract is known of
   what the others did since the last one, so what a program found out and what is stable is
   all that it may go on with. `Contract.Valid.reachable` carries the invariant to every
   reachable state.

   The last section is about systems over a larger store: an outline that is checked for the
   part of the store that it speaks of is good for the whole. -/
namespace Effects

structure Contract (S : Type) where
  inv : S → Prop
  guar : S → S → Prop
  guar_refl : ∀ s, guar s s
  guar_trans : ∀ s s' s'', guar s s' → guar s' s'' → guar s s''

namespace Contract

variable {I S Op : Type} {Val : Op → Type} {ε α β γ : Type}

def Stable (C : Contract S) (K : S → Prop) : Prop := ∀ s s', K s → C.guar s s' → K s'

def Meets (sys : System I S Op Val ε α) (C : Contract S) (i : I) :
    (S → Prop) → Prog Op Val ε β → (Except ε β → S → Prop) → Prop
  | K, .ret a, Q => ∀ s, C.inv s → K s → Q (.ok a) s
  | K, .raise e, Q => ∀ s, C.inv s → K s → Q (.error e) s
  | K, .call o k, Q => ∀ s, C.inv s → K s → ∀ r s', sys.step i s o r s' →
      C.inv s' ∧ C.guar s s' ∧ Meets sys C i (C.guar s') (k r) Q

variable {sys : System I S Op Val ε α} {C : Contract S} {i : I} {K K' : S → Prop}

theorem stable_guar (s : S) : C.Stable (C.guar s) := fun _ _ h h' => C.guar_trans _ _ _ h h'

theorem stable_const (p : Prop) : C.Stable (fun _ => p) := fun _ _ h _ => h

theorem Stable.and (h : C.Stable K) (h' : C.Stable K') : C.Stable (fun s => K s ∧ K' s) :=
  fun s s' hs hguar => ⟨h s s' hs.1 hguar, h' s s' hs.2 hguar⟩

theorem Stable.forall {T : Type} {F : T → S → Prop} (h : ∀ t, C.Stable (F t)) :
    C.Stable (fun s => ∀ t, F t s) := fun s s' hs hguar t => h t s s' (hs t) hguar

theorem Stable.imp {p : Prop} (h : C.Stable K) : C.Stable (fun s => p → K s) :=
  fun s s' hs hguar hp => h s s' (hs hp) hguar

namespace Meets

/-- Less may be assumed of the store at the start. -/
theorem pre {p : Prog Op Val ε β} {Q : Except ε β → S → Prop} (hp : C.Meets sys i K p Q)
    (h : ∀ s, C.inv s → K' s → K s) : C.Meets sys i K' p Q := by
  cases p with
  | ret a => exact fun s hs hK => hp s hs (h s hs hK)
  | raise e => exact fun s hs hK => hp s hs (h s hs hK)
  | call o k => exact fun s hs hK => hp s hs (h s hs hK)

theorem mono {p : Prog Op Val ε β} {Q Q' : Except ε β → S → Prop} (hp : C.Meets sys i K p Q)
    (h : ∀ r s, C.inv s → Q r s → Q' r s) : C.Meets sys i K p Q' := by
  induction p generalizing K with
  | ret a => exact fun s hs hK => h _ s hs (hp s hs hK)
  | raise e => exact fun s hs hK => h _ s hs (hp s hs hK)
  | call o k ih =>
    intro s hs hK r s' hstep
    obtain ⟨hs', hguar, hk⟩ := hp s hs hK r s' hstep
    exact ⟨hs', hguar, ih r hk⟩

/-- What is stable is still so at the end. -/
theorem frame {p : Prog Op Val ε β} {Q : Except ε β → S → Prop} {F : S → Prop}
    (hp : C.Meets sys i K p Q) (hF : C.Stable F) :
    C.Meets sys i (fun s => K s ∧ F s) p (fun r s => Q r s ∧ F s) := by
  induction p generalizing K with
  | ret a => exact fun s hs hK => ⟨hp s hs hK.1, hK.2⟩
  | raise e => exact fun s hs hK => ⟨hp s hs hK.1, hK.2⟩
  | call o k ih =>
    intro s hs hK r s' hstep
    obtain ⟨hs', hguar, hk⟩ := hp s hs hK.1 r s' hstep
    refine ⟨hs', hguar, (ih r hk).pre (fun t _ ht => ⟨ht, ?_⟩)⟩
    exact hF s' t (hF s s' hK.2 hguar) ht

theorem seq {p : Prog Op Val ε β} {f : β → Prog Op Val ε γ} {R : Except ε β → S → Prop}
    {Q : Except ε γ → S → Prop} (hp : C.Meets sys i K p R)
    (hok : ∀ b, C.Meets sys i (R (.ok b)) (f b) Q)
    (herror : ∀ e s, C.inv s → R (.error e) s → Q (.error e) s) :
    C.Meets sys i K (p.bind f) Q := by
  induction p generalizing K with
  | ret a => exact (hok a).pre hp
  | raise e => exact fun s hs hK => herror e s hs (hp s hs hK)
  | call o k ih =>
    intro s hs hK r s' hstep
    obtain ⟨hs', hguar, hk⟩ := hp s hs hK r s' hstep
    exact ⟨hs', hguar, ih r hk⟩

/-- The rule of sequence where a stable fact is carried along. -/
theorem seq_stable {p : Prog Op Val ε β} {f : β → Prog Op Val ε γ} {R : Except ε β → S → Prop}
    {Q : Except ε γ → S → Prop} (hK : C.Stable K) (hp : C.Meets sys i (fun _ => True) p R)
    (hok : ∀ b, C.Meets sys i (fun s => R (.ok b) s ∧ K s) (f b) Q)
    (herror : ∀ e s, C.inv s → R (.error e) s → K s → Q (.error e) s) :
    C.Meets sys i K (p.bind f) Q := by
  refine ((hp.frame hK).pre (fun s _ h => ⟨trivial, h⟩)).seq hok (fun e s hs h => ?_)
  exact herror e s hs h.1 h.2

theorem handle {p : Prog Op Val ε β} {h : ε → Prog Op Val ε β} {R Q : Except ε β → S → Prop}
    (hp : C.Meets sys i K p R) (hok : ∀ b s, C.inv s → R (.ok b) s → Q (.ok b) s)
    (herror : ∀ e, C.Meets sys i (R (.error e)) (h e) Q) :
    C.Meets sys i K (p.handle h) Q := by
  induction p generalizing K with
  | ret a => exact fun s hs hK => hok a s hs (hp s hs hK)
  | raise e => exact (herror e).pre hp
  | call o k ih =>
    intro s hs hK r s' hstep
    obtain ⟨hs', hguar, hk⟩ := hp s hs hK r s' hstep
    exact ⟨hs', hguar, ih r hk⟩

theorem ofExcept {x : Except ε β} {Q : Except ε β → S → Prop} (h : ∀ s, C.inv s → K s → Q x s) :
    C.Meets sys i K (Prog.ofExcept x) Q := by
  cases x <;> exact h

/-- One call, which ends with a stable fact. -/
theorem invoke {o : Op} {Q : Except ε (Val o) → S → Prop} (hQ : ∀ r, C.Stable (Q r))
    (h : ∀ s, C.inv s → K s → ∀ r s', sys.step i s o r s' → C.inv s' ∧ C.guar s s' ∧ Q r s') :
    C.Meets sys i K (Prog.invoke o) Q := by
  intro s hs hK r s' hstep
  obtain ⟨hs', hguar, hr⟩ := h s hs hK r s' hstep
  refine ⟨hs', hguar, ?_⟩
  cases r with
  | ok v => exact fun t _ ht => hQ _ s' t hr ht
  | error e => exact fun t _ ht => hQ _ s' t hr ht

/-- Calls that keep the contract, in any number and order, keep what is stable. -/
theorem of_uses {N : Op → Prop} {p : Prog Op Val ε β} (hp : p.Uses N)
    (hN : ∀ o, N o → ∀ s, C.inv s → ∀ r s', sys.step i s o r s' → C.inv s' ∧ C.guar s s')
    (hK : C.Stable K) : C.Meets sys i K p (fun _ => K) := by
  induction p generalizing K with
  | ret a => exact fun _ _ h => h
  | raise e => exact fun _ _ h => h
  | call o k ih =>
    intro s hs hKs r s' hstep
    obtain ⟨hs', hguar⟩ := hN o hp.1 s hs r s' hstep
    refine ⟨hs', hguar, (ih r (hp.2 r) (stable_guar s')).mono (fun _ t _ ht => ?_)⟩
    exact hK s' t (hK s s' hKs hguar) ht

theorem finallyDo {p : Prog Op Val ε β} {q : Prog Op Val ε Unit} {R Q : Except ε β → S → Prop}
    (hp : C.Meets sys i K p R)
    (hq : ∀ r, C.Meets sys i (R r) (q.bind (fun _ => Prog.ofExcept r)) Q) :
    C.Meets sys i K (p.finallyDo q) Q := by
  -- The outcome of `p` as a value; nothing is thrown past the handler.
  let caught : Except ε (Except ε β) → S → Prop := fun x s => match x with
    | .ok r => R r s
    | .error _ => False
  refine seq (R := caught) (handle (R := fun x s => match x with
    | .ok r => R r s
    | .error e => R (.error e) s) ?_ ?_ ?_) hq (fun e s _ h => h.elim)
  · exact seq hp (fun b s _ h => h) (fun e s _ h => h)
  · exact fun r s _ h => h
  · exact fun e s _ h => h

end Meets

/-! ## Every reachable state -/

/-- Every program that a process may run meets the contract, and so does what comes from
outside. -/
structure Valid (sys : System I S Op Val ε α) (C : Contract S) : Prop where
  init : ∀ s, sys.init s → C.inv s
  runs : ∀ i p, sys.runs i p → C.Meets sys i (fun _ => True) p (fun _ _ => True)
  env : ∀ s s', C.inv s → sys.env s s' → C.inv s' ∧ C.guar s s'

variable [DecidableEq I]

/-- The private state of a process is what it knows. -/
def outline (C : Contract S) : Outline I S Op Val ε α (S → Prop) where
  inv s _ ls := C.inv s ∧ ∀ i, ls i s ∧ C.Stable (ls i)
  idle _ := True
  guar := C.guar

/-- What is known after a step of process `i`: the others know what they knew. -/
theorem known_update {s s' : S} {ls : I → S → Prop} (h : ∀ j, ls j s ∧ C.Stable (ls j))
    (hguar : C.guar s s') (hK : K s') (hstable : C.Stable K) (j : I) :
    Function.update ls i K j s' ∧ C.Stable (Function.update ls i K j) := by
  by_cases hj : j = i
  · subst hj
    rw [Function.update_self]
    exact ⟨hK, hstable⟩
  · rw [Function.update_of_ne hj]
    exact ⟨(h j).2 s s' (h j).1 hguar, (h j).2⟩

theorem Meets.outline_ok {p : Prog Op Val ε β} {Q : Except ε β → S → Prop}
    (hp : C.Meets sys i K p Q) : C.outline.Ok sys i K p (fun _ _ => True) := by
  induction p generalizing K with
  | ret a => trivial
  | raise e => trivial
  | call o k ih =>
    rintro s log ls ⟨hs, hknown⟩ rfl r s' hstep
    obtain ⟨hs', hguar, hk⟩ := hp s hs (hknown i).1 r s' hstep
    refine ⟨hguar, C.guar s', ⟨hs', ?_⟩, ih r hk⟩
    exact known_update hknown hguar (C.guar_refl s') (stable_guar s')

theorem Valid.outline_valid (hv : C.Valid sys) : C.outline.Valid sys where
  guar_refl := C.guar_refl
  init s hs := ⟨fun _ _ => True, ⟨hv.init s hs, fun _ => ⟨trivial, stable_const True⟩⟩,
    fun _ => trivial⟩
  start i p s log ls hp hinv _ := by
    refine ⟨fun _ => True, ⟨hinv.1, ?_⟩, ?_⟩
    · exact known_update hinv.2 (C.guar_refl s) trivial (stable_const True)
    · apply ((hv.runs i p hp).outline_ok).mono
      intro l r _ s log ls hinv' hl
      refine ⟨l, trivial, hinv'.1, ?_⟩
      rw [← hl, Function.update_eq_self]
      exact hinv'.2
  stop i s log ls hinv := by
    refine ⟨fun _ => True, trivial, hinv.1, ?_⟩
    exact known_update hinv.2 (C.guar_refl s) trivial (stable_const True)
  env s s' log ls hinv henv := by
    obtain ⟨hs', hguar⟩ := hv.env s s' hinv.1 henv
    exact ⟨hs', fun j => ⟨(hinv.2 j).2 s s' (hinv.2 j).1 hguar, (hinv.2 j).2⟩⟩

theorem Valid.reachable (hv : C.Valid sys) {w : State I S Op Val ε α} (hw : sys.Reachable w) :
    C.inv w.store := by
  obtain ⟨ls, hinv, -⟩ := hv.outline_valid.reachable hw
  exact hinv.1

theorem Valid.steps (hv : C.Valid sys) {w w' : State I S Op Val ε α} (hw : sys.Reachable w)
    (h : sys.Steps w w') : C.guar w.store w'.store := by
  induction h with
  | refl => exact C.guar_refl _
  | tail h hstep ih =>
    have hreach := h.reachable hw
    refine C.guar_trans _ _ _ ih ?_
    rcases hv.outline_valid.step_guar hreach hstep with hguar | henv
    · exact hguar
    · exact (hv.env _ _ (hv.reachable hreach) henv).2

end Contract

/-! ## A part of the store -/

section
variable {I S T Op : Type} {Val : Op → Type} {ε α β L : Type} [DecidableEq I]
  {sys : System I S Op Val ε α} {whole : System I T Op Val ε α} {part : T → S}
  {P : Outline I S Op Val ε α L} {i : I}

/-- The outline of a part of the store, told of the whole. -/
def Outline.within (P : Outline I S Op Val ε α L) (part : T → S) : Outline I T Op Val ε α L where
  inv t := P.inv (part t)
  idle := P.idle
  guar t t' := P.guar (part t) (part t')

/-- Of the part, the calls do what they do alone. -/
def StepsWithin (sys : System I S Op Val ε α) (whole : System I T Op Val ε α) (part : T → S) :
    Prop :=
  ∀ i t o r t', whole.step i t o r t' → sys.step i (part t) o r (part t')

theorem Outline.Ok.within (hpart : StepsWithin sys whole part) {p : Prog Op Val ε β} {l : L}
    {Q : L → Except ε β → Prop} (hp : P.Ok sys i l p Q) : (P.within part).Ok whole i l p Q := by
  induction p generalizing l with
  | ret a => exact hp
  | raise e => exact hp
  | call o k ih =>
    intro t log ls hinv hl r t' hstep
    obtain ⟨hguar, l', hinv', hk⟩ := hp (part t) log ls hinv hl r (part t') (hpart i t o r t' hstep)
    exact ⟨hguar, l', hinv', ih r hk⟩

theorem Outline.Anywhere.within (hpart : StepsWithin sys whole part) {p : Prog Op Val ε β}
    (hp : P.Anywhere sys i p) : (P.within part).Anywhere whole i p :=
  fun l => (hp l).within hpart

end
end Effects
