import TransparentCa.Tca.CsrInfluence

/- Serial numbers over a whole run. The signer takes the serial number from the clock, in
   milliseconds, and keeps no record of the numbers it gave out. `tcaSystem` runs any number
   of worker threads, of one instance or of several, each with issuances one after the
   other; every call may be answered by anything, the clock included. In every reachable
   state each signed certificate carries the millisecond of the clock reading its thread
   made last before it built it (`serial_of_clock`), so the numbers are as distinct as the
   readings (`serials_distinct_iff`). -/
namespace Tca
open Java Mbs Effects Effects.Prog

section
variable (I : Type) (lib : Platform) (sig : SignerPlatform)

/-- Worker threads that issue certificates for any requests. The collaborators and the
clock answer as they like, so there is no store to keep. -/
def tcaSystem : System I Unit TcaOp TcaOp.Val Throwable (List X509Certificate) where
  init _ := True
  runs _ p := ∃ request caller, p = issueCertificate (tcaService lib sig) lib request caller
  step _ _ _ _ _ := True
  env _ _ := False
end

abbrev TcaEntry (I : Type) := Entry I TcaOp TcaOp.Val Throwable (List X509Certificate)

/-- A certificate that was signed, with the last reading of the clock by the thread that
signed it. -/
structure Signing where
  builder : X509v3CertificateBuilder
  clock : Option Instant
  deriving DecidableEq

section
variable {I : Type} [DecidableEq I]

/-- The last reading of the clock by thread `i`. -/
def lastClock (i : I) : List (TcaEntry I) → Option Instant
  | [] => none
  | .call j ⟨.ca .now, .ok t⟩ :: log => if j = i then some t else lastClock i log
  | _ :: log => lastClock i log

/-- The signed certificates, newest first. -/
def signings : List (TcaEntry I) → List Signing
  | [] => []
  | .call i ⟨.build builder _, .ok _⟩ :: log => ⟨builder, lastClock i log⟩ :: signings log
  | _ :: log => signings log

/-- No two certificates of one issuer have the same serial number, and all are positive. -/
def SerialsDistinct (signed : List Signing) : Prop :=
  signed.Pairwise (fun a b => a.builder.issuer = b.builder.issuer →
    a.builder.serial ≠ b.builder.serial) ∧
  ∀ a ∈ signed, 0 < a.builder.serial

/-- The millisecond of a clock reading. -/
def millisecond (t : Instant) : Int := t.val / 10^6

/-- No two issuances under one issuer read the clock in the same millisecond, and none
before the first millisecond after the epoch. -/
def ClockDistinct (signed : List Signing) : Prop :=
  signed.Pairwise (fun a b => a.builder.issuer = b.builder.issuer →
    a.clock.map millisecond ≠ b.clock.map millisecond) ∧
  ∀ a ∈ signed, ∀ t ∈ a.clock, 0 < millisecond t

theorem toEpochMilli_ok {t : Instant} {ms : Int} (h : t.toEpochMilli = .ok ms) :
    ms = millisecond t := by
  unfold Instant.toEpochMilli at h
  split at h
  · exact (Except.ok.inj h).symm
  · cases h

/-! ## The serial number is a clock reading -/

/-- The private state of a thread is its last reading of the clock. -/
def clockOutline : Outline I Unit TcaOp TcaOp.Val Throwable (List X509Certificate)
    (Option Instant) where
  inv _ log ls := (∀ i, ls i = lastClock i log) ∧
    ∀ a ∈ signings log, ∃ t, a.clock = some t ∧ a.builder.serial = millisecond t
  idle _ := True
  guar _ _ := True

variable {lib : Platform} {sig : SignerPlatform} {i : I}

theorem lastClock_now (t : Instant) (log : List (TcaEntry I)) (ls : I → Option Instant)
    (h : ∀ j, ls j = lastClock j log) (j : I) :
    Function.update ls i (some t) j = lastClock j (.call i ⟨.ca .now, .ok t⟩ :: log) := by
  by_cases hj : j = i
  · subst hj
    simp [lastClock]
  · rw [Function.update_of_ne hj, h j]
    simp only [lastClock]
    rw [if_neg (fun heq => hj heq.symm)]

/-- Calls other than the clock and the builder leave both accounts as they are. -/
theorem anywhere_ask {o : CaOp} (ho : o ≠ .now) :
    clockOutline.Anywhere (tcaSystem I lib sig) i (askCa o) := by
  apply Outline.Anywhere.of_uses (N := fun o' => o' = .ca o) (Uses.invoke rfl)
  intro o' ho' s log ls hinv r s' _
  subst ho'
  refine ⟨trivial, ?_⟩
  have hclock : ∀ j, lastClock j (.call i ⟨.ca o, r⟩ :: log) = lastClock j log := by
    intro j
    cases o <;> first | rfl | exact absurd rfl ho
  refine ⟨fun j => (hinv.1 j).trans (hclock j).symm, ?_⟩
  exact hinv.2

/-- Reading the clock moves the private state to what was read. -/
theorem ok_now (l : Option Instant) :
    clockOutline.Ok (tcaSystem I lib sig) i l (askCa .now)
      (fun l' r => ∀ t, r = .ok t → l' = some t) := by
  apply Outline.Ok.invoke
  intro s log ls hinv hl r s' _
  refine ⟨trivial, ?_⟩
  cases r with
  | ok t =>
    refine ⟨some t, ⟨lastClock_now t log ls hinv.1, hinv.2⟩, fun t' ht' => ?_⟩
    rw [Except.ok.inj ht']
  | error e =>
    refine ⟨l, ?_, fun t ht => by cases ht⟩
    rw [← hl, Function.update_eq_self]
    exact ⟨hinv.1, hinv.2⟩

/-- Building with the serial number of the last reading keeps the account of signings. -/
theorem ok_build {builder : X509v3CertificateBuilder} {issuerPrivateKey : PrivateKey} {t : Instant}
    (h : builder.serial = millisecond t) :
    clockOutline.Ok (tcaSystem I lib sig) i (some t) (build builder issuerPrivateKey)
      (fun _ _ => True) := by
  apply Outline.Ok.invoke_keep
  intro s log ls hinv hl r s' _
  refine ⟨trivial, ⟨hinv.1, ?_⟩, trivial⟩
  cases r with
  | error e => exact hinv.2
  | ok certificate =>
    intro a ha
    rcases List.mem_cons.mp ha with rfl | ha
    · exact ⟨t, ((hinv.1 i).symm.trans hl), h⟩
    · exact hinv.2 a ha

theorem anywhere_signCsr (args : SignCsr) : clockOutline.Anywhere (tcaSystem I lib sig) i
    (CertificateSignerImpl.signCsr lib sig (askCa .now) build args) := by
  intro l
  apply Outline.Ok.handle
  -- Once the body is done the handler only throws.
  suffices hbody : clockOutline.Ok (tcaSystem I lib sig) i l _ (fun _ _ => True) from
    hbody.mono (fun l' r _ => by cases r <;> trivial)
  apply Outline.Ok.bind
  apply Outline.Ok.ofExcept
  cases lib.subjectPublicKeyInfo args.csrBytes with
  | error e => trivial
  | ok csrPublicKeyInfo =>
    apply Outline.Ok.bind
    apply (ok_now l).mono
    intro l' r hclock
    cases r with
    | error e => trivial
    | ok clock =>
      obtain rfl := hclock clock rfl
      apply Outline.Ok.bind
      apply Outline.Ok.ofExcept
      cases hserial : clock.toEpochMilli with
      | error e => trivial
      | ok serial =>
        apply Outline.Ok.bind
        apply Outline.Ok.ofExcept
        cases hbuilder : CertificateSignerImpl.certBuilder sig args csrPublicKeyInfo serial with
        | error e => trivial
        | ok builder =>
          apply ok_build
          rw [(CertificateSignerImpl.certBuilder_fields hbuilder).1, toEpochMilli_ok hserial]

theorem anywhere_implement (o : CaOp) :
    clockOutline.Anywhere (tcaSystem I lib sig) i (implement lib sig o) := by
  cases o with
  | signCsr args => exact anywhere_signCsr args
  | createModifiers policy trustDomain => exact fun _ => trivial
  | now => exact fun l => (ok_now l).mono (fun _ _ _ => trivial)
  | _ => exact anywhere_ask (fun heq => by cases heq)

theorem clockOutline_valid : (clockOutline (I := I)).Valid (tcaSystem I lib sig) where
  guar_refl _ := trivial
  init s _ := ⟨fun _ => none, ⟨fun _ => rfl, fun a ha => absurd ha List.not_mem_nil⟩,
    fun _ => trivial⟩
  start i p s log ls hp hinv _ := by
    obtain ⟨request, caller, rfl⟩ := hp
    refine ⟨ls i, ?_, ?_⟩
    · rw [Function.update_eq_self]
      exact ⟨hinv.1, hinv.2⟩
    · rw [issueCertificate_tcaService]
      apply (Outline.Anywhere.interp anywhere_implement _ (ls i)).mono
      intro l out _ s' log' ls' hinv' hl'
      refine ⟨l, trivial, ?_⟩
      rw [← hl', Function.update_eq_self]
      exact ⟨hinv'.1, hinv'.2⟩
  stop i s log ls hinv := by
    refine ⟨ls i, trivial, ?_⟩
    rw [Function.update_eq_self]
    exact ⟨hinv.1, hinv.2⟩
  env s s' log ls _ henv := henv.elim

theorem serial_of_clock
    {w : State I Unit TcaOp TcaOp.Val Throwable (List X509Certificate)}
    (hw : (tcaSystem I lib sig).Reachable w) :
    ∀ a ∈ signings w.log, ∃ t, a.clock = some t ∧ a.builder.serial = millisecond t := by
  obtain ⟨ls, hinv, -⟩ := clockOutline_valid.reachable hw
  exact hinv.2

/-! ## Distinct serial numbers -/

/-- In every state of every run: the serial numbers are distinct and positive iff the
clock readings they came from are. -/
theorem serials_distinct_iff
    {w : State I Unit TcaOp TcaOp.Val Throwable (List X509Certificate)}
    (hw : (tcaSystem I lib sig).Reachable w) :
    SerialsDistinct (signings w.log) ↔ ClockDistinct (signings w.log) := by
  have hclock := serial_of_clock hw
  have hpair : ∀ {a b : Signing}, a ∈ signings w.log → b ∈ signings w.log →
      (a.builder.serial ≠ b.builder.serial ↔
        a.clock.map millisecond ≠ b.clock.map millisecond) := by
    intro a b ha hb
    obtain ⟨t, hta, hsa⟩ := hclock a ha
    obtain ⟨t', htb, hsb⟩ := hclock b hb
    rw [hta, htb, hsa, hsb]
    simp
  unfold SerialsDistinct ClockDistinct
  refine and_congr ?_ ?_
  · refine List.Pairwise.iff_of_mem (fun ha hb => ?_)
    exact imp_congr_right (fun _ => hpair ha hb)
  · refine forall₂_congr (fun a ha => ?_)
    obtain ⟨t, hta, hsa⟩ := hclock a ha
    rw [hta, hsa]
    simp

end

/-! Two workers, each with one issuance of the sample run: the first while the clock stands
at `t`, the second while it stands at `t'`. -/

namespace Sample

def clockAt (t : Instant) (_ : Unit) : (o : TcaOp) → Except Throwable o.Val × Unit
  | .ca .now => (.ok t, ())
  | o => (tcaAnswer [] o, ())

def issuance : TcaProg (List X509Certificate) :=
  issueCertificate (tcaService platform signerPlatform) platform request caller

def worker (i : Bool) (t : Instant) (log : List (TcaEntry Bool)) : List (TcaEntry Bool) :=
  .finish i (drive (clockAt t) issuance ()).1 ::
    (((drive (clockAt t) issuance ()).2.1.map (.call i)).reverse ++ .start i :: log)

def twoIssuances (t t' : Instant) :
    State Bool Unit TcaOp TcaOp.Val Throwable (List X509Certificate) :=
  ⟨(), fun _ => none, worker true t' (worker false t [])⟩

theorem reachable_twoIssuances (t t' : Instant) :
    (tcaSystem Bool platform signerPlatform).Reachable (twoIssuances t t') := by
  have hruns : ∀ i, (tcaSystem Bool platform signerPlatform).runs i issuance :=
    fun _ => ⟨request, caller, rfl⟩
  have hrun : ∀ i t log, (tcaSystem Bool platform signerPlatform).Steps
      ⟨(), fun _ => none, log⟩ ⟨(), fun _ => none, worker i t log⟩ := fun i t log =>
    System.Steps.run (hruns i) (runs_drive (clockAt t) issuance ())
      (served_drive id (fun _ _ => trivial) issuance ()) rfl log
  exact ((hrun false t []).trans (hrun true t' _)).reachable (.init () trivial)

/-- The instant `nanos` after the start of the sample's second. -/
def tick (nanos : Nat) (h : nanos < 10^9) : Instant :=
  ⟨1800000000 * nanosPerSecond + nanos, by unfold instantMin instantMax nanosPerSecond; omega⟩

end Sample

theorem serials_distinct_sample :
    SerialsDistinct (signings (Sample.twoIssuances (Sample.tick 0 (by decide))
      (Sample.tick 5000000 (by decide))).log) := by
  rw [serials_distinct_iff (Sample.reachable_twoIssuances _ _)]
  unfold ClockDistinct
  decide +kernel

/-- Two workers that read the clock 0.3 ms apart. -/
theorem serials_collide :
    ∃ w, (tcaSystem Bool Sample.platform Sample.signerPlatform).Reachable w ∧
      ¬ SerialsDistinct (signings w.log) := by
  refine ⟨Sample.twoIssuances (Sample.tick 0 (by decide)) (Sample.tick 300000 (by decide)),
    Sample.reachable_twoIssuances _ _, ?_⟩
  unfold SerialsDistinct
  decide +kernel

end Tca
