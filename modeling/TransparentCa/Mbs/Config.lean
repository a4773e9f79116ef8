import TransparentCa.Lib.AssocList
import TransparentCa.Mbs.Domain

/- `CertificatesConfig`: which epochs and cross-signed certificates are configured, and
   which of them are active. The checks of the record constructors are fields, so every
   value below is one a constructor accepted. Maps and sets are lists without repetitions
   in whatever order the JDK iterates; the accessors sort. -/
namespace Mbs
open Java AssocList

abbrev Epoch := Int32

structure ValidityPeriod where
  notBefore : Instant
  notAfter : Instant
  nonempty : notBefore < notAfter
  deriving DecidableEq

structure SelfSignedCertificate where
  epochId : Epoch
  validityPeriod : ValidityPeriod
  deriving DecidableEq

structure CrossSignedCertificateId where
  privateKeyEpochId : Epoch
  publicKeyEpochId : Epoch
  distinct : privateKeyEpochId ≠ publicKeyEpochId
  deriving DecidableEq

def CrossSignedCertificateId.toKeyString (id : CrossSignedCertificateId) : JString :=
  intToString id.privateKeyEpochId ++ u "_" ++ intToString id.publicKeyEpochId

structure CrossSignedCertificate where
  id : CrossSignedCertificateId
  validityPeriod : ValidityPeriod
  deriving DecidableEq

structure CertificatesConfig where
  selfSignedCertificates : List (Epoch × SelfSignedCertificate)
  crossSignedCertificates : List (CrossSignedCertificateId × CrossSignedCertificate)
  activeSelfSignedCertificateIds : List Epoch
  activeCrossSignedCertificateIds : List CrossSignedCertificateId
  acceptableSelfSignedCertificateIds : List Epoch
  selfSigned_nodup : (selfSignedCertificates.map Prod.fst).Nodup
  crossSigned_nodup : (crossSignedCertificates.map Prod.fst).Nodup
  active_nodup : activeSelfSignedCertificateIds.Nodup
  activeCross_nodup : activeCrossSignedCertificateIds.Nodup
  acceptable_nodup : acceptableSelfSignedCertificateIds.Nodup
  selfSigned_key : ∀ entry ∈ selfSignedCertificates, entry.1 = entry.2.epochId
  crossSigned_key : ∀ entry ∈ crossSignedCertificates, entry.1 = entry.2.id
  crossSigned_private : ∀ entry ∈ crossSignedCertificates,
    entry.2.id.privateKeyEpochId ∈ selfSignedCertificates.map Prod.fst
  crossSigned_public : ∀ entry ∈ crossSignedCertificates,
    entry.2.id.publicKeyEpochId ∈ selfSignedCertificates.map Prod.fst
  active_nonempty : activeSelfSignedCertificateIds ≠ []
  active_defined : ∀ e ∈ activeSelfSignedCertificateIds, e ∈ selfSignedCertificates.map Prod.fst
  acceptable_defined :
    ∀ e ∈ acceptableSelfSignedCertificateIds, e ∈ selfSignedCertificates.map Prod.fst
  activeCross_defined :
    ∀ i ∈ activeCrossSignedCertificateIds, i ∈ crossSignedCertificates.map Prod.fst
  deriving DecidableEq

/-- `stream.sorted(comparingInt(f))`. -/
def sortedByInt {α : Type} (f : α → Int32) (l : List α) : List α :=
  l.insertionSort (fun a b => (f a).toInt ≤ (f b).toInt)

/-- By the signing epoch, then by the signed one. -/
def CrossSignedCertificateId.le (a b : CrossSignedCertificateId) : Prop :=
  a.privateKeyEpochId.toInt < b.privateKeyEpochId.toInt ∨
    (a.privateKeyEpochId.toInt = b.privateKeyEpochId.toInt ∧
      a.publicKeyEpochId.toInt ≤ b.publicKeyEpochId.toInt)

instance : DecidableRel CrossSignedCertificateId.le :=
  fun _ _ => inferInstanceAs (Decidable (_ ∨ _))

namespace CertificatesConfig

def getSelfSignedCertificates (config : CertificatesConfig) : List SelfSignedCertificate :=
  sortedByInt SelfSignedCertificate.epochId (config.selfSignedCertificates.map Prod.snd)

/-- The active ids in ascending order. -/
def activeEpochs (config : CertificatesConfig) : List Epoch :=
  sortedByInt id config.activeSelfSignedCertificateIds

def activeSelfSignedCertificates (config : CertificatesConfig) : List SelfSignedCertificate :=
  config.activeEpochs.filterMap (fun e => config.selfSignedCertificates.lookup e)

def activeCrossSignedCertificates (config : CertificatesConfig) : List CrossSignedCertificate :=
  (config.activeCrossSignedCertificateIds.insertionSort CrossSignedCertificateId.le).filterMap
    (fun id => config.crossSignedCertificates.lookup id)

end CertificatesConfig

theorem crossSigned_key_nil :
    ∀ entry ∈ ([] : List (CrossSignedCertificateId × CrossSignedCertificate)),
      entry.1 = entry.2.id := by simp

theorem activeCross_defined_nil : ∀ i ∈ ([] : List CrossSignedCertificateId),
    i ∈ ([] : List (CrossSignedCertificateId × CrossSignedCertificate)).map Prod.fst := by simp

/-- `DefaultingCertificatesConfigProvider.DEFAULT_CONFIG`: epoch 0 from
`2026-10-01T00:00:00Z` to `2027-02-02T13:00:00Z`. -/
def defaultConfig : CertificatesConfig where
  selfSignedCertificates :=
    [(0, ⟨0, ⟨⟨1790812800 * nanosPerSecond, by decide⟩, ⟨1801573200 * nanosPerSecond, by decide⟩,
      by decide⟩⟩)]
  crossSignedCertificates := []
  activeSelfSignedCertificateIds := [0]
  activeCrossSignedCertificateIds := []
  acceptableSelfSignedCertificateIds := [0]
  selfSigned_nodup := by decide
  crossSigned_nodup := List.nodup_nil
  active_nodup := List.nodup_singleton 0
  activeCross_nodup := List.nodup_nil
  acceptable_nodup := List.nodup_singleton 0
  selfSigned_key := by simp
  crossSigned_key := crossSigned_key_nil
  crossSigned_private := by simp
  crossSigned_public := by simp
  active_nonempty := by decide
  active_defined := by simp
  acceptable_defined := by simp
  activeCross_defined := activeCross_defined_nil

theorem defaultConfig_nonempty : defaultConfig.selfSignedCertificates ≠ [] := by decide

/-- The active certificates are those of the active epochs, in ascending order. -/
theorem CertificatesConfig.map_epochId_active (config : CertificatesConfig) :
    config.activeSelfSignedCertificates.map SelfSignedCertificate.epochId =
      config.activeEpochs := by
  have hdefined : ∀ e ∈ config.activeEpochs, e ∈ config.selfSignedCertificates.map Prod.fst := by
    intro e he
    exact config.active_defined e ((List.mem_insertionSort _).mp he)
  unfold activeSelfSignedCertificates
  generalize config.activeEpochs = epochs at hdefined ⊢
  induction epochs with
  | nil => rfl
  | cons e epochs ih =>
    obtain ⟨c, hc⟩ := lookup_of_mem_keys (hdefined e List.mem_cons_self)
    have hkey : e = c.epochId := config.selfSigned_key _ (mem_of_lookup hc)
    simp only [List.filterMap_cons, hc, List.map_cons, ← hkey]
    rw [ih (fun e' he' => hdefined e' (List.mem_cons_of_mem e he'))]

end Mbs
