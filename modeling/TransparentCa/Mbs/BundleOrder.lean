import TransparentCa.Mbs.TrustHistory

/- The order of the bundles in the trust package. A reload goes through the active epochs
   in ascending order, but the package is read off the map the bundles were copied into,
   which iterates as the JDK of the instance likes. The epoch order survives on every
   instance exactly when there is nothing to reorder: all active epochs have the same
   bundle stored. -/
namespace Mbs
open Java Effects

/-- What the epoch's backup in the view unseals to. -/
def Decoding.storedBundle (d : Decoding) (view : StorageView) (epoch : Epoch) :
    Option SelfSignedBundle :=
  (d.bundleAt view epoch).map (fun entry => entry.2.bundle)

/-- On every instance and after every history, once a reload of `config` over `view`
succeeded the trust package lists the bundles in ascending epoch order, so its element 0 is
the bundle of the first active epoch. -/
def ListsInEpochOrder (d : Decoding) (config : CertificatesConfig) (view : StorageView) : Prop :=
  ∀ order calls s tr s' tr' trustPackage s'', History d order calls s →
    ((viewService order).reload config).Runs tr (.ok ()) → Served (trustStep d) s tr s' →
    (viewsOf tr).getLast? = some view →
    (viewService order).getActiveTrustPackage.Runs tr' (.ok trustPackage) →
    Served (trustStep d) s' tr' s'' →
    trustPackage.selfSignedBundles.map some = config.activeEpochs.map (d.storedBundle view) ∧
      trustPackage.selfSignedBundles.head? = config.activeEpochs.head?.bind (d.storedBundle view)

section
variable {d : Decoding} {order : MapOrder} {view : StorageView} {config : CertificatesConfig}
  {entries : List (Epoch × LoadedSelfSignedBundle)} {certificates : List X509Certificate}

theorem ensures_getActiveTrustPackage (state : ActiveTrustState) :
    Ensures (trustStep d) (viewService order).getActiveTrustPackage (some state)
      (fun _ r _ => r = .ok (TrustPackageService.trustPackageOf state)) := by
  apply Ensures.bind
  refine ensures_trustCall .getActiveTrustState ?_
  intro r s' hstep
  obtain ⟨rfl, rfl⟩ := hstep
  exact Ensures.ret rfl

/-- The stored bundles of the active epochs are those of the entries. -/
theorem Decoding.Loads.map_storedBundle (h : d.Loads view config entries certificates) :
    config.activeEpochs.map (d.storedBundle view) =
      (entries.map (fun entry => entry.2.bundle)).map some := by
  have hmap := congrArg (List.map (Option.map (fun entry : Epoch × LoadedSelfSignedBundle =>
    entry.2.bundle))) h.1
  rw [List.map_map, List.map_map] at hmap
  rw [List.map_map]
  exact hmap

/-- Reordering a list of equal elements does nothing. -/
theorem eq_of_perm_of_all_eq {α : Type} {l l' : List α} (h : l.Perm l')
    (heq : ∀ a ∈ l', ∀ b ∈ l', a = b) : l = l' := by
  cases l' with
  | nil => exact h.eq_nil
  | cons a l' =>
    have hrep : a :: l' = List.replicate (a :: l').length a :=
      List.eq_replicate_of_mem (fun b hb => heq b hb a List.mem_cons_self)
    rw [hrep] at h ⊢
    exact List.perm_replicate.mp h

theorem head?_of_map_some {α β : Type} {l : List α} {l' : List β} {f : β → Option α}
    (h : l.map some = l'.map f) : l.head? = l'.head?.bind f := by
  cases l with
  | nil => cases l' with
    | nil => rfl
    | cons b l' => cases h
  | cons a l => cases l' with
    | nil => cases h
    | cons b l' => exact (List.cons.inj h).1

/-- The epochs whose bundles the order is about. -/
theorem mem_activeEpochs {epoch : Epoch} :
    epoch ∈ config.activeEpochs ↔ epoch ∈ config.activeSelfSignedCertificateIds :=
  List.mem_insertionSort _

/-- A map that iterates from the second entry on and comes to the first one last. -/
def rotatedOrder : MapOrder := ⟨fun m => m.rotate 1, fun m => m.rotate_perm 1⟩

/-- The trust package a fresh instance has after a load. -/
theorem getActiveTrustPackage_runs (order : MapOrder) (state : ActiveTrustState) :
    ∃ tr, (viewService order).getActiveTrustPackage.Runs tr
        (.ok (TrustPackageService.trustPackageOf state)) ∧
      Served (trustStep d) (some state) tr (some state) :=
  ⟨[⟨.getActiveTrustState, .ok (some state)⟩], .call _ _ _ (.ret _), .cons ⟨rfl, rfl⟩ (.nil _)⟩

/-- What an instance with this order lists, when the claim about the order holds. -/
theorem ListsInEpochOrder.map_copyOf (hlists : ListsInEpochOrder d config view)
    (h : d.Loads view config entries certificates) (order : MapOrder) :
    (order.copyOf entries).map (fun entry => entry.2.bundle) =
      entries.map (fun entry => entry.2.bundle) := by
  have hfresh : FreshlyLoads d order config view _ := h.freshlyLoads
  obtain ⟨tr, hruns, hserved, hviews⟩ := hfresh
  obtain ⟨tr', hget, hserved'⟩ :=
    getActiveTrustPackage_runs (d := d) order ⟨order.copyOf entries, certificates⟩
  have hlist := (hlists order [] none tr _ tr' _ _ .init hruns hserved (by rw [hviews]; rfl) hget
    hserved').1
  rw [h.map_storedBundle] at hlist
  exact (Option.some_injective _).list_map hlist

/-- The bundles are listed in epoch order on every instance iff all active epochs have the
same bundle stored. -/
theorem listsInEpochOrder_iff (h : d.Loads view config entries certificates) :
    ListsInEpochOrder d config view ↔
      ∀ epoch ∈ config.activeSelfSignedCertificateIds,
        ∀ epoch' ∈ config.activeSelfSignedCertificateIds,
          d.storedBundle view epoch = d.storedBundle view epoch' := by
  have hbundles := h.map_storedBundle
  refine ⟨fun hlists epoch hepoch epoch' hepoch' => ?_, fun heq => ?_⟩
  · have hrotate := hlists.map_copyOf h rotatedOrder
    rw [show rotatedOrder.copyOf entries = entries.rotate 1 from rfl, List.map_rotate] at hrotate
    have hmem : ∀ epoch ∈ config.activeSelfSignedCertificateIds,
        d.storedBundle view epoch ∈ (entries.map (fun entry => entry.2.bundle)).map some := by
      intro epoch hepoch
      rw [← hbundles]
      exact List.mem_map_of_mem (mem_activeEpochs.mpr hepoch)
    obtain ⟨bundle, hbundle, hfirst⟩ := List.mem_map.mp (hmem epoch hepoch)
    have hnonempty : Nonempty SelfSignedBundle := ⟨bundle⟩
    -- The list is the same rotated by one, so all its entries are one bundle.
    obtain ⟨same, hsame⟩ := List.rotate_one_eq_self_iff_eq_replicate.mp hrotate
    obtain ⟨bundle', hbundle', hsecond⟩ := List.mem_map.mp (hmem epoch' hepoch')
    rw [hsame] at hbundle hbundle'
    rw [← hfirst, ← hsecond, List.eq_of_mem_replicate hbundle, List.eq_of_mem_replicate hbundle']
  · intro order calls s tr s' tr' trustPackage s'' hhistory hruns hserved hview hget hserved'
    obtain ⟨view', entries', certificates', hview', hloads, rfl⟩ :=
      (ensures_reload hhistory.state.1 config).of_runs _ _ _ hruns hserved
    obtain rfl : view = view' := Option.some.inj (hview.symm.trans hview')
    obtain ⟨rfl, rfl⟩ := h.unique hloads
    obtain rfl := Except.ok.inj
      ((ensures_getActiveTrustPackage _).of_runs _ _ _ hget hserved')
    have hall : ∀ a ∈ entries.map (fun entry => entry.2.bundle),
        ∀ b ∈ entries.map (fun entry => entry.2.bundle), a = b := by
      intro a ha b hb
      have hstored : ∀ c ∈ entries.map (fun entry => entry.2.bundle),
          ∃ epoch ∈ config.activeSelfSignedCertificateIds, d.storedBundle view epoch = some c := by
        intro c hc
        have hc' := List.mem_map_of_mem (f := some) hc
        rw [← hbundles] at hc'
        obtain ⟨epoch, hepoch, hbundle⟩ := List.mem_map.mp hc'
        exact ⟨epoch, mem_activeEpochs.mp hepoch, hbundle⟩
      obtain ⟨epoch, hepoch, ha⟩ := hstored a ha
      obtain ⟨epoch', hepoch', hb⟩ := hstored b hb
      exact Option.some.inj (ha.symm.trans ((heq epoch hepoch epoch' hepoch').trans hb))
    have hsame : (order.copyOf entries).map (fun entry => entry.2.bundle) =
        entries.map (fun entry => entry.2.bundle) :=
      eq_of_perm_of_all_eq ((order.perm entries).map _) hall
    have hlist : (TrustPackageService.trustPackageOf
        ⟨order.copyOf entries, certificates⟩).selfSignedBundles.map some =
        config.activeEpochs.map (d.storedBundle view) := by
      rw [hbundles, ← hsame]
      rfl
    exact ⟨hlist, head?_of_map_some hlist⟩

end

/-! Two epochs with different bundles, on an instance whose map keeps the order and on one
whose map rotates it. -/

namespace Sample

theorem loads_default : decoding.Loads twoBackups defaultConfig
    [(0, ⟨backupOf 1, bundleOf (backupOf 1)⟩)] [] := ⟨by decide, by decide⟩

end Sample

theorem listsInEpochOrder_one_epoch :
    (∀ epoch ∈ defaultConfig.activeSelfSignedCertificateIds,
      ∀ epoch' ∈ defaultConfig.activeSelfSignedCertificateIds,
        Sample.decoding.storedBundle Sample.twoBackups epoch =
          Sample.decoding.storedBundle Sample.twoBackups epoch') ∧
      ListsInEpochOrder Sample.decoding defaultConfig Sample.twoBackups := by
  have hone : ∀ epoch ∈ defaultConfig.activeSelfSignedCertificateIds,
      ∀ epoch' ∈ defaultConfig.activeSelfSignedCertificateIds,
        Sample.decoding.storedBundle Sample.twoBackups epoch =
          Sample.decoding.storedBundle Sample.twoBackups epoch' := by
    intro epoch hepoch epoch' hepoch'
    rw [List.mem_singleton.mp hepoch, List.mem_singleton.mp hepoch']
  exact ⟨hone, (listsInEpochOrder_iff Sample.loads_default).mpr hone⟩

/-- With epochs 0 and 1 active the order is lost, and two instances that loaded the same
storage with the same config sign with different bundles. -/
theorem first_bundle_differs :
    ¬ ListsInEpochOrder Sample.decoding Sample.twoEpochs Sample.twoBackups ∧
      ∃ state state',
        FreshlyLoads Sample.decoding Sample.insertionOrder Sample.twoEpochs Sample.twoBackups
          state ∧
        FreshlyLoads Sample.decoding rotatedOrder Sample.twoEpochs Sample.twoBackups state' ∧
        (TrustPackageService.trustPackageOf state).selfSignedBundles.head? ≠
          (TrustPackageService.trustPackageOf state').selfSignedBundles.head? := by
  refine ⟨fun hlists => ?_, _, _, Sample.loads_twoBackups.freshlyLoads,
    Sample.loads_twoBackups.freshlyLoads, by decide⟩
  exact absurd (hlists.map_copyOf Sample.loads_twoBackups rotatedOrder) (by decide)

end Mbs
