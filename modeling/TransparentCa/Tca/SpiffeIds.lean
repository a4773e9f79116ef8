import TransparentCa.Lib.PrefixCode
import TransparentCa.Tca.Modifiers
import TransparentCa.Tca.PolicyV2

/- The names of workloads. The modifier joins the fields of a policy by slashes, as they are,
   and nothing keeps slashes out of the fields. Two names that are equal have equally many
   slashes, so when the fields of two policies differ in their slashes at one place at most
   they differ nowhere, and the name can be read back field by field. -/
namespace Tca
open Java PrefixCode

namespace PolicyV2Mapper

theorem toPolicy_operator {proto : PolicyV2.Policy} {policy : Policy}
    (h : toPolicy proto = .ok policy) :
    policy.operatorDomain = proto.operatorDomain ∧ policy.operatorRole = proto.operatorRole := by
  unfold toPolicy at h
  split at h
  · cases h
  · split at h
    · cases h
    · obtain ⟨rvs, -, h⟩ := except_bind_eq_ok.mp h
      obtain ⟨attributes, -, h⟩ := except_bind_eq_ok.mp h
      rw [← Except.ok.inj h]
      exact ⟨rfl, rfl⟩

end PolicyV2Mapper

namespace SubjectAlternativeNameModifier

/-- A publisher id is split at its first `@`, and the halves change places. -/
theorem toSpiffeIdPublisher_ok {publisherId publisher : JString}
    (h : toSpiffeIdPublisher publisherId = .ok publisher) :
    ∃ role domain, ch '@' ∉ role ∧ publisherId = role ++ ch '@' :: domain ∧
      publisher = domain ++ ch '/' :: role := by
  unfold toSpiffeIdPublisher at h
  simp only at h
  split at h
  · cases h
  · next hne =>
    have hin : ch '@' ∈ publisherId := by
      by_contra hnot
      exact hne (List.idxOf_eq_length hnot)
    obtain ⟨role, domain, rfl, hrole⟩ := List.eq_append_cons_of_mem hin
    have hindex : (role ++ ch '@' :: domain).idxOf (ch '@') = role.length := by
      rw [List.idxOf_append_of_notMem hrole, List.idxOf_cons_self, Nat.add_zero]
    rw [hindex] at h
    refine ⟨role, domain, hrole, rfl, ?_⟩
    rw [← Except.ok.inj h]
    simp [u]

/-- The name, cut at the slashes the modifier puts. -/
theorem san_ok {policy : Policy} {trustDomain name : JString}
    (h : san policy trustDomain = .ok name) :
    ∃ role domain, ch '@' ∉ role ∧ policy.publisherId = role ++ ch '@' :: domain ∧
      name = u "spiffe://" ++ (policy.operatorDomain ++ (u "." ++ trustDomain ++ ch '/' ::
        (u "operator/" ++ policy.operatorDomain ++ ch '/' :: (policy.operatorRole ++ ch '/' ::
          (u "publisher/" ++ (domain ++ ch '/' :: (role ++ ch '/' ::
            (u "workload/" ++ policy.workloadId)))))))) := by
  unfold san spiffeId at h
  obtain ⟨publisher, hpublisher, hname⟩ := except_bind_eq_ok.mp h
  obtain ⟨role, domain, hrole, hid, rfl⟩ := toSpiffeIdPublisher_ok hpublisher
  refine ⟨role, domain, hrole, hid, ?_⟩
  rw [← Except.ok.inj hname]
  simp [u]

/-- The fields that the name is put together from. The halves of the publisher id are what
stands behind its first `@` and what stands before it. -/
def nameFields (proto : PolicyV2.Policy) : Fin 5 → JString :=
  ![proto.operatorDomain, proto.operatorRole,
    (proto.publisherId.dropWhile (· != ch '@')).tail,
    proto.publisherId.takeWhile (· != ch '@'), proto.workloadId]

/-- All fields but one have as many slashes in the one policy as in the other. -/
def AlikeButOne (fields fields' : Fin 5 → JString) : Prop :=
  ∃ i, ∀ j, j ≠ i → (fields j).count (ch '/') = (fields' j).count (ch '/')

instance (fields fields' : Fin 5 → JString) : Decidable (AlikeButOne fields fields') :=
  inferInstanceAs (Decidable (∃ i, ∀ j, j ≠ i → _ = _))

/-- It is enough that four of the fields hold no slash in either policy. -/
theorem AlikeButOne.of_notMem {fields fields' : Fin 5 → JString} (i : Fin 5)
    (h : ∀ j, j ≠ i → ch '/' ∉ fields j ∧ ch '/' ∉ fields' j) : AlikeButOne fields fields' := by
  refine ⟨i, fun j hj => ?_⟩
  rw [List.count_eq_zero.mpr (h j hj).1, List.count_eq_zero.mpr (h j hj).2]

/-- The name as a function of its fields, cut at the slashes the modifier puts. -/
def joined (trustDomain : JString) (fields : Fin 5 → JString) : JString :=
  u "spiffe://" ++ (fields 0 ++ (u "." ++ trustDomain ++ ch '/' ::
    (u "operator/" ++ fields 0 ++ ch '/' :: (fields 1 ++ ch '/' ::
      (u "publisher/" ++ (fields 2 ++ ch '/' :: (fields 3 ++ ch '/' ::
        (u "workload/" ++ fields 4))))))))

theorem halves_of_publisherId {role domain : JString} (hrole : ch '@' ∉ role) :
    (role ++ ch '@' :: domain).takeWhile (· != ch '@') = role ∧
      ((role ++ ch '@' :: domain).dropWhile (· != ch '@')).tail = domain := by
  have hall : ∀ c ∈ role, (c != ch '@') = true := by
    intro c hc
    rw [bne_iff_ne]
    rintro rfl
    exact hrole hc
  rw [List.takeWhile_append_of_pos hall, List.dropWhile_append_of_pos hall]
  simp

theorem san_eq_joined {proto : PolicyV2.Policy} {policy : Policy} {trustDomain name : JString}
    (hpolicy : PolicyV2Mapper.toPolicy proto = .ok policy)
    (hname : san policy trustDomain = .ok name) :
    name = joined trustDomain (nameFields proto) ∧
      ∃ role domain, proto.publisherId = role ++ ch '@' :: domain ∧
        nameFields proto 2 = domain ∧ nameFields proto 3 = role := by
  obtain ⟨role, domain, hrole, hid, rfl⟩ := san_ok hname
  obtain ⟨hpub, hwork⟩ := PolicyV2Mapper.toPolicy_ids hpolicy
  obtain ⟨hop, hop'⟩ := PolicyV2Mapper.toPolicy_operator hpolicy
  rw [hpub] at hid
  have hhalves : _ ∧ _ = domain := halves_of_publisherId hrole
  rw [← hid] at hhalves
  obtain ⟨hbefore, hbehind⟩ := hhalves
  refine ⟨?_, role, domain, hid, hbehind, hbefore⟩
  rw [hwork, hop, hop', ← hbefore, ← hbehind]
  rfl

/-- In equal names the slashes of the fields add up to the same number, and the operator
domain stands in the name twice. -/
theorem sum_slashes {trustDomain : JString} {fields fields' : Fin 5 → JString}
    (h : joined trustDomain fields = joined trustDomain fields') :
    2 * (fields 0).count (ch '/') + (fields 1).count (ch '/') + (fields 2).count (ch '/') +
        (fields 3).count (ch '/') + (fields 4).count (ch '/') =
      2 * (fields' 0).count (ch '/') + (fields' 1).count (ch '/') + (fields' 2).count (ch '/') +
        (fields' 3).count (ch '/') + (fields' 4).count (ch '/') := by
  have hcount := congrArg (List.count (ch '/')) h
  simp only [joined, List.count_append, List.count_cons_self] at hcount
  omega

/-- So the one field that may have another number of slashes has the same number as well. -/
theorem slashes_eq {trustDomain : JString} {fields fields' : Fin 5 → JString}
    (h : joined trustDomain fields = joined trustDomain fields')
    (halike : AlikeButOne fields fields') (j : Fin 5) :
    (fields j).count (ch '/') = (fields' j).count (ch '/') := by
  obtain ⟨i, hi⟩ := halike
  by_cases hj : j = i
  · have hsum := sum_slashes h
    subst hj
    have h₀ := hi 0
    have h₁ := hi 1
    have h₂ := hi 2
    have h₃ := hi 3
    have h₄ := hi 4
    fin_cases j <;> simp at h₀ h₁ h₂ h₃ h₄ ⊢ <;> omega
  · exact hi j hj

theorem joined_inj {trustDomain : JString} {fields fields' : Fin 5 → JString}
    (h : joined trustDomain fields = joined trustDomain fields')
    (halike : AlikeButOne fields fields') : fields = fields' := by
  have hslashes := slashes_eq h halike
  -- The operator domain stands before the trust domain, and again behind it.
  have hcut : (fields 0 ++ (u "." ++ trustDomain)) ++ ch '/' :: (u "operator/" ++ fields 0 ++
      ch '/' :: (fields 1 ++ ch '/' :: (u "publisher/" ++ (fields 2 ++ ch '/' :: (fields 3 ++
        ch '/' :: (u "workload/" ++ fields 4)))))) =
      (fields' 0 ++ (u "." ++ trustDomain)) ++ ch '/' :: (u "operator/" ++ fields' 0 ++
        ch '/' :: (fields' 1 ++ ch '/' :: (u "publisher/" ++ (fields' 2 ++ ch '/' :: (fields' 3 ++
          ch '/' :: (u "workload/" ++ fields' 4)))))) := by
    simpa [joined] using h
  obtain ⟨e₀, h⟩ := sep_inj_count (by simp [hslashes 0]) hcut
  have e₀ := List.append_cancel_right e₀
  rw [e₀] at h
  obtain ⟨e₁, h⟩ := sep_inj_count (hslashes 1) (List.cons.inj (List.append_cancel_left h)).2
  obtain ⟨e₂, h⟩ := sep_inj_count (hslashes 2) (List.append_cancel_left h)
  obtain ⟨e₃, h⟩ := sep_inj_count (hslashes 3) h
  have e₄ := List.append_cancel_left h
  funext j
  fin_cases j
  exacts [e₀, e₁, e₂, e₃, e₄]

/-- Two accepted policies that differ in operator domain, operator role, publisher id or
workload id have different names, provided that all their fields but one have the same number
of slashes. -/
theorem names_distinct {proto proto' : PolicyV2.Policy} {policy policy' : Policy}
    {trustDomain name name' : JString} (hpolicy : PolicyV2Mapper.toPolicy proto = .ok policy)
    (hpolicy' : PolicyV2Mapper.toPolicy proto' = .ok policy')
    (hname : san policy trustDomain = .ok name) (hname' : san policy' trustDomain = .ok name')
    (hslashes : AlikeButOne (nameFields proto) (nameFields proto'))
    (hdiffer : proto.operatorDomain ≠ proto'.operatorDomain ∨
      proto.operatorRole ≠ proto'.operatorRole ∨ proto.publisherId ≠ proto'.publisherId ∨
      proto.workloadId ≠ proto'.workloadId) : name ≠ name' := by
  intro heq
  obtain ⟨hjoined, role, domain, hid, hdomain, hrole⟩ := san_eq_joined hpolicy hname
  obtain ⟨hjoined', role', domain', hid', hdomain', hrole'⟩ := san_eq_joined hpolicy' hname'
  have hfields := joined_inj (hjoined ▸ hjoined' ▸ heq) hslashes
  rcases hdiffer with hne | hne | hne | hne
  · exact hne (congrFun hfields 0)
  · exact hne (congrFun hfields 1)
  · refine hne ?_
    rw [hid, hid', ← hrole, ← hrole', ← hdomain, ← hdomain', hfields]
  · exact hne (congrFun hfields 4)

end SubjectAlternativeNameModifier

/-! Policies of one operator, told apart by their publishers alone. -/

namespace Sample

def publishedBy (publisherId : JString) : PolicyV2.Policy :=
  ⟨publisherId, u "w", u "op.example", u "prod", [.oakReferenceValues Bytes.empty],
    some ⟨⟨3600, 0⟩, ⟨none, none⟩, ⟨[], List.nodup_nil⟩⟩⟩

def mappedFrom (publisherId : JString) : Policy :=
  ⟨publisherId, u "w", u "op.example", u "prod", [⟨.oak, Bytes.empty⟩],
    ⟨3600 * nanosPerSecond, ⟨none, none⟩, ⟨[]⟩⟩⟩

theorem toPolicy_publishedBy (publisherId : JString) :
    PolicyV2Mapper.toPolicy (publishedBy publisherId) = .ok (mappedFrom publisherId) := rfl

end Sample

/-- The domain of alice's publisher holds two slashes, and that of bob's none. -/
theorem names_of_alice_and_bob :
    ∃ name name', SubjectAlternativeNameModifier.san (Sample.mappedFrom (u "alice@p/x/y"))
        (u "tca.example") = .ok name ∧
      SubjectAlternativeNameModifier.san (Sample.mappedFrom (u "bob@p.example"))
        (u "tca.example") = .ok name' ∧ name ≠ name' := by
  refine ⟨_, _, rfl, rfl, ?_⟩
  exact SubjectAlternativeNameModifier.names_distinct
    (Sample.toPolicy_publishedBy (u "alice@p/x/y"))
    (Sample.toPolicy_publishedBy (u "bob@p.example")) rfl rfl (by decide)
    (.inr (.inr (.inl (by decide))))

/-- The role `y` at `d/x` and the role `x/y` at `d` have one name. -/
theorem publishers_share_name :
    PolicyV2Mapper.toPolicy (Sample.publishedBy (u "y@d/x")) =
        .ok (Sample.mappedFrom (u "y@d/x")) ∧
      PolicyV2Mapper.toPolicy (Sample.publishedBy (u "x/y@d")) =
        .ok (Sample.mappedFrom (u "x/y@d")) ∧
      (Sample.mappedFrom (u "y@d/x")).publisherId ≠ (Sample.mappedFrom (u "x/y@d")).publisherId ∧
      SubjectAlternativeNameModifier.san (Sample.mappedFrom (u "y@d/x")) (u "tca.example") =
        .ok (u "spiffe://op.example.tca.example/operator/op.example/prod/publisher/d/x/y/workload/w") ∧
      SubjectAlternativeNameModifier.san (Sample.mappedFrom (u "x/y@d")) (u "tca.example") =
        .ok (u "spiffe://op.example.tca.example/operator/op.example/prod/publisher/d/x/y/workload/w") :=
  ⟨rfl, rfl, by decide, by decide, by decide⟩

end Tca
