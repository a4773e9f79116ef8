import TransparentCa.Throwable

/- Maps and sets of the JDK, as lists without repetitions in the order in which they are
   iterated. `copyOf` makes an immutable copy, whose order is the JDK's own business: it is
   a parameter, and what is proved holds for any. -/
namespace Java

/-- `Map<K, V>`. -/
abbrev JMap (K V : Type) := { entries : List (K × V) // (entries.map Prod.fst).Nodup }

/-- `Set<T>`. -/
abbrev JSet (T : Type) := { elements : List T // elements.Nodup }

/-- In which order immutable collections are iterated. -/
structure ImmutableCollections where
  order : {α : Type} → List α → List α
  perm : ∀ {α : Type} (l : List α), (order l).Perm l

section
variable {K V T : Type} (jdk : ImmutableCollections)

namespace JMap

def empty : JMap K V := ⟨[], List.nodup_nil⟩

def containsKey [DecidableEq K] (m : JMap K V) (k : K) : Bool := k ∈ m.val.map Prod.fst

theorem nodup_put [DecidableEq K] (m : JMap K V) (k : K) (v : V) :
    ((m.val.filter (fun entry => entry.1 ≠ k) ++ [(k, v)]).map Prod.fst).Nodup := by
  rw [List.map_append, List.nodup_append]
  refine ⟨(List.filter_sublist.map Prod.fst).nodup m.property, by simp, ?_⟩
  intro k₁ h₁ k₂ h₂
  obtain ⟨entry, hentry, rfl⟩ := List.mem_map.mp h₁
  rw [List.map_singleton, List.mem_singleton] at h₂
  rw [h₂]
  exact of_decide_eq_true (List.mem_filter.mp hentry).2

/-- `m.put(k, v)`. -/
def put [DecidableEq K] (m : JMap K V) (k : K) (v : V) : JMap K V :=
  ⟨m.val.filter (fun entry => entry.1 ≠ k) ++ [(k, v)], nodup_put m k v⟩

/-- `Map.copyOf(m)`. -/
def copyOf (m : JMap K V) : JMap K V :=
  ⟨jdk.order m.val, ((jdk.perm m.val).map Prod.fst).nodup_iff.mpr m.property⟩

/-- A key that is not there is put behind the others. -/
theorem put_of_notMem [DecidableEq K] {m : JMap K V} {k : K} (h : k ∉ m.val.map Prod.fst) (v : V) :
    (m.put k v).val = m.val ++ [(k, v)] := by
  have hall : m.val.filter (fun entry => entry.1 ≠ k) = m.val := by
    rw [List.filter_eq_self]
    intro entry hentry
    exact decide_eq_true (fun heq => h (heq ▸ List.mem_map_of_mem hentry))
  simp only [put, hall]

/-- What `m.get` finds after a `put`. -/
theorem lookup_put [DecidableEq K] [BEq K] [LawfulBEq K] (m : JMap K V) (k k' : K) (v : V) :
    (m.put k v).val.lookup k' = if k' = k then some v else m.val.lookup k' := by
  have hfilter : (m.val.filter (fun entry => entry.1 ≠ k)).lookup k' =
      if k' = k then none else m.val.lookup k' := by
    induction m.val with
    | nil => split <;> rfl
    | cons entry entries ih =>
      by_cases hentry : entry.1 = k
      · rw [List.filter_cons_of_neg (by simp [hentry]), ih]
        split_ifs with hk
        · rfl
        · rw [List.lookup_cons, beq_false_of_ne (fun h => hk (h.trans hentry))]
      · rw [List.filter_cons_of_pos (by simp [hentry]), List.lookup_cons, List.lookup_cons, ih]
        split_ifs with hk
        · rw [beq_false_of_ne (fun h => hentry (h.symm.trans hk))]
        · rfl
  show (m.val.filter (fun entry => entry.1 ≠ k) ++ [(k, v)]).lookup k' = _
  rw [List.lookup_append, hfilter]
  split_ifs with hk
  · rw [hk, Option.none_or, List.lookup_cons_self]
  · rw [List.lookup_cons, beq_false_of_ne hk, List.lookup_nil, Option.or_none]

end JMap

namespace JSet

def empty : JSet T := ⟨[], List.nodup_nil⟩

/-- `s.add(t)`, for a set that keeps the order of insertion. -/
def add [DecidableEq T] (s : JSet T) (t : T) : JSet T :=
  if h : t ∈ s.val then s
  else ⟨s.val ++ [t], List.nodup_append.mpr ⟨s.property, List.nodup_singleton t,
    fun a ha b hb => by rw [List.mem_singleton.mp hb]; exact fun heq => h (heq ▸ ha)⟩⟩

/-- `new LinkedHashSet<>(l)`. -/
def ofList [DecidableEq T] (l : List T) : JSet T := l.foldl add empty

/-- `Set.copyOf(s)`. -/
def copyOf (s : JSet T) : JSet T := ⟨jdk.order s.val, (jdk.perm s.val).nodup_iff.mpr s.property⟩

theorem mem_add [DecidableEq T] (s : JSet T) (t a : T) : a ∈ (s.add t).val ↔ a ∈ s.val ∨ a = t := by
  unfold add
  split
  · next h => exact ⟨.inl, fun h' => h'.elim id (fun heq => heq ▸ h)⟩
  · simp

theorem mem_foldl_add [DecidableEq T] (l : List T) (s : JSet T) (a : T) :
    a ∈ (l.foldl add s).val ↔ a ∈ s.val ∨ a ∈ l := by
  induction l generalizing s with
  | nil => simp
  | cons t l ih =>
    rw [List.foldl_cons, ih, mem_add, List.mem_cons]
    tauto

@[simp] theorem mem_ofList [DecidableEq T] (l : List T) (a : T) : a ∈ (ofList l).val ↔ a ∈ l := by
  rw [ofList, mem_foldl_add]
  simp [empty]

end JSet
end
end Java
