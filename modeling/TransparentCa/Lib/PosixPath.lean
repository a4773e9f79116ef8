import Mathlib.Data.List.Infix
import Mathlib.Data.Set.Finite.List
import Mathlib.Data.Finite.Prod

/- Paths as text is split into them: the names between the slashes, without the empty ones and
   without `.`, and what the text begins with. Names are of any type. -/
namespace Posix

/-- What a path begins with. POSIX keeps `//` apart from `/`. -/
inductive Root where
  | none
  | slash
  | doubleSlash
  deriving DecidableEq

/-- `..` or a name. -/
inductive Part (Name : Type) where
  | parent
  | name (n : Name)
  deriving DecidableEq

structure Path (Name : Type) where
  root : Root
  parts : List (Part Name)
  deriving DecidableEq

namespace Path

variable {Name : Type}

/-- `path.parent`. -/
def parent (p : Path Name) : Path Name := { p with parts := p.parts.dropLast }

/-- `p / q`. -/
def join (p q : Path Name) : Path Name :=
  if q.root = .none then { p with parts := p.parts ++ q.parts } else q

/-- `p / name`. -/
def child (p : Path Name) (n : Name) : Path Name := { p with parts := p.parts ++ [.name n] }

/-- A part behind a normalised path. -/
def normAppend (root : Root) (parts : List (Part Name)) : Part Name → List (Part Name)
  | .name n => parts ++ [.name n]
  | .parent =>
    match parts.getLast? with
    | none => if root = .none then [.parent] else []
    | some .parent => parts ++ [.parent]
    | some (.name _) => parts.dropLast

/-- `os.path.normpath`: no link is read. -/
def normpath (p : Path Name) : Path Name :=
  { p with parts := p.parts.foldl (normAppend p.root) [] }

/-- `p.is_relative_to(q)`. -/
def IsRelativeTo (p q : Path Name) : Prop := p.root = q.root ∧ q.parts <+: p.parts

instance [DecidableEq Name] (p q : Path Name) : Decidable (p.IsRelativeTo q) :=
  inferInstanceAs (Decidable (_ ∧ _))

theorem IsRelativeTo.refl (p : Path Name) : p.IsRelativeTo p := ⟨rfl, List.prefix_rfl⟩

theorem IsRelativeTo.trans {p q r : Path Name} (h : p.IsRelativeTo q) (h' : q.IsRelativeTo r) :
    p.IsRelativeTo r := ⟨h.1.trans h'.1, h'.2.trans h.2⟩

/-- The parts that two lists of parts begin with. -/
def commonParts [DecidableEq Name] : List (Part Name) → List (Part Name) → List (Part Name)
  | a :: l, b :: m => if a = b then a :: commonParts l m else []
  | _, _ => []

/-- `os.path.commonpath([p, q])` of absolute paths. -/
def commonpath [DecidableEq Name] (p q : Path Name) : Path Name :=
  ⟨.slash, commonParts p.parts q.parts⟩

theorem commonParts_eq_left [DecidableEq Name] {l m : List (Part Name)} :
    commonParts l m = l ↔ l <+: m := by
  induction l generalizing m with
  | nil => exact iff_of_true (by cases m <;> rfl) List.nil_prefix
  | cons a l ih =>
    cases m with
    | nil => exact iff_of_false (fun h => nomatch h) (fun h => nomatch List.prefix_nil.mp h)
    | cons b m =>
      rw [commonParts, List.cons_prefix_cons]
      split_ifs with hab
      · rw [List.cons.injEq, ih]
        exact and_congr_left (fun _ => iff_of_true rfl hab)
      · exact iff_of_false (fun h => nomatch h) (fun h => hab h.1)

/-- Normalising keeps parts or takes them away. -/
theorem mem_normAppend {root : Root} {parts : List (Part Name)} {part x : Part Name}
    (h : x ∈ normAppend root parts part) : x ∈ parts ∨ x = part := by
  cases part with
  | name n => exact (List.mem_append.mp h).imp_right List.mem_singleton.mp
  | parent =>
    unfold normAppend at h
    dsimp only at h
    split at h
    · split_ifs at h
      · exact .inr (List.mem_singleton.mp h)
      · exact absurd h List.not_mem_nil
    · exact (List.mem_append.mp h).imp_right List.mem_singleton.mp
    · exact .inl (List.mem_of_mem_dropLast h)

theorem mem_parts_normpath {p : Path Name} {x : Part Name} (h : x ∈ p.normpath.parts) :
    x ∈ p.parts := by
  have hfold : ∀ (parts acc : List (Part Name)), x ∈ parts.foldl (normAppend p.root) acc →
      x ∈ acc ∨ x ∈ parts := by
    intro parts
    induction parts with
    | nil => exact fun acc hx => .inl hx
    | cons part parts ih =>
      intro acc hx
      rcases ih _ hx with hx | hx
      · rcases mem_normAppend hx with hx | rfl
        · exact .inl hx
        · exact .inr List.mem_cons_self
      · exact .inr (List.mem_cons_of_mem part hx)
  exact (hfold p.parts [] h).resolve_left List.not_mem_nil

/-- A path of names behind a slash. -/
structure Normal (p : Path Name) : Prop where
  root_eq : p.root = .slash
  names : ∀ part ∈ p.parts, part ≠ .parent

theorem normpath_of_names {p : Path Name} (h : ∀ part ∈ p.parts, part ≠ .parent) :
    p.normpath = p := by
  have hfold : ∀ parts acc : List (Part Name), (∀ part ∈ parts, part ≠ .parent) →
      parts.foldl (normAppend p.root) acc = acc ++ parts := by
    intro parts
    induction parts with
    | nil => exact fun acc _ => (List.append_nil acc).symm
    | cons part parts ih =>
      intro acc hnames
      cases part with
      | parent => exact absurd rfl (hnames .parent List.mem_cons_self)
      | name n =>
        rw [List.foldl_cons, normAppend, ih _ (fun x hx => hnames x (List.mem_cons_of_mem _ hx)),
          List.append_assoc, List.singleton_append]
  rw [normpath, hfold p.parts [] h]
  rfl

/-- Normalising an absolute path leaves names only. -/
theorem normal_normpath {parts : List (Part Name)} : (normpath ⟨.slash, parts⟩).Normal := by
  have hfold : ∀ parts acc : List (Part Name), (∀ part ∈ acc, part ≠ .parent) →
      ∀ part ∈ parts.foldl (normAppend .slash) acc, part ≠ .parent := by
    intro parts
    induction parts with
    | nil => exact fun acc hacc => hacc
    | cons part parts ih =>
      intro acc hacc
      refine ih _ (fun x hx => ?_)
      cases part with
      | name n =>
        rcases List.mem_append.mp hx with hx | hx
        · exact hacc x hx
        · obtain rfl := List.mem_singleton.mp hx
          exact fun heq => nomatch heq
      | parent =>
        unfold normAppend at hx
        dsimp only at hx
        split at hx
        · exact absurd hx List.not_mem_nil
        · next hlast => exact absurd rfl (hacc .parent (List.mem_of_getLast? hlast))
        · exact hacc x (List.mem_of_mem_dropLast hx)
  exact ⟨rfl, hfold parts [] (fun x hx => absurd hx List.not_mem_nil)⟩

/-- The common path is the first one exactly when the second one begins with it. -/
theorem normpath_commonpath_eq [DecidableEq Name] {p q : Path Name} (h : p.Normal) :
    (p.commonpath q).normpath = p ↔ p.parts <+: q.parts := by
  have hnames : ∀ l m : List (Part Name), (∀ part ∈ l, part ≠ .parent) →
      ∀ part ∈ commonParts l m, part ≠ .parent := by
    intro l
    induction l with
    | nil => exact fun m _ part hpart => absurd hpart (by cases m <;> exact List.not_mem_nil)
    | cons a l ih =>
      intro m hl part hpart
      cases m with
      | nil => exact absurd hpart List.not_mem_nil
      | cons b m =>
        rw [commonParts] at hpart
        split_ifs at hpart
        · rcases List.mem_cons.mp hpart with rfl | hpart
          · exact hl part List.mem_cons_self
          · exact ih m (fun x hx => hl x (List.mem_cons_of_mem a hx)) part hpart
        · exact absurd hpart List.not_mem_nil
  obtain ⟨root, parts⟩ := p
  obtain rfl : root = .slash := h.root_eq
  rw [normpath_of_names (hnames parts q.parts h.names)]
  show (⟨.slash, commonParts parts q.parts⟩ : Path Name) = ⟨.slash, parts⟩ ↔ _
  rw [Path.mk.injEq, commonParts_eq_left]
  exact and_iff_right rfl

/-- Only finitely many paths of bounded length can be made of finitely many parts. -/
theorem finite_of_length_le (alphabet : List (Part Name)) (n : Nat) :
    Set.Finite {p : Path Name | p.parts.length ≤ n ∧ ∀ part ∈ p.parts, part ∈ alphabet} := by
  let Letter := {part : Part Name // part ∈ alphabet}
  have hletters : Finite Letter := alphabet.finite_toSet
  have hwords : Set.Finite {w : List Letter | w.length ≤ n} := List.finite_length_le Letter n
  have hroots : Set.Finite {root : Root | root ∈ [Root.none, .slash, .doubleSlash]} :=
    List.finite_toSet _
  refine ((hroots.prod hwords).image
    (fun pair => (⟨pair.1, pair.2.map Subtype.val⟩ : Path Name))).subset (fun p ⟨hlen, hparts⟩ => ?_)
  refine ⟨(p.root, p.parts.attach.map (fun part => ⟨part.val, hparts part.val part.property⟩)), ?_, ?_⟩
  · refine ⟨?_, ?_⟩
    · cases p.root <;> simp
    · simpa using hlen
  · simp

end Path

end Posix
