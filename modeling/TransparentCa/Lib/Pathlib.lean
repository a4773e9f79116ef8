import Mathlib.Data.ENat.Basic
import TransparentCa.Lib.FileSystem

/- What Python's `pathlib` and `os` say of a path in a file system that does not change. An
   error of the system is taken as "no" by the tests and ends the rest without a result. -/
namespace Posix
namespace FileSystem

variable {Name : Type} [DecidableEq Name] (fs : FileSystem Name)

/-- `path.exists()`. -/
def pathExists (p : Path Name) : Bool :=
  match fs.stat p with
  | .ok _ => true
  | .error _ => false

/-- `path.is_dir()`. -/
def isDir (p : Path Name) : Bool :=
  match fs.stat p with
  | .ok l => fs.isDirAt l
  | .error _ => false

/-- `os.scandir(path)`. -/
def scandir (p : Path Name) : Option (List Name) :=
  match fs.stat p with
  | .ok l =>
    match fs.root.at? l with
    | some (.dir names _) => some names
    | _ => none
  | .error _ => none

/-- `os.lstat(path)`: a link at the end is not followed. -/
def lstat (p : Path Name) : Option (Entry Name) :=
  match p.parts.getLast? with
  | some (.name n) =>
    match fs.stat p.parent with
    | .ok l => fs.root.at? (l ++ [n])
    | .error _ => none
  | _ =>
    match fs.stat p with
    | .ok l => fs.root.at? l
    | .error _ => none

/-- `path.readlink()`, `none` where `path.is_symlink()` does not hold. -/
def readlink (p : Path Name) : Option (Path Name) :=
  match fs.lstat p with
  | some (.link target _) => some target
  | _ => none

def isSymlink (p : Path Name) : Bool := (fs.readlink p).isSome

/-- `os.path.realpath`: an error is the path as far as it got, when a link is met on the way to
    itself. A link that was resolved before leads to the same place again. -/
def realpathFrom (seen : List (List Name)) (path : List Name) :
    List (Part Name) → Except (List (Part Name)) (List Name)
  | [] => .ok path
  | .parent :: rest => realpathFrom seen path.dropLast rest
  | .name n :: rest =>
    match _hlink : fs.root.at? (path ++ [n]) with
    | some (.link target _) =>
      if hseen : path ++ [n] ∈ seen then .error ((path ++ [n]).map .name ++ rest)
      else
        match realpathFrom ((path ++ [n]) :: seen) (begin target path) target.parts with
        | .error unresolved => .error (unresolved ++ rest)
        | .ok path => realpathFrom seen path rest
    | _ => realpathFrom seen (path ++ [n]) rest
termination_by parts => ((fs.root.links.filter (fun l => l ∉ seen)).length, parts.length)
decreasing_by
  · exact Prod.Lex.right _ (Nat.lt_succ_self _)
  · refine Prod.Lex.left _ _ ?_
    have hsub : (fs.root.links.filter (fun l => l ∉ (path ++ [n]) :: seen)) =
        (fs.root.links.filter (fun l => l ∉ seen)).filter (fun l => l ≠ path ++ [n]) := by
      rw [List.filter_filter]
      refine List.filter_congr (fun l _ => ?_)
      simp [not_or]
    rw [hsub]
    exact List.length_filter_lt_length_iff_exists.mpr ⟨path ++ [n],
      List.mem_filter.mpr ⟨Entry.mem_links _hlink, by simpa using hseen⟩, by simp⟩
  · exact Prod.Lex.right _ (Nat.lt_succ_self _)
  · exact Prod.Lex.right _ (Nat.lt_succ_self _)

/-- `path.resolve()`, `none` for the `RuntimeError` of a path whose links never end. -/
def resolve (p : Path Name) : Option (Path Name) :=
  let parts :=
    match fs.realpathFrom [] (begin p fs.cwd) p.parts with
    | .ok path => path.map .name
    | .error unresolved => unresolved
  let real : Path Name := Path.normpath ⟨.slash, parts⟩
  match fs.stat real with
  | .error .loop => none
  | _ => some real

/-! ## Facts -/

theorem pathExists_iff {p : Path Name} :
    fs.pathExists p = true ↔ ∃ k l, fs.Resolves k p l := by
  unfold pathExists
  cases h : fs.stat p with
  | ok l => exact iff_of_true rfl (exists_comm.mp ⟨l, fs.stat_eq_ok.mp h⟩)
  | error e =>
    refine iff_of_false Bool.false_ne_true (fun ⟨k, l, hk⟩ => ?_)
    rw [fs.stat_eq_ok.mpr ⟨k, hk⟩] at h
    cases h

theorem isDir_iff {p : Path Name} :
    fs.isDir p = true ↔ ∃ k l, fs.Resolves k p l ∧ fs.isDirAt l = true := by
  unfold isDir
  constructor
  · intro h
    split at h
    · next l hl =>
      obtain ⟨k, hk⟩ := fs.stat_eq_ok.mp hl
      exact ⟨k, l, hk, h⟩
    · cases h
  · intro ⟨k, l, hk, hdir⟩
    rw [fs.stat_eq_ok.mpr ⟨k, hk⟩]
    exact hdir

theorem scandir_eq_some {p : Path Name} {names : List Name} :
    fs.scandir p = some names ↔
      ∃ k l child, fs.Resolves k p l ∧ fs.root.at? l = some (.dir names child) := by
  unfold scandir
  constructor
  · intro h
    split at h
    · next l hl =>
      obtain ⟨k, hk⟩ := fs.stat_eq_ok.mp hl
      split at h
      · next hdir =>
        obtain rfl := Option.some.inj h
        exact ⟨k, l, _, hk, hdir⟩
      · cases h
    · cases h
  · intro ⟨k, l, child, hk, hdir⟩
    rw [fs.stat_eq_ok.mpr ⟨k, hk⟩]
    dsimp only
    rw [hdir]

omit [DecidableEq Name] in
theorem parent_child (p : Path Name) (n : Name) : (p.child n).parent = p := by
  cases p
  simp [Path.child, Path.parent]

theorem lstat_child {k : Nat} {p : Path Name} {l : List Name} (h : fs.Resolves k p l) (n : Name) :
    fs.lstat (p.child n) = fs.root.at? (l ++ [n]) := by
  have hlast : (p.child n).parts.getLast? = some (.name n) := List.getLast?_concat
  rw [lstat, hlast]
  dsimp only
  rw [parent_child, fs.stat_eq_ok.mpr ⟨k, h⟩]

theorem readlink_child {k : Nat} {p : Path Name} {l : List Name} (h : fs.Resolves k p l) {n : Name}
    {target : Path Name} : fs.readlink (p.child n) = some target ↔
      ∃ slash, fs.root.at? (l ++ [n]) = some (.link target slash) := by
  rw [readlink, fs.lstat_child h]
  constructor
  · intro hlink
    split at hlink
    · next slash heq =>
      obtain rfl := Option.some.inj hlink
      exact ⟨slash, heq⟩
    · cases hlink
  · intro ⟨slash, heq⟩
    rw [heq]

theorem isDirAt_dropLast {l : List Name} (h : fs.isDirAt l = true) :
    fs.isDirAt l.dropLast = true := by
  induction l using List.reverseRecOn with
  | nil => exact h
  | append_singleton l n _ =>
    obtain ⟨e, he, -⟩ := (Option.any_eq_true _ _).mp h
    rw [List.dropLast_concat]
    exact isDirAt_of_at? he

theorem isDirAt_root : fs.isDirAt [] = true := by
  rw [isDirAt, Entry.at?]
  exact fs.root_isDir

theorem notLink_of_isDirAt {l : List Name} (h : fs.isDirAt l = true) :
    ∀ e, fs.root.at? l = some e → e.isLink = false := by
  intro e he
  rw [isDirAt, he] at h
  cases e with
  | link target slash => cases h
  | _ => rfl

/-- Following a path never stops at a link. -/
theorem Follows.notLink {fs : FileSystem Name} {k : Nat} {l m : List Name}
    {parts : List (Part Name)} (h : Follows fs k l parts m)
    (hl : ∀ e, fs.root.at? l = some e → e.isLink = false) :
    ∀ e, fs.root.at? m = some e → e.isLink = false := by
  induction h with
  | done l => exact hl
  | parent hdirAt _ ih => exact ih (fs.notLink_of_isDirAt (fs.isDirAt_dropLast hdirAt))
  | entry heq hno _ ih =>
    refine ih (fun e he => ?_)
    cases heq.symm.trans he
    exact hno
  | @link j k l t m n rest target slash heq _ _ _ ihTarget ih =>
    refine ih (ihTarget ?_)
    unfold begin
    split_ifs
    · exact fs.notLink_of_isDirAt (isDirAt_of_at? heq)
    · exact fs.notLink_of_isDirAt fs.isDirAt_root

theorem isDirAt_begin (p : Path Name) : fs.isDirAt (begin p fs.cwd) = true := by
  unfold begin
  split_ifs
  · exact fs.cwd_isDir
  · exact fs.isDirAt_root

/-- A link stands under a name in a directory. -/
theorem exists_of_readlink {p target : Path Name} (h : fs.readlink p = some target) :
    ∃ q n k l slash, p = q.child n ∧ fs.Resolves k q l ∧
      fs.root.at? (l ++ [n]) = some (.link target slash) := by
  rw [readlink] at h
  split at h
  · next slash heq =>
    obtain rfl := Option.some.inj h
    unfold lstat at heq
    split at heq
    · next n hlast =>
      split at heq
      · next l hl =>
        obtain ⟨k, hk⟩ := fs.stat_eq_ok.mp hl
        refine ⟨p.parent, n, k, l, slash, ?_, hk, heq⟩
        obtain ⟨root, parts⟩ := p
        obtain ⟨parts', rfl⟩ := List.getLast?_eq_some_iff.mp hlast
        simp [Path.child, Path.parent]
      · cases heq
    · split at heq
      · next l hl =>
        obtain ⟨k, hk⟩ := fs.stat_eq_ok.mp hl
        cases hk.notLink (fs.notLink_of_isDirAt (fs.isDirAt_begin p)) _ heq
      · cases heq
  · cases h

theorem normal_of_resolve {p r : Path Name} (h : fs.resolve p = some r) : r.Normal := by
  unfold resolve at h
  dsimp only at h
  split at h
  · cases h
  · obtain rfl := Option.some.inj h
    exact Path.normal_normpath

/-- A path that ends somewhere is resolved to the place. -/
theorem resolve_eq_some {p : Path Name} {l : List Name}
    (hreal : fs.realpathFrom [] (begin p fs.cwd) p.parts = .ok l)
    (hstat : fs.stat ⟨.slash, l.map .name⟩ = .ok l) :
    fs.resolve p = some ⟨.slash, l.map .name⟩ := by
  have hnorm : Path.normpath (⟨.slash, l.map .name⟩ : Path Name) = ⟨.slash, l.map .name⟩ := by
    refine Path.normpath_of_names (fun part hpart => ?_)
    obtain ⟨n, -, rfl⟩ := List.mem_map.mp hpart
    exact fun heq => nomatch heq
  rw [resolve, hreal]
  dsimp only
  rw [hnorm, hstat]

/-! ## How many links a path has -/

open Classical in
/-- The number of links on the way, if the way ends. -/
noncomputable def cost (p : Path Name) : ℕ∞ :=
  if h : ∃ k l, fs.Resolves k p l then (h.choose : ℕ∞) else ⊤

theorem cost_eq {k : Nat} {p : Path Name} {l : List Name} (h : fs.Resolves k p l) :
    fs.cost p = k := by
  have hex : ∃ k l, fs.Resolves k p l := ⟨k, l, h⟩
  obtain ⟨l', hl'⟩ := hex.choose_spec
  rw [cost, dif_pos hex, (hl'.unique h).1]

/-- Behind a link there is one link less. -/
theorem cost_join_lt {p target : Path Name} (h : fs.readlink p = some target)
    (hex : fs.pathExists (p.parent.join target) = true) :
    fs.cost (p.parent.join target) < fs.cost p := by
  obtain ⟨q, n, i, m, slash, rfl, hq, heq⟩ := fs.exists_of_readlink h
  rw [parent_child] at hex ⊢
  obtain ⟨j, t, ht⟩ := fs.pathExists_iff.mp hex
  rw [fs.cost_eq ht]
  unfold cost
  split_ifs with hp
  · obtain ⟨l, hl⟩ := hp.choose_spec
    generalize hp.choose = k at hl
    obtain ⟨i', j', t', rfl, hi', hj'⟩ :=
      (show Follows fs k (begin q fs.cwd) (q.parts ++ [.name n]) l from hl).split
    obtain ⟨rfl, rfl⟩ := hi'.unique hq
    cases hj' with
    | entry heq' hno _ =>
      cases heq.symm.trans heq'
      cases hno
    | @link a b _ u _ _ _ _ _ heq' hTarget _ _ =>
      cases heq.symm.trans heq'
      refine Nat.cast_lt.mpr ?_
      unfold Path.join at ht
      split_ifs at ht with hroot
      · rw [begin, if_pos hroot] at hTarget
        have := (Follows.unique ht (hi'.append hTarget)).1
        omega
      · rw [begin, if_neg hroot] at hTarget
        rw [Resolves, begin, if_neg hroot] at ht
        have := (ht.unique hTarget).1
        omega
  · exact ENat.natCast_lt_top j

end FileSystem
end Posix
