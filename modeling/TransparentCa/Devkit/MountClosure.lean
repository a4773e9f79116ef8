import TransparentCa.Devkit.MountScan

/- When the search for external mounts ends. The loop keeps a directory from being scanned twice
   by its name, and a directory can have ever longer names: from a link `l` to the directory
   that it stands in, and a link `s` with the target `../l/d` in a directory `d` beside it, come
   `d`, `l/d`, `l/l/d` and so on. The search ends exactly when the names do not grow without
   bound, and then it has gathered every hop. -/
namespace Devkit.ExternalMounts
open Python Posix Worklist

/-! ## The result -/

/-- Every hop of a link that is met under the root or under a directory of the result is
    normalised to a path under the root or in the result. -/
def Closed (fs : FileSystem) (root : Path) (external_paths : List Path) : Prop :=
  ∀ dir, dir = root ∨ dir ∈ external_paths ∧ fs.isDir dir = true →
    ∀ link, Met fs dir link → ∀ hop, Hop fs link hop →
      Under root hop.normpath ∨ hop.normpath ∈ external_paths

/-- The paths among which `get_minimal_mounts` chooses. -/
def Gathered (fs : FileSystem) (root_dir : Path) (existing_mounts external_paths : List Path)
    (path : Path) : Prop :=
  path ∈ external_paths ∨ path ∈ existing_mounts ∨
    (∃ mount ∈ existing_mounts, fs.resolve mount = some path) ∨
    fs.isSymlink root_dir = true ∧ fs.resolve root_dir = some path

/-- The mounts are some of the paths; none lies under another, and every path lies under one. -/
structure MinimalMounts (paths : Path → Prop) (mounts : List Path) : Prop where
  gathered : ∀ p ∈ mounts, paths p
  apart : ∀ p ∈ mounts, ∀ q ∈ mounts, p.IsRelativeTo q → p = q
  covers : ∀ p, paths p → ∃ q ∈ mounts, p.IsRelativeTo q

/-- The names of the directories that are scanned: the root, and the hops outside it that are
    directories, from one to the next. -/
inductive Named (fs : FileSystem) (root : Path) : Path → Prop
  | root : Named fs root root
  | hop {dir link hop : Path} : Named fs root dir → Met fs dir link → Hop fs link hop →
      ¬Under root hop.normpath → fs.isDir hop.normpath = true → Named fs root hop.normpath

/-- The root and the existing mounts can be resolved, and the names of the directories do not
    grow without bound. -/
structure Bounded (fs : FileSystem) (root_dir : Path) (existing_mounts : List Path) : Prop where
  mounts_resolve : ∀ mount ∈ existing_mounts, ∃ path, fs.resolve mount = some path
  names_bounded : ∃ root, fs.resolve root_dir = some root ∧
    ∃ n, ∀ dir, Named fs root dir → dir.parts.length ≤ n

/-! ## Minimal paths -/

theorem minimal_addMinimal {paths : Path → Prop} {minimal : List Path} (h : MinimalMounts paths minimal)
    (path : Path) : MinimalMounts (fun p => paths p ∨ p = path) (addMinimal minimal path) := by
  unfold addMinimal
  split_ifs with hunder
  · obtain ⟨q, hq, hpath⟩ := List.any_eq_true.mp hunder
    refine ⟨fun p hp => .inl (h.gathered p hp), h.apart, fun p hp => ?_⟩
    rcases hp with hp | rfl
    · exact h.covers p hp
    · exact ⟨q, hq, of_decide_eq_true hpath⟩
  · have hnot : ∀ q ∈ minimal, ¬path.IsRelativeTo q := fun q hq hpath =>
      hunder (List.any_eq_true.mpr ⟨q, hq, decide_eq_true hpath⟩)
    have hmem : ∀ p, p ∈ minimal.filter (fun p => ¬p.IsRelativeTo path) ++ [path] ↔
        p ∈ minimal ∧ ¬p.IsRelativeTo path ∨ p = path := by
      intro p
      rw [List.mem_append, List.mem_filter, decide_eq_true_eq, List.mem_singleton]
    refine ⟨fun p hp => ?_, fun p hp q hq hpq => ?_, fun p hp => ?_⟩
    · exact ((hmem p).mp hp).imp_left (fun hp => h.gathered p hp.1)
    · rcases (hmem p).mp hp with hp | rfl
      · rcases (hmem q).mp hq with hq | rfl
        · exact h.apart p hp.1 q hq.1 hpq
        · exact absurd hpq hp.2
      · rcases (hmem q).mp hq with hq | rfl
        · exact absurd hpq (hnot q hq.1)
        · rfl
    · rcases hp with hp | rfl
      · obtain ⟨q, hq, hpq⟩ := h.covers p hp
        -- The path that covered it may lie under the new one, which then covers both.
        by_cases hqpath : q.IsRelativeTo path
        · exact ⟨path, (hmem path).mpr (.inr rfl), hpq.trans hqpath⟩
        · exact ⟨q, (hmem q).mpr (.inl ⟨hq, hqpath⟩), hpq⟩
      · exact ⟨p, (hmem p).mpr (.inr rfl), .refl p⟩

theorem minimal_minimizePaths (paths : List Path) :
    MinimalMounts (fun p => p ∈ paths) (minimizePaths paths) := by
  have hfold : ∀ (rest minimal : List Path) (before : Path → Prop), MinimalMounts before minimal →
      MinimalMounts (fun p => before p ∨ p ∈ rest) (rest.foldl addMinimal minimal) := by
    intro rest
    induction rest with
    | nil =>
      intro minimal before h
      simpa using h
    | cons path rest ih =>
      intro minimal before h
      have hrest := ih _ _ (minimal_addMinimal h path)
      rw [List.foldl_cons]
      simpa only [List.mem_cons, or_assoc] using hrest
  have hall := hfold (paths.insertionSort (fun p q => sortKey p ≤ sortKey q)) [] (fun _ => False)
    ⟨fun p hp => absurd hp List.not_mem_nil, fun p hp => absurd hp List.not_mem_nil,
      fun p hp => hp.elim⟩
  unfold minimizePaths
  simpa only [false_or, List.mem_insertionSort] using hall

/-! ## The names of the directories -/

theorem named_iff {fs : FileSystem} {root dir : Path} :
    Named fs root dir ↔ Reached (targets fs root) fs.isDir root dir := by
  constructor
  · intro h
    induction h with
    | root => exact .start
    | hop _ hmet hhop hunder hdir ih =>
      exact .next ih (mem_targets.mpr ⟨_, _, hmet, hhop, rfl, hunder⟩) hdir
  · intro h
    induction h with
    | start => exact .root
    | next _ hmem hdir ih =>
      obtain ⟨link, hop, hmet, hhop, rfl, hunder⟩ := mem_targets.mp hmem
      exact .hop ih hmet hhop hunder hdir

theorem Met.parts {fs : FileSystem} {top link : Path} (h : Met fs top link) :
    ∀ part ∈ link.parts, part ∈ top.parts ∨ part ∈ fs.root.parts := by
  have hname : ∀ {top : Path} {names : List Name} {name : Name}, fs.scandir top = some names →
      name ∈ names → ∀ part ∈ (top.child name).parts, part ∈ top.parts ∨ part ∈ fs.root.parts := by
    intro top names name hscan hmem part hpart
    obtain ⟨k, l, child, -, he⟩ := fs.scandir_eq_some.mp hscan
    rcases List.mem_append.mp hpart with hpart | hpart
    · exact .inl hpart
    · obtain rfl := List.mem_singleton.mp hpart
      exact .inr (Entry.parts_at? he _ (List.mem_append_left _ (List.mem_map_of_mem hmem)))
  induction h with
  | entry hscan hmem _ _ _ => exact hname hscan hmem
  | subdir hscan hmem _ _ _ _ ih =>
    intro part hpart
    rcases ih part hpart with hpart | hpart
    · exact hname hscan hmem part hpart
    · exact .inr hpart

theorem Hop.parts {fs : FileSystem} {link hop : Path} (h : Hop fs link hop) :
    ∀ part ∈ hop.parts, part ∈ link.parts ∨ part ∈ fs.root.parts := by
  have hjoin : ∀ {link target : Path}, fs.readlink link = some target →
      ∀ part ∈ (link.parent.join target).parts, part ∈ link.parts ∨ part ∈ fs.root.parts := by
    intro link target hlink part hpart
    obtain ⟨q, name, k, l, slash, -, -, he⟩ := fs.exists_of_readlink hlink
    have htarget := Entry.parts_at? he
    unfold Posix.Path.join at hpart
    split_ifs at hpart
    · rcases List.mem_append.mp hpart with hpart | hpart
      · exact .inl (List.mem_of_mem_dropLast hpart)
      · exact .inr (htarget part hpart)
    · exact .inr (htarget part hpart)
  induction h with
  | here hlink _ => exact hjoin hlink
  | next hlink _ _ ih =>
    intro part hpart
    rcases ih part hpart with hpart | hpart
    · exact hjoin hlink part hpart
    · exact .inr hpart

/-- The names are made of finitely many parts. -/
theorem Named.parts {fs : FileSystem} {root dir : Path} (h : Named fs root dir) :
    ∀ part ∈ dir.parts, part ∈ root.parts ++ fs.root.parts := by
  induction h with
  | root => exact fun part hpart => List.mem_append_left _ hpart
  | hop _ hmet hhop _ _ ih =>
    intro part hpart
    rcases hhop.parts part (Posix.Path.mem_parts_normpath hpart) with hpart | hpart
    · rcases hmet.parts part hpart with hpart | hpart
      · exact ih part hpart
      · exact List.mem_append_right _ hpart
    · exact List.mem_append_right _ hpart

theorem finite_iff_bounded {fs : FileSystem} {root : Path} :
    Set.Finite {dir | Reached (targets fs root) fs.isDir root dir} ↔
      ∃ n, ∀ dir, Named fs root dir → dir.parts.length ≤ n := by
  constructor
  · intro h
    refine ⟨h.toFinset.sup (fun dir => dir.parts.length), fun dir hdir => ?_⟩
    exact Finset.le_sup (f := fun dir : Path => dir.parts.length)
      (h.mem_toFinset.mpr (named_iff.mp hdir))
  · intro ⟨n, hn⟩
    refine (Posix.Path.finite_of_length_le (root.parts ++ fs.root.parts) n).subset (fun dir hdir => ?_)
    have hnamed := named_iff.mpr hdir
    exact ⟨hn dir hnamed, hnamed.parts⟩

/-! ## The run -/

theorem listExternalMounts_eq_ok {fs : FileSystem} {fuel : Nat} {root_dir : Path}
    {external_paths : List Path}
    (h : listExternalMounts fs fuel root_dir = .ok (some external_paths)) :
    ∃ root, fs.resolve root_dir = some root ∧ root.Normal ∧
      run (scanDir fs root) fuel [] ⟨[], [root]⟩ = some external_paths := by
  unfold listExternalMounts at h
  split at h
  · cases h
  · next root hroot => exact ⟨root, hroot, fs.normal_of_resolve hroot, Except.ok.inj h⟩

/-- What a search has gathered when it ends. -/
theorem closed_of_run {fs : FileSystem} {fuel : Nat} {root : Path} (hroot : root.Normal)
    {external_paths : List Path}
    (h : run (scanDir fs root) fuel [] ⟨[], [root]⟩ = some external_paths) :
    Closed fs root external_paths := by
  obtain ⟨-, hmem⟩ := run_eq_some (scanDir_eq hroot) .init h
  intro dir hdir link hlink hop hhop
  have hreached : Reached (targets fs root) fs.isDir root dir := by
    rcases hdir with rfl | ⟨hdir, hisDir⟩
    · exact .start
    · obtain ⟨x, hx, htarget⟩ := (hmem dir).mp hdir
      exact .next hx htarget hisDir
  by_cases hunder : Under root hop.normpath
  · exact .inl hunder
  · exact .inr ((hmem hop.normpath).mpr
      ⟨dir, hreached, mem_targets.mpr ⟨link, hop, hlink, hhop, rfl, hunder⟩⟩)

theorem mapM_resolvePath {fs : FileSystem} {mounts : List Path}
    (h : ∀ mount ∈ mounts, ∃ path, fs.resolve mount = some path) :
    mounts.mapM (resolvePath fs) = .ok (mounts.filterMap fs.resolve) := by
  induction mounts with
  | nil => rfl
  | cons mount mounts ih =>
    obtain ⟨path, hpath⟩ := h mount List.mem_cons_self
    have hhead : resolvePath fs mount = .ok path := by rw [resolvePath, hpath]
    rw [List.mapM_cons, hhead, ih (fun m hm => h m (List.mem_cons_of_mem mount hm)),
      List.filterMap_cons_some hpath]
    rfl

theorem getMinimalMounts_of_list {fs : FileSystem} {fuel : Nat} {root_dir root : Path}
    {existing_mounts external_paths : List Path}
    (hlist : listExternalMounts fs fuel root_dir = .ok (some external_paths))
    (hroot : fs.resolve root_dir = some root)
    (hmounts : ∀ mount ∈ existing_mounts, ∃ path, fs.resolve mount = some path) :
    ∃ mounts, getMinimalMounts fs fuel root_dir existing_mounts = .ok (some mounts) ∧
      MinimalMounts (Gathered fs root_dir existing_mounts external_paths) mounts := by
  let root_mounts := if fs.isSymlink root_dir = true then [root] else []
  let all_paths :=
    (external_paths ++ existing_mounts ++ existing_mounts.filterMap fs.resolve ++ root_mounts).dedup
  have hrootMounts : rootMounts fs root_dir = .ok root_mounts := by
    dsimp only [rootMounts, resolvePath, root_mounts]
    rw [hroot]
    split_ifs <;> rfl
  have hlast : ∀ p, p ∈ root_mounts ↔
      fs.isSymlink root_dir = true ∧ fs.resolve root_dir = some p := by
    intro p
    dsimp only [root_mounts]
    rw [hroot, Option.some.injEq]
    split_ifs with hlink
    · rw [List.mem_singleton, and_iff_right hlink, eq_comm]
    · exact iff_of_false List.not_mem_nil (fun h => hlink h.1)
  have hgathered : (fun p => p ∈ all_paths) =
      Gathered fs root_dir existing_mounts external_paths := by
    funext p
    rw [List.mem_dedup, List.mem_append, List.mem_append, List.mem_append, List.mem_filterMap,
      hlast, Gathered, or_assoc, or_assoc]
  refine ⟨minimizePaths all_paths, ?_, hgathered ▸ minimal_minimizePaths all_paths⟩
  rw [getMinimalMounts, hlist]
  show (existing_mounts.mapM (resolvePath fs)).bind _ = _
  rw [mapM_resolvePath hmounts]
  show (rootMounts fs root_dir).bind _ = _
  rw [hrootMounts]
  rfl

theorem resolve_of_getMinimalMounts {fs : FileSystem} {fuel : Nat} {root_dir : Path}
    {existing_mounts mounts : List Path}
    (h : getMinimalMounts fs fuel root_dir existing_mounts = .ok (some mounts)) :
    ∀ mount ∈ existing_mounts, ∃ path, fs.resolve mount = some path := by
  obtain ⟨result, -, h⟩ := bind_eq_ok.mp h
  cases result with
  | none => cases h
  | some external_paths =>
    obtain ⟨resolved, hresolved, -⟩ := bind_eq_ok.mp h
    intro mount hmount
    obtain ⟨path, -, hpath⟩ := mem_of_mapM_eq_ok hresolved hmount
    unfold resolvePath at hpath
    split at hpath
    · cases hpath
    · next resolvedPath hsome => exact ⟨resolvedPath, hsome⟩

/-- A search that ends has met directories under names of bounded length only. -/
theorem bounded_of_list {fs : FileSystem} {fuel : Nat} {root_dir : Path}
    {external_paths : List Path}
    (h : listExternalMounts fs fuel root_dir = .ok (some external_paths)) :
    ∃ root, fs.resolve root_dir = some root ∧
      ∃ n, ∀ dir, Named fs root dir → dir.parts.length ≤ n := by
  obtain ⟨root, hroot, hnormal, hrun⟩ := listExternalMounts_eq_ok h
  exact ⟨root, hroot, finite_iff_bounded.mp (run_eq_some (scanDir_eq hnormal) .init hrun).1⟩

/-- The search ends with every hop gathered, and the mounts are the minimal paths, exactly when
    the names of the directories stay within a bound. -/
theorem getMinimalMounts_iff (fs : FileSystem) (root_dir : Path) (existing_mounts : List Path) :
    (∃ fuel root external_paths mounts, fs.resolve root_dir = some root ∧
        listExternalMounts fs fuel root_dir = .ok (some external_paths) ∧
        Closed fs root external_paths ∧
        getMinimalMounts fs fuel root_dir existing_mounts = .ok (some mounts) ∧
        MinimalMounts (Gathered fs root_dir existing_mounts external_paths) mounts) ↔
      Bounded fs root_dir existing_mounts := by
  constructor
  · intro ⟨fuel, root, external_paths, mounts, _, hlist, _, hmounts, _⟩
    exact ⟨resolve_of_getMinimalMounts hmounts, bounded_of_list hlist⟩
  · intro ⟨hmounts, root, hroot, hbounded⟩
    have hnormal := fs.normal_of_resolve hroot
    obtain ⟨fuel, external_paths, hrun⟩ :=
      (run_ends_iff (scanDir_eq hnormal)).mpr (finite_iff_bounded.mpr hbounded)
    have hlist : listExternalMounts fs fuel root_dir = .ok (some external_paths) := by
      rw [listExternalMounts, hroot]
      exact congrArg Except.ok hrun
    obtain ⟨mounts, hget, hminimal⟩ := getMinimalMounts_of_list hlist hroot hmounts
    exact ⟨fuel, root, external_paths, mounts, hroot, hlist, closed_of_run hnormal hrun, hget, hminimal⟩

/-! ## Names without end -/

namespace Growing

theorem isName_r : IsName (py "r") := by decide
theorem isName_x : IsName (py "x") := by decide
theorem isName_e : IsName (py "e") := by decide
theorem isName_l : IsName (py "l") := by decide
theorem isName_d : IsName (py "d") := by decide
theorem isName_s : IsName (py "s") := by decide

def r : Name := ⟨py "r", isName_r⟩
def x : Name := ⟨py "x", isName_x⟩
def e : Name := ⟨py "e", isName_e⟩
def l : Name := ⟨py "l", isName_l⟩
def d : Name := ⟨py "d", isName_d⟩
def s : Name := ⟨py "s", isName_s⟩

/-- `../l/d` -/
def back : Path := ⟨.none, [.parent, .name l, .name d]⟩

/-- `/r/x -> /e/d`, `/e/l -> .` and `/e/d/s -> ../l/d`. -/
def tree : Entry Name :=
  .dir [r, e] (fun name =>
    if name = r then .dir [x] (fun _ => .link ⟨.slash, [.name e, .name d]⟩ false)
    else .dir [l, d] (fun name =>
      if name = l then .link ⟨.none, []⟩ false
      else .dir [s] (fun _ => .link back false)))

theorem tree_isDir : tree.isDir = true := rfl

theorem cwd_isDir : (tree.at? []).any Entry.isDir = true := rfl

def fs : FileSystem := ⟨tree, [], tree_isDir, cwd_isDir⟩

def root : Path := ⟨.slash, [.name r]⟩

/-- The directory `/e/d` under the name `/e/l/…/l/d`. -/
def dir (n : Nat) : Path := ⟨.slash, .name e :: (List.replicate n (.name l) ++ [.name d])⟩

theorem at_r : fs.root.at? [r] = some (.dir [x] (fun _ => .link ⟨.slash, [.name e, .name d]⟩ false)) := rfl

theorem at_l : fs.root.at? [e, l] = some (.link ⟨.none, []⟩ false) := rfl

theorem at_d : fs.root.at? [e, d] =
    some (.dir [s] (fun _ => .link back false)) := rfl

theorem at_s : fs.root.at? [e, d, s] = some (.link back false) := rfl

theorem follows_links (n : Nat) :
    FileSystem.Follows fs n [e] (List.replicate n (.name l) ++ [.name d]) [e, d] := by
  induction n with
  | zero => exact .entry at_d rfl (.done _)
  | succ n ih =>
    have hlink : FileSystem.Follows fs (0 + n + 1) [e]
        (.name l :: (List.replicate n (.name l) ++ [.name d])) [e, d] :=
      .link at_l (.done [e]) (fun h => nomatch h) ih
    rwa [Nat.zero_add] at hlink

theorem resolves_dir (n : Nat) : fs.Resolves n (dir n) [e, d] :=
  FileSystem.Follows.entry (l := []) (n := e) rfl rfl (follows_links n)

theorem isDir_dir (n : Nat) : fs.isDir (dir n) = true :=
  fs.isDir_iff.mpr ⟨n, [e, d], resolves_dir n, rfl⟩

theorem not_under_dir (n : Nat) : ¬Under root (dir n) := by
  intro h
  have hhead := (List.cons_prefix_cons.mp h).1
  exact absurd (Posix.Part.name.inj hhead) (by decide)

theorem normpath_dir (n : Nat) : (dir n).normpath = dir n := by
  refine Posix.Path.normpath_of_names (fun part hpart => ?_)
  rcases List.mem_cons.mp hpart with rfl | hpart
  · exact fun heq => nomatch heq
  · rcases List.mem_append.mp hpart with hpart | hpart
    · rw [List.eq_of_mem_replicate hpart]
      exact fun heq => nomatch heq
    · rw [List.mem_singleton.mp hpart]
      exact fun heq => nomatch heq

/-- Going back from the directory and on through the link makes its name longer. -/
theorem normpath_join (n : Nat) :
    ((dir n).join back).normpath = dir (n + 1) := by
  have hdir : (dir n).parts.foldl (Posix.Path.normAppend .slash) [] =
      (.name e :: List.replicate n (.name l)) ++ [.name d] :=
    congrArg Posix.Path.parts (normpath_dir n)
  have hback : Posix.Path.normAppend .slash ((.name e :: List.replicate n (.name l)) ++ [.name d])
      .parent = .name e :: List.replicate n (.name l) := by
    rw [Posix.Path.normAppend, List.getLast?_concat]
    exact List.dropLast_concat
  show (⟨.slash, ((dir n).parts ++ back.parts).foldl (Posix.Path.normAppend .slash) []⟩ : Path) = _
  rw [List.foldl_append, hdir, back, List.foldl_cons, hback, dir, List.replicate_succ']
  rfl

theorem resolves_root : fs.Resolves 0 root [r] := .entry (l := []) (n := r) rfl rfl (.done _)

/-- The link in the root leads to the directory. -/
theorem named_zero : Named fs root (dir 0) := by
  have hscan : fs.scandir root = some [x] := fs.scandir_eq_some.mpr ⟨0, [r], _, resolves_root, rfl⟩
  have hread : fs.readlink (root.child x) = some (dir 0) :=
    (fs.readlink_child resolves_root).mpr ⟨false, rfl⟩
  have hmet : Met fs root (root.child x) := by
    refine .entry hscan List.mem_cons_self ?_ (by decide) (fun h => ?_)
    · rw [FileSystem.isSymlink, hread]
      rfl
    · exact absurd h.1 (by decide)
  have hhop : Hop fs (root.child x) (dir 0) :=
    .here hread (fs.pathExists_iff.mpr ⟨0, [e, d], resolves_dir 0⟩)
  have hnamed := Named.hop .root hmet hhop
  rw [normpath_dir] at hnamed
  exact hnamed (not_under_dir 0) (isDir_dir 0)

/-- The link in the directory leads to the directory under a longer name. -/
theorem named_succ {n : Nat} (h : Named fs root (dir n)) : Named fs root (dir (n + 1)) := by
  have hscan : fs.scandir (dir n) = some [s] :=
    fs.scandir_eq_some.mpr ⟨n, [e, d], _, resolves_dir n, at_d⟩
  have hread : fs.readlink ((dir n).child s) = some back :=
    (fs.readlink_child (resolves_dir n)).mpr ⟨false, at_s⟩
  have hmet : Met fs (dir n) ((dir n).child s) := by
    refine .entry hscan List.mem_cons_self ?_ (by decide) (fun h => ?_)
    · rw [FileSystem.isSymlink, hread]
      rfl
    · exact absurd h.1 (by decide)
  have hrest : FileSystem.Follows fs 1 [e, d] [.parent, .name l, .name d] [e, d] :=
    .parent rfl (follows_links 1)
  have hresolves : fs.Resolves (n + 1) ((dir n).join back) [e, d] :=
    FileSystem.Follows.append (resolves_dir n) hrest
  have hhop : Hop fs ((dir n).child s) ((dir n).join back) := by
    have hhere := Hop.here hread
    rw [FileSystem.parent_child] at hhere
    exact hhere (fs.pathExists_iff.mpr ⟨n + 1, [e, d], hresolves⟩)
  have hnamed := Named.hop h hmet hhop
  rw [normpath_join] at hnamed
  exact hnamed (not_under_dir (n + 1)) (isDir_dir (n + 1))

theorem named_dir (n : Nat) : Named fs root (dir n) := by
  induction n with
  | zero => exact named_zero
  | succ n ih => exact named_succ ih

theorem resolve_root : fs.resolve root = some root := by
  have hreal : fs.realpathFrom [] (FileSystem.begin root fs.cwd) root.parts = .ok [r] := by
    show fs.realpathFrom [] [] [.name r] = .ok [r]
    rw [FileSystem.realpathFrom]
    split
    · next hlink =>
      cases at_r.symm.trans hlink
    · rw [FileSystem.realpathFrom]
      rfl
  exact fs.resolve_eq_some hreal (fs.stat_eq_ok.mpr ⟨0, resolves_root⟩)

end Growing

theorem not_getMinimalMounts_ends :
    ¬∀ (fs : FileSystem) (root_dir : Path) (existing_mounts : List Path),
      ∃ fuel root external_paths mounts, fs.resolve root_dir = some root ∧
        listExternalMounts fs fuel root_dir = .ok (some external_paths) ∧
        Closed fs root external_paths ∧
        getMinimalMounts fs fuel root_dir existing_mounts = .ok (some mounts) ∧
        MinimalMounts (Gathered fs root_dir existing_mounts external_paths) mounts := by
  intro h
  obtain ⟨fuel, root, external_paths, mounts, -, hlist, -⟩ := h Growing.fs Growing.root []
  obtain ⟨root', hroot, n, hn⟩ := bounded_of_list hlist
  obtain rfl := Option.some.inj (Growing.resolve_root.symm.trans hroot)
  have hlen := hn (Growing.dir n) (Growing.named_dir n)
  simp only [Growing.dir, List.length_cons, List.length_append, List.length_replicate] at hlen
  omega

end Devkit.ExternalMounts
