import TransparentCa.Devkit.ExternalMounts

/- What one round of the worklist loop does. `Met` says which links the walk of a directory
   meets and `Hop` which paths the chain of a link passes; a round notes the hops that are
   normalised to a path outside the root. -/
namespace Devkit.ExternalMounts
open Python Posix Worklist

/-- The walk from a directory meets the link. -/
inductive Met (fs : FileSystem) : Path → Path → Prop
  | entry {top : Path} {names : List Name} {name : Name} :
      fs.scandir top = some names → name ∈ names → fs.isSymlink (top.child name) = true →
      isBazel name = false → ¬(isVenv name = true ∧ fs.isDir (top.child name) = true) →
      Met fs top (top.child name)
  | subdir {top link : Path} {names : List Name} {name : Name} :
      fs.scandir top = some names → name ∈ names → fs.isSymlink (top.child name) = false →
      fs.isDir (top.child name) = true → isVenv name = false → Met fs (top.child name) link →
      Met fs top link

/-- The chain that begins with a link passes the path, which exists. -/
inductive Hop (fs : FileSystem) : Path → Path → Prop
  | here {link target : Path} : fs.readlink link = some target →
      fs.pathExists (link.parent.join target) = true → Hop fs link (link.parent.join target)
  | next {link target hop : Path} : fs.readlink link = some target →
      fs.pathExists (link.parent.join target) = true → Hop fs (link.parent.join target) hop →
      Hop fs link hop

/-- The path is the root or a path in it, going by the names. -/
def Under (root p : Path) : Prop := root.parts <+: p.parts

instance (root p : Path) : Decidable (Under root p) := inferInstanceAs (Decidable (_ <+: _))

/-! ## The chain of a link -/

/-- The hops of a chain, one after the other. -/
def chain (fs : FileSystem) (path : Path) : List Path :=
  match _hlink : fs.readlink path with
  | none => []
  | some target =>
    if _hex : fs.pathExists (path.parent.join target) = true then
      path.parent.join target :: chain fs (path.parent.join target)
    else []
termination_by fs.cost path
decreasing_by exact fs.cost_join_lt _hlink _hex

theorem mem_chain {fs : FileSystem} {path hop : Path} : hop ∈ chain fs path ↔ Hop fs path hop := by
  constructor
  · fun_induction chain fs path with
    | case1 path hlink => exact fun h => absurd h List.not_mem_nil
    | case2 path target hlink hex ih =>
      intro h
      rcases List.mem_cons.mp h with rfl | h
      · exact .here hlink hex
      · exact .next hlink hex (ih h)
    | case3 path target hlink hex => exact fun h => absurd h List.not_mem_nil
  · intro h
    induction h with
    | here hlink hex =>
      rw [chain, hlink]
      dsimp only
      rw [dif_pos hex]
      exact List.mem_cons_self
    | next hlink hex _ ih =>
      rw [chain, hlink]
      dsimp only
      rw [dif_pos hex]
      exact List.mem_cons_of_mem _ ih

/-- What the loop of `_process_symlink` adds: the hops outside the root. -/
def external (root link : Path) (fs : FileSystem) : List Path :=
  ((chain fs link).map Posix.Path.normpath).filter (fun p => ¬Under root p)

theorem addExternal_eq {fs : FileSystem} {root : Path} (hroot : root.Normal) (hop : Path)
    (m : Pending Path) : addExternal fs root hop m =
      if Under root hop.normpath then m else m.visit fs.isDir hop.normpath := by
  dsimp only [addExternal]
  by_cases h : Under root hop.normpath
  · rw [if_pos h, if_neg (not_not.mpr ((Posix.Path.normpath_commonpath_eq hroot).mpr h))]
  · rw [if_neg h, if_pos (fun heq => h ((Posix.Path.normpath_commonpath_eq hroot).mp heq))]

/-- A chain never comes back to a path it has passed: each hop has fewer links on its way. -/
theorem followChain_eq {fs : FileSystem} {root : Path} (hroot : root.Normal) (visited : List Path)
    (path : Path) (m : Pending Path) (hvisited : ∀ v ∈ visited, fs.cost path < fs.cost v) :
    followChain fs root visited path m = (external root path fs).foldl (Pending.visit fs.isDir) m := by
  fun_induction followChain fs root visited path m with
  | case1 visited path m hlink =>
    rw [external, chain, hlink]
    rfl
  | case2 visited path m target hlink hmem => exact absurd (hvisited path hmem) (lt_irrefl _)
  | case3 visited path m target hlink hmem next hex ih =>
    have hlt : fs.cost next < fs.cost path := fs.cost_join_lt hlink hex
    have hchain : chain fs path = next :: chain fs next := by
      rw [chain, hlink]
      dsimp only
      rw [dif_pos hex]
    rw [ih ?_, addExternal_eq hroot, external, external, hchain, List.map_cons]
    · split_ifs with hunder
      · rw [List.filter_cons_of_neg (by simpa using hunder)]
      · rw [List.filter_cons_of_pos (by simpa using hunder), List.foldl_cons]
    · intro v hv
      rcases List.mem_cons.mp hv with rfl | hv
      · exact hlt
      · exact hlt.trans (hvisited v hv)
  | case4 visited path m target hlink hmem next hex =>
    rw [external, chain, hlink]
    dsimp only
    rw [dif_neg hex]
    rfl

/-! ## The walk of a directory -/

/-- The links that a walk has processed. -/
def links (fs : FileSystem) (triples : List (Path × List Name × List Name)) : List Path :=
  triples.flatMap (fun triple =>
    ((triple.2.1 ++ triple.2.2).filter (fun name =>
      fs.isSymlink (triple.1.child name) && !isBazel name)).map triple.1.child)

theorem mem_links {fs : FileSystem} {triples : List (Path × List Name × List Name)} {link : Path} :
    link ∈ links fs triples ↔ ∃ root dirs files, (root, dirs, files) ∈ triples ∧
      ∃ name ∈ dirs ++ files, fs.isSymlink (root.child name) = true ∧ isBazel name = false ∧
        root.child name = link := by
  simp only [links, List.mem_flatMap, List.mem_map, List.mem_filter, Bool.and_eq_true,
    Bool.not_eq_true', Prod.exists, and_assoc]

/-- What is known of a name in a directory that a path leads to. -/
structure Inside (fs : FileSystem) (top : Path) (l : List Name) (name : Name) (e : Entry Name) :
    Prop where
  entry : fs.root.at? (l ++ [name]) = some e
  symlink : fs.isSymlink (top.child name) = e.isLink
  resolves : e.isLink = false → ∃ k, fs.Resolves k (top.child name) (l ++ [name])

theorem inside {fs : FileSystem} {k : Nat} {top : Path} {l names : List Name}
    {child : Name → Entry Name} (h : fs.Resolves k top l)
    (hdir : fs.root.at? l = some (.dir names child)) {name : Name} (hname : name ∈ names) :
    Inside fs top l name (child name) := by
  have hentry : fs.root.at? (l ++ [name]) = some (child name) := by
    rw [Entry.at?_append, hdir, Option.bind_some]
    exact Entry.at?_singleton.mpr ⟨names, child, rfl, hname, rfl⟩
  refine ⟨hentry, ?_, fun hlink => ?_⟩
  · rw [FileSystem.isSymlink, FileSystem.readlink, fs.lstat_child h, hentry]
    cases child name <;> rfl
  · exact ⟨k + 0, FileSystem.Follows.append h (.entry hentry hlink (.done _))⟩

theorem walkFrom_of_resolves {fs : FileSystem} {k : Nat} {top : Path} {l : List Name}
    {e : Entry Name} (h : fs.Resolves k top l) (he : fs.root.at? l = some e) :
    walkFrom fs top = walk fs top e := by
  rw [walkFrom, fs.stat_eq_ok.mpr ⟨k, h⟩]
  dsimp only
  rw [he]

theorem mem_dirs {fs : FileSystem} {top : Path} {names : List Name} {name : Name} :
    name ∈ (names.filter (fun name => fs.isDir (top.child name))).filter (fun name => !isVenv name) ↔
      name ∈ names ∧ fs.isDir (top.child name) = true ∧ isVenv name = false := by
  rw [List.mem_filter, List.mem_filter, Bool.not_eq_true', and_assoc]

/-- A walk meets a link in one of the directories that it yields. -/
theorem met_of_mem_walk {fs : FileSystem} {e : Entry Name} {k : Nat} {top : Path} {l : List Name}
    (h : fs.Resolves k top l) (he : fs.root.at? l = some e) {link : Path}
    (hlink : link ∈ links fs (walk fs top e)) : Met fs top link := by
  induction e generalizing k top l with
  | file => exact absurd hlink List.not_mem_nil
  | link target slash => exact absurd hlink List.not_mem_nil
  | dir names child ih =>
    have hscan : fs.scandir top = some names := fs.scandir_eq_some.mpr ⟨k, l, child, h, he⟩
    obtain ⟨root, dirs, files, htriple, name, hname, hsymlink, hbazel, rfl⟩ := mem_links.mp hlink
    rw [walk] at htriple
    rcases List.mem_cons.mp htriple with heq | htriple
    · cases heq
      rcases List.mem_append.mp hname with hname | hname
      · obtain ⟨hmem, -, hvenv⟩ := mem_dirs.mp hname
        exact .entry hscan hmem hsymlink hbazel (fun hboth => by rw [hvenv] at hboth; cases hboth.1)
      · obtain ⟨hmem, hfile⟩ := List.mem_filter.mp hname
        rw [Bool.not_eq_true'] at hfile
        exact .entry hscan hmem hsymlink hbazel (fun hboth => by rw [hfile] at hboth; cases hboth.2)
    · obtain ⟨sub, hsub, hin⟩ := List.mem_flatMap.mp htriple
      obtain ⟨hmem, hdir, hvenv⟩ := mem_dirs.mp hsub
      have hinside := inside h he hmem
      -- A link is in `dirs` too, and the walk does not go into it.
      have hnotLink : (child sub).isLink = false := by
        cases hchild : child sub with
        | link target slash =>
          rw [hchild] at hin
          exact absurd hin List.not_mem_nil
        | _ => rfl
      obtain ⟨k', hk'⟩ := hinside.resolves hnotLink
      refine .subdir hscan hmem (hinside.symlink.trans hnotLink) hdir hvenv
        (ih sub hk' hinside.entry ?_)
      exact mem_links.mpr ⟨root, dirs, files, hin, name, hname, hsymlink, hbazel, rfl⟩

theorem mem_walk_of_met {fs : FileSystem} {top link : Path} (h : Met fs top link) :
    link ∈ links fs (walkFrom fs top) := by
  induction h with
  | @entry top names name hscan hname hsymlink hbazel hvenv =>
    obtain ⟨k, l, child, h, he⟩ := fs.scandir_eq_some.mp hscan
    rw [walkFrom_of_resolves h he, walk]
    refine mem_links.mpr ⟨_, _, _, List.mem_cons_self, name, ?_, hsymlink, hbazel, rfl⟩
    rw [List.mem_append, mem_dirs, List.mem_filter, Bool.not_eq_true']
    cases hdir : fs.isDir (top.child name) with
    | true => exact .inl ⟨hname, rfl, by simpa [hdir] using hvenv⟩
    | false => exact .inr ⟨hname, rfl⟩
  | @subdir top link names name hscan hname hsymlink hdir hvenv _ ih =>
    obtain ⟨k, l, child, h, he⟩ := fs.scandir_eq_some.mp hscan
    have hinside := inside h he hname
    obtain ⟨k', hk'⟩ := hinside.resolves (hinside.symlink.symm.trans hsymlink)
    rw [walkFrom_of_resolves hk' hinside.entry] at ih
    obtain ⟨root, dirs, files, htriple, found⟩ := mem_links.mp ih
    rw [walkFrom_of_resolves h he, walk]
    exact mem_links.mpr ⟨root, dirs, files, List.mem_cons_of_mem _ (List.mem_flatMap.mpr
      ⟨name, mem_dirs.mpr ⟨hname, hdir, hvenv⟩, htriple⟩), found⟩

theorem mem_links_walkFrom {fs : FileSystem} {top link : Path} :
    link ∈ links fs (walkFrom fs top) ↔ Met fs top link := by
  refine ⟨fun h => ?_, mem_walk_of_met⟩
  unfold walkFrom at h
  split at h
  · next l hstat =>
    split at h
    · next e he =>
      obtain ⟨k, hk⟩ := fs.stat_eq_ok.mp hstat
      exact met_of_mem_walk hk he h
    · exact absurd h List.not_mem_nil
  · exact absurd h List.not_mem_nil

/-! ## One round -/

/-- The paths that a round notes, in the order in which they are met. -/
def targets (fs : FileSystem) (root dir : Path) : List Path :=
  (links fs (walkFrom fs dir)).flatMap (fun link => external root link fs)

theorem mem_targets {fs : FileSystem} {root dir target : Path} :
    target ∈ targets fs root dir ↔
      ∃ link hop, Met fs dir link ∧ Hop fs link hop ∧ hop.normpath = target ∧ ¬Under root target := by
  simp only [targets, external, List.mem_flatMap, mem_links_walkFrom, List.mem_filter, List.mem_map,
    mem_chain, decide_eq_true_eq]
  constructor
  · intro ⟨link, hlink, ⟨hop, hhop, heq⟩, hunder⟩
    exact ⟨link, hop, hlink, hhop, heq, hunder⟩
  · intro ⟨link, hop, hlink, hhop, heq, hunder⟩
    exact ⟨link, hlink, ⟨hop, hhop, heq⟩, hunder⟩

theorem scanDir_eq {fs : FileSystem} {root : Path} (hroot : root.Normal) (dir : Path)
    (m : Pending Path) :
    scanDir fs root dir m = (targets fs root dir).foldl (Pending.visit fs.isDir) m := by
  have hnames : ∀ (top : Path) (names : List Name) (m : Pending Path),
      names.foldl (fun m name =>
        if fs.isSymlink (top.child name) then
          if isBazel name then m else processSymlink fs (top.child name) root m
        else m) m =
      (((names.filter (fun name => fs.isSymlink (top.child name) && !isBazel name)).map
        top.child).flatMap (fun link => external root link fs)).foldl (Pending.visit fs.isDir) m := by
    intro top names
    induction names with
    | nil => exact fun m => rfl
    | cons name names ih =>
      intro m
      rw [List.foldl_cons, ih]
      by_cases hlink : fs.isSymlink (top.child name) = true
      · by_cases hbazel : isBazel name = true
        · rw [List.filter_cons_of_neg (by simp [hbazel]), if_pos hlink, if_pos hbazel]
        · rw [List.filter_cons_of_pos (by simp [hlink, hbazel]), if_pos hlink, if_neg hbazel,
            List.map_cons, List.flatMap_cons, List.foldl_append, processSymlink,
            followChain_eq hroot _ _ _ (fun v hv => absurd hv List.not_mem_nil)]
      · rw [List.filter_cons_of_neg (by simp [hlink]), if_neg hlink]
  rw [scanDir, targets, links, List.flatMap_assoc]
  generalize walkFrom fs dir = triples
  induction triples generalizing m with
  | nil => rfl
  | cons triple triples ih =>
    have hhead := hnames triple.1 (triple.2.1 ++ triple.2.2) m
    rw [List.foldl_cons, ih, List.flatMap_cons]
    exact (congrArg (fun m => List.foldl _ m _) hhead).trans List.foldl_append.symm

end Devkit.ExternalMounts
