import TransparentCa.Devkit.Json
import TransparentCa.Lib.Pathlib
import TransparentCa.Lib.Worklist

/- The mounts that a container needs beside the workspace. `list_external_mounts` goes through
   the symbolic links under a directory and under every directory outside it that they lead to,
   and gathers the paths outside it that the chains of links pass; `get_minimal_mounts` leaves
   out the paths that lie under others. The file system does not change meanwhile. -/
namespace Devkit.ExternalMounts
open Python Posix Worklist

/-- A text that can be the name of an entry of a directory. -/
def IsName (s : Str) : Prop := s ≠ [] ∧ s ≠ py "." ∧ s ≠ py ".." ∧ ch '/' ∉ s

instance (s : Str) : Decidable (IsName s) := inferInstanceAs (Decidable (_ ∧ _))

abbrev Name := {s : Str // IsName s}

abbrev Path := Posix.Path Name

abbrev FileSystem := Posix.FileSystem Name

/-- `name.startswith("bazel-")`. -/
def isBazel (name : Name) : Bool := (py "bazel-").isPrefixOf name.val

def isVenv (name : Name) : Bool := name.val = py ".venv"

/-- What is done with a hop that exists. `found` are the `external_paths`. -/
def addExternal (fs : FileSystem) (scan_dir_abs abs_target : Path) (m : Pending Path) :
    Pending Path :=
  let norm_target := abs_target.normpath
  let common := scan_dir_abs.commonpath norm_target
  if common.normpath ≠ scan_dir_abs then m.visit fs.isDir norm_target else m

/-- The loop of `_process_symlink`. -/
def followChain (fs : FileSystem) (scan_dir_abs : Path) (visited_in_chain : List Path)
    (current_path : Path) (m : Pending Path) : Pending Path :=
  match _hlink : fs.readlink current_path with
  | none => m
  | some target =>
    if current_path ∈ visited_in_chain then m
    else
      let abs_target := current_path.parent.join target
      if _hex : fs.pathExists abs_target = true then
        followChain fs scan_dir_abs (current_path :: visited_in_chain) abs_target
          (addExternal fs scan_dir_abs abs_target m)
      else m
termination_by fs.cost current_path
decreasing_by exact fs.cost_join_lt _hlink _hex

/-- `_process_symlink`. -/
def processSymlink (fs : FileSystem) (path scan_dir_abs : Path) (m : Pending Path) : Pending Path :=
  followChain fs scan_dir_abs [] path m

/-- `os.walk(top, topdown=True, followlinks=False)` where `entry` is what stands at `top`, with
    `.venv` taken out of `dirs` before the walk goes on. -/
def walk (fs : FileSystem) (top : Path) (entry : Entry Name) :
    List (Path × List Name × List Name) :=
  match entry with
  | .dir names child =>
    let dirs := (names.filter (fun name => fs.isDir (top.child name))).filter (fun name => !isVenv name)
    let files := names.filter (fun name => !fs.isDir (top.child name))
    (top, dirs, files) :: dirs.flatMap (fun name => walk fs (top.child name) (child name))
  | _ => []

/-- A directory that cannot be read is left out. -/
def walkFrom (fs : FileSystem) (top : Path) : List (Path × List Name × List Name) :=
  match fs.stat top with
  | .ok l =>
    match fs.root.at? l with
    | some entry => walk fs top entry
    | none => []
  | .error _ => []

/-- The body of the worklist loop. -/
def scanDir (fs : FileSystem) (scan_dir_abs current_dir : Path) (m : Pending Path) : Pending Path :=
  (walkFrom fs current_dir).foldl
    (fun m triple =>
      let root_path := triple.1
      let all_entries := triple.2.1 ++ triple.2.2
      all_entries.foldl
        (fun m name =>
          let path := root_path.child name
          if fs.isSymlink path then
            if isBazel name then m else processSymlink fs path scan_dir_abs m
          else m)
        m)
    m

/-- `list_external_mounts`, for at most `fuel` rounds of the worklist loop. -/
def listExternalMounts (fs : FileSystem) (fuel : Nat) (scan_dir : Path) :
    Except PyError (Option (List Path)) :=
  match fs.resolve scan_dir with
  | none => .error .exception
  | some scan_dir_abs => .ok (run (scanDir fs scan_dir_abs) fuel [] ⟨[], [scan_dir_abs]⟩)

def partText : Posix.Part Name → Str
  | .parent => py ".."
  | .name n => n.val

/-- What comes before the parts when the text of a path is split at its slashes. -/
def rootTexts : Posix.Root → List Str
  | .none => []
  | .slash => [[]]
  | .doubleSlash => [[], []]

/-- Paths are compared by their texts, split at the slashes. -/
def sortKey (path : Path) : List Str :=
  if path.parts = [] then
    (if path.root = .none then [py "."] else rootTexts path.root ++ [[]])
  else rootTexts path.root ++ path.parts.map partText

def addMinimal (minimal_paths : List Path) (path : Path) : List Path :=
  if minimal_paths.any (fun p => path.IsRelativeTo p) then minimal_paths
  else minimal_paths.filter (fun p => ¬p.IsRelativeTo path) ++ [path]

/-- `_minimize_paths`. -/
def minimizePaths (paths : List Path) : List Path :=
  (paths.insertionSort (fun p q => sortKey p ≤ sortKey q)).foldl addMinimal []

def resolvePath (fs : FileSystem) (path : Path) : Except PyError Path :=
  match fs.resolve path with
  | none => .error .exception
  | some resolved => .ok resolved

/-- A root that is a link is mounted where it leads. -/
def rootMounts (fs : FileSystem) (root_dir : Path) : Except PyError (List Path) :=
  if fs.isSymlink root_dir then (resolvePath fs root_dir).map (fun path => [path]) else .ok []

/-- `get_minimal_mounts`. -/
def getMinimalMounts (fs : FileSystem) (fuel : Nat) (root_dir : Path)
    (existing_mounts : List Path) : Except PyError (Option (List Path)) := do
  match ← listExternalMounts fs fuel root_dir with
  | none => return none
  | some symlink_paths =>
    let resolved ← existing_mounts.mapM (resolvePath fs)
    let root_mounts ← rootMounts fs root_dir
    return some (minimizePaths (symlink_paths ++ existing_mounts ++ resolved ++ root_mounts).dedup)

end Devkit.ExternalMounts
