import TransparentCa.Lib.Prog
import TransparentCa.Lib.Regex
import TransparentCa.Devkit.Tags

/- The cleanup of old images. It asks `docker` for the images that are old enough, keeps
   those of a known name, takes out the tags of the current configuration, and removes the
   rest in batches until the event that cancels it is set. `docker rmi` is one call here,
   from the start of the process to its end or to the event. -/
namespace Devkit
open Python Topological Effects Prog Regex

/-- `ALLOWED_IMAGE_NAMES`. -/
def allowedImageNames : List Str :=
  [py "build-env", py "build-env-debian", py "build-env-rockylinux", py "clion-ide", py "dev-env",
    py "gcloud-env", py "goland-ide", py "ide-env", py "intellij-ide", py "nitro-cli-linux6",
    py "pycharm-ide", py "tool-env", py "vscode-ide", py "vscode-server"]

/-! ## The image pattern -/

def isNewline (c : CodePoint) : Bool := c = ch '\n'

/-- `[^/:]`. -/
def isNameChar (c : CodePoint) : Bool := c ≠ ch '/' && c ≠ ch ':'

/-- `[a-zA-Z0-9_]`. -/
def isArchChar (c : CodePoint) : Bool :=
  (ch 'a' ≤ c && c ≤ ch 'z') || (ch 'A' ≤ c && c ≤ ch 'Z') || (ch '0' ≤ c && c ≤ ch '9') || c = ch '_'

/-- `[a-f0-9]`. -/
def isHexChar (c : CodePoint) : Bool := (ch 'a' ≤ c && c ≤ ch 'f') || (ch '0' ≤ c && c ≤ ch '9')

/-- `.*`. -/
def anything : Item CodePoint := .run (fun c => !isNewline c) 0 none

/-- `/([^/:]+):([a-zA-Z0-9_]+)-([a-f0-9]{64})$`, where `$` also stands before a last newline. -/
def namePattern : List (Item CodePoint) :=
  [.text (py "/"), .group isNameChar 1 none, .text (py ":"), .group isArchChar 1 none,
    .text (py "-"), .group isHexChar 64 (some 64), .run isNewline 0 (some 1)]

/-- `IMAGE_PATTERN`, with each of `(?:.*/)?` and `(?:/.*)?` there or not. -/
def imagePattern : List (List (Item CodePoint)) :=
  [[anything, .text (py "/"), .text (py "devkit"), .text (py "/"), anything] ++ namePattern,
    [anything, .text (py "/"), .text (py "devkit")] ++ namePattern,
    [.text (py "devkit"), .text (py "/"), anything] ++ namePattern,
    [.text (py "devkit")] ++ namePattern]

/-- The groups of `IMAGE_PATTERN.match(img)`: the name, the architecture and the hash. -/
def matchImage (img : Str) : Option (List Str) :=
  imagePattern.findSome? (fun items => fullMatch items img)

def isAllowedImage (img : Str) : Bool :=
  match matchImage img with
  | some (imageName :: _) => imageName ∈ allowedImageNames
  | _ => false

def filterAllowedImages (images : List Str) : List Str := images.filter isAllowedImage

/-! ## The cleanup -/

/-- How a `docker rmi` that was started ends. -/
inductive RemovalEnd where
  | exited (returncode : Int)
  | cancelled

inductive CleanupOp where
  | waitInitialDelay
  | waitInterval
  | isSet
  | images (imagePrefix : Str) (thresholdHours : Int)
  | rmi (tag : Str)

/-- A wait and `is_set` answer whether the event is set, the list of the images its text. -/
abbrev CleanupOp.Val : CleanupOp → Type
  | .waitInitialDelay | .waitInterval | .isSet => Bool
  | .images _ _ => Str
  | .rmi _ => RemovalEnd

abbrev CleanupProg (α : Type) := Prog CleanupOp CleanupOp.Val PyError α

abbrev CleanupEvent := Event CleanupOp CleanupOp.Val PyError

def cleanup (o : CleanupOp) : CleanupProg o.Val := Prog.invoke o

/-- The images of a list that `docker` printed. -/
def imageLines (stdout : Str) : List Str := splitlines (strip stdout)

/-- A list that `docker` does not print is empty. -/
def noImages : PyError → CleanupProg (List Str)
  | .calledProcessError _ | .fileNotFoundError => .ret []
  | e => .raise e

def getImages (imagePrefix : Str) (thresholdDays : Int) : CleanupProg (List Str) :=
  Prog.handle
    (do
      let stdout ← cleanup (.images imagePrefix (thresholdDays * 24))
      return imageLines stdout)
    noImages

/-- An image that cannot be removed is left. -/
def goOn (e : PyError) : CleanupProg RemovalEnd :=
  if e.isException then .ret (.exited 1) else .raise e

def cleanupImagesBatch : List Str → CleanupProg Unit
  | [] => .ret ()
  | tag :: imagesToCleanup => do
    let cancelled ← cleanup .isSet
    if cancelled then return ()
    else
      match ← Prog.handle (cleanup (.rmi tag)) goOn with
      | .cancelled => return ()
      | .exited _ => cleanupImagesBatch imagesToCleanup

def cleanupBatches : List (List Str) → CleanupProg Unit
  | [] => .ret ()
  | batch :: batches => do
    cleanupImagesBatch batch
    let cancelled ← cleanup .waitInterval
    if cancelled then return () else cleanupBatches batches

/-- `all_to_cleanup[i : i + batch_size]` for `i` in `range(0, len(all_to_cleanup), batch_size)`. -/
def batches (batchSize : Int) (allToCleanup : List Str) : Except PyError (List (List Str)) :=
  if batchSize = 0 then .error (.valueError (py "range() arg 3 must not be zero"))
  else if batchSize < 0 then .ok []
  else
    let size := batchSize.toNat
    .ok ((List.range ((allToCleanup.length + size - 1) / size)).map (fun i =>
      (allToCleanup.drop (i * size)).take size))

section
variable (interp : Interpreter) (sorter : Sorter Scalar) (stack : Nat) (files : Files)

/-- Nothing is ignored when the tags cannot be calculated. -/
def getIgnoredImages : Except PyError (List Str) :=
  match getAllDockerImageTags interp sorter stack files with
  | .ok tags => .ok tags
  | .error e => if e.isException then .ok [] else .error e

def getImagesToCleanup (thresholdDays : Int) : CleanupProg (List Str) := do
  let imagePrefix ← Prog.ofExcept (getImagePrefix interp files)
  let allImages ← getImages imagePrefix thresholdDays
  if allImages = [] then return []
  else if filterAllowedImages allImages = [] then return []
  else
    let ignoredImages ← Prog.ofExcept (getIgnoredImages interp sorter stack files)
    return (filterAllowedImages allImages).filter (fun img => img ∉ ignoredImages)

def cleanupImages (batchSize thresholdDays : Int) : CleanupProg Unit := do
  let cancelled ← cleanup .waitInitialDelay
  if cancelled then return ()
  else
    let allToCleanup ← getImagesToCleanup interp sorter stack files thresholdDays
    let batches ← Prog.ofExcept (batches batchSize allToCleanup)
    cleanupBatches batches

end

/-- The image that a call has `docker` remove. -/
def CleanupOp.removes : CleanupOp → Option Str
  | .rmi tag => some tag
  | _ => none

/-- The images passed to `docker rmi`. -/
def removed (tr : List CleanupEvent) : List Str := tr.filterMap (fun ev => ev.op.removes)

end Devkit
