import TransparentCa.Lib.Prog
import TransparentCa.Devkit.Tags

/- Building the images. For each image of the build order `build_images` calculates the tag,
   puts the build arguments together a second time, and has `docker` find, pull or build
   the image of that tag. The calls are those of the `docker` command; a command that is
   not checked answers its exit code. -/
namespace Devkit
open Python Topological Effects Prog

/-- `docker buildx build` with the values of its options. -/
structure BuildCommand where
  tag : Str
  file : Str
  noCache : Bool
  buildArgs : List Str
  contextPath : Str

inductive DockerOp where
  | imageInspect (tag : Str)
  | manifestInspect (tag : Str)
  | pull (tag : Str)
  | build (command : BuildCommand)
  | push (tag : Str)
  | print (tag : Str)

namespace DockerOp

abbrev Val : DockerOp → Type
  | imageInspect _ | manifestInspect _ | push _ => Int
  | pull _ | build _ | print _ => Unit

/-- The tag a call is about. -/
def tag : DockerOp → Str
  | imageInspect tag | manifestInspect tag | pull tag | push tag | print tag => tag
  | build command => command.tag

end DockerOp

abbrev DockerProg (α : Type) := Prog DockerOp DockerOp.Val PyError α

def docker (o : DockerOp) : DockerProg o.Val := Prog.invoke o

/-- `os.path.dirname(path)`. -/
def dirname (path : Str) : Str :=
  let head := path.rdropWhile (· ≠ ch '/')
  if head.all (· = ch '/') then head else head.rdropWhile (· = ch '/')

/-- The values of `--build-arg`, two elements of the list for each. -/
def buildArgValues : List Str → Except PyError (List Str)
  | [] => .ok []
  | [_] => .error .indexError
  | argName :: argValue :: rest => do
    return (argName ++ py "=" ++ argValue) :: (← buildArgValues rest)

def buildImage (tag dockerfilePath : Str) (buildArgsList : List Str) (contextPath : Str)
    (noCache : Bool) : DockerProg Unit := do
  let values ← Prog.ofExcept (buildArgValues buildArgsList)
  docker (.build ⟨tag, dockerfilePath, noCache, values, contextPath⟩)

def checkIfImageExistsLocally (tag : Str) : DockerProg Bool := do
  return (← docker (.imageInspect tag)) = (0 : Int)

def checkIfImageExistsInRemoteRegistry (tag : Str) : DockerProg Bool := do
  return (← docker (.manifestInspect tag)) = (0 : Int)

/-- `not no_cache and check`. -/
def unlessNoCache (noCache : Bool) (check : DockerProg Bool) : DockerProg Bool :=
  if noCache then .ret false else check

/-- A failed push is only reported. -/
def pushImageToRegistry (tag : Str) : DockerProg Unit := do
  let _ ← docker (.push tag)

/-- What the `except` clauses of `manage_docker_image` do. -/
def exitOnDockerFailure : PyError → DockerProg Unit
  | .calledProcessError returncode =>
    .raise (.systemExit (if returncode ≠ 0 then returncode else 1))
  | .fileNotFoundError => .raise (.systemExit 1)
  | e => .raise e

def manageDockerImage (tag dockerfilePath : Str) (buildArgsList : List Str) (contextPath : Str)
    (localImageMode noCache : Bool) (repo : Str) : DockerProg Unit :=
  let build := buildImage tag dockerfilePath buildArgsList contextPath noCache
  Prog.handle
    (do
      let foundLocally ← unlessNoCache noCache (checkIfImageExistsLocally tag)
      if foundLocally then pure ()
      else if repo = [] || localImageMode then build
      else
        let foundRemotely ← unlessNoCache noCache (checkIfImageExistsInRemoteRegistry tag)
        if foundRemotely then docker (.pull tag)
        else
          build
          pushImageToRegistry tag)
    exitOnDockerFailure

/-- What `build_images` hands to `manage_docker_image` for one image. -/
structure Managed where
  tag : Str
  dockerfile : Dockerfile
  buildArgs : List Str
  localImageMode : Bool
  deriving DecidableEq

/-- The arguments of the dependencies, the name and the tag one after the other. -/
def dependencyArgsForManage (generated : Dict Str) : List (Str × Json) → Except PyError (List Str)
  | [] => .ok []
  | (argName, depImageName) :: dependencies => do
    match ← depImageName.hashable with
    | .str name => do
      let tag ← Dict.getItem generated name
      return argName :: tag :: (← dependencyArgsForManage generated dependencies)
    | _ => .error .keyError

/-- `local_flag or image_conf.get("local", False)`. -/
def isLocal (localFlag : Bool) (imageConf : Json) : Except PyError Bool :=
  if localFlag then .ok true
  else Json.truthy <$> imageConf.get (py "local") (.scalar (.bool false))

namespace DockerBuilder

section
variable (self : DockerBuilder) (interp : Interpreter) (stack : Nat)

/-- The body of the loop of `build_images`, up to `manage_docker_image`. -/
def prepare (localFlag : Bool) (imageName : Scalar) (generated : Dict Str) :
    Except PyError (Managed × Dict Str) := do
  let (tag, generated) ← self.calculateTagForImage interp stack imageName generated
  match imageName with
  | .str name => do
    let imageConf ← Dict.getItem self.imageConfigsMap name
    let localImageMode ← isLocal localFlag imageConf
    match self.findDockerfile name with
    | none => .error (.systemExit 1)
    | some dockerfile => do
      let dependencies ← imageConf.getItem (py "deps")
      let depArgs ← dependencyArgsForManage generated (← dependencies.items)
      let extraArgs := (self.extraSettings name).flatMap (fun (argName, val) =>
        [argName, join (py " ") val])
      return (⟨tag, dockerfile, depArgs ++ extraArgs, localImageMode⟩, generated)
  | _ => .error .keyError

/-- The loop of `build_images`; the image whose tag is printed ends it. -/
def buildEach (localFlag noCache : Bool) (targetImageForTagPrint : Option Str) :
    List Scalar → Dict Str → DockerProg Unit
  | [], _ => .ret ()
  | imageName :: imagesToProcess, generated => do
    let (managed, generated) ← Prog.ofExcept (self.prepare interp stack localFlag imageName generated)
    manageDockerImage managed.tag managed.dockerfile.realpath managed.buildArgs
      (dirname managed.dockerfile.realpath) managed.localImageMode noCache self.repo
    if targetImageForTagPrint.map Scalar.str = some imageName then
      docker (.print managed.tag)
      Prog.raise (.systemExit 0)
    else buildEach localFlag noCache targetImageForTagPrint imagesToProcess generated

def buildImages (sorter : Sorter Scalar) (targetImages : List Str)
    (printTagMode noCache localFlag : Bool) : DockerProg Unit := do
  let imagesToProcess ← Prog.ofExcept (self.getBuildOrder sorter targetImages)
  let targetImageForTagPrint ← Prog.ofExcept
    (if printTagMode then
      match targetImages with
      | target :: _ => .ok (some target)
      | [] => .error .indexError
    else .ok none)
  self.buildEach interp stack localFlag noCache targetImageForTagPrint imagesToProcess []

end
end DockerBuilder
end Devkit
