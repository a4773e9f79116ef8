import TransparentCa.Devkit.Json

/- The files of a devkit and how `DockerBuilder` reads them: `devkit.json`, checked against
   the schema, and the `deps.json` of every search path, which nobody checks. A file that
   is there is given by the outcome of reading it. -/
namespace Devkit
open Python

/-- The parts of the interpreter that the scripts leave the work to: SHA-256 in hexadecimal,
and the text that a value has in an f-string. -/
structure Interpreter where
  hexdigest : List UInt8 → Str
  length_hexdigest : ∀ data, (hexdigest data).length = 64
  format : Json → Str
  format_str : ∀ s, format (.str s) = s

structure Dockerfile where
  realpath : Str
  read : Except PyError (List UInt8)
  deriving DecidableEq

structure SearchPath where
  depsJson : Option (Except PyError Json)
  dockerfile : Str → Option Dockerfile

structure Files where
  devkitJson : Option (Except PyError Json)
  searchPaths : List SearchPath

/-! ## The schema -/

inductive PyType where
  | dict
  | list
  | str
  deriving DecidableEq

def PyType.name : PyType → Str
  | dict => py "dict"
  | list => py "list"
  | str => py "str"

def Json.isInstance (data : Json) (type : PyType) : Bool := data.typeName = type.name

mutual
/-- A schema: the type, the properties, and what is said of other properties. -/
inductive Schema where
  | mk (type : Option PyType) (properties : Properties) (additional : Additional)

inductive Properties where
  | nil
  | cons (key : Str) (schema : Schema) (rest : Properties)

inductive Additional where
  | allowed
  | forbidden
  | each (schema : Schema)
end

def Properties.keys : Properties → List Str
  | .nil => []
  | .cons key _ rest => key :: rest.keys

def Additional.isForbidden : Additional → Bool
  | .forbidden => true
  | _ => false

def invalidType (path : Str) (expected : PyType) (data : Json) : PyError :=
  .valueError (py "Invalid type at '" ++ path ++ py "'. Expected " ++ expected.name ++ py ", got " ++
    data.typeName ++ py ".")

def unexpectedFields (path : Str) (extraKeys : List Str) : PyError :=
  .valueError (py "Unexpected fields at '" ++ path ++ py "': " ++ join (py ", ") (sort extraKeys))

def childPath (path key : Str) : Str := if path = [] then key else path ++ py "." ++ key

mutual
def validateConfig (data : Json) (path : Str) : Schema → Except PyError Unit
  | .mk type properties additional => do
    match type with
    | some expected =>
      if data.isInstance expected then pure () else .error (invalidType path expected data)
    | none => pure ()
    match data with
    | .object fields => do
      let extraKeys := ((fields.map Prod.fst).filter (· ∉ properties.keys)).dedup
      if additional.isForbidden && extraKeys ≠ [] then .error (unexpectedFields path extraKeys)
      else pure ()
      validateProperties fields path properties
      validateAdditional fields path properties.keys additional
    | _ => pure ()

def validateProperties (fields : List (Str × Json)) (path : Str) : Properties → Except PyError Unit
  | .nil => pure ()
  | .cons key schema rest => do
    match fields.lookup key with
    | some value => validateConfig value (childPath path key) schema
    | none => pure ()
    validateProperties fields path rest

def validateAdditional (fields : List (Str × Json)) (path : Str) (known : List Str) :
    Additional → Except PyError Unit
  | .each schema =>
    fields.forM (fun entry =>
      if entry.1 ∈ known then pure () else validateConfig entry.2 (childPath path entry.1) schema)
  | _ => pure ()
end

/-- A field that is a text. -/
def textSchema : Schema := .mk (some .str) .nil .allowed

/-- A field that maps names to texts. -/
def textsSchema : Schema := .mk (some .dict) .nil (.each textSchema)

def registrySchema : Schema :=
  .mk (some .dict)
    (.cons (py "host") textSchema <| .cons (py "project") textSchema <|
      .cons (py "repository") textSchema <| .cons (py "namespace") textSchema .nil)
    .forbidden

def imageSchema : Schema :=
  .mk (some .dict)
    (.cons (py "packages") textsSchema <| .cons (py "keys") textsSchema <|
      .cons (py "repositories") textsSchema .nil)
    .forbidden

def dockerSchema : Schema :=
  .mk (some .dict)
    (.cons (py "registry") registrySchema <| .cons (py "run") (.mk (some .list) .nil .allowed) <|
      .cons (py "images") (.mk (some .dict) .nil (.each imageSchema)) .nil)
    .forbidden

/-- `CONFIG_SCHEMA`. -/
def configSchema : Schema := .mk (some .dict) (.cons (py "docker") dockerSchema .nil) .forbidden

/-! ## devkit.json -/

section
variable (interp : Interpreter)

/-- The repository and the namespace. -/
def parseRegistryConfig (config : Json) : Except PyError (Str × Str) := do
  if !(← config.contains (py "docker")) then return ([], py "devkit")
  let dockerConfig ← config.getItem (py "docker")
  if !(← dockerConfig.contains (py "registry")) then return ([], py "devkit")
  let registry ← dockerConfig.getItem (py "registry")
  let mut repo := []
  if ← [py "host", py "project", py "repository"].allM (registry.contains ·) then
    let host ← registry.getItem (py "host")
    let project ← registry.getItem (py "project")
    let repository ← registry.getItem (py "repository")
    if host.truthy && project.truthy && repository.truthy then
      repo := interp.format host ++ py "/" ++ interp.format project ++ py "/" ++
        interp.format repository
  let mut imageNamespace := py "devkit"
  if ← registry.contains (py "namespace") then
    let name ← registry.getItem (py "namespace")
    if name.truthy then
      imageNamespace := py "devkit/" ++ interp.format name
  return (repo, imageNamespace)

def getImagePrefix (files : Files) : Except PyError Str :=
  match files.devkitJson with
  | none => .ok (py "devkit")
  | some read =>
    match read.bind (parseRegistryConfig interp) with
    | .ok (repo, imageNamespace) =>
      .ok (if repo ≠ [] then repo ++ py "/" ++ imageNamespace else imageNamespace)
    | .error e => if e.isValueError || e = .keyError then .ok (py "devkit") else .error e

/-- A `DockerBuilder` without the tags that it generates. -/
structure DockerBuilder where
  searchPaths : List SearchPath
  repo : Str
  imageNamespace : Str
  arch : Str
  extraPackagesMap : Dict (List Str)
  extraKeysMap : Dict (List Str)
  extraRepositoriesMap : Dict (List Str)
  imageConfigsMap : Dict Json

/-- The `name=value` entries of one setting of an image, if it is there. -/
def settingEntries (reject : Json → Bool) (setting : Str) (settings : Json) :
    Except PyError (Option (List Str)) := do
  if ← settings.contains setting then
    let entries ← (← settings.getItem setting).items
    some <$> entries.mapM (fun entry =>
      if reject entry.2 then .error (.systemExit 1)
      else .ok (entry.1 ++ py "=" ++ interp.format entry.2))
  else return none

def setEntries (img : Str) (entries : Option (List Str)) (d : Dict (List Str)) : Dict (List Str) :=
  match entries with
  | some list => d.set img list
  | none => d

namespace DockerBuilder

/-- One image of `_load_images_config`. -/
def loadImageSettings (self : DockerBuilder) (entry : Str × Json) : Except PyError DockerBuilder := do
  let (img, settings) := entry
  -- A package must have a version; a key or a repository may be empty.
  let packages ← settingEntries interp (fun v => !v.truthy) (py "packages") settings
  let keys ← settingEntries interp (fun _ => false) (py "keys") settings
  let repos ← settingEntries interp (fun _ => false) (py "repositories") settings
  return { self with
    extraPackagesMap := setEntries img packages self.extraPackagesMap
    extraKeysMap := setEntries img keys self.extraKeysMap
    extraRepositoriesMap := setEntries img repos self.extraRepositoriesMap }

def loadImagesConfig (self : DockerBuilder) (config : Json) : Except PyError DockerBuilder := do
  let docker ← config.getItem (py "docker")
  if ← docker.contains (py "images") then
    let images ← (← docker.getItem (py "images")).items
    images.foldlM (loadImageSettings interp) self
  else return self

/-- The body of the `try` of `_load_config`. -/
def applyConfig (self : DockerBuilder) (config : Json) : Except PyError DockerBuilder := do
  validateConfig config [] configSchema
  if ← config.contains (py "docker") then
    let (repo, imageNamespace) ← parseRegistryConfig interp config
    loadImagesConfig interp { self with repo := repo, imageNamespace := imageNamespace } config
  else return self

def loadConfig (self : DockerBuilder) (devkitJson : Option (Except PyError Json)) :
    Except PyError DockerBuilder :=
  match devkitJson with
  | none => .ok self
  | some read =>
    match read.bind (applyConfig interp self) with
    | .ok builder => .ok builder
    | .error e => if e.isValueError then .error (.systemExit 1) else .error e

end DockerBuilder

/-! ## deps.json -/

/-- The images of one search path are added to those before it. -/
def loadImageConfigsOf (allConfigs : Dict Json) (path : SearchPath) : Except PyError (Dict Json) :=
  match path.depsJson with
  | none => .ok allConfigs
  | some (.ok (.object configs)) => .ok (allConfigs.update configs)
  | some (.ok _) => .ok allConfigs
  | some (.error e) => .error (if e = .jsonDecodeError then .systemExit 1 else e)

def loadImageConfigs (searchPaths : List SearchPath) : Except PyError (Dict Json) :=
  searchPaths.foldlM loadImageConfigsOf []

/-- `DockerBuilder(config_path, search_paths)`. -/
def DockerBuilder.init (files : Files) : Except PyError DockerBuilder := do
  let self ← DockerBuilder.loadConfig interp
    { searchPaths := files.searchPaths, repo := [], imageNamespace := py "devkit", arch := py "amd64",
      extraPackagesMap := [], extraKeysMap := [], extraRepositoriesMap := [], imageConfigsMap := [] }
    files.devkitJson
  let configs ← loadImageConfigs files.searchPaths
  return { self with imageConfigsMap := configs }

variable {interp}

theorem parseRegistryConfig_of_not_contains {config : Json}
    (h : config.contains (py "docker") = .ok false) :
    parseRegistryConfig interp config = .ok ([], py "devkit") := by
  unfold parseRegistryConfig
  rw [h]
  rfl

/-- The prefix of the images can be read from a configuration that a builder accepts. -/
theorem getImagePrefix_of_init {files : Files} {self : DockerBuilder}
    (h : DockerBuilder.init interp files = .ok self) :
    ∃ imagePrefix, getImagePrefix interp files = .ok imagePrefix := by
  obtain ⟨loaded, hload, -⟩ := bind_eq_ok.mp h
  unfold getImagePrefix
  unfold DockerBuilder.loadConfig at hload
  cases hjson : files.devkitJson with
  | none => exact ⟨_, rfl⟩
  | some read =>
    rw [hjson] at hload
    have happly : ∃ config, read = .ok config ∧
        ∃ parsed, parseRegistryConfig interp config = .ok parsed := by
      dsimp only at hload
      split at hload
      · next builder hbuilder =>
        obtain ⟨config, hread, hconfig⟩ := bind_eq_ok.mp hbuilder
        refine ⟨config, hread, ?_⟩
        obtain ⟨-, -, hconfig⟩ := bind_eq_ok.mp hconfig
        obtain ⟨found, hfound, hconfig⟩ := bind_eq_ok.mp hconfig
        cases found with
        | false => exact ⟨_, parseRegistryConfig_of_not_contains hfound⟩
        | true =>
          obtain ⟨parsed, hparsed, -⟩ := bind_eq_ok.mp hconfig
          exact ⟨parsed, hparsed⟩
      · split_ifs at hload
    obtain ⟨config, rfl, ⟨repo, imageNamespace⟩, hparsed⟩ := happly
    have hbind : (Except.ok config).bind (parseRegistryConfig interp) =
        .ok (repo, imageNamespace) := hparsed
    dsimp only
    rw [hbind]
    exact ⟨_, rfl⟩

end
end Devkit
