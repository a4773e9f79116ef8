import TransparentCa.Lib.Topological
import TransparentCa.Devkit.Config

/- The tags of the images. `calculateTagForImage` recurses through the dependencies of an
   image and keeps every tag it finds; `HasBuild` says the same of an image without the
   kept tags: what its build is made of, given the builds of its dependencies. A state in
   which every kept tag is that of a build of its image stays one, and what is calculated
   from it is the tag of a build. -/
namespace Devkit
open Python Topological

def dockerfileName (imageName : Str) : Str := imageName ++ py ".Dockerfile"

def encodeAll (args : List Str) : Except PyError (List (List UInt8)) :=
  args.mapM (fun arg =>
    match encode arg with
    | some bytes => .ok bytes
    | none => .error PyError.unicodeError)

/-- `calculate_sha256`. -/
def calculateSha256 (interp : Interpreter) (dockerfile : Dockerfile) (sortedBuildArgs : List Str) :
    Except PyError Str := do
  let content ← dockerfile.read
  let encoded ← encodeAll sortedBuildArgs
  return interp.hexdigest (content ++ encoded.flatten)

/-- The arguments of the dependencies, each `name=tag`, with the tags generated on the way. -/
def dependencyArgs (calculate : Scalar → Dict Str → Except PyError (Str × Dict Str)) :
    List (Str × Json) → Dict Str → Except PyError (List Str × Dict Str)
  | [], generated => .ok ([], generated)
  | (argName, depImageName) :: dependencies, generated => do
    let dep ← depImageName.hashable
    let (depTag, generated) ← calculate dep generated
    let (args, generated) ← dependencyArgs calculate dependencies generated
    return ((argName ++ py "=" ++ depTag) :: args, generated)

namespace DockerBuilder

section
variable (self : DockerBuilder)

def getImageTag (imageName sha : Str) : Str :=
  let imagePath := self.imageNamespace ++ py "/" ++ imageName
  let tagSuffix := self.arch ++ py "-" ++ sha
  if self.repo ≠ [] then self.repo ++ py "/" ++ imagePath ++ py ":" ++ tagSuffix
  else imagePath ++ py ":" ++ tagSuffix

def findDockerfile (imageName : Str) : Option Dockerfile :=
  self.searchPaths.findSome? (fun path => path.dockerfile (dockerfileName imageName))

/-- The extra settings of an image that are not empty, with the argument each is passed in. -/
def extraSettings (imageName : Str) : List (Str × List Str) :=
  [(py "EXTRA_PACKAGES", self.extraPackagesMap), (py "EXTRA_KEYS", self.extraKeysMap),
    (py "EXTRA_REPOSITORIES", self.extraRepositoriesMap)].filterMap (fun (argName, map) =>
      let val := (map.lookup imageName).getD []
      if val ≠ [] then some (argName, val) else none)

/-- The extra arguments of the hash. -/
def extraArgs (imageName : Str) : List Str :=
  (self.extraSettings imageName).map (fun (argName, val) => argName ++ py "=" ++ join (py " ") val)

/-- `calculate_tag_for_image`, with so many calls left on the interpreter's stack. -/
def calculateTagForImage (interp : Interpreter) :
    Nat → Scalar → Dict Str → Except PyError (Str × Dict Str)
  | 0, _, _ => .error .recursionError
  | stack + 1, .str imageName, generated =>
    match generated.lookup imageName with
    | some tag => .ok (tag, generated)
    | none => do
      let imageConf ← Dict.getItem self.imageConfigsMap imageName
      let dependencies ← imageConf.getItem (py "deps")
      match self.findDockerfile imageName with
      | none => .error (.systemExit 1)
      | some dockerfile => do
        let deps ← dependencies.items
        let (depArgs, generated) ← dependencyArgs (calculateTagForImage interp stack) deps generated
        let sha ← calculateSha256 interp dockerfile (sort (depArgs ++ self.extraArgs imageName))
        let tag := self.getImageTag imageName sha
        return (tag, generated.set imageName tag)
  -- The names of the images are texts: no other value is one of them.
  | _ + 1, _, _ => .error .keyError

/-! ## The build order -/

/-- `set(conf["deps"].values())`. -/
def dependencySet (conf : Json) : Except PyError (List Scalar) := do
  let deps ← (← conf.getItem (py "deps")).items
  return (← deps.mapM (fun entry => entry.2.hashable)).dedup

/-- The images with their dependencies. -/
def fullGraph : Except PyError (Graph Scalar) :=
  self.imageConfigsMap.mapM (fun entry => do return (Scalar.str entry.1, ← dependencySet entry.2))

def sorted (sorter : Sorter Scalar) (graph : Graph Scalar) : Except PyError (List Scalar) :=
  match sorter.staticOrder graph with
  | some order => .ok order
  | none => .error (.systemExit 1)

/-- The images to process: the targets and their dependencies, or all. -/
def getBuildOrder (sorter : Sorter Scalar) (targetImages : List Str) :
    Except PyError (List Scalar) := do
  let graph ← self.fullGraph
  if targetImages ≠ [] then
    let visited := reach graph (targetImages.map Scalar.str).dedup
    sorted sorter (graph.filter (fun entry => entry.1 ∈ visited))
  else sorted sorter graph

/-- `calculate_tags`. -/
def calculateTags (interp : Interpreter) (sorter : Sorter Scalar) (stack : Nat)
    (targetImages : List Str) : Except PyError (List Str) := do
  let order ← self.getBuildOrder sorter targetImages
  let generated ← order.foldlM (fun generated imageName =>
    Prod.snd <$> self.calculateTagForImage interp stack imageName generated) []
  order.mapM (fun imageName =>
    match imageName with
    | .str name => Dict.getItem generated name
    | _ => .error .keyError)

end
end DockerBuilder

/-- `get_all_docker_image_tags(config_path, search_paths)`. -/
def getAllDockerImageTags (interp : Interpreter) (sorter : Sorter Scalar) (stack : Nat)
    (files : Files) : Except PyError (List Str) := do
  let builder ← DockerBuilder.init interp files
  builder.calculateTags interp sorter stack []

/-! ## Builds -/

/-- What an image is built from: the Dockerfile and the arguments. -/
structure ImageBuild where
  dockerfile : List UInt8
  args : List Str

/-- The bytes that are hashed for a build. -/
def ImageBuild.text (build : ImageBuild) : List UInt8 :=
  build.dockerfile ++ (sort build.args).flatMap (fun arg => arg.flatMap utf8)

namespace DockerBuilder

section
variable (self : DockerBuilder) (interp : Interpreter)

def buildTag (imageName : Str) (build : ImageBuild) : Str :=
  self.getImageTag imageName (interp.hexdigest build.text)

/-- The image is built from this. A dependency is the name of its argument, the image, and
what that image is built from. -/
inductive HasBuild : Str → ImageBuild → Prop where
  | mk {imageName : Str} {conf dependencies : Json} {deps : List (Str × Str × ImageBuild)}
      {dockerfile : Dockerfile} {content : List UInt8}
      (hconf : self.imageConfigsMap.lookup imageName = some conf)
      (hdependencies : conf.getItem (py "deps") = .ok dependencies)
      (hitems : dependencies.items = .ok (deps.map (fun dep => (dep.1, Json.str dep.2.1))))
      (hdockerfile : self.findDockerfile imageName = some dockerfile)
      (hcontent : dockerfile.read = .ok content)
      (hdeps : ∀ dep ∈ deps, HasBuild dep.2.1 dep.2.2) :
      HasBuild imageName ⟨content, deps.map (fun dep => dep.1 ++ py "=" ++
        self.buildTag interp dep.2.1 dep.2.2) ++ self.extraArgs imageName⟩

/-- Every tag that is kept is that of a build of its image. -/
def Sound (generated : Dict Str) : Prop :=
  ∀ imageName tag, generated.lookup imageName = some tag →
    ∃ build, self.HasBuild interp imageName build ∧ tag = self.buildTag interp imageName build

/-- A tag was calculated for what an image is built from. -/
def Tagged (imageName : Scalar) (tag : Str) : Prop :=
  ∃ name build, imageName = .str name ∧ self.HasBuild interp name build ∧
    tag = self.buildTag interp name build

variable {self interp}

/-- An image is built from one thing only. -/
theorem HasBuild.unique {imageName : Str} {build build' : ImageBuild}
    (h : self.HasBuild interp imageName build) (h' : self.HasBuild interp imageName build') :
    build = build' := by
  induction h generalizing build' with
  | @mk imageName conf dependencies deps dockerfile content hconf hdependencies hitems hdockerfile
      hcontent hdeps ih =>
    cases h' with
    | @mk _ conf' dependencies' deps' dockerfile' content' hconf' hdependencies' hitems' hdockerfile'
        hcontent' hdeps' =>
      obtain rfl := Option.some.inj (hconf.symm.trans hconf')
      obtain rfl := Except.ok.inj (hdependencies.symm.trans hdependencies')
      obtain rfl := Option.some.inj (hdockerfile.symm.trans hdockerfile')
      obtain rfl := Except.ok.inj (hcontent.symm.trans hcontent')
      have hmap := Except.ok.inj (hitems.symm.trans hitems')
      have hsame : deps = deps' := by
        clear hitems hitems' hdeps
        induction deps generalizing deps' with
        | nil => exact (List.map_eq_nil_iff.mp hmap.symm).symm
        | cons dep deps ihdeps =>
          cases deps' with
          | nil => cases hmap
          | cons dep' deps' =>
            obtain ⟨hhead, htail⟩ := List.cons.inj hmap
            obtain ⟨argName, name, depBuild⟩ := dep
            obtain ⟨argName', name', depBuild'⟩ := dep'
            obtain ⟨rfl, hname⟩ := Prod.mk.inj hhead
            obtain rfl : name = name' := Scalar.str.inj (Json.scalar.inj hname)
            obtain rfl : depBuild = depBuild' :=
              ih _ List.mem_cons_self (hdeps' _ List.mem_cons_self)
            rw [ihdeps (fun d hd => ih d (List.mem_cons_of_mem _ hd))
              (fun d hd => hdeps' d (List.mem_cons_of_mem _ hd)) htail]
      rw [hsame]

/-! ## The calculation -/

theorem encodeAll_eq_ok {args : List Str} {encoded : List (List UInt8)}
    (h : encodeAll args = .ok encoded) : encoded = args.map (fun arg => arg.flatMap utf8) := by
  induction args generalizing encoded with
  | nil => exact (Except.ok.inj h).symm
  | cons arg args ih =>
    rw [encodeAll, List.mapM_cons] at h
    obtain ⟨bytes, hbytes, h⟩ := bind_eq_ok.mp h
    obtain ⟨rest, hrest, h⟩ := bind_eq_ok.mp h
    rw [← Except.ok.inj h, List.map_cons, ← ih hrest]
    cases hencode : encode arg with
    | none =>
      rw [hencode] at hbytes
      cases hbytes
    | some bytes' =>
      rw [hencode] at hbytes
      rw [← encode_eq_some hencode, Except.ok.inj hbytes]

theorem calculateSha256_eq_ok {dockerfile : Dockerfile} {args : List Str} {sha : Str}
    (h : calculateSha256 interp dockerfile args = .ok sha) :
    ∃ content, dockerfile.read = .ok content ∧
      sha = interp.hexdigest (content ++ args.flatMap (fun arg => arg.flatMap utf8)) := by
  obtain ⟨content, hcontent, h⟩ := bind_eq_ok.mp h
  obtain ⟨encoded, hencoded, h⟩ := bind_eq_ok.mp h
  refine ⟨content, hcontent, ?_⟩
  rw [← Except.ok.inj h, encodeAll_eq_ok hencoded, List.flatMap_def]

/-- What is calculated for each dependency is put together. -/
theorem dependencyArgs_eq_ok {calculate : Scalar → Dict Str → Except PyError (Str × Dict Str)}
    (hcalculate : ∀ dep generated tag generated', self.Sound interp generated →
      calculate dep generated = .ok (tag, generated') →
      self.Tagged interp dep tag ∧ self.Sound interp generated')
    {items : List (Str × Json)} {generated generated' : Dict Str} {args : List Str}
    (hsound : self.Sound interp generated)
    (h : dependencyArgs calculate items generated = .ok (args, generated')) :
    self.Sound interp generated' ∧ ∃ deps : List (Str × Str × ImageBuild),
      items = deps.map (fun dep => (dep.1, Json.str dep.2.1)) ∧
      args = deps.map (fun dep => dep.1 ++ py "=" ++ self.buildTag interp dep.2.1 dep.2.2) ∧
      ∀ dep ∈ deps, self.HasBuild interp dep.2.1 dep.2.2 := by
  induction items generalizing generated args with
  | nil =>
    obtain ⟨rfl, rfl⟩ := Prod.mk.inj (Except.ok.inj h)
    exact ⟨hsound, [], rfl, rfl, fun dep hdep => absurd hdep List.not_mem_nil⟩
  | cons item items ih =>
    obtain ⟨argName, depImageName⟩ := item
    obtain ⟨dep, hdep, h⟩ := bind_eq_ok.mp h
    obtain ⟨⟨depTag, generated₁⟩, hcalc, h⟩ := bind_eq_ok.mp h
    obtain ⟨⟨rest, generated₂⟩, hrest, h⟩ := bind_eq_ok.mp h
    obtain ⟨rfl, rfl⟩ := Prod.mk.inj (Except.ok.inj h)
    obtain ⟨⟨name, build, rfl, hbuild, rfl⟩, hsound₁⟩ := hcalculate _ _ _ _ hsound hcalc
    obtain ⟨hsound₂, deps, rfl, rfl, hdeps⟩ := ih hsound₁ hrest
    refine ⟨hsound₂, (argName, name, build) :: deps, ?_, rfl, ?_⟩
    · rw [List.map_cons, Json.hashable_eq_ok.mp hdep]
    · exact List.forall_mem_cons.mpr ⟨hbuild, hdeps⟩

theorem Sound.set {generated : Dict Str} (hsound : self.Sound interp generated) {imageName : Str}
    {build : ImageBuild} (hbuild : self.HasBuild interp imageName build) :
    self.Sound interp (generated.set imageName (self.buildTag interp imageName build)) := by
  intro name tag hlookup
  rw [Dict.lookup_set] at hlookup
  split_ifs at hlookup with hname
  · exact ⟨build, hname ▸ hbuild, by rw [hname, ← Option.some.inj hlookup]⟩
  · exact hsound name tag hlookup

theorem calculateTagForImage_eq_ok {stack : Nat} {imageName : Scalar} {generated generated' : Dict Str}
    {tag : Str} (hsound : self.Sound interp generated)
    (h : self.calculateTagForImage interp stack imageName generated = .ok (tag, generated')) :
    self.Tagged interp imageName tag ∧ self.Sound interp generated' := by
  induction stack generalizing imageName generated tag generated' with
  | zero => cases h
  | succ stack ih =>
    cases imageName with
    | str name =>
      unfold calculateTagForImage at h
      split at h
      · next tag' hkept =>
        obtain ⟨rfl, rfl⟩ := Prod.mk.inj (Except.ok.inj h)
        obtain ⟨build, hbuild, htag⟩ := hsound name _ hkept
        exact ⟨⟨name, build, rfl, hbuild, htag⟩, hsound⟩
      · obtain ⟨conf, hconf, h⟩ := bind_eq_ok.mp h
        obtain ⟨dependencies, hdependencies, h⟩ := bind_eq_ok.mp h
        split at h
        · cases h
        · next dockerfile hdockerfile =>
          obtain ⟨items, hitems, h⟩ := bind_eq_ok.mp h
          obtain ⟨⟨depArgs, generated₁⟩, hargs, h⟩ := bind_eq_ok.mp h
          obtain ⟨sha, hsha, h⟩ := bind_eq_ok.mp h
          obtain ⟨rfl, rfl⟩ := Prod.mk.inj (Except.ok.inj h)
          obtain ⟨hsound₁, deps, rfl, rfl, hdeps⟩ :=
            dependencyArgs_eq_ok (fun _ _ _ _ hs hc => ih hs hc) hsound hargs
          obtain ⟨content, hcontent, rfl⟩ := calculateSha256_eq_ok hsha
          have hbuild := HasBuild.mk (Dict.getItem_eq_ok.mp hconf) hdependencies hitems hdockerfile
            hcontent hdeps
          exact ⟨⟨name, _, rfl, hbuild, rfl⟩, hsound₁.set hbuild⟩
    | none | bool | int | float => cases h

theorem sound_nil : self.Sound interp [] := by
  intro imageName tag h
  cases h

end

section
variable {self : DockerBuilder} {sorter : Sorter Scalar} {order : List Scalar}

theorem sorted_eq_ok {graph : Graph Scalar} (h : sorted sorter graph = .ok order) :
    sorter.staticOrder graph = some order := by
  unfold sorted at h
  split at h
  · next found hfound => rw [hfound, Except.ok.inj h]
  · cases h

/-- Every image that a target needs is in the build order, over however many dependencies. -/
theorem mem_getBuildOrder_of_reaches {graph : Graph Scalar} {targetImages : List Str} {target : Str}
    {imageName : Scalar} {dependencies : List Scalar} (hgraph : self.fullGraph = .ok graph)
    (h : self.getBuildOrder sorter targetImages = .ok order) (htarget : target ∈ targetImages)
    (himage : (imageName, dependencies) ∈ graph) (hreaches : Reaches graph (.str target) imageName) :
    imageName ∈ order := by
  obtain ⟨graph', hgraph', h⟩ := bind_eq_ok.mp h
  obtain rfl := Except.ok.inj (hgraph.symm.trans hgraph')
  rw [if_pos (List.ne_nil_of_mem htarget)] at h
  have hvisited : imageName ∈ reach graph (targetImages.map Scalar.str).dedup :=
    mem_reach_iff.mpr
      ⟨.str target, List.mem_dedup.mpr (List.mem_map_of_mem htarget), hreaches⟩
  exact (sorter.isOrder (sorted_eq_ok h)).mem_iff.mpr ⟨(imageName, dependencies),
    List.mem_filter.mpr ⟨himage, decide_eq_true hvisited⟩, .inl rfl⟩

end
end DockerBuilder
end Devkit
