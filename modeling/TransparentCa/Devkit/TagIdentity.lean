import TransparentCa.Devkit.Build

/- What a tag says about the build. `build_images` hands `docker build` the arguments that
   `calculate_tag_for_image` hashed, though it puts them together on its own. The hash is
   taken over the Dockerfile and the arguments in order, written one after the other with
   nothing in between, so that a tag stands for one build exactly when the text that was
   hashed is cut at the same places. -/
namespace Devkit
open Python Topological Effects Prog

namespace DockerBuilder

variable {self : DockerBuilder} {interp : Interpreter}

/-! ## The two copies of the arguments -/

theorem buildArgValues_extra (settings : List (Str × List Str)) :
    buildArgValues (settings.flatMap (fun (argName, val) => [argName, join (py " ") val])) =
      .ok (settings.map (fun (argName, val) => argName ++ py "=" ++ join (py " ") val)) := by
  induction settings with
  | nil => rfl
  | cons setting settings ih =>
    rw [List.flatMap_cons, List.cons_append, List.cons_append, List.nil_append, buildArgValues, ih]
    rfl

/-- The tags that the second copy looks up are those of the builds of the dependencies. -/
theorem buildArgValues_dependencies {generated : Dict Str} (hsound : self.Sound interp generated)
    {deps : List (Str × Str × ImageBuild)}
    (hdeps : ∀ dep ∈ deps, self.HasBuild interp dep.2.1 dep.2.2) {args extra values : List Str}
    (h : dependencyArgsForManage generated (deps.map (fun dep => (dep.1, Json.str dep.2.1))) =
      .ok args) (hextra : buildArgValues extra = .ok values) :
    buildArgValues (args ++ extra) = .ok (deps.map (fun dep =>
      dep.1 ++ py "=" ++ self.buildTag interp dep.2.1 dep.2.2) ++ values) := by
  induction deps generalizing args with
  | nil =>
    obtain rfl := Except.ok.inj h
    exact hextra
  | cons dep deps ih =>
    obtain ⟨hdep, hrest⟩ := List.forall_mem_cons.mp hdeps
    obtain ⟨v, hv, h⟩ := bind_eq_ok.mp h
    obtain rfl := Except.ok.inj hv
    obtain ⟨tag, htag, h⟩ := bind_eq_ok.mp h
    obtain ⟨args', hargs', h⟩ := bind_eq_ok.mp h
    obtain rfl := Except.ok.inj h
    obtain ⟨build, hbuild, rfl⟩ := hsound _ _ (Dict.getItem_eq_ok.mp htag)
    obtain rfl := hdep.unique hbuild
    rw [List.cons_append, List.cons_append, buildArgValues, ih hrest hargs']
    rfl

/-- What `build_images` passes on for an image is what the image is built from, under the tag
of that build. -/
structure Passes (builder : DockerBuilder) (interp : Interpreter) (imageName : Str)
    (managed : Managed) (build : ImageBuild) : Prop where
  tag : managed.tag = builder.buildTag interp imageName build
  found : builder.findDockerfile imageName = some managed.dockerfile
  content : managed.dockerfile.read = .ok build.dockerfile
  args : buildArgValues managed.buildArgs = .ok build.args

/-- The tag of an image that is prepared is the one that was calculated for it. -/
theorem calculate_of_prepare {stack : Nat} {localFlag : Bool} {imageName : Scalar}
    {generated generated' : Dict Str} {managed : Managed}
    (h : self.prepare interp stack localFlag imageName generated = .ok (managed, generated')) :
    self.calculateTagForImage interp stack imageName generated = .ok (managed.tag, generated') := by
  obtain ⟨⟨tag, generated₁⟩, hcalculate, h⟩ := bind_eq_ok.mp h
  cases imageName with
  | str name =>
    obtain ⟨conf, -, h⟩ := bind_eq_ok.mp h
    obtain ⟨localImageMode, -, h⟩ := bind_eq_ok.mp h
    cases hfind : self.findDockerfile name with
    | none =>
      rw [hfind] at h
      cases h
    | some dockerfile =>
      rw [hfind] at h
      obtain ⟨dependencies, -, h⟩ := bind_eq_ok.mp h
      obtain ⟨items, -, h⟩ := bind_eq_ok.mp h
      obtain ⟨depArgs, -, h⟩ := bind_eq_ok.mp h
      obtain ⟨rfl, rfl⟩ := Prod.mk.inj (Except.ok.inj h)
      exact hcalculate
  | none | bool | int | float => cases h

theorem prepare_eq_ok {stack : Nat} {localFlag : Bool} {imageName : Scalar}
    {generated generated' : Dict Str} {managed : Managed} (hsound : self.Sound interp generated)
    (h : self.prepare interp stack localFlag imageName generated = .ok (managed, generated')) :
    self.Sound interp generated' ∧ ∃ name build, imageName = .str name ∧
      self.HasBuild interp name build ∧ self.Passes interp name managed build := by
  obtain ⟨⟨tag, generated₁⟩, hcalculate, h⟩ := bind_eq_ok.mp h
  obtain ⟨⟨name, build, rfl, hbuild, rfl⟩, hsound₁⟩ := calculateTagForImage_eq_ok hsound hcalculate
  obtain ⟨conf, hconf, h⟩ := bind_eq_ok.mp h
  obtain ⟨localImageMode, -, h⟩ := bind_eq_ok.mp h
  cases hfind : self.findDockerfile name with
  | none =>
    rw [hfind] at h
    cases h
  | some dockerfile =>
    rw [hfind] at h
    obtain ⟨dependencies, hdependencies, h⟩ := bind_eq_ok.mp h
    obtain ⟨items, hitems, h⟩ := bind_eq_ok.mp h
    obtain ⟨depArgs, hargs, h⟩ := bind_eq_ok.mp h
    obtain ⟨rfl, rfl⟩ := Prod.mk.inj (Except.ok.inj h)
    refine ⟨hsound₁, name, build, rfl, hbuild, ?_⟩
    cases hbuild with
    | @mk _ conf' dependencies' deps dockerfile' content hconf' hdependencies' hitems' hdockerfile'
        hcontent' hdeps' =>
      obtain rfl := Option.some.inj ((Dict.getItem_eq_ok.mp hconf).symm.trans hconf')
      obtain rfl := Except.ok.inj (hdependencies.symm.trans hdependencies')
      obtain rfl := Except.ok.inj (hitems.symm.trans hitems')
      obtain rfl := Option.some.inj (hfind.symm.trans hdockerfile')
      exact ⟨rfl, hfind, hcontent',
        buildArgValues_dependencies hsound₁ hdeps' hargs (buildArgValues_extra _)⟩

/-! ## The runs of build_images -/

/-- The tags kept after some calculations. -/
inductive Generated (self : DockerBuilder) (interp : Interpreter) : Dict Str → Prop where
  | nil : Generated self interp []
  | calculate {stack : Nat} {imageName : Scalar} {generated generated' : Dict Str} {tag : Str}
      (h : Generated self interp generated)
      (hcalculate : self.calculateTagForImage interp stack imageName generated =
        .ok (tag, generated')) : Generated self interp generated'

theorem Generated.sound {generated : Dict Str} (h : self.Generated interp generated) :
    self.Sound interp generated := by
  induction h with
  | nil => exact sound_nil
  | calculate _ hcalculate ih => exact (calculateTagForImage_eq_ok ih hcalculate).2

/-- A call about an image that is handed to `manage_docker_image`. -/
structure Serves (managed : Managed) (o : DockerOp) : Prop where
  tag : o.tag = managed.tag
  build : ∀ command, o = .build command →
    command.file = managed.dockerfile.realpath ∧
      buildArgValues managed.buildArgs = .ok command.buildArgs

theorem uses_buildImage (managed : Managed) (contextPath : Str) (noCache : Bool) :
    (buildImage managed.tag managed.dockerfile.realpath managed.buildArgs contextPath noCache).Uses
      (Serves managed) := by
  unfold buildImage
  cases hvalues : buildArgValues managed.buildArgs with
  | error e => exact trivial
  | ok values =>
    refine Uses.invoke ⟨rfl, ?_⟩
    rintro _ ⟨⟩
    exact ⟨rfl, hvalues⟩

/-- A call without a build. -/
theorem uses_docker {managed : Managed} {o : DockerOp} (htag : o.tag = managed.tag)
    (hbuild : ∀ command, o ≠ .build command) : (docker o).Uses (Serves managed) :=
  Uses.invoke ⟨htag, fun command h => absurd h (hbuild command)⟩

theorem uses_unlessNoCache {managed : Managed} {check : DockerProg Bool} (noCache : Bool)
    (h : check.Uses (Serves managed)) : (unlessNoCache noCache check).Uses (Serves managed) := by
  unfold unlessNoCache
  split
  · exact Uses.ret false
  · exact h

theorem uses_manageDockerImage (managed : Managed) (contextPath : Str) (noCache : Bool) (repo : Str) :
    (manageDockerImage managed.tag managed.dockerfile.realpath managed.buildArgs contextPath
      managed.localImageMode noCache repo).Uses (Serves managed) := by
  have hbuild := uses_buildImage managed contextPath noCache
  refine Uses.handle ?_ (fun e => by cases e <;> trivial)
  refine Uses.bind (uses_unlessNoCache noCache (Uses.bind (uses_docker rfl (fun _ h => by cases h))
    (fun _ => Uses.ret _))) (fun foundLocally => ?_)
  split_ifs
  · exact Uses.ret ()
  · exact hbuild
  · refine Uses.bind (uses_unlessNoCache noCache (Uses.bind (uses_docker rfl (fun _ h => by cases h))
      (fun _ => Uses.ret _))) (fun foundRemotely => ?_)
    split_ifs
    · exact uses_docker rfl (fun _ h => by cases h)
    · exact Uses.bind hbuild (fun _ => Uses.bind (uses_docker rfl (fun _ h => by cases h))
        (fun _ => Uses.ret _))

/-- A call of `build_images`: it is about an image of the configuration and what that is built
from. -/
def Allowed (self : DockerBuilder) (interp : Interpreter) (o : DockerOp) : Prop :=
  ∃ imageName build managed, self.HasBuild interp imageName build ∧
    self.Passes interp imageName managed build ∧ Serves managed o

theorem uses_buildEach {stack : Nat} {localFlag noCache : Bool} {target : Option Str}
    (images : List Scalar) {generated : Dict Str} (hsound : self.Sound interp generated) :
    (self.buildEach interp stack localFlag noCache target images generated).Uses
      (self.Allowed interp) := by
  induction images generalizing generated with
  | nil => exact Uses.ret ()
  | cons imageName images ih =>
    unfold buildEach
    cases hprepare : self.prepare interp stack localFlag imageName generated with
    | error e => exact trivial
    | ok prepared =>
      obtain ⟨managed, generated'⟩ := prepared
      obtain ⟨hsound', name, build, rfl, hbuild, hpasses⟩ := prepare_eq_ok hsound hprepare
      have hserves : ∀ o, Serves managed o → self.Allowed interp o :=
        fun o ho => ⟨name, build, managed, hbuild, hpasses, ho⟩
      show Prog.Uses _ (Prog.bind (manageDockerImage managed.tag managed.dockerfile.realpath
        managed.buildArgs (dirname managed.dockerfile.realpath) managed.localImageMode noCache
        self.repo) _)
      refine Uses.bind ((uses_manageDockerImage managed _ noCache self.repo).mono hserves)
        (fun _ => ?_)
      split_ifs
      · exact Uses.bind ((uses_docker rfl (fun _ h => by cases h)).mono hserves) (fun _ => trivial)
      · exact ih hsound'

/-- Whatever `docker` answers, every call is about a build of an image of the configuration. -/
theorem uses_buildImages {stack : Nat} (sorter : Sorter Scalar) (targetImages : List Str)
    (printTagMode noCache localFlag : Bool) :
    (self.buildImages interp stack sorter targetImages printTagMode noCache localFlag).Uses
      (self.Allowed interp) :=
  Uses.bind (Uses.ofExcept _) (fun images => Uses.bind (Uses.ofExcept _)
    (fun _ => uses_buildEach images sound_nil))

/-! ## One tag, one build -/

/-- The tag ends with the hash. -/
theorem getImageTag_eq (self : DockerBuilder) (imageName sha : Str) :
    ∃ path, self.getImageTag imageName sha = path ++ sha := by
  unfold getImageTag
  split_ifs
  · exact ⟨self.repo ++ py "/" ++ (self.imageNamespace ++ py "/" ++ imageName) ++ py ":" ++
      (self.arch ++ py "-"), (List.append_assoc _ _ _).symm⟩
  · exact ⟨self.imageNamespace ++ py "/" ++ imageName ++ py ":" ++ (self.arch ++ py "-"),
      (List.append_assoc _ _ _).symm⟩

theorem hexdigest_eq_of_buildTag_eq {self' : DockerBuilder} {imageName imageName' : Str}
    {build build' : ImageBuild}
    (h : self.buildTag interp imageName build = self'.buildTag interp imageName' build') :
    interp.hexdigest build.text = interp.hexdigest build'.text := by
  obtain ⟨path, hpath⟩ := self.getImageTag_eq imageName (interp.hexdigest build.text)
  obtain ⟨path', hpath'⟩ := self'.getImageTag_eq imageName' (interp.hexdigest build'.text)
  refine (List.append_inj' (hpath.symm.trans (h.trans hpath')) ?_).2
  rw [interp.length_hexdigest, interp.length_hexdigest]

end DockerBuilder

/-- In a builder made from these files, some tags calculated already, the image gets this tag,
and `build_images` passes this build to `docker build` for it. -/
def PassedBuild (interp : Interpreter) (files : Files) (imageName tag : Str) (build : ImageBuild) :
    Prop :=
  ∃ self generated generated' stack localFlag managed,
    DockerBuilder.init interp files = .ok self ∧ self.Generated interp generated ∧
      self.calculateTagForImage interp stack (.str imageName) generated = .ok (tag, generated') ∧
      self.prepare interp stack localFlag (.str imageName) generated = .ok (managed, generated') ∧
      managed.dockerfile.read = .ok build.dockerfile ∧
      buildArgValues managed.buildArgs = .ok build.args

theorem PassedBuild.tag_eq {interp : Interpreter} {files : Files} {imageName tag : Str}
    {build : ImageBuild} (h : PassedBuild interp files imageName tag build) :
    ∃ self : DockerBuilder, tag = self.buildTag interp imageName build := by
  obtain ⟨self, generated, generated', stack, localFlag, managed, -, hgenerated, hcalculate, hprepare,
    hcontent, hargs⟩ := h
  obtain ⟨-, name, build', hname, hbuild', hpasses⟩ :=
    DockerBuilder.prepare_eq_ok hgenerated.sound hprepare
  obtain rfl := Scalar.str.inj hname
  obtain ⟨⟨name, build'', hname, hbuild'', rfl⟩, -⟩ :=
    DockerBuilder.calculateTagForImage_eq_ok hgenerated.sound hcalculate
  obtain rfl := Scalar.str.inj hname
  obtain rfl := hbuild'.unique hbuild''
  obtain ⟨dockerfile, args⟩ := build
  obtain rfl := Except.ok.inj (hcontent.symm.trans hpasses.content)
  obtain rfl := Except.ok.inj (hargs.symm.trans hpasses.args)
  exact ⟨self, rfl⟩

/-- The Dockerfiles have the same bytes and the arguments are the same set. -/
def SameBuild (build build' : ImageBuild) : Prop :=
  build.dockerfile = build'.dockerfile ∧ ∀ arg, arg ∈ build.args ↔ arg ∈ build'.args

/-- The lengths of the pieces that the hashed text is put together from. -/
def ImageBuild.cuts (build : ImageBuild) : List Nat :=
  build.dockerfile.length :: (sort build.args).map (fun arg => (arg.flatMap utf8).length)

/-- The hashed texts are cut at the same places, or else some argument is passed more than once
and the builds differ in how often. -/
def SameCut (build build' : ImageBuild) : Prop :=
  build.cuts = build'.cuts ∨
    build.dockerfile.length = build'.dockerfile.length ∧ ¬ (build.args.Nodup ∧ build'.args.Nodup) ∧
      ∀ arg, arg ∈ build.args ↔ arg ∈ build'.args

/-- A text is read back from where it is cut. -/
theorem ImageBuild.perm_of_cuts {build build' : ImageBuild} (htext : build.text = build'.text)
    (hcuts : build.cuts = build'.cuts) :
    build.dockerfile = build'.dockerfile ∧ build.args.Perm build'.args := by
  obtain ⟨hlength, hlengths⟩ := List.cons.inj hcuts
  obtain ⟨hdockerfile, hargs⟩ := List.append_inj htext hlength
  rw [List.flatMap_def, List.flatMap_def] at hargs
  have hencoded : (sort build.args).map (fun arg => arg.flatMap utf8) =
      (sort build'.args).map (fun arg => arg.flatMap utf8) := by
    refine List.eq_iff_flatten_eq.mpr ⟨hargs, ?_⟩
    rw [List.map_map, List.map_map]
    exact hlengths
  exact ⟨hdockerfile, sort_eq_sort_iff.mp
    (prefixFree_utf8.flatMap_injective.list_map hencoded)⟩

/-- Of two images with one tag, the builds are the same exactly when the text that was hashed is
cut at the same places. -/
theorem sameBuild_iff {interp : Interpreter} {files files' : Files} {imageName imageName' tag : Str}
    {build build' : ImageBuild} (h : PassedBuild interp files imageName tag build)
    (h' : PassedBuild interp files' imageName' tag build')
    (hcollision : interp.hexdigest build.text = interp.hexdigest build'.text →
      build.text = build'.text) :
    SameBuild build build' ↔ SameCut build build' := by
  obtain ⟨self, htag⟩ := h.tag_eq
  obtain ⟨self', htag'⟩ := h'.tag_eq
  have htext : build.text = build'.text :=
    hcollision (DockerBuilder.hexdigest_eq_of_buildTag_eq (htag.symm.trans htag'))
  constructor
  · rintro ⟨hdockerfile, hargs⟩
    by_cases hnodup : build.args.Nodup ∧ build'.args.Nodup
    · have hperm : build.args.Perm build'.args :=
        (List.perm_ext_iff_of_nodup hnodup.1 hnodup.2).mpr hargs
      left
      rw [ImageBuild.cuts, ImageBuild.cuts, hdockerfile, sort_eq_sort_iff.mpr hperm]
    · exact .inr ⟨congrArg List.length hdockerfile, hnodup, hargs⟩
  · rintro (hcuts | ⟨hlength, -, hargs⟩)
    · obtain ⟨hdockerfile, hperm⟩ := ImageBuild.perm_of_cuts htext hcuts
      exact ⟨hdockerfile, fun arg => hperm.mem_iff⟩
    · exact ⟨(List.append_inj htext hlength).1, hargs⟩

namespace Sample

def bytes (s : String) : List UInt8 := (py s).flatMap utf8

def hashedText : List UInt8 := bytes "FROM scratch\nEXTRA_KEYS=k=vEXTRA_PACKAGES=p=1"

/-- The 64 digits of a digest. -/
def hexDigits (digest : Nat) : Str :=
  (List.range 64).reverse.map (fun i => ch (Nat.digitChar (digest / 16 ^ i % 16)))

def scratchDigest : Str :=
  hexDigits 0xbb57c7da220a8753d7bdabac0d3afdb6efa742e4c736c5bc93ab40dfd5e23b9b

def lintDigest : Str :=
  hexDigits 0x4f26c54e90deea6d30cd07a6c6bac6df23066e3ed9875d7b581ca6af9b8bb26a

def baseArg : Str := py "BASE=devkit/base:amd64-" ++ scratchDigest
def toolsArg : Str := py "TOOLS=devkit/tools:amd64-" ++ scratchDigest

/-- SHA-256, as far as it is needed here. -/
def hexdigest (data : List UInt8) : Str :=
  if data = hashedText then py "74ec79ee1ac521544a1bb01413041bbe5fdbfa061c8950fcc1bfb6ebb914186c"
  else if data = bytes "FROM scratch\n" then scratchDigest
  else if data = bytes "FROM scratch\n" ++ (baseArg ++ toolsArg).flatMap utf8 then lintDigest
  else List.replicate 64 (ch '0')

theorem length_hexdigest (data : List UInt8) : (hexdigest data).length = 64 := by
  unfold hexdigest
  split_ifs
  · decide
  · decide
  · decide
  · exact List.length_replicate

def format : Json → Str
  | .scalar (.str s) => s
  | _ => []

theorem format_str (s : Str) : format (.str s) = s := rfl

def interpreter : Interpreter := ⟨hexdigest, length_hexdigest, format, format_str⟩

def dockerfile : Dockerfile := ⟨py "/devkit/images/tool-env.Dockerfile", .ok (bytes "FROM scratch\n")⟩

/-- One image without dependencies. -/
def images : SearchPath where
  depsJson := some (.ok (.object [(py "tool-env", .object [(py "deps", .object [])])]))
  dockerfile name := if name = py "tool-env.Dockerfile" then some dockerfile else none

/-- A devkit with these settings of the image. -/
def files (settings : List (Str × Json)) : Files where
  devkitJson := some (.ok (.object [(py "docker", .object [(py "images", .object
    [(py "tool-env", .object settings)])])]))
  searchPaths := [images]

def builder (packages keys : Dict (List Str)) : DockerBuilder where
  searchPaths := [images]
  repo := []
  imageNamespace := py "devkit"
  arch := py "amd64"
  extraPackagesMap := packages
  extraKeysMap := keys
  extraRepositoriesMap := []
  imageConfigsMap := [(py "tool-env", .object [(py "deps", .object [])])]

def tag : Str :=
  py "devkit/tool-env:amd64-74ec79ee1ac521544a1bb01413041bbe5fdbfa061c8950fcc1bfb6ebb914186c"

def managed (args : List Str) : Managed := ⟨tag, dockerfile, args, false⟩

/-- A key whose version looks like another argument. -/
def oneKey : Files :=
  files [(py "keys", .object [(py "k", .str (py "vEXTRA_PACKAGES=p=1"))])]

def oneKeyBuild : ImageBuild := ⟨bytes "FROM scratch\n", [py "EXTRA_KEYS=k=vEXTRA_PACKAGES=p=1"]⟩

theorem passed_oneKey : PassedBuild interpreter oneKey (py "tool-env") tag oneKeyBuild := by
  have hprepare : (builder [] [(py "tool-env", [py "k=vEXTRA_PACKAGES=p=1"])]).prepare interpreter 1000
      false (.str (py "tool-env")) [] =
        .ok (managed [py "EXTRA_KEYS", py "k=vEXTRA_PACKAGES=p=1"], [(py "tool-env", tag)]) := by
    decide +kernel
  exact ⟨_, [], _, 1000, false, _, rfl, .nil, DockerBuilder.calculate_of_prepare hprepare, hprepare, rfl,
    by decide +kernel⟩

/-- A key and a package. -/
def keyAndPackage : Files :=
  files [(py "packages", .object [(py "p", .str (py "1"))]),
    (py "keys", .object [(py "k", .str (py "v"))])]

def keyAndPackageBuild : ImageBuild :=
  ⟨bytes "FROM scratch\n", [py "EXTRA_PACKAGES=p=1", py "EXTRA_KEYS=k=v"]⟩

theorem passed_keyAndPackage :
    PassedBuild interpreter keyAndPackage (py "tool-env") tag keyAndPackageBuild := by
  have hprepare : (builder [(py "tool-env", [py "p=1"])] [(py "tool-env", [py "k=v"])]).prepare
      interpreter 1000 false (.str (py "tool-env")) [] =
        .ok (managed [py "EXTRA_PACKAGES", py "p=1", py "EXTRA_KEYS", py "k=v"],
          [(py "tool-env", tag)]) := by
    decide +kernel
  exact ⟨_, [], _, 1000, false, _, rfl, .nil, DockerBuilder.calculate_of_prepare hprepare, hprepare, rfl,
    by decide +kernel⟩

theorem oneText_oneKey : oneKeyBuild.text = keyAndPackageBuild.text ∧
    ¬ SameCut oneKeyBuild keyAndPackageBuild := by
  refine ⟨by decide +kernel, ?_⟩
  rintro (hcuts | ⟨-, hnodup, -⟩)
  · exact absurd hcuts (by decide +kernel)
  · exact hnodup (by decide +kernel)

/-! An image with two others below it, listed in this order or in that. -/

def baseFirst : List (Str × Str) := [(py "BASE", py "base"), (py "TOOLS", py "tools")]

def imageConfigs (deps : List (Str × Str)) : List (Str × Json) :=
  [(py "base", .object [(py "deps", .object [])]), (py "tools", .object [(py "deps", .object [])]),
    (py "lint", .object [(py "deps", .object (deps.map (fun dep => (dep.1, .str dep.2))))])]

def scratchDockerfile (name : Str) : Dockerfile :=
  ⟨py "/devkit/images/" ++ name, .ok (bytes "FROM scratch\n")⟩

def lintImages (deps : List (Str × Str)) : SearchPath where
  depsJson := some (.ok (.object (imageConfigs deps)))
  dockerfile name := some (scratchDockerfile name)

def lintFiles (deps : List (Str × Str)) : Files where
  devkitJson := some (.ok (.object [(py "docker", .object [(py "images", .object [])])]))
  searchPaths := [lintImages deps]

def lintBuilder (deps : List (Str × Str)) : DockerBuilder where
  searchPaths := [lintImages deps]
  repo := []
  imageNamespace := py "devkit"
  arch := py "amd64"
  extraPackagesMap := []
  extraKeysMap := []
  extraRepositoriesMap := []
  imageConfigsMap := imageConfigs deps

def lintTag : Str := py "devkit/lint:amd64-" ++ lintDigest

def lintBuild (args : List Str) : ImageBuild := ⟨bytes "FROM scratch\n", args⟩

/-- Both orders are built, and their texts are cut at the same places. -/
theorem passed_lint :
    PassedBuild interpreter (lintFiles baseFirst) (py "lint") lintTag
      (lintBuild [baseArg, toolsArg]) ∧
    PassedBuild interpreter (lintFiles baseFirst.reverse) (py "lint") lintTag
      (lintBuild [toolsArg, baseArg]) ∧
    (lintBuild [baseArg, toolsArg]).text = (lintBuild [toolsArg, baseArg]).text ∧
    SameCut (lintBuild [baseArg, toolsArg]) (lintBuild [toolsArg, baseArg]) := by
  have hbaseFirst : (lintBuilder baseFirst).prepare interpreter 1000 false (.str (py "lint")) [] =
      .ok (⟨lintTag, scratchDockerfile (py "lint.Dockerfile"),
        [py "BASE", py "devkit/base:amd64-" ++ scratchDigest,
          py "TOOLS", py "devkit/tools:amd64-" ++ scratchDigest], false⟩,
        [(py "base", py "devkit/base:amd64-" ++ scratchDigest),
          (py "tools", py "devkit/tools:amd64-" ++ scratchDigest), (py "lint", lintTag)]) := by
    decide +kernel
  have htoolsFirst : (lintBuilder baseFirst.reverse).prepare interpreter 1000 false
      (.str (py "lint")) [] =
      .ok (⟨lintTag, scratchDockerfile (py "lint.Dockerfile"),
        [py "TOOLS", py "devkit/tools:amd64-" ++ scratchDigest,
          py "BASE", py "devkit/base:amd64-" ++ scratchDigest], false⟩,
        [(py "tools", py "devkit/tools:amd64-" ++ scratchDigest),
          (py "base", py "devkit/base:amd64-" ++ scratchDigest), (py "lint", lintTag)]) := by
    decide +kernel
  refine ⟨?_, ?_, by decide +kernel, .inl (by decide +kernel)⟩
  · exact ⟨_, [], _, 1000, false, _, rfl, .nil, DockerBuilder.calculate_of_prepare hbaseFirst,
      hbaseFirst, rfl, by decide +kernel⟩
  · exact ⟨_, [], _, 1000, false, _, rfl, .nil, DockerBuilder.calculate_of_prepare htoolsFirst,
      htoolsFirst, rfl, by decide +kernel⟩

end Sample

open Sample in
/-- Twice two builds with one tag: those that are not the same are cut at other places, those that
are the same at the same places. -/
theorem sameBuild_iff_oneKey :
    (PassedBuild interpreter oneKey (py "tool-env") tag oneKeyBuild ∧
      PassedBuild interpreter keyAndPackage (py "tool-env") tag keyAndPackageBuild ∧
      ¬ SameBuild oneKeyBuild keyAndPackageBuild) ∧
    PassedBuild interpreter (lintFiles baseFirst) (py "lint") lintTag
      (lintBuild [baseArg, toolsArg]) ∧
    PassedBuild interpreter (lintFiles baseFirst.reverse) (py "lint") lintTag
      (lintBuild [toolsArg, baseArg]) ∧
    SameBuild (lintBuild [baseArg, toolsArg]) (lintBuild [toolsArg, baseArg]) := by
  obtain ⟨htext, hcut⟩ := oneText_oneKey
  obtain ⟨hbaseFirst, htoolsFirst, hlint, hsame⟩ := passed_lint
  refine ⟨⟨passed_oneKey, passed_keyAndPackage, fun hsame => hcut ?_⟩, hbaseFirst, htoolsFirst, ?_⟩
  · exact (sameBuild_iff passed_oneKey passed_keyAndPackage (fun _ => htext)).mp hsame
  · exact (sameBuild_iff hbaseFirst htoolsFirst (fun _ => hlint)).mpr hsame

open Sample in
/-- A tag does not stand for one build: an argument can end in what looks like the next. -/
theorem not_sameBuild_oneKey :
    ¬ ∀ (interp : Interpreter) (files files' : Files) (imageName imageName' tag : Str)
      (build build' : ImageBuild), PassedBuild interp files imageName tag build →
        PassedBuild interp files' imageName' tag build' →
        (interp.hexdigest build.text = interp.hexdigest build'.text → build.text = build'.text) →
        SameBuild build build' := by
  intro h
  obtain ⟨-, hargs⟩ := h interpreter oneKey keyAndPackage _ _ tag _ _ passed_oneKey
    passed_keyAndPackage (fun _ => oneText_oneKey.1)
  have hmem := (hargs (py "EXTRA_KEYS=k=v")).mpr (List.mem_cons_of_mem _ List.mem_cons_self)
  exact absurd (List.mem_singleton.mp hmem) (by decide +kernel)

end Devkit
