import TransparentCa.Devkit.Cleanup
import TransparentCa.Devkit.TagIdentity

/- What the cleanup removes. The images passed to `docker rmi` are, in this order, some of
   those that are left after the allowlist and the ignored tags, so that they have the form
   of the pattern and are removed no more often than they were listed. The ignored tags are
   those of all images of the configuration when the calculation went through; when it
   failed nothing is ignored, and a listed image is removed though its tag is current. -/
namespace Devkit
open Python Topological Effects Prog Regex AssocList

/-! ## What is passed to docker rmi -/

theorem removed_append (tr tr' : List CleanupEvent) :
    removed (tr ++ tr') = removed tr ++ removed tr' := List.filterMap_append

/-- Every run of `p` removes some of these images, in this order. -/
def RemovesWithin {α : Type} (p : CleanupProg α) (images : List Str) : Prop :=
  ∀ tr out, Runs p tr out → (removed tr).Sublist images

namespace RemovesWithin

variable {α β : Type} {l m : List Str}

theorem ret (a : α) (images : List Str) : RemovesWithin (.ret a) images := by
  intro tr out hrun
  obtain ⟨rfl, -⟩ := runs_ret.mp hrun
  exact List.nil_sublist images

theorem raise (e : PyError) (images : List Str) :
    RemovesWithin (.raise e : CleanupProg α) images := by
  intro tr out hrun
  obtain ⟨rfl, -⟩ := runs_raise.mp hrun
  exact List.nil_sublist images

theorem call (o : CleanupOp) : RemovesWithin (cleanup o) o.removes.toList := by
  intro tr out hrun
  obtain rfl := runs_invoke.mp hrun
  rw [removed, List.filterMap_cons]
  cases o.removes <;> exact List.Sublist.refl _

theorem bind {p : CleanupProg α} {f : α → CleanupProg β} (hp : RemovesWithin p l)
    (hf : ∀ a, RemovesWithin (f a) m) : RemovesWithin (p.bind f) (l ++ m) := by
  intro tr out hrun
  obtain ⟨r, t₁, t₂, rfl, h₁, h₂⟩ := runs_bind_inv hrun
  rw [removed_append]
  cases r with
  | ok a => exact (hp t₁ _ h₁).append (hf a t₂ out h₂)
  | error e =>
    obtain ⟨rfl, -⟩ := h₂
    exact (hp t₁ _ h₁).append (List.nil_sublist m)

theorem ofExcept_bind {x : Except PyError α} {f : α → CleanupProg β}
    (hf : ∀ a, x = .ok a → RemovesWithin (f a) l) :
    RemovesWithin ((Prog.ofExcept x).bind f) l := by
  cases x with
  | error e => exact raise e l
  | ok a => exact hf a rfl

theorem handle {p : CleanupProg α} {h : PyError → CleanupProg α} (hp : RemovesWithin p l)
    (hh : ∀ e, RemovesWithin (h e) []) : RemovesWithin (p.handle h) l := by
  intro tr out hrun
  rcases runs_handle.mp hrun with ⟨a, -, hrun⟩ | ⟨e, t₁, t₂, rfl, h₁, h₂⟩
  · exact hp tr _ hrun
  · rw [removed_append, List.sublist_nil.mp (hh e t₂ out h₂), List.append_nil]
    exact hp t₁ _ h₁

end RemovesWithin

/-- A batch is removed from its front. -/
theorem removesWithin_batch (images : List Str) :
    RemovesWithin (cleanupImagesBatch images) images := by
  induction images with
  | nil => exact .ret () []
  | cons tag images ih =>
    refine .bind (l := []) (.call .isSet) (fun cancelled => ?_)
    split_ifs
    · exact .ret () _
    · refine .bind (l := [tag]) (.handle (.call (.rmi tag)) (fun e => ?_)) (fun ended => ?_)
      · unfold goOn
        split
        · exact .ret _ []
        · exact .raise e []
      · cases ended with
        | exited returncode => exact ih
        | cancelled => exact .ret () images

theorem removesWithin_batches (batches : List (List Str)) :
    RemovesWithin (cleanupBatches batches) batches.flatten := by
  induction batches with
  | nil => exact .ret () []
  | cons batch batches ih =>
    refine .bind (removesWithin_batch batch) (fun _ => ?_)
    refine .bind (l := []) (.call .waitInterval) (fun cancelled => ?_)
    split_ifs
    · exact .ret () _
    · exact ih

/-- The slices put together are the list. -/
theorem flatten_slices {α : Type} (l : List α) (size n : Nat) :
    ((List.range n).map (fun i => (l.drop (i * size)).take size)).flatten = l.take (n * size) := by
  induction n with
  | zero => rw [List.range_zero, Nat.zero_mul, List.take_zero]; rfl
  | succ n ih =>
    rw [List.range_succ, List.map_append, List.flatten_append, ih, Nat.succ_mul, List.take_add]
    simp only [List.map_cons, List.map_nil, List.flatten_cons, List.flatten_nil, List.append_nil]

theorem flatten_batches {batchSize : Int} {images : List Str} {cut : List (List Str)}
    (h : batches batchSize images = .ok cut) : cut.flatten.Sublist images := by
  unfold batches at h
  split_ifs at h
  · obtain rfl := Except.ok.inj h
    exact List.nil_sublist images
  · obtain rfl := Except.ok.inj h
    rw [flatten_slices]
    exact List.take_sublist _ images

/-! ## What is left to clean up -/

/-- `docker images` answers this, whenever it is asked. -/
def Lists (listing : Except PyError Str) (tr : List CleanupEvent) : Prop :=
  ∀ imagePrefix hours r, (⟨.images imagePrefix hours, r⟩ : CleanupEvent) ∈ tr → r = listing

/-- The images that were listed. -/
def listed : Except PyError Str → List Str
  | .ok stdout => imageLines stdout
  | .error _ => []

section
variable {interp : Interpreter} {sorter : Sorter Scalar} {stack : Nat} {files : Files}
  {listing : Except PyError Str} {tr : List CleanupEvent}

theorem Lists.of_append {tr' : List CleanupEvent} (h : Lists listing (tr ++ tr')) :
    Lists listing tr ∧ Lists listing tr' :=
  ⟨fun imagePrefix hours r hr => h imagePrefix hours r (List.mem_append_left tr' hr),
    fun imagePrefix hours r hr => h imagePrefix hours r (List.mem_append_right tr hr)⟩

theorem runs_noImages {e : PyError} {images : List Str} (h : Runs (noImages e) tr (.ok images)) :
    images = [] := by
  unfold noImages at h
  split at h
  · exact Except.ok.inj (runs_ret.mp h).2
  · exact Except.ok.inj (runs_ret.mp h).2
  · cases (runs_raise.mp h).2

theorem getImages_eq {imagePrefix : Str} {thresholdDays : Int} {images : List Str}
    (hlists : Lists listing tr) (hrun : Runs (getImages imagePrefix thresholdDays) tr (.ok images)) :
    images = listed listing := by
  rcases runs_handle.mp hrun with ⟨_, himages, hrun⟩ | ⟨e, t₁, t₂, rfl, h₁, h₂⟩
  · cases himages
    obtain ⟨stdout, t, rfl, hret⟩ := runs_invoke_bind.mp hrun
    obtain ⟨rfl, himages⟩ := runs_ret.mp hret
    rw [Except.ok.inj himages, ← hlists _ _ _ List.mem_cons_self]
    rfl
  · rcases runs_bind_error.mp h₁ with h₁ | ⟨stdout, _, _, -, -, hret⟩
    · obtain rfl := runs_invoke.mp h₁
      have hlisting : Except.error e = listing := hlists _ _ _ List.mem_cons_self
      rw [← hlisting]
      exact runs_noImages h₂
    · cases (runs_ret.mp hret).2

/-- What is left to clean up was listed and is allowed, and is not one of the ignored tags. -/
theorem getImagesToCleanup_ok {thresholdDays : Int} {allToCleanup : List Str}
    (hlists : Lists listing tr)
    (hrun : Runs (getImagesToCleanup interp sorter stack files thresholdDays) tr (.ok allToCleanup)) :
    allToCleanup.Sublist (filterAllowedImages (listed listing)) ∧
      ∀ img ∈ allToCleanup, ∃ ignoredImages,
        getIgnoredImages interp sorter stack files = .ok ignoredImages ∧ img ∉ ignoredImages := by
  obtain ⟨imagePrefix, -, hrun⟩ := runs_ofExcept_bind.mp hrun
  obtain ⟨allImages, t₁, t₂, rfl, himages, hrun⟩ := runs_bind_ok.mp hrun
  obtain rfl := getImages_eq hlists.of_append.1 himages
  split_ifs at hrun
  · obtain rfl := Except.ok.inj (runs_ret.mp hrun).2
    exact ⟨List.nil_sublist _, fun img himg => absurd himg List.not_mem_nil⟩
  · obtain rfl := Except.ok.inj (runs_ret.mp hrun).2
    exact ⟨List.nil_sublist _, fun img himg => absurd himg List.not_mem_nil⟩
  · obtain ⟨ignoredImages, hignored, hrun⟩ := runs_ofExcept_bind.mp hrun
    obtain rfl := Except.ok.inj (runs_ret.mp hrun).2
    exact ⟨List.filter_sublist, fun img himg =>
      ⟨ignoredImages, hignored, of_decide_eq_true (List.mem_filter.mp himg).2⟩⟩

theorem removesWithin_noImages (e : PyError) : RemovesWithin (noImages e) [] := by
  unfold noImages
  split
  · exact .ret _ []
  · exact .ret _ []
  · exact .raise _ []

theorem removesWithin_getImagesToCleanup (thresholdDays : Int) :
    RemovesWithin (getImagesToCleanup interp sorter stack files thresholdDays) [] := by
  refine .ofExcept_bind (fun imagePrefix _ => ?_)
  refine .bind (l := []) (m := []) (.handle (.bind (l := []) (m := [])
    (.call (.images _ _)) (fun stdout => .ret _ [])) removesWithin_noImages) (fun allImages => ?_)
  split_ifs
  · exact .ret _ []
  · exact .ret _ []
  · exact .ofExcept_bind (fun ignoredImages _ => .ret _ [])

/-- What a run of the cleanup removes. -/
theorem removed_cleanupImages {batchSize thresholdDays : Int} {out : Except PyError Unit}
    (hlists : Lists listing tr)
    (hrun : Runs (cleanupImages interp sorter stack files batchSize thresholdDays) tr out) :
    (removed tr).Sublist (filterAllowedImages (listed listing)) ∧
      ∀ img ∈ removed tr, ∃ ignoredImages,
        getIgnoredImages interp sorter stack files = .ok ignoredImages ∧ img ∉ ignoredImages := by
  obtain ⟨r, t₁, t₂, rfl, hwait, hafter⟩ := runs_bind_inv hrun
  obtain rfl := runs_invoke.mp hwait
  have hlists₂ := hlists.of_append.2
  have hnone : removed [⟨.waitInitialDelay, r⟩] = [] := rfl
  rw [removed_append, hnone, List.nil_append]
  cases r with
  | error e =>
    obtain ⟨rfl, -⟩ := hafter
    exact ⟨List.nil_sublist _, fun img himg => absurd himg List.not_mem_nil⟩
  | ok cancelled =>
    dsimp only at hafter
    split_ifs at hafter
    · obtain ⟨rfl, -⟩ := runs_ret.mp hafter
      exact ⟨List.nil_sublist _, fun img himg => absurd himg List.not_mem_nil⟩
    · obtain ⟨r, t₁, t₂, rfl, hget, hremoval⟩ := runs_bind_inv hafter
      have hnone : removed t₁ = [] :=
        List.sublist_nil.mp (removesWithin_getImagesToCleanup thresholdDays t₁ r hget)
      rw [removed_append, hnone, List.nil_append]
      cases r with
      | error e =>
        obtain ⟨rfl, -⟩ := hremoval
        exact ⟨List.nil_sublist _, fun img himg => absurd himg List.not_mem_nil⟩
      | ok allToCleanup =>
        have hwithin : RemovesWithin ((Prog.ofExcept (batches batchSize allToCleanup)).bind
            cleanupBatches) allToCleanup :=
          .ofExcept_bind (fun cut hcut tr out hrun =>
            (removesWithin_batches cut tr out hrun).trans (flatten_batches hcut))
        have hsub : (removed t₂).Sublist allToCleanup := hwithin t₂ out hremoval
        obtain ⟨hallowed, hignored⟩ := getImagesToCleanup_ok hlists₂.of_append.1 hget
        exact ⟨hsub.trans hallowed, fun img himg => hignored img (hsub.subset himg)⟩

end
/-! ## The form of an image -/

/-- `devkit` is one of the parts of the path. -/
def DevkitPath (path : Str) : Prop :=
  ∃ front back, path = front ++ py "devkit" ++ back ∧ (front = [] ∨ ∃ x, front = x ++ py "/") ∧
    (back = [] ∨ ∃ x, back = py "/" ++ x)

/-- `[.../]devkit[/...]/<name>:<arch>-<64 hex digits>`. -/
structure ImageForm (img path imageName arch hash : Str) : Prop where
  eq : img = path ++ (py "/" ++ (imageName ++ (py ":" ++ (arch ++ (py "-" ++ hash)))))
  path : DevkitPath path
  name : ∀ c ∈ imageName, isNameChar c = true
  arch : arch ≠ [] ∧ ∀ c ∈ arch, isArchChar c = true
  hash : hash.length = 64 ∧ ∀ c ∈ hash, isHexChar c = true

theorem reads_namePattern {s : Str} {groups : List Str} (h : Reads namePattern s groups)
    (hline : ∀ c ∈ s, isNewline c = false) :
    ∃ imageName arch hash, groups = [imageName, arch, hash] ∧
      ∀ path, DevkitPath path → ImageForm (path ++ s) path imageName arch hash := by
  obtain ⟨_, rfl, imageName, _, _, rfl, hname, rfl, _, rfl, arch, _, _, rfl, harch, rfl, _, rfl, hash,
    _, _, rfl, hhash, rfl, newline, _, rfl, hnewline, rfl, rfl⟩ := h
  have hnil : newline = [] := by
    refine List.eq_nil_iff_forall_not_mem.mpr (fun c hc => ?_)
    have hnot := hline c (by simp only [List.mem_append]; tauto)
    rw [hnewline.all c hc] at hnot
    cases hnot
  refine ⟨imageName, arch, hash, rfl,
    fun path hpath => ⟨?_, hpath, hname.all, ⟨?_, harch.all⟩, ?_, hhash.all⟩⟩
  · rw [hnil, List.append_nil, List.append_nil]
  · exact List.ne_nil_of_length_pos harch.lo_le
  · exact le_antisymm (hhash.le_hi 64 rfl) hhash.lo_le

/-- The path in front of the name, whichever of its optional parts are there. -/
theorem devkitPath_of_reads {items : List (Item CodePoint)} {img : Str} {groups : List Str}
    (hitems : items ∈ imagePattern) (h : Reads items img groups) :
    ∃ path s, img = path ++ s ∧ DevkitPath path ∧ Reads namePattern s groups := by
  simp only [imagePattern, List.mem_cons, List.not_mem_nil, or_false] at hitems
  rcases hitems with rfl | rfl | rfl | rfl
  · obtain ⟨path, s, _, groups', rfl, rfl, hpath, hs⟩ := h.of_append
    obtain ⟨x, _, rfl, -, _, rfl, _, rfl, _, rfl, y, _, rfl, -, rfl, rfl⟩ := hpath
    refine ⟨_, s, rfl, ⟨x ++ py "/", py "/" ++ y, ?_, .inr ⟨x, rfl⟩, .inr ⟨y, rfl⟩⟩, hs⟩
    simp only [List.append_assoc, List.append_nil]
  · obtain ⟨path, s, _, groups', rfl, rfl, hpath, hs⟩ := h.of_append
    obtain ⟨x, _, rfl, -, _, rfl, _, rfl, rfl, rfl⟩ := hpath
    refine ⟨_, s, rfl, ⟨x ++ py "/", [], ?_, .inr ⟨x, rfl⟩, .inl rfl⟩, hs⟩
    simp only [List.append_assoc, List.append_nil]
  · obtain ⟨path, s, _, groups', rfl, rfl, hpath, hs⟩ := h.of_append
    obtain ⟨_, rfl, _, rfl, y, _, rfl, -, rfl, rfl⟩ := hpath
    refine ⟨_, s, rfl, ⟨[], py "/" ++ y, ?_, .inl rfl, .inr ⟨y, rfl⟩⟩, hs⟩
    simp only [List.nil_append, List.append_nil]
  · obtain ⟨path, s, _, groups', rfl, rfl, hpath, hs⟩ := h.of_append
    obtain ⟨_, rfl, rfl, rfl⟩ := hpath
    exact ⟨_, s, rfl, ⟨[], [], rfl, .inl rfl, .inl rfl⟩, hs⟩

/-- What the pattern matches has the form, with the name as the first group. -/
theorem imageForm_of_match {img imageName : Str} {groups : List Str}
    (h : matchImage img = some (imageName :: groups)) (hline : ∀ c ∈ img, isNewline c = false) :
    ∃ path arch hash, ImageForm img path imageName arch hash := by
  obtain ⟨items, hitems, hmatch⟩ := List.exists_of_findSome?_eq_some h
  obtain ⟨path, s, rfl, hpath, hs⟩ := devkitPath_of_reads hitems (reads_of_fullMatch hmatch)
  obtain ⟨name, arch, hash, hgroups, hform⟩ :=
    reads_namePattern hs (fun c hc => hline c (List.mem_append_right path hc))
  obtain rfl := (List.cons.inj hgroups).1
  exact ⟨path, arch, hash, hform path hpath⟩

theorem imageForm_of_mem {listing : Except PyError Str} {img : Str}
    (himg : img ∈ filterAllowedImages (listed listing)) :
    ∃ imageName ∈ allowedImageNames, ∃ path arch hash, ImageForm img path imageName arch hash := by
  obtain ⟨hlisted, hallowed⟩ := List.mem_filter.mp himg
  have hline : ∀ c ∈ img, isNewline c = false := by
    cases listing with
    | error e => exact absurd hlisted List.not_mem_nil
    | ok stdout =>
      intro c hc
      have hboundary := not_boundary_of_mem_splitlines hlisted c hc
      by_contra hnewline
      rw [Bool.not_eq_false, isNewline, decide_eq_true_eq] at hnewline
      rw [hnewline] at hboundary
      exact absurd hboundary (by decide)
  unfold isAllowedImage at hallowed
  split at hallowed
  · next imageName groups hmatch =>
    exact ⟨imageName, of_decide_eq_true hallowed, imageForm_of_match hmatch hline⟩
  · cases hallowed

/-! ## The tags of the configuration -/

/-- A tag that `build_images` calculates in some run: one of its `docker` calls is about it. -/
def CurrentTag (interp : Interpreter) (files : Files) (tag : Str) : Prop :=
  ∃ self sorter stack targetImages printTagMode noCache localFlag tr out,
    DockerBuilder.init interp files = .ok self ∧
      Runs (self.buildImages interp stack sorter targetImages printTagMode noCache localFlag) tr out ∧
      ∃ ev ∈ tr, DockerOp.tag ev.op = tag

section
variable {interp : Interpreter} {sorter : Sorter Scalar} {stack : Nat} {files : Files}

theorem CurrentTag.exists_build {tag : Str} (h : CurrentTag interp files tag) :
    ∃ self imageName build, DockerBuilder.init interp files = .ok self ∧
      self.HasBuild interp imageName build ∧ tag = self.buildTag interp imageName build := by
  obtain ⟨self, sorter, stack, targetImages, printTagMode, noCache, localFlag, tr, out, hinit, hrun, ev,
    hev, rfl⟩ := h
  obtain ⟨imageName, build, managed, hbuild, hpasses, hserves⟩ := Uses.of_runs hrun
    (DockerBuilder.uses_buildImages sorter targetImages printTagMode noCache localFlag) ev hev
  exact ⟨self, imageName, build, hinit, hbuild, hserves.tag.trans hpasses.tag⟩

namespace DockerBuilder

variable {self : DockerBuilder}

/-- The build order of all images has every image of the configuration in it. -/
theorem mem_getBuildOrder {order : List Scalar} (h : self.getBuildOrder sorter [] = .ok order)
    {imageName : Str} {conf : Json} (hconf : self.imageConfigsMap.lookup imageName = some conf) :
    Scalar.str imageName ∈ order := by
  obtain ⟨graph, hgraph, h⟩ := bind_eq_ok.mp h
  rw [if_neg (by simp)] at h
  have horder := sorted_eq_ok h
  obtain ⟨node, hnode, hdeps⟩ := mem_of_mapM_eq_ok hgraph (mem_of_lookup hconf)
  obtain ⟨deps, -, hdeps⟩ := bind_eq_ok.mp hdeps
  obtain rfl := Except.ok.inj hdeps
  exact (sorter.isOrder horder).mem_iff.mpr ⟨_, hnode, .inl rfl⟩

/-- Calculating the tags of some images one after the other keeps the memory sound. -/
theorem sound_foldlM {images : List Scalar} {generated generated' : Dict Str}
    (hsound : self.Sound interp generated)
    (h : images.foldlM (fun generated imageName =>
      Prod.snd <$> self.calculateTagForImage interp stack imageName generated) generated =
        .ok generated') : self.Sound interp generated' := by
  induction images generalizing generated with
  | nil =>
    rw [← Except.ok.inj h]
    exact hsound
  | cons imageName images ih =>
    rw [List.foldlM_cons] at h
    obtain ⟨generated₁, hstep, h⟩ := bind_eq_ok.mp h
    obtain ⟨⟨tag, generated₂⟩, hcalculate, rfl⟩ := map_eq_ok.mp hstep
    exact ih (calculateTagForImage_eq_ok hsound hcalculate).2 h

/-- When the tags of all images can be calculated, the tag of every build is one of them. -/
theorem mem_calculateTags {tags : List Str}
    (h : self.calculateTags interp sorter stack [] = .ok tags) {imageName : Str} {build : ImageBuild}
    (hbuild : self.HasBuild interp imageName build) : self.buildTag interp imageName build ∈ tags := by
  obtain ⟨order, horder, h⟩ := bind_eq_ok.mp h
  obtain ⟨generated, hgenerated, h⟩ := bind_eq_ok.mp h
  have hmem : Scalar.str imageName ∈ order := by
    cases hbuild with
    | mk hconf => exact mem_getBuildOrder horder hconf
  obtain ⟨tag, htag, hlookup⟩ := mem_of_mapM_eq_ok h hmem
  obtain ⟨build', hbuild', rfl⟩ :=
    sound_foldlM sound_nil hgenerated imageName tag (Dict.getItem_eq_ok.mp hlookup)
  rwa [hbuild.unique hbuild']

end DockerBuilder

theorem CurrentTag.mem {tag : Str} (h : CurrentTag interp files tag) {tags : List Str}
    (htags : getAllDockerImageTags interp sorter stack files = .ok tags) : tag ∈ tags := by
  obtain ⟨self, imageName, build, hinit, hbuild, rfl⟩ := h.exists_build
  obtain ⟨self', hinit', htags⟩ := bind_eq_ok.mp htags
  obtain rfl := Except.ok.inj (hinit.symm.trans hinit')
  exact DockerBuilder.mem_calculateTags htags hbuild

end

/-! ## A cleanup that nothing cancels -/

/-- The event is never set, `docker` lists these images and removes all that it is asked to. -/
def undisturbed (stdout : Str) : (o : CleanupOp) → Except PyError o.Val
  | .waitInitialDelay | .waitInterval | .isSet => .ok false
  | .images _ _ => .ok stdout
  | .rmi _ => .ok (.exited 0)

/-- Undisturbed, `p` returns this value and removes these images. -/
def Evals {α : Type} (stdout : Str) (p : CleanupProg α) (a : α) (images : List Str) : Prop :=
  ∃ calls, eval (undisturbed stdout) p = (.ok a, calls) ∧
    calls.filterMap CleanupOp.removes = images

namespace Evals

variable {α β : Type} {stdout : Str} {l m : List Str}

theorem ret (a : α) : Evals stdout (.ret a) a [] := ⟨[], rfl, rfl⟩

theorem bind {p : CleanupProg α} {f : α → CleanupProg β} {a : α} {b : β}
    (hp : Evals stdout p a l) (hf : Evals stdout (f a) b m) :
    Evals stdout (p.bind f) b (l ++ m) := by
  obtain ⟨calls, hcalls, rfl⟩ := hp
  obtain ⟨calls', hcalls', rfl⟩ := hf
  exact ⟨calls ++ calls', by rw [eval_bind hcalls, hcalls'], List.filterMap_append⟩

theorem batch (images : List Str) : Evals stdout (cleanupImagesBatch images) () images := by
  induction images with
  | nil => exact .ret ()
  | cons tag images ih =>
    have hset : Evals stdout (cleanup .isSet) false [] := ⟨[.isSet], rfl, rfl⟩
    have hrmi : Evals stdout (Prog.handle (cleanup (.rmi tag)) goOn) (.exited 0) [tag] :=
      ⟨[.rmi tag], rfl, rfl⟩
    exact hset.bind (hrmi.bind ih)

theorem batches (batches : List (List Str)) :
    Evals stdout (cleanupBatches batches) () batches.flatten := by
  induction batches with
  | nil => exact .ret ()
  | cons batch batches ih =>
    have hwait : Evals stdout (cleanup .waitInterval) false [] := ⟨[.waitInterval], rfl, rfl⟩
    exact (Evals.batch batch).bind (hwait.bind ih)

end Evals

/-- Batches of a positive size are cut from the whole list. -/
theorem flatten_batches_of_pos {batchSize : Int} (hpos : 0 < batchSize) (images : List Str) :
    ∃ cut, batches batchSize images = .ok cut ∧ cut.flatten = images := by
  unfold batches
  rw [if_neg (by omega), if_neg (by omega)]
  refine ⟨_, rfl, ?_⟩
  rw [flatten_slices]
  have hsize : 0 < batchSize.toNat := by omega
  have hdiv := Nat.lt_div_mul_add (a := images.length + batchSize.toNat - 1) hsize
  exact List.take_of_length_le (by omega)

section
variable {interp : Interpreter} {sorter : Sorter Scalar} {stack : Nat} {files : Files}

/-- When the tags cannot be calculated, every listed image of an allowed name is removed. -/
theorem exists_removal {imagePrefix : Str} (hpath : getImagePrefix interp files = .ok imagePrefix)
    {e : PyError} (hfail : getAllDockerImageTags interp sorter stack files = .error e)
    (he : e.isException = true) (stdout : Str) {batchSize : Int} (hpos : 0 < batchSize)
    (thresholdDays : Int) :
    ∃ tr out, Runs (cleanupImages interp sorter stack files batchSize thresholdDays) tr out ∧
      Lists (.ok stdout) tr ∧ removed tr = filterAllowedImages (imageLines stdout) := by
  have hignored : getIgnoredImages interp sorter stack files = .ok [] := by
    rw [getIgnoredImages, hfail]
    exact if_pos he
  have himages : Evals stdout (getImages imagePrefix thresholdDays) (imageLines stdout) [] :=
    ⟨[.images imagePrefix (thresholdDays * 24)], rfl, rfl⟩
  have hget : Evals stdout (getImagesToCleanup interp sorter stack files thresholdDays)
      (filterAllowedImages (imageLines stdout)) [] := by
    rw [getImagesToCleanup, hpath]
    refine himages.bind (m := []) ?_
    split_ifs with hnone hallowed
    · rw [hnone]
      exact .ret []
    · rw [hallowed]
      exact .ret []
    · rw [hignored]
      have hall : (filterAllowedImages (imageLines stdout)).filter (fun img => img ∉ ([] : List Str)) =
          filterAllowedImages (imageLines stdout) :=
        List.filter_eq_self.mpr (fun img _ => decide_eq_true List.not_mem_nil)
      show Evals stdout (.ret _) _ []
      rw [hall]
      exact .ret _
  obtain ⟨cut, hcut, hflatten⟩ :=
    flatten_batches_of_pos hpos (filterAllowedImages (imageLines stdout))
  have hwait : Evals stdout (cleanup .waitInitialDelay) false [] := ⟨[.waitInitialDelay], rfl, rfl⟩
  have hloop : Evals stdout ((Prog.ofExcept (batches batchSize (filterAllowedImages
      (imageLines stdout)))).bind cleanupBatches) () cut.flatten := by
    rw [hcut]
    exact .batches cut
  obtain ⟨calls, heval, hcalls⟩ :
      Evals stdout (cleanupImages interp sorter stack files batchSize thresholdDays) () _ :=
    hwait.bind (hget.bind hloop)
  have hrun := runs_eval (undisturbed stdout)
    (cleanupImages interp sorter stack files batchSize thresholdDays)
  rw [heval] at hrun
  refine ⟨_, _, hrun, ?_, ?_⟩
  · intro imagePrefix hours r hr
    obtain ⟨o, -, ho⟩ := List.mem_map.mp hr
    cases ho
    rfl
  · rw [removed, List.filterMap_map]
    exact hcalls.trans hflatten

/-- What the removed images are to be, when `docker` listed these. -/
structure SafeRemoval (interp : Interpreter) (files : Files) (listing : Except PyError Str)
    (images : List Str) : Prop where
  form : ∀ img ∈ images, ∃ imageName ∈ allowedImageNames, ∃ path arch hash,
    ImageForm img path imageName arch hash
  count : ∀ img, images.count img ≤ (listed listing).count img
  current : ∀ img ∈ images, ¬ CurrentTag interp files img

/-- The cleanup removes only what it may, however it is called and whatever `docker` does with
the images, exactly when a failure to calculate the tags leaves no current image unprotected. -/
theorem safe_cleanup_iff (interp : Interpreter) (sorter : Sorter Scalar) (stack : Nat)
    (files : Files) (listing : Except PyError Str) :
    (∀ batchSize thresholdDays tr out,
      Runs (cleanupImages interp sorter stack files batchSize thresholdDays) tr out →
        Lists listing tr → SafeRemoval interp files listing (removed tr)) ↔
      ∀ e, getAllDockerImageTags interp sorter stack files = .error e → e.isException = true →
        ∀ img ∈ filterAllowedImages (listed listing), ¬ CurrentTag interp files img := by
  constructor
  · intro hsafe e hfail he img himg hcurrent
    obtain ⟨self, imageName, build, hinit, -, -⟩ := hcurrent.exists_build
    obtain ⟨imagePrefix, hpath⟩ := getImagePrefix_of_init hinit
    cases listing with
    | error e => exact List.not_mem_nil himg
    | ok stdout =>
      obtain ⟨tr, out, hrun, hlists, hremoved⟩ :=
        exists_removal hpath hfail he stdout (show (0 : Int) < 4 by omega) 7
      exact (hsafe 4 7 tr out hrun hlists).current img (hremoved ▸ himg) hcurrent
  · intro hfail batchSize thresholdDays tr out hrun hlists
    obtain ⟨hallowed, hignored⟩ := removed_cleanupImages hlists hrun
    refine ⟨fun img himg => imageForm_of_mem (hallowed.subset himg), fun img => ?_, ?_⟩
    · exact (hallowed.trans List.filter_sublist).count_le img
    · intro img himg hcurrent
      obtain ⟨ignoredImages, hok, hnot⟩ := hignored img himg
      unfold getIgnoredImages at hok
      split at hok
      · next tags htags =>
        rw [← Except.ok.inj hok] at hnot
        exact hnot (hcurrent.mem htags)
      · next e he =>
        split_ifs at hok with hexception
        exact hfail e he hexception img (hallowed.subset himg) hcurrent

end
namespace Sample

def scratch : List UInt8 := bytes "FROM scratch\n"

/-- SHA-256, as far as it is needed here. -/
def hexdigestOfScratch (data : List UInt8) : Str :=
  if data = scratch then py "bb57c7da220a8753d7bdabac0d3afdb6efa742e4c736c5bc93ab40dfd5e23b9b"
  else List.replicate 64 (ch '0')

theorem length_hexdigestOfScratch (data : List UInt8) : (hexdigestOfScratch data).length = 64 := by
  unfold hexdigestOfScratch
  split
  · decide
  · exact List.length_replicate

def scratchInterpreter : Interpreter :=
  ⟨hexdigestOfScratch, length_hexdigestOfScratch, format, format_str⟩

/-- One image without dependencies, and one whose dependency is not there. -/
def brokenConfigs : List (Str × Json) :=
  [(py "tool-env", .object [(py "deps", .object [])]),
    (py "broken", .object [(py "deps", .object [(py "BASE", .str (py "missing"))])])]

def brokenImages : SearchPath where
  depsJson := some (.ok (.object brokenConfigs))
  dockerfile name :=
    if name = py "tool-env.Dockerfile" then some dockerfile
    else if name = py "broken.Dockerfile" then some dockerfile
    else none

def brokenFiles : Files := ⟨none, [brokenImages]⟩

def brokenBuilder : DockerBuilder where
  searchPaths := [brokenImages]
  repo := []
  imageNamespace := py "devkit"
  arch := py "amd64"
  extraPackagesMap := []
  extraKeysMap := []
  extraRepositoriesMap := []
  imageConfigsMap := brokenConfigs

def toolEnv : Str :=
  py "devkit/tool-env:amd64-bb57c7da220a8753d7bdabac0d3afdb6efa742e4c736c5bc93ab40dfd5e23b9b"

theorem getAllDockerImageTags_broken :
    getAllDockerImageTags scratchInterpreter .search 1000 brokenFiles = .error .keyError := by
  decide +kernel

/-- Every image is there. -/
def allFound : (o : DockerOp) → Except PyError o.Val
  | .imageInspect _ | .manifestInspect _ | .push _ => .ok 0
  | .pull _ | .build _ | .print _ => .ok ()

/-- The image without dependencies can still be built. -/
theorem currentTag_toolEnv : CurrentTag scratchInterpreter brokenFiles toolEnv := by
  have hcalls : toolEnv ∈ (eval allFound (brokenBuilder.buildImages scratchInterpreter 1000 .search
      [py "tool-env"] false false false)).2.map DockerOp.tag := by
    decide +kernel
  obtain ⟨o, ho, htag⟩ := List.mem_map.mp hcalls
  exact ⟨brokenBuilder, .search, 1000, [py "tool-env"], false, false, false, _, _, rfl,
    runs_eval allFound _, ⟨o, allFound o⟩, List.mem_map_of_mem ho, htag⟩

theorem filterAllowedImages_toolEnv :
    filterAllowedImages (imageLines (toolEnv ++ py "\n")) = [toolEnv] := by
  decide +kernel

end Sample

open Sample in
/-- A dependency that is not there takes the protection from the tags of all images. -/
theorem not_safe_cleanup_broken :
    ¬ ∀ (interp : Interpreter) (sorter : Sorter Scalar) (stack : Nat) (files : Files)
      (listing : Except PyError Str) (batchSize thresholdDays : Int) (tr : List CleanupEvent)
      (out : Except PyError Unit),
      Runs (cleanupImages interp sorter stack files batchSize thresholdDays) tr out →
        Lists listing tr → SafeRemoval interp files listing (removed tr) := by
  intro h
  obtain ⟨tr, out, hrun, hlists, hremoved⟩ := exists_removal (rfl : getImagePrefix _ brokenFiles = _)
    getAllDockerImageTags_broken rfl (toolEnv ++ py "\n") (show (0 : Int) < 4 by omega) 7
  rw [filterAllowedImages_toolEnv] at hremoved
  exact (h _ _ _ _ _ 4 7 tr out hrun hlists).current toolEnv (hremoved ▸ List.mem_cons_self)
    currentTag_toolEnv

end Devkit
