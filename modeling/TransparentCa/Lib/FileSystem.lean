import Mathlib.Data.Finset.Card
import Mathlib.Data.List.DropRight
import Mathlib.Tactic
import TransparentCa.Lib.PosixPath

/- File systems with symbolic links: a finite tree of directories, files and links, and what a
   path leads to in it. `Follows` says that following a path with its links ends at an entry;
   `stat` finds it, with as many levels of links as there are links. -/
namespace Posix

variable {Name : Type}

/-- What stands in a directory. The target of a link may end with a slash, and then it has to be
    a directory. -/
inductive Entry (Name : Type) where
  | file
  | link (target : Path Name) (slash : Bool)
  | dir (names : List Name) (child : Name → Entry Name)

namespace Entry

def isDir : Entry Name → Bool
  | .dir _ _ => true
  | _ => false

def isLink : Entry Name → Bool
  | .link _ _ => true
  | _ => false

variable [DecidableEq Name]

/-- The entry that stands at a place. No link is followed. -/
def at? (e : Entry Name) : List Name → Option (Entry Name)
  | [] => some e
  | n :: l =>
    match e with
    | .dir names child => if n ∈ names then (child n).at? l else none
    | _ => none

theorem at?_append (e : Entry Name) (l m : List Name) :
    e.at? (l ++ m) = (e.at? l).bind (fun e => e.at? m) := by
  induction l generalizing e with
  | nil => rw [List.nil_append, at?, Option.bind_some]
  | cons n l ih =>
    cases e with
    | dir names child =>
      rw [List.cons_append, at?, at?]
      split_ifs
      · exact ih (child n)
      · rfl
    | _ => rfl

theorem at?_singleton {e : Entry Name} {n : Name} {e' : Entry Name} :
    e.at? [n] = some e' ↔ ∃ names child, e = .dir names child ∧ n ∈ names ∧ child n = e' := by
  cases e with
  | dir names child =>
    rw [at?, at?]
    split_ifs with h
    · constructor
      · exact fun heq => ⟨names, child, rfl, h, Option.some.inj heq⟩
      · intro ⟨names', child', heq, _, hchild⟩
        cases heq
        exact congrArg some hchild
    · refine iff_of_false (fun heq => nomatch heq) (fun ⟨names', child', heq, hmem, _⟩ => ?_)
      cases heq
      exact h hmem
  | _ => exact iff_of_false (fun heq => nomatch heq) (fun ⟨_, _, heq, _⟩ => nomatch heq)

/-- The places of the links. -/
def links : Entry Name → List (List Name)
  | .file => []
  | .link _ _ => [[]]
  | .dir names child => names.flatMap (fun n => (child n).links.map (fun l => n :: l))

theorem mem_links {e : Entry Name} {l : List Name} {target : Path Name} {slash : Bool}
    (h : e.at? l = some (.link target slash)) : l ∈ e.links := by
  induction e generalizing l with
  | file =>
    cases l with
    | nil => cases h
    | cons n l => cases h
  | link target' slash' =>
    cases l with
    | nil => exact List.mem_singleton_self []
    | cons n l => cases h
  | dir names child ih =>
    cases l with
    | nil => cases h
    | cons n l =>
      rw [at?] at h
      split_ifs at h with hn
      exact List.mem_flatMap.mpr ⟨n, hn, List.mem_map.mpr ⟨l, ih n h, rfl⟩⟩

/-- The parts that paths in the tree can have: the names and the parts of the targets. -/
def parts : Entry Name → List (Part Name)
  | .file => []
  | .link target _ => target.parts
  | .dir names child => names.map .name ++ names.flatMap (fun n => (child n).parts)

theorem parts_at? {e e' : Entry Name} {l : List Name} (h : e.at? l = some e') :
    ∀ part ∈ e'.parts, part ∈ e.parts := by
  induction l generalizing e with
  | nil =>
    rw [at?] at h
    cases h
    exact fun part hpart => hpart
  | cons n l ih =>
    cases e with
    | dir names child =>
      rw [at?] at h
      split_ifs at h with hn
      exact fun part hpart => List.mem_append_right _ (List.mem_flatMap.mpr ⟨n, hn, ih h part hpart⟩)
    | _ => cases h

end Entry

/-- A tree and the working directory in it. -/
structure FileSystem (Name : Type) [DecidableEq Name] where
  root : Entry Name
  cwd : List Name
  root_isDir : root.isDir = true
  cwd_isDir : (root.at? cwd).any Entry.isDir = true

/-- Why a path leads nowhere: `ENOENT`, `ENOTDIR`, or `ELOOP`. -/
inductive Errno where
  | noEntry
  | notDir
  | loop

namespace FileSystem

variable [DecidableEq Name] (fs : FileSystem Name)

def isDirAt (l : List Name) : Bool := (fs.root.at? l).any Entry.isDir

/-- Where a path begins that is met in a directory. -/
def begin (p : Path Name) (dir : List Name) : List Name := if p.root = .none then dir else []

/-! ## Following a path -/

/-- From the place `l` the parts lead to a place, over so many links. -/
inductive Follows (fs : FileSystem Name) :
    Nat → List Name → List (Part Name) → List Name → Prop
  | done (l : List Name) : Follows fs 0 l [] l
  | parent {k : Nat} {l m : List Name} {rest : List (Part Name)} : fs.isDirAt l = true →
      Follows fs k l.dropLast rest m → Follows fs k l (.parent :: rest) m
  | entry {k : Nat} {l m : List Name} {n : Name} {rest : List (Part Name)} {e : Entry Name} :
      fs.root.at? (l ++ [n]) = some e → e.isLink = false →
      Follows fs k (l ++ [n]) rest m → Follows fs k l (.name n :: rest) m
  | link {j k : Nat} {l t m : List Name} {n : Name} {rest : List (Part Name)}
      {target : Path Name} {slash : Bool} :
      fs.root.at? (l ++ [n]) = some (.link target slash) →
      Follows fs j (begin target l) target.parts t → (slash = true → fs.isDirAt t = true) →
      Follows fs k t rest m → Follows fs (j + k + 1) l (.name n :: rest) m

/-- The search from a place; `onLink` says where the link at a place leads. -/
def follow (onLink : List Name → Except Errno (List Name)) :
    List Name → List (Part Name) → Except Errno (List Name)
  | l, [] => .ok l
  | l, part :: rest =>
    if fs.isDirAt l then
      match part with
      | .parent => follow onLink l.dropLast rest
      | .name n =>
        match fs.root.at? (l ++ [n]) with
        | none => .error .noEntry
        | some (.link _ _) => (onLink (l ++ [n])).bind (fun t => follow onLink t rest)
        | some _ => follow onLink (l ++ [n]) rest
    else .error .notDir

/-- Where the link at a place leads, for so many levels of links. -/
def resolveLink : Nat → List Name → Except Errno (List Name)
  | 0, _ => .error .loop
  | levels + 1, l =>
    match fs.root.at? l with
    | some (.link target slash) =>
      (fs.follow (resolveLink levels) (begin target l.dropLast) target.parts).bind (fun t =>
        if slash && !fs.isDirAt t then .error .notDir else .ok t)
    | _ => .error .noEntry

/-- What a path leads to. -/
def stat (p : Path Name) : Except Errno (List Name) :=
  fs.follow (fs.resolveLink fs.root.links.length) (begin p fs.cwd) p.parts

/-! ## Enough levels -/

theorem isDirAt_of_at? {fs : FileSystem Name} {l : List Name} {n : Name} {e : Entry Name}
    (h : fs.root.at? (l ++ [n]) = some e) : fs.isDirAt l = true := by
  rw [Entry.at?_append] at h
  obtain ⟨d, hd, hn⟩ := Option.bind_eq_some_iff.mp h
  obtain ⟨names, child, rfl, -, -⟩ := Entry.at?_singleton.mp hn
  rw [isDirAt, hd]
  rfl

/-- What is known with fewer levels does not change with more. -/
def Below (r r' : Except Errno (List Name)) : Prop := r = .error .loop ∨ r = r'

omit [DecidableEq Name] in
theorem Below.bind {r r' : Except Errno (List Name)}
    {f f' : List Name → Except Errno (List Name)} (h : Below r r') (hf : ∀ t, Below (f t) (f' t)) :
    Below (r.bind f) (r'.bind f') := by
  rcases h with rfl | rfl
  · exact .inl rfl
  · cases r with
    | error e => exact .inr rfl
    | ok t => exact hf t

theorem follow_below {f g : List Name → Except Errno (List Name)} (h : ∀ l, Below (f l) (g l))
    (l : List Name) (parts : List (Part Name)) :
    Below (fs.follow f l parts) (fs.follow g l parts) := by
  induction parts generalizing l with
  | nil => exact .inr rfl
  | cons part rest ih =>
    unfold follow
    split_ifs
    · cases part with
      | parent => exact ih l.dropLast
      | name n =>
        dsimp only
        split
        · exact .inr rfl
        · exact (h _).bind ih
        · exact ih _
    · exact .inr rfl

/-- Only links are asked for. -/
theorem follow_congr {f g : List Name → Except Errno (List Name)}
    (h : ∀ l ∈ fs.root.links, f l = g l) (l : List Name) (parts : List (Part Name)) :
    fs.follow f l parts = fs.follow g l parts := by
  induction parts generalizing l with
  | nil => rfl
  | cons part rest ih =>
    unfold follow
    split_ifs
    · cases part with
      | parent => exact ih l.dropLast
      | name n =>
        dsimp only
        split
        · rfl
        · next hlink =>
          rw [h _ (Entry.mem_links hlink)]
          exact congrArg _ (funext ih)
        · exact ih _
    · rfl

theorem resolveLink_below (levels : Nat) (l : List Name) :
    Below (fs.resolveLink levels l) (fs.resolveLink (levels + 1) l) := by
  induction levels generalizing l with
  | zero => exact .inl rfl
  | succ levels ih =>
    rw [resolveLink, resolveLink]
    split
    · exact (fs.follow_below ih _ _).bind (fun t => .inr rfl)
    · exact .inr rfl

theorem follow_levels {levels levels' : Nat} (h : levels ≤ levels') {l m : List Name}
    {parts : List (Part Name)} (hok : fs.follow (fs.resolveLink levels) l parts = .ok m) :
    fs.follow (fs.resolveLink levels') l parts = .ok m := by
  induction h with
  | refl => exact hok
  | step _ ih =>
    rcases fs.follow_below (fs.resolveLink_below _) l parts with hloop | heq
    · rw [hloop] at ih
      cases ih
    · rw [← heq, ih]

/-- One more level makes no difference, and so no number of levels does. -/
theorem resolveLink_settled {levels : Nat}
    (h : ∀ l ∈ fs.root.links, fs.resolveLink levels l = fs.resolveLink (levels + 1) l)
    {levels' : Nat} (hle : levels ≤ levels') :
    ∀ l ∈ fs.root.links, fs.resolveLink levels l = fs.resolveLink levels' l := by
  have hstep : ∀ more, ∀ l ∈ fs.root.links,
      fs.resolveLink (levels + more) l = fs.resolveLink (levels + more + 1) l := by
    intro more
    induction more with
    | zero => exact h
    | succ more ih =>
      intro l hl
      rw [← Nat.add_assoc, resolveLink, resolveLink]
      split
      · rw [fs.follow_congr ih]
      · rfl
  intro l hl
  induction hle with
  | refl => rfl
  | step hle ih =>
    obtain ⟨more, rfl⟩ := Nat.exists_eq_add_of_le hle
    rw [ih, hstep more l hl]

/-- A growing sequence of parts of a finite set stands still somewhere. -/
theorem exists_eq_succ {β : Type} {U : Nat → Finset β} {B : Finset β} (hB : ∀ i, U i ⊆ B)
    (hU : ∀ i, U i ⊆ U (i + 1)) : ∃ i ≤ B.card, U i = U (i + 1) := by
  by_contra hno
  have hgrow : ∀ i ≤ B.card + 1, i ≤ (U i).card := by
    intro i
    induction i with
    | zero => exact fun _ => Nat.zero_le _
    | succ i ih =>
      intro hi
      have hne : U i ≠ U (i + 1) := fun heq => hno ⟨i, by omega, heq⟩
      have hlt := Finset.card_lt_card (Finset.ssubset_iff_subset_ne.mpr ⟨hU i, hne⟩)
      have := ih (by omega)
      omega
  have hlast := hgrow (B.card + 1) le_rfl
  have := Finset.card_le_card (hB (B.card + 1))
  omega

theorem exists_settled : ∃ levels ≤ fs.root.links.length,
    ∀ l ∈ fs.root.links, fs.resolveLink levels l = fs.resolveLink (levels + 1) l := by
  classical
  let known := fun levels =>
    fs.root.links.toFinset.filter (fun l => fs.resolveLink levels l ≠ .error .loop)
  have hgrow : ∀ levels, known levels ⊆ known (levels + 1) := by
    intro levels l hl
    obtain ⟨hmem, hknown⟩ := Finset.mem_filter.mp hl
    refine Finset.mem_filter.mpr ⟨hmem, ?_⟩
    rw [← (fs.resolveLink_below levels l).resolve_left hknown]
    exact hknown
  obtain ⟨levels, hle, heq⟩ : ∃ i ≤ fs.root.links.toFinset.card, known i = known (i + 1) :=
    exists_eq_succ (fun i => Finset.filter_subset _ _) hgrow
  refine ⟨levels, hle.trans (List.toFinset_card_le _), fun l hl => ?_⟩
  rcases fs.resolveLink_below levels l with hloop | hsame
  · have hnot : l ∉ known (levels + 1) := by
      rw [← heq]
      exact fun hmem => (Finset.mem_filter.mp hmem).2 hloop
    rw [hloop]
    by_contra hne
    exact hnot (Finset.mem_filter.mpr ⟨List.mem_toFinset.mpr hl, Ne.symm hne⟩)
  · exact hsame

/-- With as many levels as there are links, a path leads where it leads with any number. -/
theorem follow_links {levels : Nat} {l m : List Name} {parts : List (Part Name)}
    (h : fs.follow (fs.resolveLink levels) l parts = .ok m) :
    fs.follow (fs.resolveLink fs.root.links.length) l parts = .ok m := by
  obtain ⟨settled, hle, hsettled⟩ := fs.exists_settled
  have hsame : ∀ k ∈ fs.root.links, fs.resolveLink fs.root.links.length k =
      fs.resolveLink (max settled levels) k := fun k hk =>
    (fs.resolveLink_settled hsettled hle k hk).symm.trans
      (fs.resolveLink_settled hsettled (le_max_left settled levels) k hk)
  rw [fs.follow_congr hsame]
  exact fs.follow_levels (le_max_right settled levels) h

/-! ## What a path leads to -/

theorem resolveLink_eq_ok {levels : Nat} {l t : List Name} {n : Name} {target : Path Name}
    {slash : Bool} (h : fs.root.at? (l ++ [n]) = some (.link target slash)) :
    fs.resolveLink (levels + 1) (l ++ [n]) = .ok t ↔
      fs.follow (fs.resolveLink levels) (begin target l) target.parts = .ok t ∧
        (slash = true → fs.isDirAt t = true) := by
  rw [resolveLink, h]
  dsimp only
  rw [List.dropLast_concat]
  cases fs.follow (fs.resolveLink levels) (begin target l) target.parts with
  | error e => exact iff_of_false (fun heq => nomatch heq) (fun heq => nomatch heq.1)
  | ok t' =>
    show (if slash && !fs.isDirAt t' then _ else _) = _ ↔ _
    split_ifs with hslash
    · rw [Bool.and_eq_true, Bool.not_eq_true'] at hslash
      refine iff_of_false (fun heq => nomatch heq) (fun ⟨heq, hdir⟩ => ?_)
      obtain rfl := Except.ok.inj heq
      rw [hslash.2] at hdir
      exact absurd (hdir hslash.1) Bool.false_ne_true
    · refine ⟨fun heq => ⟨heq, fun hs => ?_⟩, fun heq => heq.1⟩
      obtain rfl := Except.ok.inj heq
      simpa [hs] using hslash

theorem follows_of_links {onLink : List Name → Except Errno (List Name)}
    (hlink : ∀ {l t n target slash}, fs.root.at? (l ++ [n]) = some (.link target slash) →
      onLink (l ++ [n]) = .ok t →
      (∃ j, Follows fs j (begin target l) target.parts t) ∧ (slash = true → fs.isDirAt t = true))
    {l m : List Name} {parts : List (Part Name)} (h : fs.follow onLink l parts = .ok m) :
    ∃ k, Follows fs k l parts m := by
  induction parts generalizing l with
  | nil => exact ⟨0, Except.ok.inj h ▸ .done l⟩
  | cons part rest ih =>
    unfold follow at h
    split_ifs at h with hdir
    cases part with
    | parent =>
      obtain ⟨k, hk⟩ := ih h
      exact ⟨k, .parent hdir hk⟩
    | name n =>
      dsimp only at h
      split at h
      · cases h
      · next heq =>
        cases htarget : onLink (l ++ [n]) with
        | error e =>
          rw [htarget] at h
          cases h
        | ok t =>
          rw [htarget] at h
          obtain ⟨⟨j, hj⟩, hslash⟩ := hlink heq htarget
          obtain ⟨k, hk⟩ := ih h
          exact ⟨j + k + 1, .link heq hj hslash hk⟩
      · next e hno heq =>
        obtain ⟨k, hk⟩ := ih h
        refine ⟨k, .entry heq ?_ hk⟩
        cases e with
        | link target slash => exact absurd rfl (hno target slash)
        | _ => rfl

theorem follows_of_follow {levels : Nat} {l m : List Name} {parts : List (Part Name)}
    (h : fs.follow (fs.resolveLink levels) l parts = .ok m) : ∃ k, Follows fs k l parts m := by
  induction levels generalizing l m parts with
  | zero => exact fs.follows_of_links (fun _ hok => by cases hok) h
  | succ levels ih =>
    refine fs.follows_of_links (fun heq hok => ?_) h
    obtain ⟨htarget, hslash⟩ := (fs.resolveLink_eq_ok heq).mp hok
    exact ⟨ih htarget, hslash⟩

theorem resolveLink_levels {levels levels' : Nat} (h : levels ≤ levels') {l t : List Name}
    (hok : fs.resolveLink levels l = .ok t) : fs.resolveLink levels' l = .ok t := by
  induction h with
  | refl => exact hok
  | step _ ih =>
    rcases fs.resolveLink_below _ l with hloop | heq
    · rw [hloop] at ih
      cases ih
    · rw [← heq, ih]

theorem Follows.exists_follow {fs : FileSystem Name} {k : Nat} {l m : List Name}
    {parts : List (Part Name)} (h : Follows fs k l parts m) :
    ∃ levels, fs.follow (fs.resolveLink levels) l parts = .ok m := by
  induction h with
  | done l => exact ⟨0, rfl⟩
  | parent hdir _ ih =>
    obtain ⟨levels, ih⟩ := ih
    exact ⟨levels, by rw [follow, if_pos hdir, ih]⟩
  | @entry k l m n rest e heq hno _ ih =>
    obtain ⟨levels, ih⟩ := ih
    refine ⟨levels, ?_⟩
    rw [follow, if_pos (isDirAt_of_at? heq), heq]
    cases e with
    | link target slash => cases hno
    | _ => exact ih
  | @link j k l t m n rest target slash heq _ hslash _ ihTarget ih =>
    obtain ⟨levels, ihTarget⟩ := ihTarget
    obtain ⟨levels', ih⟩ := ih
    -- The link itself takes one level more than its target.
    have hlink : fs.resolveLink (max (levels + 1) levels') (l ++ [n]) = .ok t :=
      fs.resolveLink_levels (le_max_left _ _) ((fs.resolveLink_eq_ok heq).mpr ⟨ihTarget, hslash⟩)
    refine ⟨max (levels + 1) levels', ?_⟩
    rw [follow, if_pos (isDirAt_of_at? heq), heq]
    show (fs.resolveLink _ (l ++ [n])).bind _ = _
    rw [hlink]
    exact fs.follow_levels (le_max_right _ _) ih

/-- Following the path with its links ends at a place. -/
def Resolves (k : Nat) (p : Path Name) (l : List Name) : Prop :=
  Follows fs k (begin p fs.cwd) p.parts l

theorem stat_eq_ok {p : Path Name} {l : List Name} :
    fs.stat p = .ok l ↔ ∃ k, fs.Resolves k p l := by
  constructor
  · exact fs.follows_of_follow
  · intro ⟨k, h⟩
    obtain ⟨levels, hlevels⟩ := h.exists_follow
    exact fs.follow_links hlevels

theorem Follows.unique {fs : FileSystem Name} {j k : Nat} {l m m' : List Name}
    {parts : List (Part Name)} (h : Follows fs j l parts m) (h' : Follows fs k l parts m') :
    j = k ∧ m = m' := by
  induction h generalizing k m' with
  | done l =>
    cases h'
    exact ⟨rfl, rfl⟩
  | parent _ _ ih =>
    cases h' with
    | parent _ h' => exact ih h'
  | entry heq hno _ ih =>
    cases h' with
    | entry _ _ h' => exact ih h'
    | link heq' _ _ _ =>
      cases heq.symm.trans heq'
      cases hno
  | link heq _ _ _ ihTarget ih =>
    cases h' with
    | entry heq' hno _ =>
      cases heq.symm.trans heq'
      cases hno
    | link heq' hTarget _ h' =>
      cases heq.symm.trans heq'
      obtain ⟨rfl, rfl⟩ := ihTarget hTarget
      obtain ⟨rfl, rfl⟩ := ih h'
      exact ⟨rfl, rfl⟩

theorem Follows.append {fs : FileSystem Name} {j k : Nat} {l t m : List Name}
    {parts parts' : List (Part Name)} (h : Follows fs j l parts t) (h' : Follows fs k t parts' m) :
    Follows fs (j + k) l (parts ++ parts') m := by
  induction h with
  | done l =>
    rw [Nat.zero_add]
    exact h'
  | parent hdir _ ih => exact .parent hdir (ih h')
  | entry heq hno _ ih => exact .entry heq hno (ih h')
  | @link i j l t' m' n rest target slash heq hTarget hslash _ _ ih =>
    have hlink := Follows.link heq hTarget hslash (ih h')
    rwa [show i + (j + k) + 1 = i + j + 1 + k by omega] at hlink

theorem Follows.split {fs : FileSystem Name} {k : Nat} {l m : List Name}
    {parts parts' : List (Part Name)} (h : Follows fs k l (parts ++ parts') m) :
    ∃ i j t, k = i + j ∧ Follows fs i l parts t ∧ Follows fs j t parts' m := by
  induction parts generalizing k l with
  | nil => exact ⟨0, k, l, (Nat.zero_add k).symm, .done l, h⟩
  | cons part parts ih =>
    cases h with
    | parent hdir h =>
      obtain ⟨i, j, t, rfl, hi, hj⟩ := ih h
      exact ⟨i, j, t, rfl, .parent hdir hi, hj⟩
    | entry heq hno h =>
      obtain ⟨i, j, t, rfl, hi, hj⟩ := ih h
      exact ⟨i, j, t, rfl, .entry heq hno hi, hj⟩
    | link heq hTarget hslash h =>
      obtain ⟨i, j, t, rfl, hi, hj⟩ := ih h
      exact ⟨_, j, t, by omega, .link heq hTarget hslash hi, hj⟩

end FileSystem

end Posix
