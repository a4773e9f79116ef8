import TransparentCa.Devkit.CoverageReading

/- What the coverage report says of an LCOV file. Only the last record of a source file counts,
   since every record begins anew; and a branch is reported where its count is `-`, not where it
   is 0. Within these bounds nothing is lost: the numbers are read as they were written, or the
   script ends with an error, and the printed ranges cover the uncovered lines and no others. -/
namespace Devkit.Coverage
open Python AssocList

/-! ## What is kept -/

/-- The last record under every name, in the order of the first. -/
def kept (records : List SourceRecord) : Dict SourceRecord :=
  records.foldl (fun d r => d.set r.filed r) []

/-- The last record that is filed under a name. -/
def lastFiled (records : List SourceRecord) (name : Str) : Option SourceRecord :=
  records.reverse.find? (fun r => r.filed = name)

theorem kept_append (records : List SourceRecord) (r : SourceRecord) :
    kept (records ++ [r]) = (kept records).set r.filed r := by
  rw [kept, List.foldl_append]
  rfl

theorem nodup_kept (records : List SourceRecord) : ((kept records).map Prod.fst).Nodup := by
  induction records using List.reverseRecOn with
  | nil => exact List.nodup_nil
  | append_singleton records r ih =>
    rw [kept_append]
    exact Dict.nodup_keys_set ih

theorem lookup_kept (records : List SourceRecord) (name : Str) :
    (kept records).lookup name = lastFiled records name := by
  induction records using List.reverseRecOn with
  | nil => rfl
  | append_singleton records r ih =>
    rw [kept_append, Dict.lookup_set, lastFiled, List.reverse_append, List.reverse_singleton,
      List.singleton_append, List.find?_cons, ih]
    by_cases h : r.filed = name
    · rw [if_pos h.symm, decide_eq_true h]
    · rw [if_neg (Ne.symm h), decide_eq_false h]
      rfl

theorem mem_kept {records : List SourceRecord} {name : Str} {r : SourceRecord} :
    (name, r) ∈ kept records ↔ lastFiled records name = some r := by
  rw [← lookup_eq_some_iff (nodup_kept records), lookup_kept]

theorem filed_of_lastFiled {records : List SourceRecord} {name : Str} {r : SourceRecord}
    (h : lastFiled records name = some r) : r.filed = name := by
  unfold lastFiled at h
  simpa using List.find?_some h

/-! ## Reading the whole file -/

theorem Entry.oneLine_text (e : Entry) : OneLine e.text := by
  have htag : ∀ {tag : Str} (n : Nat), OneLine tag → OneLine (tag ++ strNat n) :=
    fun n htag => htag.append (oneLine_strNat n)
  have hcomma : OneLine (py ",") := by decide
  cases e with
  | functionData tag text =>
    have htagText : OneLine tag.text := by cases tag <;> decide
    exact htagText.append text.property
  | branch n block id taken =>
    have htaken : OneLine (takenText taken) := by
      cases taken with
      | none => decide
      | some count => exact oneLine_strNat count
    exact ((htag id ((htag block ((htag n (by decide)).append hcomma)).append hcomma)).append
      hcomma).append htaken
  | branchesFound n => exact htag n (by decide)
  | branchesHit n => exact htag n (by decide)
  | line n count checksum =>
    have hline : OneLine (py "DA:" ++ strNat n ++ py "," ++ strNat count) :=
      htag count ((htag n (by decide)).append hcomma)
    cases checksum with
    | none => exact hline
    | some checksum => exact (hline.append hcomma).append checksum.property
  | linesHit n => exact htag n (by decide)
  | linesFound n => exact htag n (by decide)

theorem SourceRecord.oneLine_lines (r : SourceRecord) : ∀ line ∈ r.lines, OneLine line := by
  intro line hline
  have hsource : OneLine (py "SF:") := by decide
  simp only [SourceRecord.lines, List.mem_append, List.mem_map, List.mem_singleton,
    Option.mem_toList] at hline
  rcases hline with ((hname | rfl) | ⟨e, -, rfl⟩) | rfl
  · obtain ⟨name, -, rfl⟩ := Option.map_eq_some_iff.mp hname
    exact OneLine.append (by decide) name.property
  · exact hsource.append r.path.property
  · exact e.oneLine_text
  · decide

theorem foldlM_records_eq_ok (records : List SourceRecord) {d : Dict SourceRecord}
    {reading : Reading} :
    (records.flatMap SourceRecord.lines).foldlM readLine
        ⟨d.map (Prod.map id SourceRecord.coverage), none⟩ = .ok reading ↔
      (∀ r ∈ records, r.Readable) ∧
        reading = ⟨(records.foldl (fun d r => d.set r.filed r) d).map
          (Prod.map id SourceRecord.coverage), none⟩ := by
  induction records generalizing d with
  | nil =>
    have hnone : ∀ r ∈ ([] : List SourceRecord), r.Readable := fun r hr => absurd hr List.not_mem_nil
    exact ⟨fun h => ⟨hnone, (Except.ok.inj h).symm⟩, fun h => congrArg Except.ok h.2.symm⟩
  | cons r records ih =>
    rw [List.flatMap_cons, List.foldlM_append, bind_eq_ok]
    constructor
    · rintro ⟨reading', hrecord, hrest⟩
      obtain ⟨hread, rfl⟩ := (foldlM_record_eq_ok r).mp hrecord
      rw [← Dict.map_set] at hrest
      obtain ⟨hreads, rfl⟩ := ih.mp hrest
      exact ⟨List.forall_mem_cons.mpr ⟨hread, hreads⟩, rfl⟩
    · rintro ⟨hreads, rfl⟩
      obtain ⟨hread, hrest⟩ := List.forall_mem_cons.mp hreads
      refine ⟨_, (foldlM_record_eq_ok r).mpr ⟨hread, rfl⟩, ?_⟩
      rw [← Dict.map_set]
      exact ih.mpr ⟨hrest, rfl⟩

/-! ## The percentages -/

def Entry.linesFound? : Entry → Option Nat
  | .linesFound n => some n
  | _ => none

def Entry.linesHit? : Entry → Option Nat
  | .linesHit n => some n
  | _ => none

def Entry.branchesFound? : Entry → Option Nat
  | .branchesFound n => some n
  | _ => none

def Entry.branchesHit? : Entry → Option Nat
  | .branchesHit n => some n
  | _ => none

/-- The last such number of a record, 0 without one. -/
def SourceRecord.last (r : SourceRecord) (pick : Entry → Option Nat) : Nat :=
  (r.entries.filterMap pick).getLast?.getD 0

/-- What is hit is less than `floatLimit` times what is found. -/
def QuotientFits (hit found : Nat) : Prop := found = 0 ∨ hit < floatLimit * found

structure SourceRecord.HasPercentages (r : SourceRecord) : Prop where
  lines : QuotientFits (r.last Entry.linesHit?) (r.last Entry.linesFound?)
  branches : QuotientFits (r.last Entry.branchesHit?) (r.last Entry.branchesFound?)

section
variable (cov : FileCoverage) (e : Entry)

theorem Entry.apply_linesFound :
    (Entry.apply cov e).lines_found = (e.linesFound?.map Nat.cast).getD cov.lines_found := by
  cases e with
  | branch | line => unfold Entry.apply; dsimp only; split_ifs <;> rfl
  | _ => rfl

theorem Entry.apply_linesHit :
    (Entry.apply cov e).lines_hit = (e.linesHit?.map Nat.cast).getD cov.lines_hit := by
  cases e with
  | branch | line => unfold Entry.apply; dsimp only; split_ifs <;> rfl
  | _ => rfl

theorem Entry.apply_branchesFound :
    (Entry.apply cov e).branches_found = (e.branchesFound?.map Nat.cast).getD cov.branches_found := by
  cases e with
  | branch | line => unfold Entry.apply; dsimp only; split_ifs <;> rfl
  | _ => rfl

theorem Entry.apply_branchesHit :
    (Entry.apply cov e).branches_hit = (e.branchesHit?.map Nat.cast).getD cov.branches_hit := by
  cases e with
  | branch | line => unfold Entry.apply; dsimp only; split_ifs <;> rfl
  | _ => rfl

end

/-- A field that the entries overwrite holds the last of their numbers. -/
theorem foldl_apply_last {field : FileCoverage → Int} {pick : Entry → Option Nat}
    (hstep : ∀ cov e, field (Entry.apply cov e) = ((pick e).map Nat.cast).getD (field cov))
    (entries : List Entry) (cov : FileCoverage) :
    field (entries.foldl Entry.apply cov) =
      ((entries.filterMap pick).getLast?.map Nat.cast).getD (field cov) := by
  induction entries using List.reverseRecOn with
  | nil => rfl
  | append_singleton entries e ih =>
    rw [List.foldl_append, List.foldl_cons, List.foldl_nil, hstep, ih, List.filterMap_append,
      List.filterMap_cons]
    cases pick e with
    | none => simp
    | some n => simp

theorem SourceRecord.field_coverage (field : FileCoverage → Int) (pick : Entry → Option Nat)
    (hinit : ∀ path, field (.init path) = 0)
    (hstep : ∀ cov e, field (Entry.apply cov e) = ((pick e).map Nat.cast).getD (field cov))
    (r : SourceRecord) (hfiled : r.filed ≠ []) : field r.coverage = r.last pick := by
  rw [SourceRecord.coverage, if_neg hfiled, foldl_apply_last hstep, hinit, SourceRecord.last]
  cases (r.entries.filterMap pick).getLast? <;> rfl

theorem trueDiv_eq_ok {hit found : Nat} {u : Unit} :
    (if (found : Int) = 0 then .ok () else trueDiv hit found) = Except.ok u ↔
      QuotientFits hit found := by
  have hover : QuotientOverflows hit found ↔ floatLimit * found ≤ hit := by
    rw [QuotientOverflows, Int.natAbs_natCast, Int.natAbs_natCast]
  unfold trueDiv QuotientFits
  by_cases hfound : found = 0
  · rw [if_pos (by exact_mod_cast hfound)]
    exact iff_of_true rfl (.inl hfound)
  · rw [if_neg (by exact_mod_cast hfound)]
    split_ifs with hquotient
    · rw [hover] at hquotient
      exact iff_of_false (fun h => nomatch h) (by omega)
    · rw [hover] at hquotient
      exact iff_of_true rfl (.inr (by omega))

theorem percent_eq_ok (r : SourceRecord) {u : Unit} :
    (do r.coverage.lineCoveragePercent; r.coverage.branchCoveragePercent) = Except.ok u ↔
      (r.filed ≠ [] → r.HasPercentages) := by
  by_cases hfiled : r.filed = []
  · refine iff_of_true ?_ (fun hne => absurd hfiled hne)
    rw [SourceRecord.coverage, if_pos hfiled]
    rfl
  · have hlines : ∀ {u : Unit}, r.coverage.lineCoveragePercent = .ok u ↔
        QuotientFits (r.last Entry.linesHit?) (r.last Entry.linesFound?) := by
      intro u
      rw [FileCoverage.lineCoveragePercent,
        r.field_coverage FileCoverage.lines_hit Entry.linesHit?
          (fun _ => rfl) Entry.apply_linesHit hfiled,
        r.field_coverage FileCoverage.lines_found Entry.linesFound?
          (fun _ => rfl) Entry.apply_linesFound hfiled]
      exact trueDiv_eq_ok
    have hbranches : r.coverage.branchCoveragePercent = .ok u ↔
        QuotientFits (r.last Entry.branchesHit?) (r.last Entry.branchesFound?) := by
      rw [FileCoverage.branchCoveragePercent,
        r.field_coverage FileCoverage.branches_hit Entry.branchesHit?
          (fun _ => rfl) Entry.apply_branchesHit hfiled,
        r.field_coverage FileCoverage.branches_found Entry.branchesFound?
          (fun _ => rfl) Entry.apply_branchesFound hfiled]
      exact trueDiv_eq_ok
    rw [bind_eq_ok]
    constructor
    · rintro ⟨_, hl, hb⟩ -
      exact ⟨hlines.mp hl, hbranches.mp hb⟩
    · intro h
      exact ⟨(), hlines.mpr (h hfiled).lines, hbranches.mpr (h hfiled).branches⟩

theorem forM_eq_ok {ε α : Type} {f : α → Except ε Unit} {l : List α} {u : Unit} :
    l.forM f = .ok u ↔ ∀ a ∈ l, f a = .ok () := by
  induction l with
  | nil => exact iff_of_true rfl (fun a ha => absurd ha List.not_mem_nil)
  | cons a l ih =>
    rw [List.forall_mem_cons, ← ih]
    refine (bind_eq_ok (x := f a) (f := fun _ => l.forM f)).trans ?_
    constructor
    · rintro ⟨_, ha, hl⟩
      exact ⟨ha, hl⟩
    · rintro ⟨ha, hl⟩
      exact ⟨(), ha, hl⟩

/-- What the script can read and compute with: numbers of at most 4300 digits, and quotients
that are floats. -/
structure Accepted (records : List SourceRecord) : Prop where
  readable : ∀ r ∈ records, r.Readable
  percentages : ∀ name last, lastFiled records name = some last → name ≠ [] → last.HasPercentages

/-- The report is about the last record of every name. -/
theorem generateLcovReport_eq_ok {summary : List FileCoverage → List Str × Bool} {file_path : Str}
    {records : List SourceRecord} {out : Output × Bool} :
    generateLcovReport summary file_path (.ok (lcov records)) = .ok out ↔
      Accepted records ∧ out = report summary ((kept records).map (fun entry => entry.2.coverage)) := by
  have hlines : fileLines (lcov records) = records.flatMap SourceRecord.lines := by
    refine fileLines_flatMap (fun line hline => ?_)
    obtain ⟨r, -, hr⟩ := List.mem_flatMap.mp hline
    exact r.oneLine_lines line hr
  have hread : ∀ {reading : Reading},
      (records.flatMap SourceRecord.lines).foldlM readLine ⟨[], none⟩ = .ok reading ↔
        (∀ r ∈ records, r.Readable) ∧
          reading = ⟨(kept records).map (Prod.map id SourceRecord.coverage), none⟩ :=
    foldlM_records_eq_ok records (d := [])
  have hvalues : ((kept records).map (Prod.map id SourceRecord.coverage)).map Prod.snd =
      (kept records).map (fun entry => entry.2.coverage) := by
    rw [List.map_map]
    rfl
  -- What is kept under a name is the last record filed under it.
  have hpercent : ∀ {u : Unit}, ((kept records).map (fun entry => entry.2.coverage)).forM
      (fun cov => do cov.lineCoveragePercent; cov.branchCoveragePercent) = .ok u ↔
        ∀ name last, lastFiled records name = some last → name ≠ [] → last.HasPercentages := by
    intro u
    rw [forM_eq_ok, List.forall_mem_map]
    constructor
    · intro h name last hlast hname
      exact (percent_eq_ok last).mp (h (name, last) (mem_kept.mpr hlast))
        (filed_of_lastFiled hlast ▸ hname)
    · intro h entry hentry
      have hlast := mem_kept.mp hentry
      exact (percent_eq_ok entry.2).mpr (fun hfiled =>
        h entry.1 entry.2 hlast (filed_of_lastFiled hlast ▸ hfiled))
  dsimp only [generateLcovReport]
  rw [hlines, bind_eq_ok]
  constructor
  · rintro ⟨reading, hreading, hprint⟩
    obtain ⟨hreads, rfl⟩ := hread.mp hreading
    simp only [printAndValidateReport, bind_eq_ok, hvalues] at hprint
    obtain ⟨_, hloop, hout⟩ := hprint
    exact ⟨⟨hreads, hpercent.mp hloop⟩, (Except.ok.inj hout).symm⟩
  · rintro ⟨⟨hreads, hpercentages⟩, rfl⟩
    refine ⟨_, hread.mpr ⟨hreads, rfl⟩, ?_⟩
    simp only [printAndValidateReport, bind_eq_ok, hvalues]
    exact ⟨(), hpercent.mpr hpercentages, rfl⟩

/-! ## What is printed of a record -/

/-- What is taken down as uncovered: a line with count 0, or a branch whose count is `-`. -/
def Entry.marked : Entry → Option Item
  | .line n count _ => if count = 0 then some (.line n) else none
  | .branch n block id taken => if taken = none then some (.branch n block id) else none
  | _ => none

/-- Nothing is taken down under an empty name. -/
def SourceRecord.marked (r : SourceRecord) : List Item :=
  if r.filed = [] then [] else r.entries.filterMap Entry.marked

def Item.lineNumber? : Item → Option Nat
  | .line n => some n
  | .branch _ _ _ => none

def Item.branch? : Item → Option (Nat × Nat × Nat)
  | .line _ => none
  | .branch n block id => some (n, block, id)

/-- A branch as the script has it. -/
def branchAsInts (branch : Nat × Nat × Nat) : Int × Int × Int := (branch.1, branch.2.1, branch.2.2)

/-- The data hold these items behind what they held before. -/
structure Adds (cov cov' : FileCoverage) (items : List Item) : Prop where
  file_path : cov'.file_path = cov.file_path
  lines : cov'.uncovered_lines =
    cov.uncovered_lines ++ (items.filterMap Item.lineNumber?).map Nat.cast
  branches : cov'.uncovered_branches =
    cov.uncovered_branches ++ (items.filterMap Item.branch?).map branchAsInts

theorem Adds.nil (cov : FileCoverage) : Adds cov cov [] :=
  ⟨rfl, (List.append_nil _).symm, (List.append_nil _).symm⟩

theorem Adds.trans {cov cov' cov'' : FileCoverage} {items items' : List Item}
    (h : Adds cov cov' items) (h' : Adds cov' cov'' items') : Adds cov cov'' (items ++ items') := by
  refine ⟨h'.file_path.trans h.file_path, ?_, ?_⟩
  · rw [h'.lines, h.lines, List.append_assoc, List.filterMap_append, List.map_append]
  · rw [h'.branches, h.branches, List.append_assoc, List.filterMap_append, List.map_append]

theorem adds_apply (cov : FileCoverage) (e : Entry) :
    Adds cov (e.apply cov) e.marked.toList := by
  cases e with
  | branch n block id taken =>
    unfold Entry.apply Entry.marked
    dsimp only
    split_ifs
    · exact ⟨rfl, (List.append_nil _).symm, rfl⟩
    · exact .nil cov
  | line n count checksum =>
    unfold Entry.apply Entry.marked
    dsimp only
    split_ifs
    · exact ⟨rfl, rfl, (List.append_nil _).symm⟩
    · exact .nil cov
  | _ => exact ⟨rfl, (List.append_nil _).symm, (List.append_nil _).symm⟩

theorem adds_foldl (entries : List Entry) (cov : FileCoverage) :
    Adds cov (entries.foldl Entry.apply cov) (entries.filterMap Entry.marked) := by
  induction entries generalizing cov with
  | nil => exact .nil cov
  | cons e entries ih =>
    have hsplit : (e :: entries).filterMap Entry.marked =
        e.marked.toList ++ entries.filterMap Entry.marked := by
      rw [List.filterMap_cons]
      cases e.marked <;> rfl
    rw [List.foldl_cons, hsplit]
    exact (adds_apply cov e).trans (ih (e.apply cov))

theorem SourceRecord.adds_coverage (r : SourceRecord) : Adds (.init r.filed) r.coverage r.marked := by
  unfold SourceRecord.coverage SourceRecord.marked
  split_ifs
  · exact .nil _
  · exact adds_foldl r.entries _

theorem join_map_eq_nil {α : Type} {sep : Str} {f : α → Str} (h : ∀ a, f a ≠ []) {l : List α} :
    join sep (l.map f) = [] ↔ l = [] := by
  cases l with
  | nil => exact iff_of_true rfl rfl
  | cons a l =>
    refine iff_of_false (fun hjoin => h a ?_) (List.cons_ne_nil a l)
    cases l with
    | nil => simpa [join, List.intercalate] using hjoin
    | cons b l =>
      rw [List.map_cons, List.map_cons, join, List.intercalate_cons_cons] at hjoin
      exact (List.append_eq_nil_iff.mp (List.append_eq_nil_iff.mp hjoin).1).1

theorem groupText_asInts (range : Nat × Nat) : groupText (asInts range) = rangeText range := by
  unfold groupText rangeText asInts
  dsimp only
  simp only [str_natCast, Nat.cast_inj]

theorem branchText_asInts (branch : Nat × Nat × Nat) :
    branchText (branchAsInts branch) = rowText branch := by
  unfold branchText rowText branchAsInts
  simp only [str_natCast]

theorem rangeText_ne_nil (range : Nat × Nat) : rangeText range ≠ [] := by
  unfold rangeText
  split_ifs
  · exact strNat_ne_nil range.1
  · simp [strNat_ne_nil]

theorem rowText_ne_nil (branch : Nat × Nat × Nat) : rowText branch ≠ [] := fun h => nomatch h

theorem mem_filterMap_lineNumber? {items : List Item} {n : Nat} :
    n ∈ items.filterMap Item.lineNumber? ↔ .line n ∈ items := by
  rw [List.mem_filterMap]
  constructor
  · intro ⟨x, hx, hn⟩
    cases x with
    | line n' => exact Option.some.inj hn ▸ hx
    | branch n' block id => cases hn
  · exact fun hx => ⟨_, hx, rfl⟩

theorem mem_filterMap_branch? {items : List Item} {n block id : Nat} :
    (n, block, id) ∈ items.filterMap Item.branch? ↔ .branch n block id ∈ items := by
  rw [List.mem_filterMap]
  constructor
  · intro ⟨x, hx, hn⟩
    cases x with
    | line n' => cases hn
    | branch n' block' id' =>
      cases hn
      exact hx
  · exact fun hx => ⟨_, hx, rfl⟩

/-- Every item is a line or a branch. -/
theorem filterMap_eq_nil_iff_items {items : List Item} :
    items.filterMap Item.lineNumber? = [] ∧ items.filterMap Item.branch? = [] ↔ items = [] := by
  constructor
  · intro ⟨hlines, hbranches⟩
    refine List.eq_nil_iff_forall_not_mem.mpr (fun x hx => ?_)
    cases x with
    | line n => exact absurd (mem_filterMap_lineNumber?.mpr hx) (hlines ▸ List.not_mem_nil)
    | branch n block id => exact absurd (mem_filterMap_branch?.mpr hx) (hbranches ▸ List.not_mem_nil)
  · intro h
    rw [h]
    exact ⟨rfl, rfl⟩

/-- What is printed of a record is this section, which shows what was taken down. -/
structure Section.Describes (s : Section) (r : SourceRecord) : Prop where
  path : s.path = r.filed
  shows_iff : ∀ x, s.Shows x ↔ x ∈ r.marked
  printed : generateMissingCoverageReport r.coverage = if r.marked = [] then [] else s.text

theorem exists_section (r : SourceRecord) : ∃ s : Section, s.Describes r := by
  obtain ⟨hpath, hlines, hbranches⟩ := r.adds_coverage
  obtain ⟨ranges, hgroups, hcover⟩ := exists_groups (r.marked.filterMap Item.lineNumber?)
  refine ⟨⟨r.filed, ranges, r.marked.filterMap Item.branch?⟩, rfl, fun x => ?_, ?_⟩
  · cases x with
    | line n => exact (hcover n).trans mem_filterMap_lineNumber?
    | branch n block id => exact mem_filterMap_branch?
  · have hlinesText : groupConsecutiveNumbers r.coverage.uncovered_lines =
        join (py ", ") (ranges.map rangeText) := by
      rw [groupConsecutiveNumbers, hlines, FileCoverage.init, List.nil_append, hgroups, List.map_map]
      exact congrArg _ (List.map_congr_left (fun range _ => groupText_asInts range))
    have hbranchesText : getMissingBranchesStr r.coverage =
        join (py "\n") ((r.marked.filterMap Item.branch?).map rowText) := by
      rw [getMissingBranchesStr, hbranches, FileCoverage.init, List.nil_append, List.map_map]
      exact congrArg _ (List.map_congr_left (fun branch _ => branchText_asInts branch))
    have hnil : r.coverage.uncovered_lines = [] ∧ r.coverage.uncovered_branches = [] ↔
        r.marked = [] := by
      rw [hlines, hbranches, FileCoverage.init, List.nil_append, List.nil_append,
        List.map_eq_nil_iff, List.map_eq_nil_iff, filterMap_eq_nil_iff_items]
    rw [generateMissingCoverageReport, hlinesText, hbranchesText, hpath]
    simp only [hnil, join_map_eq_nil rangeText_ne_nil, join_map_eq_nil rowText_ne_nil]
    rfl

/-! ## The report -/

/-- What stands below the heading. -/
def printedSections (sections : List Section) : List Str :=
  if sections = [] then [py "All covered!"] else sections.map Section.text

/-- The sections show what the items of every path are, and each path has one section. -/
structure ShowsItems (sections : List Section) (items : Str → Item → Prop) : Prop where
  oneLine : ∀ s ∈ sections, OneLine s.path
  nodup : (sections.map Section.path).Nodup
  nonempty : ∀ s ∈ sections, ∃ x, s.Shows x
  shows_iff : ∀ path x, (∃ s ∈ sections, s.path = path ∧ s.Shows x) ↔ items path x

theorem printedSections_inj {l l' : List Section} (hl : ∀ s ∈ l, OneLine s.path)
    (hl' : ∀ s ∈ l', OneLine s.path) (h : printedSections l = printedSections l') : l = l' := by
  have hne : ∀ l : List Section, l.map Section.text ≠ [py "All covered!"] := by
    intro l hcov
    obtain ⟨s, -, hs⟩ := List.mem_map.mp (hcov ▸ List.mem_singleton_self (py "All covered!"))
    exact s.text_ne_allCovered hs
  unfold printedSections at h
  split_ifs at h with hnil hnil' hnil'
  · rw [hnil, hnil']
  · exact absurd h.symm (hne l')
  · exact absurd h (hne l)
  · exact Section.map_text_inj hl hl' h

theorem removeFrom_sublist (old : Str) (skip : Nat) (s : Str) :
    (removeFrom old skip s).Sublist s := by
  fun_induction removeFrom old skip s with
  | case1 => exact List.Sublist.slnil
  | case2 _ _ _ _ ih => exact ih.cons _
  | case3 _ _ _ _ _ ih => exact ih.cons _
  | case4 _ _ _ _ _ ih => exact ih.cons_cons _

theorem SourceRecord.oneLine_filed (r : SourceRecord) : OneLine r.filed := by
  have hsub : r.filed.Sublist r.path.val :=
    (removeFrom_sublist _ 0 _).trans (List.rdropWhile_prefix isSpace _).sublist
  exact ⟨fun h => r.path.property.1 (hsub.subset h), fun h => r.path.property.2 (hsub.subset h)⟩

/-- Only the records in which something was taken down are printed. -/
def sections (sectionOf : SourceRecord → Section) (d : Dict SourceRecord) : List Section :=
  (d.filter (fun entry => entry.2.marked ≠ [])).map (fun entry => sectionOf entry.2)

theorem mem_sections {sectionOf : SourceRecord → Section} {d : Dict SourceRecord} {s : Section} :
    s ∈ sections sectionOf d ↔ ∃ name r, (name, r) ∈ d ∧ r.marked ≠ [] ∧ sectionOf r = s := by
  simp only [sections, List.mem_map, List.mem_filter, decide_eq_true_eq, Prod.exists, and_assoc]

section Sections
variable {sectionOf : SourceRecord → Section} (hsection : ∀ r, (sectionOf r).Describes r)
include hsection

theorem reports_eq (d : Dict SourceRecord) :
    ((d.map (fun entry => entry.2.coverage)).map generateMissingCoverageReport).filter
        (fun report => report ≠ []) = (sections sectionOf d).map Section.text := by
  rw [List.map_map, sections, List.map_map]
  induction d with
  | nil => rfl
  | cons entry d ih =>
    by_cases h : entry.2.marked = []
    · have hempty : generateMissingCoverageReport entry.2.coverage = [] := by
        rw [(hsection entry.2).printed, if_pos h]
      rw [List.map_cons, List.filter_cons_of_neg (by simpa using hempty),
        List.filter_cons_of_neg (by simpa using h), ih]
    · have htext : generateMissingCoverageReport entry.2.coverage = (sectionOf entry.2).text := by
        rw [(hsection entry.2).printed, if_neg h]
      have hkeep : generateMissingCoverageReport entry.2.coverage ≠ [] := by
        rw [htext]
        exact Section.text_ne_nil _
      rw [List.map_cons, List.filter_cons_of_pos (by simpa using hkeep),
        List.filter_cons_of_pos (by simpa using h), List.map_cons, ih]
      exact congrArg (· :: _) htext

/-- The printed sections are about what was taken down of the last record of every name. -/
theorem showsItems_sections (records : List SourceRecord) :
    ShowsItems (sections sectionOf (kept records)) (fun path x =>
      ∃ last, lastFiled records path = some last ∧ x ∈ last.marked) := by
  have hpath : ∀ {name r}, (name, r) ∈ kept records → (sectionOf r).path = name :=
    fun h => (hsection _).path.trans (filed_of_lastFiled (mem_kept.mp h))
  constructor
  · intro s hs
    obtain ⟨name, r, -, -, rfl⟩ := mem_sections.mp hs
    rw [(hsection r).path]
    exact r.oneLine_filed
  · have hkeys : (sections sectionOf (kept records)).map Section.path =
        ((kept records).filter (fun entry => entry.2.marked ≠ [])).map Prod.fst := by
      rw [sections, List.map_map]
      exact List.map_congr_left (fun entry hentry => hpath (List.mem_of_mem_filter hentry))
    rw [hkeys]
    exact (nodup_kept records).sublist (List.filter_sublist.map Prod.fst)
  · intro s hs
    obtain ⟨name, r, -, hmarked, rfl⟩ := mem_sections.mp hs
    obtain ⟨x, hx⟩ := List.exists_mem_of_ne_nil _ hmarked
    exact ⟨x, ((hsection r).shows_iff x).mpr hx⟩
  · intro path x
    constructor
    · intro ⟨s, hs, hspath, hx⟩
      obtain ⟨name, r, hmem, -, rfl⟩ := mem_sections.mp hs
      rw [hpath hmem] at hspath
      exact ⟨r, mem_kept.mp (hspath ▸ hmem), ((hsection r).shows_iff x).mp hx⟩
    · intro ⟨last, hlast, hx⟩
      have hmem := mem_kept.mpr hlast
      exact ⟨sectionOf last, mem_sections.mpr ⟨path, last, hmem, List.ne_nil_of_mem hx, rfl⟩,
        hpath hmem, ((hsection last).shows_iff x).mpr hx⟩

end Sections

theorem exists_sections (summary : List FileCoverage → List Str × Bool) (file_path : Str)
    (records : List SourceRecord) : ∃ sections table valid,
      (∀ out, generateLcovReport summary file_path (.ok (lcov records)) = .ok out ↔
        Accepted records ∧ out = (.report table (printedSections sections), valid)) ∧
      ShowsItems sections (fun path x => ∃ last, lastFiled records path = some last ∧
        x ∈ last.marked) := by
  choose sectionOf hsection using exists_section
  let values := (kept records).map (fun entry => entry.2.coverage)
  refine ⟨sections sectionOf (kept records), (summary values).1, (summary values).2, fun out => ?_,
    showsItems_sections hsection records⟩
  rw [generateLcovReport_eq_ok]
  dsimp only [report]
  rw [reports_eq hsection, printedSections]
  simp only [List.map_eq_nil_iff]
  rfl

/-- The report names each source file in which something is uncovered, with exactly the lines and
    the branches that its records give as uncovered, and says `All covered!` where there are
    none. -/
def ReportsExactly (records : List SourceRecord) (missing : List Str) : Prop :=
  (∃ sections, missing = printedSections sections ∧
    ShowsItems sections (fun path x => ∃ r ∈ records, r.path.val = path ∧ x ∈ r.uncovered)) ∧
  (missing = [py "All covered!"] ↔ ∀ r ∈ records, r.uncovered = [])

/-- The last record of every source file stands for all of them: what a record gives as uncovered
    is taken down of the last record under its path, and what is taken down of a record belongs to
    the file of its name. -/
structure LastStandsForAll (records : List SourceRecord) : Prop where
  kept : ∀ r ∈ records, ∀ x ∈ r.uncovered, ∃ last, lastFiled records r.path.val = some last ∧
    x ∈ last.marked
  named : ∀ path last, lastFiled records path = some last → ∀ x ∈ last.marked,
    ∃ r ∈ records, r.path.val = path ∧ x ∈ r.uncovered

theorem ShowsItems.printed_eq_allCovered {sections : List Section} {items : Str → Item → Prop}
    (h : ShowsItems sections items) :
    printedSections sections = [py "All covered!"] ↔ ∀ path x, ¬items path x := by
  have hnil : printedSections sections = printedSections [] ↔ sections = [] :=
    ⟨printedSections_inj h.oneLine (fun s hs => absurd hs List.not_mem_nil), congrArg _⟩
  refine hnil.trans ⟨fun hsections path x hx => ?_, fun hnone => ?_⟩
  · obtain ⟨s, hs, -⟩ := (h.shows_iff path x).mpr hx
    rw [hsections] at hs
    exact absurd hs List.not_mem_nil
  · refine List.eq_nil_iff_forall_not_mem.mpr (fun s hs => ?_)
    obtain ⟨x, hx⟩ := h.nonempty s hs
    exact hnone s.path x ((h.shows_iff s.path x).mp ⟨s, hs, rfl, hx⟩)

theorem generateLcovReport_iff (summary : List FileCoverage → List Str × Bool) (file_path : Str)
    (records : List SourceRecord) :
    (∃ table missing valid, generateLcovReport summary file_path (.ok (lcov records)) =
        .ok (.report table missing, valid) ∧ ReportsExactly records missing) ↔
      Accepted records ∧ LastStandsForAll records := by
  obtain ⟨sections, table, valid, hrun, hsections⟩ := exists_sections summary file_path records
  constructor
  · intro ⟨table', missing, valid', hrun', ⟨sections', hmissing, hsections'⟩, _⟩
    obtain ⟨haccepted, hout⟩ := (hrun _).mp hrun'
    rw [hmissing] at hout
    have hprinted : printedSections sections = printedSections sections' :=
      (Output.report.inj (Prod.mk.inj hout).1).2.symm
    obtain rfl := printedSections_inj hsections.oneLine hsections'.oneLine hprinted
    refine ⟨haccepted, ?_, ?_⟩
    · intro r hr x hx
      exact (hsections.shows_iff _ x).mp ((hsections'.shows_iff _ x).mpr ⟨r, hr, rfl, hx⟩)
    · intro path last hlast x hx
      exact (hsections'.shows_iff _ x).mp ((hsections.shows_iff _ x).mpr ⟨last, hlast, hx⟩)
  · intro ⟨haccepted, h⟩
    have hexact : ShowsItems sections
        (fun path x => ∃ r ∈ records, r.path.val = path ∧ x ∈ r.uncovered) := by
      refine { hsections with shows_iff := fun path x => ?_ }
      rw [hsections.shows_iff]
      constructor
      · exact fun ⟨last, hlast, hx⟩ => h.named path last hlast x hx
      · intro ⟨r, hr, hpath, hx⟩
        exact hpath ▸ h.kept r hr x hx
    refine ⟨table, printedSections sections, valid, (hrun _).mpr ⟨haccepted, rfl⟩,
      ⟨sections, rfl, hexact⟩, ?_⟩
    rw [hexact.printed_eq_allCovered]
    constructor
    · exact fun hnone r hr => List.eq_nil_iff_forall_not_mem.mpr
        (fun x hx => hnone r.path.val x ⟨r, hr, rfl, hx⟩)
    · intro hnone path x ⟨r, hr, _, hx⟩
      rw [hnone r hr] at hx
      exact absurd hx List.not_mem_nil

/-- Where each source file has one record and its name is kept, it is enough that no branch has a
    count of 0. -/
theorem LastStandsForAll.of_single {records : List SourceRecord}
    (hnames : ∀ r ∈ records, r.filed = r.path.val ∧ r.filed ≠ [])
    (hsingle : (records.map (fun r => r.path.val)).Nodup)
    (htaken : ∀ r ∈ records, ∀ e ∈ r.entries, e.marked = e.uncovered) : LastStandsForAll records := by
  have hmarked : ∀ r ∈ records, r.marked = r.uncovered := by
    intro r hr
    rw [SourceRecord.marked, if_neg (hnames r hr).2, SourceRecord.uncovered]
    exact List.filterMap_congr (htaken r hr)
  have hmem : ∀ {path last}, lastFiled records path = some last → last ∈ records :=
    fun h => List.mem_reverse.mp (List.mem_of_find?_eq_some h)
  constructor
  · intro r hr x hx
    obtain ⟨last, hlast⟩ : ∃ last, lastFiled records r.path.val = some last :=
      Option.isSome_iff_exists.mp (List.find?_isSome.mpr
        ⟨r, List.mem_reverse.mpr hr, decide_eq_true (hnames r hr).1⟩)
    have hpath : last.path.val = r.path.val :=
      (hnames last (hmem hlast)).1.symm.trans (filed_of_lastFiled hlast)
    obtain rfl : last = r := List.inj_on_of_nodup_map hsingle (hmem hlast) hr hpath
    exact ⟨last, hlast, hmarked last hr ▸ hx⟩
  · intro path last hlast x hx
    have hr := hmem hlast
    exact ⟨last, hr, (hnames last hr).1.symm.trans (filed_of_lastFiled hlast), hmarked last hr ▸ hx⟩

theorem oneLine_sourceName : OneLine (py "a.cc") := by decide

/-- Block 0 of line 1 was executed, and its branch 0 was not taken. -/
def notTaken : List SourceRecord :=
  [⟨none, ⟨py "a.cc", oneLine_sourceName⟩,
    [.branch 1 0 0 (some 0), .branchesFound 1, .branchesHit 0]⟩]

theorem not_generateLcovReport_exact :
    ¬∀ (summary : List FileCoverage → List Str × Bool) (file_path : Str)
        (records : List SourceRecord), ∃ table missing valid,
      generateLcovReport summary file_path (.ok (lcov records)) =
        .ok (.report table missing, valid) ∧ ReportsExactly records missing := by
  intro h
  obtain ⟨table, missing, valid, hrun, -, hall⟩ :=
    h (fun _ => ([], true)) (py "coverage.dat") notTaken
  obtain rfl : missing = [py "All covered!"] :=
    (Output.report.inj (Prod.mk.inj (generateLcovReport_eq_ok.mp hrun).2).1).2
  have hnone := hall.mp rfl _ List.mem_cons_self
  exact absurd hnone (by decide)

end Devkit.Coverage
