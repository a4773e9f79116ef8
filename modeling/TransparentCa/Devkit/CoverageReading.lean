import TransparentCa.Devkit.CoverageText

/- How an LCOV file is read. Every entry is read as it was written, unless one of its numbers
   has too many digits; a record of a source file begins with an empty `FileCoverage`, in the
   place of what there was under that name. -/
namespace Devkit.Coverage
open Python

/-! ## Reading a line -/

/-- Whether a text begins with a tag is seen from its own tag, when that is not shorter. -/
theorem startswith_append {a t : Str} (h : a.isPrefixOf t = false) (s : Str) :
    startswith (a ++ s) t = t.isPrefixOf a := by
  rw [startswith, Bool.eq_iff_iff, List.isPrefixOf_iff_prefix, List.isPrefixOf_iff_prefix]
  constructor
  · intro hpre
    rcases List.prefix_or_prefix_of_prefix hpre (List.prefix_append a s) with hta | hat
    · exact hta
    · rw [List.isPrefixOf_iff_prefix.mpr hat] at h
      cases h
  · exact fun hpre => hpre.trans (List.prefix_append a s)

theorem not_startswith {a t : Str} (h : a.isPrefixOf t = false) (h' : t.isPrefixOf a = false)
    (s : Str) : ¬startswith (a ++ s) t = true := by
  rw [startswith_append h, h']
  exact Bool.false_ne_true

theorem startswith_self (a s : Str) : startswith (a ++ s) a = true :=
  List.isPrefixOf_iff_prefix.mpr (List.prefix_append a s)

theorem toInt_strNat_eq_ok {n : Nat} {i : Int} :
    toInt (strNat n) = .ok i ↔ WithinLimit n ∧ i = n := by
  rw [← int_strNat_eq_ok, toInt]
  cases int (strNat n) with
  | error e => exact iff_of_false (fun h => nomatch h) (fun h => nomatch h)
  | ok m =>
    exact ⟨fun h => congrArg Except.ok (Except.ok.inj h), fun h => congrArg Except.ok (Except.ok.inj h)⟩

/-- A number behind its tag. -/
theorem remove_tag {tag : Str} {c : CodePoint} (hc : c ∈ tag.head?)
    (hno : c.val < 0x30 ∨ 0x3a ≤ c.val) (n : Nat) : remove tag (tag ++ strNat n) = strNat n := by
  have hne : tag ≠ [] := fun hnil => by
    rw [hnil] at hc
    cases hc
  rw [remove_append hne, remove_eq_self hc (notMem_strNat hno n)]

theorem splitOn_comma {a : Str} (ha : ch ',' ∉ a) (s : Str) :
    (a ++ (py "," ++ s)).splitOn (ch ',') = a :: s.splitOn (ch ',') :=
  List.splitOn_append_cons_self_of_not_mem ha s

theorem comma_notMem_append {tag : Str} (htag : ch ',' ∉ tag) (n : Nat) :
    ch ',' ∉ tag ++ strNat n := by
  rw [List.mem_append, not_or]
  exact ⟨htag, comma_notMem n⟩

/-! ## Stripping a line -/

theorem isSpace_strNat {n : Nat} {c : CodePoint} (h : c ∈ strNat n) : isSpace c = false :=
  not_isSpace_digit (digitChar_of_mem h)

theorem stop {o : Option CodePoint} {c : CodePoint} (h : o = some c) (hc : isSpace c = false) :
    ∀ c' ∈ o, isSpace c' = false := by
  intro c' hc'
  rw [h] at hc'
  obtain rfl := Option.some.inj hc'
  exact hc

/-- A text that ends with a number loses nothing at its end. -/
theorem rstrip_strNat (a : Str) (n : Nat) (s : Str) :
    rstrip (a ++ strNat n ++ s) = a ++ strNat n ++ rstrip s := by
  refine rstrip_append (by simp [strNat_ne_nil]) (fun c hc => ?_) s
  rw [List.getLast?_append_of_ne_nil a (strNat_ne_nil n)] at hc
  exact isSpace_strNat (List.mem_of_getLast? hc)

/-- A text that begins with no space is stripped at its end only. -/
theorem strip_of_head {s : Str} (h : ∀ c ∈ s.head?, isSpace c = false) : strip s = rstrip s := by
  rw [strip, show s.dropWhile isSpace = s from ?_]
  · rfl
  · cases s with
    | nil => rfl
    | cons c s => exact List.dropWhile_cons_of_neg (by simp [h c rfl])

/-! ## Entries -/

def Entry.tag : Entry → Str
  | .functionData tag _ => tag.text
  | .branch _ _ _ _ => py "BRDA:"
  | .branchesFound _ => py "BRF:"
  | .branchesHit _ => py "BRH:"
  | .line _ _ _ => py "DA:"
  | .linesHit _ => py "LH:"
  | .linesFound _ => py "LF:"

/-- What an entry adds to the data of its file. -/
def Entry.apply (cov : FileCoverage) : Entry → FileCoverage
  | .functionData _ _ => cov
  | .branch n block id taken =>
    if taken = none then
      { cov with uncovered_branches := cov.uncovered_branches ++ [((n : Int), (block : Int), (id : Int))] }
    else cov
  | .branchesFound n => { cov with branches_found := n }
  | .branchesHit n => { cov with branches_hit := n }
  | .line n count _ =>
    if count = 0 then { cov with uncovered_lines := cov.uncovered_lines ++ [(n : Int)] } else cov
  | .linesHit n => { cov with lines_hit := n }
  | .linesFound n => { cov with lines_found := n }

theorem FunctionTag.text_clash (tag : FunctionTag) :
    ∀ t ∈ [py "SF:", py "LF:", py "LH:", py "BRF:", py "BRH:", py "DA:", py "BRDA"],
      tag.text.isPrefixOf t = false ∧ t.isPrefixOf tag.text = false := by
  cases tag <;> decide

theorem FunctionTag.text_ends (tag : FunctionTag) :
    tag.text ≠ [] ∧ (∀ c ∈ tag.text.head?, isSpace c = false) ∧
      ∀ c ∈ tag.text.getLast?, isSpace c = false := by
  cases tag <;> exact ⟨by decide, stop rfl rfl, stop rfl rfl⟩

theorem rstrip_takenText (a : Str) (taken : Option Nat) :
    rstrip (a ++ takenText taken) = a ++ takenText taken := by
  cases taken with
  | none =>
    have hstrip := rstrip_append (show a ++ py "-" ≠ [] by simp [py])
      (stop (List.getLast?_append_of_ne_nil a (show py "-" ≠ [] by decide)) rfl) []
    rw [List.append_nil] at hstrip
    rw [takenText, hstrip]
    exact List.append_nil _
  | some count =>
    have hstrip := rstrip_strNat a count []
    rw [List.append_nil] at hstrip
    rw [takenText, hstrip]
    exact List.append_nil _

/-- An entry behind its tag, without the space at the end of its line. -/
def Entry.rest : Entry → Str
  | .functionData _ text => rstrip text.val
  | .branch n block id taken => strNat n ++ (py "," ++ (strNat block ++ (py "," ++ (strNat id ++
      (py "," ++ takenText taken)))))
  | .branchesFound n => strNat n
  | .branchesHit n => strNat n
  | .line n count none => strNat n ++ (py "," ++ strNat count)
  | .line n count (some checksum) =>
      strNat n ++ (py "," ++ (strNat count ++ (py "," ++ rstrip checksum.val)))
  | .linesHit n => strNat n
  | .linesFound n => strNat n

theorem strip_tag_strNat {tag : Str} (hne : tag ≠ []) (htag : ∀ c ∈ tag.head?, isSpace c = false)
    (n : Nat) : strip (tag ++ strNat n) = tag ++ strNat n := by
  have hstrip := rstrip_strNat tag n []
  rw [List.append_nil] at hstrip
  rw [strip_of_head (fun c hc => htag c (by rwa [List.head?_append_of_ne_nil _ hne] at hc)), hstrip]
  exact List.append_nil _

theorem strip_text (e : Entry) : strip e.text = e.tag ++ e.rest := by
  cases e with
  | functionData tag text =>
    obtain ⟨hne, hfirst, hlast⟩ := tag.text_ends
    exact strip_append hne hfirst hlast text.val
  | branch n block id taken =>
    rw [Entry.text, strip_of_head, rstrip_takenText]
    · simp only [Entry.tag, Entry.rest, List.append_assoc]
    · simp only [List.append_assoc]
      exact stop rfl rfl
  | branchesFound n => exact strip_tag_strNat (by decide) (stop rfl rfl) n
  | branchesHit n => exact strip_tag_strNat (by decide) (stop rfl rfl) n
  | line n count checksum =>
    cases checksum with
    | none =>
      have hstrip := rstrip_strNat (py "DA:" ++ strNat n ++ py ",") count []
      rw [List.append_nil] at hstrip
      rw [Entry.text, strip_of_head, hstrip]
      · simp only [Entry.tag, Entry.rest, List.append_assoc, show rstrip [] = [] from rfl,
          List.append_nil]
      · simp only [List.append_assoc]
        exact stop rfl rfl
    | some checksum =>
      rw [Entry.text, strip_of_head, List.append_assoc _ (py ","), rstrip_strNat,
        rstrip_append (show py "," ≠ [] by decide) (stop rfl rfl)]
      · simp only [Entry.tag, Entry.rest, List.append_assoc]
      · simp only [List.append_assoc]
        exact stop rfl rfl
  | linesHit n => exact strip_tag_strNat (by decide) (stop rfl rfl) n
  | linesFound n => exact strip_tag_strNat (by decide) (stop rfl rfl) n

/-- The numbers of an entry that the script reads as such. -/
def Entry.numbers : Entry → List Nat
  | .functionData _ _ => []
  | .branch n block id _ => [n, block, id]
  | .branchesFound n => [n]
  | .branchesHit n => [n]
  | .line n count _ => [n, count]
  | .linesHit n => [n]
  | .linesFound n => [n]

def Entry.Readable (e : Entry) : Prop := ∀ n ∈ e.numbers, WithinLimit n

/-- A line that holds one number. -/
theorem parse_number {n : Nat} {f : Int → FileCoverage} {cov' : FileCoverage} :
    (do let i ← toInt (strNat n); return f i) = Except.ok cov' ↔ WithinLimit n ∧ cov' = f n := by
  rw [bind_eq_ok]
  constructor
  · rintro ⟨i, hi, h⟩
    obtain ⟨hwithin, rfl⟩ := toInt_strNat_eq_ok.mp hi
    exact ⟨hwithin, (Except.ok.inj h).symm⟩
  · rintro ⟨hwithin, rfl⟩
    exact ⟨n, toInt_strNat_eq_ok.mpr ⟨hwithin, rfl⟩, rfl⟩

/-- A line that holds a number and a count. -/
theorem parse_line (n count : Nat) {s : Str} {l : List Str} (cov cov' : FileCoverage)
    (hparts : (strNat count ++ s).splitOn (ch ',') = strNat count :: l) :
    parseLcovDataLine (py "DA:" ++ (strNat n ++ (py "," ++ (strNat count ++ s)))) cov = .ok cov' ↔
      (WithinLimit n ∧ WithinLimit count) ∧ cov' = (Entry.line n count none).apply cov := by
  have hsplit : (py "DA:" ++ (strNat n ++ (py "," ++ (strNat count ++ s)))).splitOn (ch ',') =
      (py "DA:" ++ strNat n) :: strNat count :: l := by
    rw [← List.append_assoc, splitOn_comma (comma_notMem_append (by decide) n), hparts]
  have hfirst : remove (py "DA:") (py "DA:" ++ strNat n) = strNat n :=
    remove_tag (c := ch 'D') rfl (.inr (by decide)) n
  rw [parseLcovDataLine, if_neg (not_startswith (by decide) (by decide) _),
    if_neg (not_startswith (by decide) (by decide) _),
    if_neg (not_startswith (by decide) (by decide) _),
    if_neg (not_startswith (by decide) (by decide) _), if_pos (startswith_self _ _), hsplit]
  simp only [part, List.getElem?_cons_zero, List.getElem?_cons_succ, bind_eq_ok, Except.ok.injEq,
    exists_eq_left', hfirst, toInt_strNat_eq_ok, pure, Except.pure, Entry.apply]
  constructor
  · rintro ⟨_, ⟨hn, rfl⟩, _, ⟨hcount, rfl⟩, h⟩
    exact ⟨⟨hn, hcount⟩, by simpa using h.symm⟩
  · rintro ⟨⟨hn, hcount⟩, rfl⟩
    exact ⟨n, ⟨hn, rfl⟩, count, ⟨hcount, rfl⟩, by simp⟩

theorem takenText_eq_dash (taken : Option Nat) : takenText taken = py "-" ↔ taken = none := by
  cases taken with
  | none => exact iff_of_true rfl rfl
  | some count =>
    refine iff_of_false (fun heq => ?_) (Option.some_ne_none count)
    have hdash : ch '-' ∈ strNat count := by
      rw [show strNat count = py "-" from heq]
      exact List.mem_singleton_self _
    exact notMem_strNat (.inl (by decide)) count hdash

theorem comma_notMem_takenText (taken : Option Nat) : ch ',' ∉ takenText taken := by
  cases taken with
  | none => decide
  | some count => exact comma_notMem count

/-- The numbers of a function's line are not read. -/
theorem parse_functionData (tag : FunctionTag) (text : LineText) (cov cov' : FileCoverage) :
    parseLcovDataLine ((Entry.functionData tag text).tag ++ (Entry.functionData tag text).rest) cov =
        .ok cov' ↔
      (Entry.functionData tag text).Readable ∧ cov' = (Entry.functionData tag text).apply cov := by
  have hno : ∀ t ∈ [py "SF:", py "LF:", py "LH:", py "BRF:", py "BRH:", py "DA:", py "BRDA"],
      ¬startswith (tag.text ++ rstrip text.val) t = true :=
    fun t ht => not_startswith (tag.text_clash t ht).1 (tag.text_clash t ht).2 _
  rw [parseLcovDataLine, Entry.tag, Entry.rest, if_neg (hno _ (by simp)), if_neg (hno _ (by simp)),
    if_neg (hno _ (by simp)), if_neg (hno _ (by simp)), if_neg (hno _ (by simp)),
    if_neg (hno _ (by simp))]
  have hread : (Entry.functionData tag text).Readable := fun n hn => absurd hn List.not_mem_nil
  exact ⟨fun h => ⟨hread, (Except.ok.inj h).symm⟩, fun h => congrArg Except.ok h.2.symm⟩

theorem parse_branch (n block id : Nat) (taken : Option Nat) (cov cov' : FileCoverage) :
    parseLcovDataLine ((Entry.branch n block id taken).tag ++ (Entry.branch n block id taken).rest)
        cov = .ok cov' ↔
      (Entry.branch n block id taken).Readable ∧
        cov' = (Entry.branch n block id taken).apply cov := by
  have hsplit : (py "BRDA:" ++ (Entry.branch n block id taken).rest).splitOn (ch ',') =
      [py "BRDA:" ++ strNat n, strNat block, strNat id, takenText taken] := by
    rw [Entry.rest, ← List.append_assoc, splitOn_comma (comma_notMem_append (by decide) n),
      splitOn_comma (comma_notMem block), splitOn_comma (comma_notMem id),
      List.splitOn_eq_singleton (comma_notMem_takenText taken)]
  have hfirst : remove (py "BRDA:") (py "BRDA:" ++ strNat n) = strNat n :=
    remove_tag (c := ch 'B') rfl (.inr (by decide)) n
  -- The tags that are tried before `BRDA` do not fit.
  rw [parseLcovDataLine, Entry.tag, if_neg (not_startswith (by decide) (by decide) _),
    if_neg (not_startswith (by decide) (by decide) _),
    if_neg (not_startswith (by decide) (by decide) _),
    if_neg (not_startswith (by decide) (by decide) _),
    if_neg (not_startswith (by decide) (by decide) _),
    if_pos (startswith_append (by decide) _ |>.trans (by decide)), hsplit]
  simp only [part, List.getElem?_cons_zero, List.getElem?_cons_succ, bind_eq_ok,
    Except.ok.injEq, exists_eq_left', hfirst, toInt_strNat_eq_ok, pure, Except.pure,
    takenText_eq_dash, Entry.apply, Entry.Readable, Entry.numbers, List.forall_mem_cons]
  constructor
  · rintro ⟨_, ⟨hn, rfl⟩, _, ⟨hblock, rfl⟩, _, ⟨hid, rfl⟩, h⟩
    exact ⟨⟨hn, hblock, hid, fun _ hnil => absurd hnil List.not_mem_nil⟩, h.symm⟩
  · rintro ⟨⟨hn, hblock, hid, -⟩, rfl⟩
    exact ⟨n, ⟨hn, rfl⟩, block, ⟨hblock, rfl⟩, id, ⟨hid, rfl⟩, rfl⟩

theorem parse_text_eq_ok (e : Entry) {cov cov' : FileCoverage} :
    parseLcovDataLine (e.tag ++ e.rest) cov = .ok cov' ↔ e.Readable ∧ cov' = e.apply cov := by
  cases e with
  | functionData tag text => exact parse_functionData tag text cov cov'
  | branch n block id taken => exact parse_branch n block id taken cov cov'
  | branchesFound n =>
    rw [parseLcovDataLine, Entry.tag, Entry.rest, if_neg (not_startswith (by decide) (by decide) _),
      if_neg (not_startswith (by decide) (by decide) _), if_pos (startswith_self _ _),
      remove_tag (c := ch 'B') rfl (.inr (by decide)), parse_number]
    simp only [Entry.Readable, Entry.numbers, List.forall_mem_singleton, Entry.apply]
  | branchesHit n =>
    rw [parseLcovDataLine, Entry.tag, Entry.rest, if_neg (not_startswith (by decide) (by decide) _),
      if_neg (not_startswith (by decide) (by decide) _),
      if_neg (not_startswith (by decide) (by decide) _), if_pos (startswith_self _ _),
      remove_tag (c := ch 'B') rfl (.inr (by decide)), parse_number]
    simp only [Entry.Readable, Entry.numbers, List.forall_mem_singleton, Entry.apply]
  | line n count checksum =>
    have hread : (Entry.line n count checksum).Readable ↔ WithinLimit n ∧ WithinLimit count := by
      rw [Entry.Readable, Entry.numbers, List.forall_mem_cons, List.forall_mem_singleton]
    rw [hread]
    cases checksum with
    | none =>
      rw [Entry.tag, Entry.rest, ← List.append_nil (strNat count)]
      refine parse_line (l := []) n count cov cov' ?_
      rw [List.append_nil, List.splitOn_eq_singleton (comma_notMem count)]
    | some checksum => exact parse_line n count cov cov' (splitOn_comma (comma_notMem count) _)
  | linesHit n =>
    rw [parseLcovDataLine, Entry.tag, Entry.rest, if_neg (not_startswith (by decide) (by decide) _),
      if_pos (startswith_self _ _), remove_tag (c := ch 'L') rfl (.inr (by decide)), parse_number]
    simp only [Entry.Readable, Entry.numbers, List.forall_mem_singleton, Entry.apply]
  | linesFound n =>
    rw [parseLcovDataLine, Entry.tag, Entry.rest, if_pos (startswith_self _ _),
      remove_tag (c := ch 'L') rfl (.inr (by decide)), parse_number]
    simp only [Entry.Readable, Entry.numbers, List.forall_mem_singleton, Entry.apply]

/-! ## Reading a file -/

/-- The name under which a record is filed: without the space at its end, and without any `SF:`
    in it. -/
def SourceRecord.filed (r : SourceRecord) : Str := remove (py "SF:") (rstrip r.path.val)

/-- The data of a record. Nothing is kept for an empty name. -/
def SourceRecord.coverage (r : SourceRecord) : FileCoverage :=
  if r.filed = [] then .init r.filed else r.entries.foldl Entry.apply (.init r.filed)

theorem Entry.tag_clash (e : Entry) :
    e.tag.isPrefixOf (py "SF:") = false ∧ (py "SF:").isPrefixOf e.tag = false ∧
      e.tag.isPrefixOf (py "end_of_record") = false := by
  cases e with
  | functionData tag text => cases tag <;> exact ⟨rfl, rfl, rfl⟩
  | _ => exact ⟨rfl, rfl, rfl⟩

/-- An entry of a record whose file is `key`. -/
theorem readLine_entry_eq_ok {d : Dict FileCoverage} {key : Str} {cov : FileCoverage} {e : Entry}
    {r : Reading} : readLine ⟨d.set key cov, some key⟩ e.text = .ok r ↔
      (key ≠ [] → e.Readable) ∧ r = ⟨d.set key (if key = [] then cov else e.apply cov), some key⟩ := by
  obtain ⟨hclash, hclash', hend⟩ := e.tag_clash
  have hnot : e.tag ++ e.rest ≠ py "end_of_record" := fun heq => by
    rw [List.isPrefixOf_iff_prefix.mpr (heq ▸ List.prefix_append e.tag e.rest)] at hend
    cases hend
  dsimp only [readLine]
  rw [strip_text, if_neg (not_startswith hclash hclash' _), if_neg hnot]
  split_ifs with hkey
  · rw [Except.ok.injEq]
    exact ⟨fun h => ⟨fun hne => absurd hkey hne, h.symm⟩, fun h => h.2.symm⟩
  · rw [Dict.lookup_set, if_pos rfl]
    dsimp only
    refine map_eq_ok.trans ?_
    constructor
    · rintro ⟨cov', hparse, rfl⟩
      obtain ⟨hread, rfl⟩ := (parse_text_eq_ok e).mp hparse
      exact ⟨fun _ => hread, by rw [Dict.set_set]⟩
    · rintro ⟨hread, rfl⟩
      exact ⟨_, (parse_text_eq_ok e).mpr ⟨hread hkey, rfl⟩, by rw [Dict.set_set]⟩

theorem foldlM_entries_eq_ok (entries : List Entry) {d : Dict FileCoverage} {key : Str}
    {cov : FileCoverage} {r : Reading} :
    (entries.map Entry.text).foldlM readLine ⟨d.set key cov, some key⟩ = .ok r ↔
      (key ≠ [] → ∀ e ∈ entries, e.Readable) ∧
        r = ⟨d.set key (if key = [] then cov else entries.foldl Entry.apply cov), some key⟩ := by
  induction entries generalizing cov with
  | nil =>
    rw [List.foldl_nil, ite_self, List.map_nil, List.foldlM_nil]
    have hnone : key ≠ [] → ∀ e ∈ ([] : List Entry), e.Readable :=
      fun _ e he => absurd he List.not_mem_nil
    exact ⟨fun h => ⟨hnone, (Except.ok.inj h).symm⟩, fun h => congrArg Except.ok h.2.symm⟩
  | cons e entries ih =>
    rw [List.map_cons, List.foldlM_cons, bind_eq_ok]
    constructor
    · rintro ⟨r', hstep, hrest⟩
      obtain ⟨hread, rfl⟩ := readLine_entry_eq_ok.mp hstep
      obtain ⟨hreads, rfl⟩ := ih.mp hrest
      refine ⟨fun hkey => List.forall_mem_cons.mpr ⟨hread hkey, hreads hkey⟩, ?_⟩
      split_ifs <;> rfl
    · rintro ⟨hreads, rfl⟩
      refine ⟨_, readLine_entry_eq_ok.mpr
        ⟨fun hkey => hreads hkey e List.mem_cons_self, rfl⟩, ih.mpr ⟨fun hkey e' he' =>
          hreads hkey e' (List.mem_cons_of_mem e he'), ?_⟩⟩
      split_ifs <;> rfl

theorem readLine_source (d : Dict FileCoverage) (r : SourceRecord) :
    readLine ⟨d, none⟩ (py "SF:" ++ r.path.val) = .ok ⟨d.set r.filed (.init r.filed), some r.filed⟩ := by
  have hstrip : strip (py "SF:" ++ r.path.val) = py "SF:" ++ rstrip r.path.val :=
    strip_append (by decide) (stop rfl rfl) (stop rfl rfl) r.path.val
  have hpath : remove (py "SF:") (py "SF:" ++ rstrip r.path.val) = r.filed :=
    remove_append (by decide) _
  dsimp only [readLine]
  rw [hstrip, if_pos (startswith_self _ _), hpath]

theorem readLine_testName (d : Dict FileCoverage) (name : Str) :
    readLine ⟨d, none⟩ (py "TN:" ++ name) = .ok ⟨d, none⟩ := by
  have hstrip : strip (py "TN:" ++ name) = py "TN:" ++ rstrip name :=
    strip_append (by decide) (stop rfl rfl) (stop rfl rfl) name
  have hnot : py "TN:" ++ rstrip name ≠ py "end_of_record" :=
    fun heq => absurd (List.cons.inj heq).1 (by decide)
  dsimp only [readLine]
  rw [hstrip, if_neg (not_startswith (by decide) (by decide) _), if_neg hnot]

theorem readLine_end (d : Dict FileCoverage) (key : Str) :
    readLine ⟨d, some key⟩ (py "end_of_record") = .ok ⟨d, none⟩ := by
  have hstrip : strip (py "end_of_record") = py "end_of_record" := by
    have happend := strip_append (a := py "end_of_record") (by decide) (stop rfl rfl) (stop rfl rfl) []
    rwa [List.append_nil, show rstrip [] = [] from rfl, List.append_nil] at happend
  dsimp only [readLine]
  rw [hstrip, if_neg (by decide), if_pos rfl]

/-- Every number of the record can be read. Under an empty name nothing is read. -/
def SourceRecord.Readable (r : SourceRecord) : Prop := r.filed ≠ [] → ∀ e ∈ r.entries, e.Readable

/-- A record puts its data in the place of what was there under its name. -/
theorem foldlM_record_eq_ok (r : SourceRecord) {d : Dict FileCoverage} {reading : Reading} :
    r.lines.foldlM readLine ⟨d, none⟩ = .ok reading ↔
      r.Readable ∧ reading = ⟨d.set r.filed r.coverage, none⟩ := by
  have hname : (r.testName.map (fun name => py "TN:" ++ name.val)).toList.foldlM readLine ⟨d, none⟩ =
      .ok ⟨d, none⟩ := by
    cases r.testName with
    | none => rfl
    | some name =>
      rw [Option.map_some, Option.toList_some, List.foldlM_cons, readLine_testName]
      rfl
  have hlines : r.lines.foldlM readLine ⟨d, none⟩ =
      ((r.entries.map Entry.text).foldlM readLine ⟨d.set r.filed (.init r.filed), some r.filed⟩ >>=
        fun reading => readLine reading (py "end_of_record")) := by
    rw [SourceRecord.lines, List.foldlM_append, List.foldlM_append, List.foldlM_append, hname]
    show (readLine ⟨d, none⟩ (py "SF:" ++ r.path.val) >>= fun x => pure x) >>= _ >>= _ = _
    rw [readLine_source]
    simp only [List.foldlM_cons, List.foldlM_nil, bind_pure]
    rfl
  rw [hlines, bind_eq_ok]
  constructor
  · rintro ⟨reading', hentries, hend⟩
    obtain ⟨hread, rfl⟩ := (foldlM_entries_eq_ok r.entries).mp hentries
    rw [readLine_end] at hend
    exact ⟨hread, (Except.ok.inj hend).symm⟩
  · rintro ⟨hread, rfl⟩
    exact ⟨_, (foldlM_entries_eq_ok r.entries).mpr ⟨hread, rfl⟩, readLine_end _ _⟩

end Devkit.Coverage
