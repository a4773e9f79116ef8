import TransparentCa.Devkit.Json
import TransparentCa.Lib.PyRead

/- The unit test coverage report. `generate_lcov_report` goes through an LCOV file line by
   line, keeps for every source file what is uncovered in it, and prints it below the table of
   the percentages. The table and the verdict are computed in floating point; they are given
   here as a function of the data, and of the quotients in them only whether there is one. -/
namespace Devkit.Coverage
open Python

structure FileCoverage where
  file_path : Str
  lines_found : Int
  lines_hit : Int
  branches_found : Int
  branches_hit : Int
  uncovered_lines : List Int
  uncovered_branches : List (Int × Int × Int)
  deriving DecidableEq

/-- `FileCoverage(file_path)`. -/
def FileCoverage.init (file_path : Str) : FileCoverage := ⟨file_path, 0, 0, 0, 0, [], []⟩

/-- `self.lines_hit / self.lines_found`: the error, if it raises one. -/
def trueDiv (a b : Int) : Except PyError Unit :=
  if QuotientOverflows a b then .error .overflowError else .ok ()

/-- `line_coverage_percent`, without the number. -/
def FileCoverage.lineCoveragePercent (cov : FileCoverage) : Except PyError Unit :=
  if cov.lines_found = 0 then .ok () else trueDiv cov.lines_hit cov.lines_found

/-- `branch_coverage_percent`, without the number. -/
def FileCoverage.branchCoveragePercent (cov : FileCoverage) : Except PyError Unit :=
  if cov.branches_found = 0 then .ok () else trueDiv cov.branches_hit cov.branches_found

/-! ## Reading -/

/-- `s.startswith(tag)`. -/
def startswith (s tag : Str) : Bool := tag.isPrefixOf s

/-- The text of a `ValueError`; that of a literal goes on with the literal. -/
def intErrorText : IntError → Str
  | .invalidLiteral => py "invalid literal for int() with base 10: "
  | .exceedsLimit digits =>
    py "Exceeds the limit (4300 digits) for integer string conversion: value has " ++
      strNat digits ++ py " digits; use sys.set_int_max_str_digits() to increase the limit"

/-- `int(s)`. -/
def toInt (s : Str) : Except PyError Int := (int s).mapError (fun e => .valueError (intErrorText e))

/-- `parts[i]`. -/
def part (parts : List Str) (i : Nat) : Except PyError Str :=
  match parts[i]? with
  | some s => .ok s
  | none => .error .indexError

/-- `parse_lcov_data_line`. -/
def parseLcovDataLine (line : Str) (cov : FileCoverage) : Except PyError FileCoverage :=
  if startswith line (py "LF:") then do
    let lines_found ← toInt (remove (py "LF:") line)
    return { cov with lines_found := lines_found }
  else if startswith line (py "LH:") then do
    let lines_hit ← toInt (remove (py "LH:") line)
    return { cov with lines_hit := lines_hit }
  else if startswith line (py "BRF:") then do
    let branches_found ← toInt (remove (py "BRF:") line)
    return { cov with branches_found := branches_found }
  else if startswith line (py "BRH:") then do
    let branches_hit ← toInt (remove (py "BRH:") line)
    return { cov with branches_hit := branches_hit }
  else if startswith line (py "DA:") then do
    let parts := line.splitOn (ch ',')
    let first ← part parts 0
    let line_number ← toInt (remove (py "DA:") first)
    let second ← part parts 1
    let hit_count ← toInt second
    return if hit_count = 0 then
      { cov with uncovered_lines := cov.uncovered_lines ++ [line_number] } else cov
  else if startswith line (py "BRDA") then do
    let parts := line.splitOn (ch ',')
    let first ← part parts 0
    let line_number ← toInt (remove (py "BRDA:") first)
    let second ← part parts 1
    let block_id ← toInt second
    let third ← part parts 2
    let branch_id ← toInt third
    let hit_marker ← part parts 3
    return if hit_marker = py "-" then
      { cov with
        uncovered_branches := cov.uncovered_branches ++ [(line_number, block_id, branch_id)] }
      else cov
  else return cov

/-- The variables of the loop over the lines. -/
structure Reading where
  coverage_data : Dict FileCoverage
  current_file_path : Option Str

/-- The body of the loop. -/
def readLine (r : Reading) (line : Str) : Except PyError Reading :=
  let line := strip line
  if startswith line (py "SF:") then
    let path := remove (py "SF:") line
    .ok ⟨r.coverage_data.set path (.init path), some path⟩
  else if line = py "end_of_record" then .ok { r with current_file_path := none }
  else
    match r.current_file_path with
    | none => .ok r
    | some path =>
      -- an empty path is false
      if path = [] then .ok r
      else
        match r.coverage_data.lookup path with
        | none => .ok r
        | some cov =>
          (parseLcovDataLine line cov).map
            (fun cov => { r with coverage_data := r.coverage_data.set path cov })

/-! ## Printing -/

/-- The loop of `group_consecutive_numbers` over the sorted numbers behind `prev`. -/
def groupFrom (start prev : Int) : List Int → List (Int × Int)
  | [] => [(start, prev)]
  | n :: numbers =>
    if n ≠ prev + 1 then (start, prev) :: groupFrom n n numbers else groupFrom start n numbers

/-- The first and the last number of each group. -/
def groups (numbers : List Int) : List (Int × Int) :=
  match numbers.insertionSort (· ≤ ·) with
  | [] => []
  | n :: numbers => groupFrom n n numbers

def groupText (group : Int × Int) : Str :=
  if group.1 = group.2 then Python.str group.1
  else Python.str group.1 ++ py "-" ++ Python.str group.2

/-- `group_consecutive_numbers`. -/
def groupConsecutiveNumbers (numbers : List Int) : Str :=
  join (py ", ") ((groups numbers).map groupText)

/-- A row of `get_missing_branches_str`. -/
def branchText (branch : Int × Int × Int) : Str :=
  py "Line " ++ Python.str branch.1 ++ py ": (block: " ++ Python.str branch.2.1 ++ py ", branch: " ++
    Python.str branch.2.2 ++ py ")"

def getMissingBranchesStr (cov : FileCoverage) : Str :=
  join (py "\n") (cov.uncovered_branches.map branchText)

/-- The empty text when nothing is uncovered. -/
def generateMissingCoverageReport (cov : FileCoverage) : Str :=
  if cov.uncovered_lines = [] ∧ cov.uncovered_branches = [] then []
  else
    let uncovered_lines_str := groupConsecutiveNumbers cov.uncovered_lines
    let uncovered_branches_str := getMissingBranchesStr cov
    py "\nFile: " ++ cov.file_path ++ py "\n" ++
      (if uncovered_lines_str = [] then [] else py "Lines to test: " ++ uncovered_lines_str ++ py "\n") ++
      (if uncovered_branches_str = [] then []
        else py "Branches to test:\n" ++ uncovered_branches_str)

/-- What is printed. -/
inductive Output where
  | fileNotFound (file_path : Str)
  /-- The table, and what stands below the heading. -/
  | report (table missing : List Str)

/-- The printed texts. -/
def Output.printed : Output → List Str
  | .fileNotFound file_path => [py "File not found: " ++ file_path]
  | .report table missing => table ++ [py "\n--- Missing Coverage ---"] ++ missing

/-- What is printed when every percentage could be computed, and the verdict. -/
def report (summary : List FileCoverage → List Str × Bool) (values : List FileCoverage) :
    Output × Bool :=
  let reports := (values.map generateMissingCoverageReport).filter (fun report => report ≠ [])
  (.report (summary values).1 (if reports = [] then [py "All covered!"] else reports),
    (summary values).2)

/-- `print_and_validate_report`. -/
def printAndValidateReport (summary : List FileCoverage → List Str × Bool)
    (coverage_data : Dict FileCoverage) : Except PyError (Output × Bool) := do
  let values := coverage_data.map Prod.snd
  values.forM (fun file_coverage => do
    file_coverage.lineCoveragePercent
    file_coverage.branchCoveragePercent)
  return report summary values

/-- `generate_lcov_report`, for what opening and reading the file gives. -/
def generateLcovReport (summary : List FileCoverage → List Str × Bool) (file_path : Str)
    (file : Except PyError Str) : Except PyError (Output × Bool) :=
  match file with
  | .error .fileNotFoundError => .ok (.fileNotFound file_path, false)
  | .error e => .error e
  | .ok text => do
    let r ← (fileLines text).foldlM readLine ⟨[], none⟩
    printAndValidateReport summary r.coverage_data

/-! ## LCOV files -/

/-- A text that stays on its line. -/
abbrev LineText := { s : Str // OneLine s }

/-- The lines about functions. -/
inductive FunctionTag where
  | FN
  | FNDA
  | FNF
  | FNH

def FunctionTag.text : FunctionTag → Str
  | .FN => py "FN:"
  | .FNDA => py "FNDA:"
  | .FNF => py "FNF:"
  | .FNH => py "FNH:"

/-- A line of a record. -/
inductive Entry where
  | functionData (tag : FunctionTag) (text : LineText)
  | branch (n block id : Nat) (taken : Option Nat)
  | branchesFound (n : Nat)
  | branchesHit (n : Nat)
  | line (n count : Nat) (checksum : Option LineText)
  | linesHit (n : Nat)
  | linesFound (n : Nat)

/-- A number, or `-` for a branch of a block that was never executed. -/
def takenText : Option Nat → Str
  | none => py "-"
  | some count => strNat count

def Entry.text : Entry → Str
  | .functionData tag text => tag.text ++ text.val
  | .branch n block id taken => py "BRDA:" ++ strNat n ++ py "," ++ strNat block ++ py "," ++
      strNat id ++ py "," ++ takenText taken
  | .branchesFound n => py "BRF:" ++ strNat n
  | .branchesHit n => py "BRH:" ++ strNat n
  | .line n count none => py "DA:" ++ strNat n ++ py "," ++ strNat count
  | .line n count (some checksum) =>
      py "DA:" ++ strNat n ++ py "," ++ strNat count ++ py "," ++ checksum.val
  | .linesHit n => py "LH:" ++ strNat n
  | .linesFound n => py "LF:" ++ strNat n

/-- What a run of a test covered of a source file. -/
structure SourceRecord where
  testName : Option LineText
  path : LineText
  entries : List Entry

def SourceRecord.lines (r : SourceRecord) : List Str :=
  (r.testName.map (fun name => py "TN:" ++ name.val)).toList ++ [py "SF:" ++ r.path.val] ++
    r.entries.map Entry.text ++ [py "end_of_record"]

/-- The file of these records. -/
def lcov (records : List SourceRecord) : Str :=
  (records.flatMap SourceRecord.lines).flatMap (fun line => line ++ [ch '\n'])

/-- What can be uncovered. -/
inductive Item where
  | line (n : Nat)
  | branch (n block id : Nat)
  deriving DecidableEq

/-- A line with count 0, or a branch that was not taken. -/
def Entry.uncovered : Entry → Option Item
  | .line n count _ => if count = 0 then some (.line n) else none
  | .branch n block id taken =>
    if taken = none ∨ taken = some 0 then some (.branch n block id) else none
  | _ => none

def SourceRecord.uncovered (r : SourceRecord) : List Item := r.entries.filterMap Entry.uncovered

end Devkit.Coverage
