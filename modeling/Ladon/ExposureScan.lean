import Ladon.Detect

/-!
The scan of a user's files for exposed credentials.

The disk is a tree that does not change while it is scanned: what is at a path, with a link at its
end followed or not, and which calls of the system fail there. A root is searched for the files
that are known to hold credentials, and after all roots each is walked. Whatever keeps the scan
from a file that it should have read marks the report as incomplete.
-/

namespace Ladon.ExposureScan

open Ladon.Detect Ladon.Lib Ladon.Lib.Slice Ladon.Lib.Utf8 Ladon.Lib.Word

/-! ### The disk -/

abbrev Name := Bytes

structure PathBuf where
  absolute : Bool
  components : List Name
  deriving DecidableEq

namespace PathBuf

def join (path : PathBuf) (name : Name) : PathBuf :=
  { path with components := path.components ++ [name] }

/-- The path as it is seen from one above it. -/
def stripBase (path base : PathBuf) : Option PathBuf :=
  if path.absolute = base.absolute ∧ base.components <+: path.components then
    some ⟨false, path.components.drop base.components.length⟩
  else none

end PathBuf

/-- What a path leads to. -/
inductive Node
  | directory (names : List Name)
  | file (content : Bytes)
  | symlink
  | other
  deriving DecidableEq

/-- The calls that may fail at a path. -/
inductive Call
  | symlinkMetadata
  | metadata
  | readDir
  | entry
  | fileType
  | open
  | fileMetadata
  | read
  deriving DecidableEq

/-- What the system says of paths, taken as they are written: with `..` in them several may lead to
one place. -/
structure Disk where
  /-- What is at a path, where a link at its end is the link. -/
  node : PathBuf → Option Node
  /-- What is at a path, where a link at its end is followed. -/
  target : PathBuf → Option Node
  fails : Call → PathBuf → Bool
  target_eq : ∀ path, node path ≠ some .symlink → target path = node path
  /-- What cannot be looked at hides what is below it. -/
  fails_join : ∀ path name, fails .symlinkMetadata path →
    fails .symlinkMetadata (path.join name)

namespace Disk

variable (disk : Disk) (path : PathBuf)

def symlinkMetadata : Option Node :=
  if disk.fails .symlinkMetadata path then none else disk.node path

def isDirectory : Option Node → Bool
  | some (.directory _) => true
  | _ => false

/-- A link at the end is followed. -/
def isFile : Bool :=
  if disk.fails .metadata path then false
  else
    match disk.target path with
    | some (.file _) => true
    | _ => false

/-- The entries of a directory, those among them that could not be read as `none`. -/
def readDir : Option (List (Option Name)) :=
  if disk.fails .readDir path then none
  else
    match disk.target path with
    | some (.directory names) =>
      some (names.map fun name => if disk.fails .entry (path.join name) then none else some name)
    | _ => none

/-- The type of an entry, told without following it. -/
def fileType : Option Node := if disk.fails .fileType path then none else disk.node path

/-- A link is not opened, and what is not a file is opened and put away. -/
def openRegularFile : Option (Option Bytes) :=
  if disk.fails .open path then none
  else
    match disk.node path with
    | none => none
    | some .symlink => none
    | some (.file content) => if disk.fails .fileMetadata path then none else some (some content)
    | some _ => if disk.fails .fileMetadata path then none else some none

/-- At most so many bytes of what was opened. -/
def read (content : Bytes) (cap : ℕ) : Option Bytes :=
  if disk.fails .read path then none else some (content.take cap)

end Disk

/-! ### The scanner -/

structure ScanFinding where
  path : PathBuf
  line : ℕ
  rule : ExposureRule
  deriving DecidableEq

structure ScanReport where
  findings : List ScanFinding
  filesScanned : ℕ
  skippedFiles : ℕ
  incomplete : Bool
  roots : List PathBuf

structure ScanLimits where
  maxFileBytes : ℕ
  maxTotalBytes : ℕ
  maxFiles : ℕ
  maxEntries : ℕ
  maxDepth : ℕ
  maxFindings : ℕ
  maxFileBytes_le : maxFileBytes ≤ u64Max
  maxTotalBytes_le : maxTotalBytes ≤ u64Max

def ScanLimits.default : ScanLimits where
  maxFileBytes := 8 * 1024 * 1024
  maxTotalBytes := 512 * 1024 * 1024
  maxFiles := 100000
  maxEntries := 500000
  maxDepth := 32
  maxFindings := 5000
  maxFileBytes_le := by decide
  maxTotalBytes_le := by decide

/-- What a scan works with. Whether it was cancelled or its time is over is asked again and again,
by the scanner and by the detection in each file. -/
structure Env where
  disk : Disk
  patterns : Patterns
  limits : ScanLimits
  stops : ℕ → Bool
  stopsIn : PathBuf → ℕ → Bool

/-- The scanner; what it followed, read and scanned is only recorded. -/
structure Scanner where
  displayRoot : Option PathBuf
  asked : ℕ
  entriesSeen : ℕ
  totalBytes : ℕ
  report : ScanReport
  seenFiles : List PathBuf
  seenDirectories : List PathBuf
  /-- The paths given to a call that goes on to what is there. -/
  followed : List PathBuf
  /-- The files that were read to the end, with what was in them. -/
  contents : List (PathBuf × Bytes)
  /-- The files that credentials were looked for in. -/
  scanned : List PathBuf

namespace Scanner

def new (displayRoot : Option PathBuf) (roots : List PathBuf) : Scanner :=
  ⟨displayRoot, 0, 0, 0, ⟨[], 0, 0, false, roots⟩, [], [], [], [], []⟩

def markIncomplete (s : Scanner) : Scanner :=
  { s with report := { s.report with incomplete := true } }

def skip (s : Scanner) : Scanner :=
  { s with report := { s.report with skippedFiles := s.report.skippedFiles + 1 } }

def follow (path : PathBuf) (s : Scanner) : Scanner := { s with followed := path :: s.followed }

def seeFile (path : PathBuf) (s : Scanner) : Scanner :=
  { s with seenFiles := path :: s.seenFiles }

def seeDirectory (path : PathBuf) (s : Scanner) : Scanner :=
  { s with seenDirectories := path :: s.seenDirectories }

/-- All of a file was read. -/
def received (path : PathBuf) (bytes : Bytes) (s : Scanner) : Scanner :=
  { s with
    totalBytes := saturatingAdd s.totalBytes bytes.length
    contents := (path, bytes) :: s.contents }

end Scanner

/-- Each detection with its line, counted on from the one before it. -/
def lineFindings (path : PathBuf) (text : Text) : ℕ → ℕ → List Detection →
    Except Fault (List ScanFinding)
  | _, _, [] => .ok []
  | previousOffset, line, found :: detections => do
    let line := line + (← slice text previousOffset found.range.start).count '\n'
    let findings ← lineFindings path text found.range.start line detections
    return ⟨path, line, found.rule⟩ :: findings

section Scan

variable (env : Env)

def stopped (s : Scanner) : Bool × Scanner :=
  let s' := { s with asked := s.asked + 1 }
  if env.stops s.asked ∨ env.limits.maxFiles ≤ s.report.filesScanned ∨
      env.limits.maxFindings ≤ s.report.findings.length then (true, s'.markIncomplete)
  else (false, s')

/-- What is done with a file that is text. -/
def scanText (path : PathBuf) (text : Text) (s : Scanner) : Except Fault Scanner := do
  let relative := (s.displayRoot.bind path.stripBase).getD path
  let remaining := env.limits.maxFindings - s.report.findings.length
  let (detections, incomplete) ← detect remaining (env.stopsIn path) env.patterns text
  let findings ← lineFindings relative text 0 1 detections
  return { s with
    report := { s.report with
      filesScanned := s.report.filesScanned + 1
      incomplete := s.report.incomplete || incomplete
      findings := s.report.findings ++ findings }
    scanned := path :: s.scanned }

/-- What is done with a file once it is open. -/
def readFile (path : PathBuf) (content : Bytes) (s : Scanner) : Except Fault Scanner :=
  let remainingTotal := env.limits.maxTotalBytes - s.totalBytes
  let readCap := min env.limits.maxFileBytes remainingTotal
  match env.disk.read path content (saturatingAdd readCap 1) with
  | none => .ok s.markIncomplete.skip
  | some bytes =>
    if readCap < bytes.length then .ok s.markIncomplete.skip
    else
      let s := s.received path bytes
      if 0 ∈ bytes then .ok s.skip
      else
        match toString? bytes with
        | none => .ok s.skip
        | some text => scanText env path text.toList s

def scanFile (path : PathBuf) (s : Scanner) : Except Fault Scanner :=
  if path ∈ s.seenFiles then .ok s
  else
    let s := s.seeFile path
    if env.limits.maxFiles ≤ s.report.filesScanned then .ok s.markIncomplete.skip
    else
      match env.disk.symlinkMetadata path with
      | none => .ok s.markIncomplete.skip
      | some (.file metadata) =>
        let length := metadata.length
        if env.limits.maxFileBytes < length ∨
            env.limits.maxTotalBytes < saturatingAdd s.totalBytes length then
          .ok s.markIncomplete.skip
        else
          let s := s.follow path
          match env.disk.openRegularFile path with
          | none => .ok s.markIncomplete.skip
          | some none => .ok s.skip
          | some (some content) => readFile env path content s
      | some _ => .ok s.skip

/-! ### The files known to hold credentials -/

/-- The names along a path. -/
def components (relative : String) : List Name := (ofString relative).splitOn 0x2F

def ignoredNames : List String :=
  [".git", ".hg", ".svn", "target", "node_modules", "vendor", ".venv", "venv", "dist", "build"]

def ignoredDirectory (name : Name) : Bool := ignoredNames.any fun ignored => ofString ignored = name

/-- One entry of a directory, where `walk` enters those that are directories. -/
def visitEntry (walk : PathBuf → Scanner → Except Fault Scanner) (directory : PathBuf)
    (entry : Option Name) (s : Scanner) : Except Fault Scanner :=
  match entry with
  | none => .ok s.markIncomplete
  | some name =>
    match env.disk.fileType (directory.join name) with
    | none => .ok s.markIncomplete
    | some .symlink => .ok s.skip
    | some (.directory _) =>
      if ignoredDirectory name then .ok s else walk (directory.join name) s
    | some (.file _) => scanFile env (directory.join name) s
    | some .other => .ok s.skip

def walkEntries (walk : PathBuf → Scanner → Except Fault Scanner) (directory : PathBuf) :
    List (Option Name) → Scanner → Except Fault Scanner
  | [], s => .ok s
  | entry :: entries, s =>
    match stopped env s with
    | (true, s) => .ok s
    | (false, s) =>
      if env.limits.maxEntries ≤ s.entriesSeen then .ok s.markIncomplete
      else do
        let s := { s with entriesSeen := s.entriesSeen + 1 }
        let s ← visitEntry env walk directory entry s
        walkEntries walk directory entries s

def walk (directory : PathBuf) (depth : ℕ) (s : Scanner) : Except Fault Scanner :=
  if directory ∈ s.seenDirectories then .ok s
  else
    match stopped env s with
    | (true, s) => .ok s
    | (false, s) =>
      if _h : env.limits.maxDepth < depth then .ok s.markIncomplete
      else if ¬ Disk.isDirectory (env.disk.symlinkMetadata directory) then .ok s.markIncomplete
      else
        let s := (s.seeDirectory directory).follow directory
        match env.disk.readDir directory with
        | none => .ok s.markIncomplete
        | some entries =>
          walkEntries env (fun path s => walk path (depth + 1) s) directory entries s
termination_by env.limits.maxDepth + 1 - depth

/-! ### The scan of all roots -/

end Scan

end Ladon.ExposureScan
