import Ladon.Commands
import Ladon.Lib.Serde
import Ladon.Protocol

/-!
The command that runs a program: its flags, and the request it makes of them.

What the operating system says of paths is a parameter. Paths are bytes; those that go into a
request must be text.
-/

namespace Ladon.Commands

open Ladon.Error Ladon.Model Ladon.Runner Ladon.Redact Ladon.Protocol Ladon.Lib Ladon.Lib.Utf8
  Ladon.Lib.Word

/-- In milliseconds. -/
def defaultRunTimeout : ℕ := 5 * 60 * 1000

/-- What a command learns of the machine it runs on. -/
structure System where
  currentDir : Option Bytes
  /-- The directories of `PATH`, where it is set. -/
  searchPath : Option (List Bytes)
  canonicalize : Bytes → Option Bytes
  isDir : Bytes → Bool
  isFile : Bytes → Bool
  isExecutable : Bytes → Bool

/-! ### Paths -/

def isAbsolutePath (path : Bytes) : Bool := path.head? = some 0x2F

/-- A relative path below a directory. -/
def joinPath (directory path : Bytes) : Bytes :=
  if isAbsolutePath path then path
  else if directory = [] ∨ directory.getLast? = some 0x2F then directory ++ path
  else directory ++ 0x2F :: path

/-- More than one component: a dot counts only in front. -/
def hasPathSeparator (path : Bytes) : Bool :=
  let parts := path.splitOn 0x2F
  let front := if parts.head? = some [0x2E] then 1 else 0
  1 < front + (parts.filter fun part => part ≠ [] ∧ part ≠ [0x2E]).length

def findInPath (system : System) (executable : Bytes) : Option Bytes := do
  let directories ← system.searchPath
  (directories.map fun directory => joinPath directory executable).find? fun candidate =>
    system.isFile candidate && system.isExecutable candidate

def resolveExecutable (system : System) (input workingDirectory : String) :
    Except LadonError String :=
  let path := ofString input
  if hasNul input then .error .invalidExecutablePath
  else
    let candidate :=
      if isAbsolutePath path then some path
      else if hasPathSeparator path then some (joinPath (ofString workingDirectory) path)
      else findInPath system path
    match candidate >>= system.canonicalize with
    | none => .error .invalidExecutablePath
    | some canonical =>
      if ¬ system.isFile canonical ∨ ¬ system.isExecutable canonical then
        .error .invalidExecutablePath
      else match toString? canonical with
        | none => .error .invalidExecutablePath
        | some executable => .ok executable

def canonicalDirectory (system : System) (path : Bytes) : Except LadonError String :=
  match system.canonicalize path with
  | none => .error .invalidWorkingDirectory
  | some canonical =>
    if ¬ system.isDir canonical then .error .invalidWorkingDirectory
    else match toString? canonical with
      | none => .error .invalidWorkingDirectory
      | some directory => .ok directory

/-! ### Flags -/

/-- A number of 64 bits; a plus may stand before it. -/
def parseU64 (value : String) : Option ℕ :=
  let text := ofString value
  let digits := if text.head? = some 0x2B then text.tail else text
  if digits ≠ [] ∧ digits.all Json.isDigit ∧ Json.ofDigits digits ≤ u64Max then
    some (Json.ofDigits digits)
  else none

/-- Seconds in milliseconds, where a machine word holds them. -/
def millisOfSeconds (seconds : ℕ) : Option ℕ :=
  if seconds * 1000 ≤ u64Max then some (seconds * 1000) else none

structure RunOptions where
  bindings : List SecretBindingRequest
  timeoutMs : ℕ
  outputLimitBytes : ℕ
  workingDirectory : Bytes

def RunOptions.addBinding (options : RunOptions) (binding : SecretBindingRequest) : RunOptions :=
  { options with bindings := options.bindings ++ [binding] }

def parseFlag (flag value : String) (options : RunOptions) : Except LadonError RunOptions :=
  if flag = "--env" then options.addBinding <$> parseNamedBinding value false
  else if flag = "--file-env" then options.addBinding <$> parseNamedBinding value true
  else if flag = "--stdin" then options.addBinding <$> parseStdinBinding value
  else if flag = "--timeout-seconds" then
    match parseU64 value >>= millisOfSeconds with
    | none => .error .invalidTimeout
    | some timeoutMs => .ok { options with timeoutMs := timeoutMs }
  else if flag = "--output-limit-bytes" then
    match parseU64 value with
    | none => .error .invalidOutputLimit
    | some outputLimitBytes => .ok { options with outputLimitBytes := outputLimitBytes }
  else if flag = "--cwd" then .ok { options with workingDirectory := ofString value }
  else .error .invalidRequest

/-- Flags, each with its value, up to `--`; what follows is the command. -/
def parseFlags (options : RunOptions) : List String → Except LadonError (RunOptions × List String)
  | [] => .error .invalidRequest
  | [flag] => if flag = "--" then .ok (options, []) else .error .invalidRequest
  | flag :: value :: rest =>
    if flag = "--" then .ok (options, value :: rest)
    else do
      let options ← parseFlag flag value options
      parseFlags options rest

variable [UnicodeNormalization]

def parseRun (system : System) (arguments : List String) (caller : RunCaller) :
    Except LadonError RpcMethod :=
  match system.currentDir with
  | none => .error .invalidRequest
  | some currentDir => do
    let (options, command) ←
      parseFlags ⟨[], defaultRunTimeout, defaultOutputLimitBytes, currentDir⟩ arguments
    match command with
    | [] => .error .invalidExecutablePath
    | executable :: commandArguments =>
      let workingDirectory ← canonicalDirectory system options.workingDirectory
      let executable ← resolveExecutable system executable workingDirectory
      let run : RunRequest := ⟨executable, commandArguments, workingDirectory, options.bindings,
        options.timeoutMs, options.outputLimitBytes⟩
      let _ ← validateRunRequest run caller
      return .run run

end Ladon.Commands
