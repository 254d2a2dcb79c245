import Ladon.Lib.Find
import Ladon.Lib.Word
import Ladon.Model
import Ladon.Redact

/-!
Run requests: what a client asks for, the checks it passes, and the run that is left when the
values of its bindings have been resolved.
-/

namespace Ladon.Runner

open Ladon.Error Ladon.Model Ladon.Redact Ladon.Lib.Find Ladon.Lib.Utf8 Ladon.Lib.Word

def maxBindings : ℕ := 16
def maxInjectedBytes : ℕ := 1024 * 1024
def maxArguments : ℕ := 256
def maxArgumentBytes : ℕ := 256 * 1024
def maxPathBytes : ℕ := 32 * 1024

/-- Where a client wants a value to go. -/
inductive BindingTarget
  | environment (name : String)
  | standardInput
  | temporaryFileEnvironment (name : String) (suggestedFilename : Option String)
  deriving DecidableEq

structure SecretBindingRequest where
  secretRef : String
  field : String
  target : BindingTarget
  deriving DecidableEq

structure RunRequest where
  executable : String
  arguments : List String
  workingDirectory : String
  bindings : List SecretBindingRequest
  timeoutMs : ℕ
  outputLimitBytes : ℕ

inductive RunCaller
  | mcp
  | cli
  deriving DecidableEq

/-- In milliseconds: a quarter of an hour for an agent, two hours at the command line. -/
def RunCaller.maximumTimeout : RunCaller → ℕ
  | .mcp => 15 * 60 * 1000
  | .cli => 2 * 60 * 60 * 1000

inductive ValidatedBindingTarget
  | environment (name : String)
  | standardInput
  | temporaryFileEnvironment (name : String) (extension : Option Bytes)
  deriving DecidableEq

section Requests

variable [UnicodeNormalization]

structure ValidatedSecretBinding where
  secretRef : SecretRef
  field : FieldName
  target : ValidatedBindingTarget

structure ValidatedRunRequest where
  executable : String
  arguments : List String
  workingDirectory : String
  bindings : List ValidatedSecretBinding
  timeout : ℕ
  outputLimitBytes : ℕ

/-! ### Validation -/

def isAbsolute (path : String) : Bool := (ofString path).head? = some 0x2F

def hasNul (s : String) : Bool := (ofString s).contains 0

def validPath (path : String) : Bool :=
  isAbsolute path && !hasNul path && (ofString path).length ≤ maxPathBytes

/-- The bytes of all arguments together, where a machine word holds their number. -/
def argumentBytes (arguments : List String) : Option ℕ :=
  arguments.foldlM (fun total a => checkedAdd total (ofString a).length) 0

def validateEnvironmentName (name : String) (names : List String) :
    Except LadonError (List String) :=
  if name = "" ∨ 256 < (ofString name).length ∨ hasNul name ∨ (ofString name).contains 0x3D then
    .error .invalidBinding
  else if name ∈ names then .error .invalidBinding
  else .ok (name :: names)

def isFilenameByte (b : UInt8) : Bool :=
  isAsciiAlphanumeric b || b == 0x2E || b == 0x5F || b == 0x2D

/-- What follows the last dot of a file name. -/
def fileExtension (filename : Bytes) : Option Bytes :=
  if 0x2E ∈ filename then some (filename.reverse.takeWhile (· ≠ 0x2E)).reverse else none

def validateSuggestedFilename (filename : String) : Except LadonError Bytes :=
  let name := ofString filename
  if name = [] ∨ 128 < name.length ∨ name.head? = some 0x2E ∨ name.getLast? = some 0x2E ∨
      name.getLast? = some 0x20 ∨ ¬ name.all isFilenameByte then
    .error .invalidBinding
  else match fileExtension name with
    | none => .error .invalidBinding
    | some ext =>
      if ext = [] ∨ 16 < ext.length ∨ ¬ ext.all isAsciiAlphanumeric then .error .invalidBinding
      else .ok (0x2E :: ext)

/-- The bindings one after another, with the environment names taken so far and whether the
standard input is. -/
def validateBindings : List String → Bool → List SecretBindingRequest →
    Except LadonError (List ValidatedSecretBinding)
  | _, _, [] => .ok []
  | names, hasStandardInput, binding :: rest => do
    let secretRef ← SecretRef.parse binding.secretRef
    let field ← FieldName.parse binding.field
    match binding.target with
    | .environment name =>
      let names ← validateEnvironmentName name names
      let rest ← validateBindings names hasStandardInput rest
      return ⟨secretRef, field, .environment name⟩ :: rest
    | .standardInput =>
      if hasStandardInput then .error .invalidBinding
      else do
        let rest ← validateBindings names true rest
        return ⟨secretRef, field, .standardInput⟩ :: rest
    | .temporaryFileEnvironment name suggestedFilename =>
      let names ← validateEnvironmentName name names
      let ext ← suggestedFilename.mapM validateSuggestedFilename
      let rest ← validateBindings names hasStandardInput rest
      return ⟨secretRef, field, .temporaryFileEnvironment name ext⟩ :: rest

def validateRunRequest (request : RunRequest) (caller : RunCaller) :
    Except LadonError ValidatedRunRequest :=
  if ¬ validPath request.executable then .error .invalidExecutablePath
  else if ¬ validPath request.workingDirectory then .error .invalidWorkingDirectory
  else match argumentBytes request.arguments with
    | none => .error .invalidRequest
    | some bytes =>
      if maxArguments < request.arguments.length ∨ maxArgumentBytes < bytes ∨
          request.arguments.any hasNul then
        .error .invalidRequest
      else if maxBindings < request.bindings.length then .error .tooManyBindings
      else if request.timeoutMs = 0 ∨ caller.maximumTimeout < request.timeoutMs then
        .error .invalidTimeout
      else if ¬ (minOutputLimitBytes ≤ request.outputLimitBytes ∧
          request.outputLimitBytes ≤ maxOutputLimitBytes) then
        .error .invalidOutputLimit
      else do
        let bindings ← validateBindings [] false request.bindings
        return ⟨request.executable, request.arguments, request.workingDirectory, bindings,
          request.timeoutMs, request.outputLimitBytes⟩

/-! ### Resolution -/

structure ResolvedSecretBinding where
  secretId : SecretId
  field : FieldName
  value : Bytes

def ResolvedSecretBinding.new (secretId : Bytes) (field : String) (value : Bytes) :
    Except LadonError ResolvedSecretBinding := do
  let secretId ← SecretId.parse secretId
  let field ← FieldName.parse field
  return ⟨secretId, field, value⟩

structure PreparedBinding where
  secretId : SecretId
  field : FieldName
  target : ValidatedBindingTarget
  value : Bytes
  deriving DecidableEq

structure PreparedRun where
  executable : String
  arguments : List String
  workingDirectory : String
  bindings : List PreparedBinding
  timeout : ℕ
  outputLimitBytes : ℕ

/-- The value is part of the text; the empty value is part of none. -/
def contains (haystack : String) (needle : Bytes) : Bool :=
  needle ≠ [] ∧ (find needle (ofString haystack)).isSome

/-- A value that may be put into the environment: text without a NUL. -/
def environmentSafe (value : Bytes) : Bool := fromUtf8 value = .ok ∧ ¬ value.contains 0

def isEnvironment : ValidatedBindingTarget → Bool
  | .environment _ => true
  | _ => false

/-- A reference by identifier names that secret and no other. -/
def refersTo : SecretRef → SecretId → Bool
  | .id expected, actual => expected = actual
  | .name _, _ => true

/-- Bindings and values side by side, with the number of bytes injected so far. -/
def prepareBindings (run : ValidatedRunRequest) :
    ℕ → List (ValidatedSecretBinding × ResolvedSecretBinding) →
    Except LadonError (List PreparedBinding)
  | _, [] => .ok []
  | injectedBytes, (binding, resolved) :: rest =>
    if binding.field ≠ resolved.field then .error .invalidBinding
    else if ¬ refersTo binding.secretRef resolved.secretId then .error .invalidBinding
    else match checkedAdd injectedBytes resolved.value.length with
      | none => .error .injectedDataTooLarge
      | some injectedBytes =>
        if maxInjectedBytes < injectedBytes then .error .injectedDataTooLarge
        else if isEnvironment binding.target ∧ ¬ environmentSafe resolved.value then
          .error .invalidBinding
        else if contains run.executable resolved.value ∨
            contains run.workingDirectory resolved.value ∨
            run.arguments.any (contains · resolved.value) then
          .error .secretInCommand
        else do
          let rest ← prepareBindings run injectedBytes rest
          return ⟨resolved.secretId, resolved.field, binding.target, resolved.value⟩ :: rest

def ValidatedRunRequest.resolve (run : ValidatedRunRequest)
    (resolved : List ResolvedSecretBinding) : Except LadonError PreparedRun :=
  if resolved.length ≠ run.bindings.length then .error .invalidBinding
  else do
    let prepared ← prepareBindings run 0 (run.bindings.zip resolved)
    return ⟨run.executable, run.arguments, run.workingDirectory, prepared, run.timeout,
      run.outputLimitBytes⟩

end Requests

end Ladon.Runner
