import Mathlib.Data.FinEnum
import Mathlib.Data.UInt
import Mathlib.Tactic.Common

/-!
The errors of the program, with the stable code and the message each is reported with.
-/

namespace Ladon.Error

inductive LadonError
  | invalidSecretRef
  | invalidFieldName
  | fieldTooLarge
  | duplicateField
  | emptyRecord
  | tooManyFields
  | vaultPayloadTooLarge
  | invalidVaultPayload
  | invalidVaultFile
  | unsupportedVaultVersion
  | vaultAuthenticationFailed
  | cryptoUnavailable
  | duplicateSecretName
  | secretNotFound
  | fieldNotFound
  | revisionOverflow
  | storageFailure
  | vaultUnavailable
  | vaultLocked
  | invalidFrame
  | ipcDisconnected
  | ipcTimeout
  | invalidResponse
  | frameTooLarge
  | invalidRequest
  | unsupportedProtocolVersion
  | invalidOutputLimit
  | invalidExecutablePath
  | invalidWorkingDirectory
  | invalidBinding
  | tooManyBindings
  | invalidTimeout
  | injectedDataTooLarge
  | secretInCommand
  | busy
  | processFailure
  | alreadyRunning
  | unsafeEndpoint
  | endpointUnavailable
  | invalidPeer
  | invalidPassphrase
  | invalidPin
  | approvalAuthenticationFailed
  | approvalDenied
  | approvalTimeout
  | approvalCancelled
  | touchIdUnavailable
  | integrationFailure
  deriving DecidableEq, Repr

/-- The code an error crosses the local protocol with. -/
def LadonError.code : LadonError → String
  | .invalidSecretRef => "invalid_secret_ref"
  | .invalidFieldName => "invalid_field_name"
  | .fieldTooLarge => "field_too_large"
  | .duplicateField => "duplicate_field"
  | .emptyRecord => "empty_record"
  | .tooManyFields => "too_many_fields"
  | .vaultPayloadTooLarge => "vault_payload_too_large"
  | .invalidVaultPayload => "invalid_vault_payload"
  | .invalidVaultFile => "invalid_vault_file"
  | .unsupportedVaultVersion => "unsupported_vault_version"
  | .vaultAuthenticationFailed => "vault_authentication_failed"
  | .cryptoUnavailable => "crypto_unavailable"
  | .duplicateSecretName => "duplicate_secret_name"
  | .secretNotFound => "secret_not_found"
  | .fieldNotFound => "field_not_found"
  | .revisionOverflow => "revision_overflow"
  | .storageFailure => "storage_failure"
  | .vaultUnavailable => "vault_unavailable"
  | .vaultLocked => "vault_locked"
  | .invalidFrame => "invalid_frame"
  | .ipcDisconnected => "ipc_disconnected"
  | .ipcTimeout => "ipc_timeout"
  | .invalidResponse => "invalid_response"
  | .frameTooLarge => "frame_too_large"
  | .invalidRequest => "invalid_request"
  | .unsupportedProtocolVersion => "unsupported_protocol_version"
  | .invalidOutputLimit => "invalid_output_limit"
  | .invalidExecutablePath => "invalid_executable_path"
  | .invalidWorkingDirectory => "invalid_working_directory"
  | .invalidBinding => "invalid_binding"
  | .tooManyBindings => "too_many_bindings"
  | .invalidTimeout => "invalid_timeout"
  | .injectedDataTooLarge => "injected_data_too_large"
  | .secretInCommand => "secret_in_command"
  | .busy => "busy"
  | .processFailure => "process_failure"
  | .alreadyRunning => "already_running"
  | .unsafeEndpoint => "unsafe_endpoint"
  | .endpointUnavailable => "endpoint_unavailable"
  | .invalidPeer => "invalid_peer"
  | .invalidPassphrase => "invalid_passphrase"
  | .invalidPin => "invalid_pin"
  | .approvalAuthenticationFailed => "approval_authentication_failed"
  | .approvalDenied => "approval_denied"
  | .approvalTimeout => "approval_timeout"
  | .approvalCancelled => "approval_cancelled"
  | .touchIdUnavailable => "touch_id_unavailable"
  | .integrationFailure => "integration_failure"

/-- The message an error crosses the local protocol with. -/
def LadonError.safeMessage : LadonError → String
  | .invalidSecretRef => "invalid secret reference"
  | .invalidFieldName => "invalid field name"
  | .fieldTooLarge => "field value exceeds the size limit"
  | .duplicateField => "record contains duplicate field names"
  | .emptyRecord => "record must contain at least one field"
  | .tooManyFields => "record contains too many fields"
  | .vaultPayloadTooLarge => "vault payload exceeds the size limit"
  | .invalidVaultPayload => "invalid vault payload"
  | .invalidVaultFile => "invalid vault file"
  | .unsupportedVaultVersion => "unsupported vault version"
  | .vaultAuthenticationFailed => "vault authentication failed"
  | .cryptoUnavailable => "cryptographic randomness is unavailable"
  | .duplicateSecretName => "a secret with that name already exists"
  | .secretNotFound => "secret not found"
  | .fieldNotFound => "secret field not found"
  | .revisionOverflow => "vault revision cannot be incremented"
  | .storageFailure => "vault storage operation failed"
  | .vaultUnavailable => "neither managed vault copy can be opened"
  | .vaultLocked => "vault is locked"
  | .invalidFrame => "IPC frame is invalid"
  | .ipcDisconnected => "local Ladon connection closed before a complete IPC message was received"
  | .ipcTimeout => "local Ladon IPC read timed out"
  | .invalidResponse => "local Ladon response is malformed or belongs to another request"
  | .frameTooLarge => "IPC frame exceeds the size limit"
  | .invalidRequest => "IPC request is invalid"
  | .unsupportedProtocolVersion => "unsupported protocol version"
  | .invalidOutputLimit => "output limit is outside the supported range"
  | .invalidExecutablePath => "executable path must be absolute"
  | .invalidWorkingDirectory => "working directory must be absolute"
  | .invalidBinding => "secret binding is invalid"
  | .tooManyBindings => "run contains too many secret bindings"
  | .invalidTimeout => "run timeout is outside the supported range"
  | .injectedDataTooLarge => "injected secret data exceeds the size limit"
  | .secretInCommand => "managed secret data appears in command metadata"
  | .busy => "another secret-bearing process is already running"
  | .processFailure => "process execution failed"
  | .alreadyRunning => "another Ladon instance is already running"
  | .unsafeEndpoint => "local endpoint failed security checks"
  | .endpointUnavailable => "local Ladon endpoint is unavailable"
  | .invalidPeer => "local IPC peer is not the current user"
  | .invalidPassphrase =>
    "passphrase must match, contain at least 12 Unicode characters, and use at most " ++
      "1024 UTF-8 bytes"
  | .invalidPin => "PIN must match and contain 4 to 12 ASCII digits"
  | .approvalAuthenticationFailed => "approval authentication failed"
  | .approvalDenied => "agent request was denied"
  | .approvalTimeout => "approval request timed out"
  | .approvalCancelled => "approval request was cancelled"
  | .touchIdUnavailable => "Touch ID is unavailable; use a session PIN"
  | .integrationFailure => "coding-agent integration configuration failed"

def LadonError.all : List LadonError :=
  [.invalidSecretRef, .invalidFieldName, .fieldTooLarge, .duplicateField, .emptyRecord,
    .tooManyFields, .vaultPayloadTooLarge, .invalidVaultPayload, .invalidVaultFile,
    .unsupportedVaultVersion, .vaultAuthenticationFailed, .cryptoUnavailable, .duplicateSecretName,
    .secretNotFound, .fieldNotFound, .revisionOverflow, .storageFailure, .vaultUnavailable,
    .vaultLocked, .invalidFrame, .ipcDisconnected, .ipcTimeout, .invalidResponse, .frameTooLarge,
    .invalidRequest, .unsupportedProtocolVersion, .invalidOutputLimit, .invalidExecutablePath,
    .invalidWorkingDirectory, .invalidBinding, .tooManyBindings, .invalidTimeout,
    .injectedDataTooLarge, .secretInCommand, .busy, .processFailure, .alreadyRunning,
    .unsafeEndpoint, .endpointUnavailable, .invalidPeer, .invalidPassphrase, .invalidPin,
    .approvalAuthenticationFailed, .approvalDenied, .approvalTimeout, .approvalCancelled,
    .touchIdUnavailable, .integrationFailure]

/-- The error with a code. -/
def LadonError.fromCode (code : String) : Option LadonError :=
  LadonError.all.find? (·.code = code)

/-- A check that must pass, and the error where it does not. -/
def require (c : Prop) [Decidable c] (e : LadonError) : Except LadonError Unit :=
  if c then .ok () else .error e

@[simp] lemma require_eq_ok {c : Prop} [Decidable c] {e : LadonError} {u : Unit} :
    require c e = .ok u ↔ c := by
  unfold require
  split_ifs with h
  · simp [h]
  · simp [h]

/-- A computation in sequence succeeds when each of its parts does. -/
lemma bind_eq_ok {ε α β : Type} {x : Except ε α} {f : α → Except ε β} {b : β} :
    (x >>= f) = .ok b ↔ ∃ a, x = .ok a ∧ f a = .ok b := by
  cases x with
  | error e => simp [bind, Except.bind]
  | ok a => simp [bind, Except.bind]

/-- What is made of a list, element by element. -/
lemma mapM_eq_ok {α β : Type} {f : α → Except LadonError β} {l : List α} {l' : List β} :
    l.mapM f = .ok l' ↔ List.Forall₂ (fun a b => f a = .ok b) l l' := by
  induction l generalizing l' with
  | nil =>
    rw [List.forall₂_nil_left_iff]
    exact ⟨fun h => by cases h; rfl, fun h => by rw [h]; rfl⟩
  | cons a l ih =>
    simp only [List.mapM_cons, bind_eq_ok, List.forall₂_cons_left_iff, ih]
    constructor
    · rintro ⟨b, hb, rest, hrest, h⟩
      cases h
      exact ⟨b, rest, hb, hrest, rfl⟩
    · rintro ⟨b, rest, hb, hrest, rfl⟩
      exact ⟨b, hb, rest, hrest, rfl⟩

end Ladon.Error
