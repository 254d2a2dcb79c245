import Ladon.Lib.Find
import Ladon.Lib.Utf8
import Ladon.Lib.Digits
import Ladon.Lib.Base64
import Ladon.Lib.Json
import Ladon.Lib.Calendar
import Ladon.Lib.Word
import Ladon.Lib.Fault
import Ladon.Lib.Slice
import Ladon.Lib.FirstCome
import Ladon.Lib.Text
import Ladon.Lib.Uuid
import Ladon.Lib.JsonParse
import Ladon.Lib.Serde
import Ladon.Lib.Cbor
import Ladon.Lib.CborItem
import Ladon.Lib.SortedMap
import Ladon.Lib.Run
import Ladon.Lib.Machine
import Ladon.Lib.Pipe
import Ladon.Lib.Table
import Ladon.Lib.LastWriter
import Ladon.Error
import Ladon.Model
import Ladon.Codec
import Ladon.CodecRoundtrip
import Ladon.CodecCanonical
import Ladon.Crypto
import Ladon.CryptoFile
import Ladon.CryptoFraming
import Ladon.CryptoLifetime
import Ladon.CryptoTamper
import Ladon.Vault
import Ladon.VaultReopen
import Ladon.VaultCrud
import Ladon.Store
import Ladon.Redact
import Ladon.RedactStream
import Ladon.Runner
import Ladon.Protocol
import Ladon.ProtocolWire
import Ladon.ProtocolCheck
import Ladon.Commands
import Ladon.CommandsRun
import Ladon.Supervisor
import Ladon.ProcessGroup
import Ladon.RedactBounds
import Ladon.RunnerSpec
import Ladon.CoreBroker
import Ladon.Grants
import Ladon.GrantsSpec
import Ladon.Approval
import Ladon.ApprovalSpec
import Ladon.ApprovalRun
import Ladon.ApprovalLock
import Ladon.ApprovalHistory
import Ladon.ApprovalKept
import Ladon.ApprovalConsent
import Ladon.ApprovalUnattended
import Ladon.ApprovalSession
import Ladon.ApprovalStale
import Ladon.ApprovalRegistry
import Ladon.ApprovalRevoke
import Ladon.Mcp
import Ladon.McpReply
import Ladon.McpServe
import Ladon.ProtocolAgree
import Ladon.Ipc
import Ladon.IpcExchange
import Ladon.UnlockRequest
import Ladon.UiLock
import Ladon.SecretEditor
import Ladon.SecretDetail
import Ladon.Controller
import Ladon.ControllerLaw
import Ladon.SecretUpdate
import Ladon.ControllerPlan
import Ladon.ControllerDisk
import Ladon.Broker
import Ladon.BrokerSpec
import Ladon.BrokerRun
import Ladon.BrokerSlot
import Ladon.RunAdmission
import Ladon.BrokerSession
import Ladon.BrokerLock
import Ladon.BrokerStatus
import Ladon.AgentBroker
import Ladon.Serving
import Ladon.BrokerWait
import Ladon.BrokerRevoke
import Ladon.BrokerRevokeSpec
import Ladon.ApprovalLifetime
import Ladon.SessionAuth
import Ladon.Desktop
import Ladon.DesktopRun
import Ladon.DesktopSpec
import Ladon.DesktopKind
import Ladon.DesktopAuth
import Ladon.GrantOrigin
import Ladon.Application
import Ladon.ApplicationAuth
import Ladon.ApplicationLock
import Ladon.Detect
import Ladon.ExposureScan
import Ladon.DetectSpec
import Ladon.ExposureScanSpec
