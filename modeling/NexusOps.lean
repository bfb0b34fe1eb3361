import NexusOps.Concurrency.Table
import NexusOps.Concurrency.Machine
import NexusOps.Concurrency.OneShot
import NexusOps.Model.Basic
import NexusOps.RemoteOperations.Authority
import NexusOps.RemoteOperations.Systemd
import NexusOps.RemoteOperations.Store
import NexusOps.RemoteOperations.StoreHistory
import NexusOps.Concurrency.Process
import NexusOps.Concurrency.LockOrder
import NexusOps.Concurrency.RelyGuarantee
import NexusOps.Concurrency.History
import NexusOps.RemoteOperations.Foundation
import NexusOps.RemoteOperations.FoundationSystem
import NexusOps.RemoteOperations.FoundationSafety
import NexusOps.Ssh.SystemdDispatch
import NexusOps.Concurrency.Fallible
import NexusOps.Model.Services
import NexusOps.Model.Session
import NexusOps.Core.Application
import NexusOps.Core.Lifecycle
import NexusOps.Core.Hosts
import NexusOps.Core.Services
import NexusOps.Core.Protocol
import NexusOps.Core.Steps
import NexusOps.Core.Sections
import NexusOps.Core.HostsSafety
import NexusOps.Core.ExecutionSafety
import NexusOps.Core.Safety
import NexusOps.Concurrency.Async
import NexusOps.Model.Files
import NexusOps.Sftp.Path
import NexusOps.Sftp.Raw
import NexusOps.Sftp.Client
import NexusOps.Sftp.Manager
import NexusOps.Sftp.Transfer
import NexusOps.Sftp.TransferSystem
import NexusOps.Sftp.TransferProtocol
import NexusOps.Sftp.TransferSteps
import NexusOps.Sftp.TransferScheduler
import NexusOps.Sftp.ClientSafety
import NexusOps.Sftp.TransferSections
import NexusOps.Sftp.TransferJobSafety
import NexusOps.Sftp.TransferTaskSafety
import NexusOps.Sftp.TransferSafety
import NexusOps.Encoding.Base64
import NexusOps.Model.Terminal
import NexusOps.Terminal.Manager
import NexusOps.Terminal.System
import NexusOps.Terminal.Protocol
import NexusOps.Terminal.Steps
import NexusOps.Terminal.PumpSafety
import NexusOps.Terminal.PollSafety
import NexusOps.Desktop.TerminalFlow
import NexusOps.Desktop.TerminalInput
import NexusOps.Terminal.Safety
import NexusOps.Ssh.Terminal
import NexusOps.Model.Hostname
import NexusOps.Ssh.KnownHosts
import NexusOps.Ssh.KnownHostsSafety
import NexusOps.Sftp.Plans
import NexusOps.Sftp.PlanDestinations
import NexusOps.Desktop.Lifecycle
import NexusOps.Desktop.Exit
import NexusOps.Sftp.PlanStore
import NexusOps.Sftp.PlanLocks
import NexusOps.Concurrency.Obeys
import NexusOps.Concurrency.Zoom
import NexusOps.Concurrency.Trace
import NexusOps.Concurrency.Unblocked
import NexusOps.Sftp.TransferParts
import NexusOps.Sftp.EditorSave
import NexusOps.Sftp.TransferTeardown
import NexusOps.Core.ObservationBounds
import NexusOps.Core.Rejections
import NexusOps.Core.ObservationHistory
import NexusOps.Desktop.Updates
import NexusOps.Desktop.UpdatesSafety
import NexusOps.Desktop.UpdateDownload
import NexusOps.Facade.State
import NexusOps.Facade.Files
import NexusOps.Facade.Hosts
import NexusOps.Facade.Frames
import NexusOps.Facade.System
import NexusOps.Facade.CredentialSafety
import NexusOps.Sftp.Stream
import NexusOps.Sftp.Streaming
import NexusOps.Core.AppLocks
import NexusOps.Encoding.Utf8
import NexusOps.Sftp.EditorText
import NexusOps.Sftp.Listing
import NexusOps.Facade.Rename
import NexusOps.Sftp.DisplayName
import NexusOps.Encoding.Shell
import NexusOps.Ssh.SystemdCommand
import NexusOps.Discovery.Logs
import NexusOps.Audit.Storage
import NexusOps.Encoding.Json
import NexusOps.Secrets.Vault
import NexusOps.Discovery.Addresses
import NexusOps.Discovery.Parsers
