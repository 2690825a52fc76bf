import FluxTerm.Proxy.Socks5Agree
import FluxTerm.Proxy.Socks5Replies
import FluxTerm.Serial.Cancel
import FluxTerm.Security.RekeyExact
import FluxTerm.Security.LockedMode
import FluxTerm.Security.KeyCreation
import FluxTerm.Security.Startup
import FluxTerm.Sftp.TransferEnd
import FluxTerm.Sftp.SharedDownloads
import FluxTerm.Workspace.Resize
import FluxTerm.Workspace.StalePane
import FluxTerm.Reconnect.Timers
import FluxTerm.Reconnect.CancelConnect
import FluxTerm.Proxy.Credentials
import FluxTerm.Ssh.SessionResponsive
import FluxTerm.Ssh.EngineConnect
import FluxTerm.Ssh.RemoteForward
import FluxTerm.RemoteEdit.SyncFaithful
import FluxTerm.RemoteEdit.Monitors
import FluxTerm.RemoteEdit.FreshBase
import FluxTerm.RemoteEdit.IndexKept
import FluxTerm.RemoteEdit.CacheCleanup
import FluxTerm.Resource.Monitors
import FluxTerm.Resource.Snapshot
import FluxTerm.Resource.MonitorSync
import FluxTerm.Window.Documents
import FluxTerm.Window.Backend
import FluxTerm.Ai.ChatState
import FluxTerm.Ai.SettingsHook
import FluxTerm.Layout.Shell
import FluxTerm.Window.QuickBar
import FluxTerm.Terminal.OutputQueue
import FluxTerm.Sftp.Navigation
import FluxTerm.Proxy.RelayTime
import FluxTerm.Proxy.Accounting
import FluxTerm.Proxy.Lists
import FluxTerm.Proxy.AbsoluteForm
import FluxTerm.Ssh.HttpConnect
import FluxTerm.Sftp.RemoteParents
import FluxTerm.Window.LockScreen
import FluxTerm.Terminal.Broadcast
import FluxTerm.Window.FloatingSync
import FluxTerm.RemoteEdit.Prompts
import FluxTerm.Layout.Normalised
import FluxTerm.Ai.EscapeSequences
import FluxTerm.Ssh.JumpHosts
import FluxTerm.Terminal.CreationGate
import FluxTerm.RemoteEdit.WorkingCopyPath
import FluxTerm.Logging.PathTraces
import FluxTerm.Telemetry.Snapshots
import FluxTerm.Ssh.TerminalOutput
import FluxTerm.History.InputTracker
import FluxTerm.Serial.MonitorInput
import FluxTerm.Terminal.PromptTracking
import FluxTerm.Ai.AnswerCache
import FluxTerm.Security.SecretsKept
import FluxTerm.Sftp.Tally
