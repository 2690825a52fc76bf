import FluxTerm.Sftp.Progress

/-!
# FluxTerm — the events of the engine

The types of `crates/engine/src/types.rs` that the events of an SSH session carry.
-/

namespace FluxTerm.Engine

open FluxTerm.Lib FluxTerm.Sftp

inductive SessionState where
  | connecting
  | connected
  | disconnected
  | error
deriving DecidableEq

inductive SshTunnelKind where
  | localForward
  | remote
  | dynamic
deriving DecidableEq

inductive SshTunnelStatus where
  | starting
  | running
  | stopping
  | stopped
  | failed
deriving DecidableEq

structure SshTunnelSpec where
  kind : SshTunnelKind
  name : Option Text
  bindHost : Text
  bindPort : ℕ
  targetHost : Option Text
  targetPort : Option ℕ
deriving DecidableEq

structure SshTunnelRuntime where
  tunnelId : ℕ
  sessionId : Text
  kind : SshTunnelKind
  name : Option Text
  bindHost : Text
  bindPort : ℕ
  targetHost : Option Text
  targetPort : Option ℕ
  status : SshTunnelStatus
  bytesIn : ℕ
  bytesOut : ℕ
  activeConnections : ℕ
  lastError : Option EngineError
deriving DecidableEq

/-- `EngineEvent`: the events of an SSH session. -/
inductive EngineEvent where
  | terminalOutput (sessionId data : Text)
  | terminalExit (sessionId : Text)
  | sftpProgress (progress : SftpProgress)
  | sshTunnelUpdate (runtime : SshTunnelRuntime)
  | sessionStatus (sessionId : Text) (state : SessionState) (error : Option EngineError)

end FluxTerm.Engine
