/-!
# FluxTerm — the engine's error type

`crates/engine/src/error.rs`: an error carries a stable code, a fallback message, the translation
key the frontend looks up and optional details. The constructors pick the translation key from
the code's prefix (`default_message_key`); `with_message_key` replaces it.

The translation variables are left out: no modelled function sets them.
-/

namespace FluxTerm.Engine

structure EngineError where
  code : String
  message : String
  messageKey : Option String
  details : Option String
deriving DecidableEq

/-- `default_message_key`: the translation key of an error code's domain. -/
def defaultMessageKey (code : String) : String :=
  if code.startsWith "serial_" then "error.serial.operationFailed"
  else if code.startsWith "sftp_" then "error.sftp.operationFailed"
  else if code.startsWith "ssh_" then "error.ssh.operationFailed"
  else if code.startsWith "proxy_" then "error.proxy.operationFailed"
  else if code.startsWith "remote_edit_" then "error.remoteEdit.operationFailed"
  else if code.startsWith "ai_" then "error.ai.operationFailed"
  else if code.startsWith "security_" || code.startsWith "crypto_"
      || code.startsWith "secret_" then "error.security.operationFailed"
  else if code.startsWith "local_" || code.startsWith "file_" || code.startsWith "config_"
      || code.startsWith "data_" || code.startsWith "profile_" then "error.system.operationFailed"
  else if code.startsWith "session_" then "error.session.operationFailed"
  else "error.backend.operationFailed"

namespace EngineError

def new (code message : String) : EngineError :=
  ⟨code, message, some (defaultMessageKey code), none⟩

def withDetail (code message detail : String) : EngineError :=
  ⟨code, message, some (defaultMessageKey code), some detail⟩

def withMessageKey (err : EngineError) (messageKey : String) : EngineError :=
  { err with messageKey := some messageKey }

/-- `Display for EngineError`. -/
def display (err : EngineError) : String :=
  match err.details with
  | some detail => err.code ++ ": " ++ err.message ++ " (" ++ detail ++ ")"
  | none => err.code ++ ": " ++ err.message

end EngineError

end FluxTerm.Engine
