import FluxTerm.Lib.Effect
import FluxTerm.Security.ProfileCommands
import FluxTerm.Ssh.KnownHosts
import FluxTerm.Ssh.Session

/-!
# FluxTerm — credentials go to pinned hosts

`resolve_ssh_connect_plan` and `enforce_host_key_policy` of `src-tauri/src/commands/ssh.rs`, with
the connections of `crates/engine/src/ssh_transport.rs` that probe a chain of hosts and then lead
through it, up to the authentication at the target in `run_session_loop` and
`run_ssh_resource_monitor`.

* **`PinnedOnly`** — each authentication is at a host that is trusted with the key it presented;
  **`pinnedOnly_run`** — so it is.

A timeout shows as a failure of the connection that is under way.
-/

namespace FluxTerm.Ssh

open FluxTerm.Engine FluxTerm.Lib FluxTerm.Security

/-! ## The world -/

inductive HostKeyPolicy where
  | ask
  | strict
  | off
deriving DecidableEq

/-- `HostProfile`, as far as connecting reads it. -/
structure ConnectProfile where
  id : Text
  host : Text
  port : ℕ
  username : Text
  authType : AuthType
  passwordRef : Option Text
  privateKeyPath : Option Text
  jumpProfileIds : Option (List Text)

structure ServerAnswer where
  stream : Except EngineError Unit
  key : Except String Text
  handshake : Except String Unit
  authenticated : Except EngineError Unit

/-- What a command finds. What may differ from time to time is told by the number of connections
that have been opened. -/
structure ConnectWorld where
  profiles : Except EngineError (List ConnectProfile)
  /-- The profiles as `resolve_jump_profiles` reads them. -/
  jumpProfiles : Except EngineError (List ConnectProfile)
  /-- `decrypt_profile_secrets` and `resolve_profile_credential`. -/
  reveal : ConnectProfile → Except EngineError ConnectProfile
  settings : ℕ → Except EngineError HostKeyPolicy
  knownHosts : Option ByteArray
  /-- `algorithm` and `fingerprint` of a public key. -/
  algorithm : Text → Text
  fingerprint : Text → String
  lineFingerprint : Text → Except String String
  /-- `ssh:host-key-verification-required` is emitted. -/
  emitRequired : Except EngineError Unit
  servers : ℕ → ServerAnswer

inductive AuthPurpose where
  | session
  | jump
  | resourceMonitor
deriving DecidableEq

/-- A run of `authenticate`, with the key that its connection has presented. -/
structure Authentication where
  purpose : AuthPurpose
  host : Text
  port : ℕ
  key : Text
deriving DecidableEq

structure NetState where
  opened : ℕ
  log : List Authentication
  /-- `HostKeyCheckState` of the session. -/
  hostKeyError : Option EngineError

def NetState.start : NetState := ⟨0, [], none⟩

abbrev Net := Effect NetState EngineError

/-! ## Connections -/

def sshJumpDepthExceededCode : String := "ssh_jump_depth_exceeded"

structure ExpectedHostKey where
  publicKeyBase64 : Text
  fingerprintSha256 : String

structure JumpHostProfile where
  profile : ConnectProfile
  expectedHostKey : Option ExpectedHostKey

abbrev JumpHostSpec := List JumpHostProfile

structure ClientHandler where
  expectedHostKey : Option ExpectedHostKey
  /-- Its `host_key_state` is that of the session. -/
  shared : Bool

/-- `client::Handle`. -/
structure ClientHandle where
  key : Text
  authenticated : Except EngineError Unit

/-- `check_server_key`: the error that is saved when the key is refused. -/
def checkServerKey (expectedHostKey : Option ExpectedHostKey) (actual : Text) :
    Option EngineError :=
  match expectedHostKey with
  | none => none
  | some expected =>
    if actual = expected.publicKeyBase64 then none
    else some (.new "ssh_host_key_untrusted"
      ("SSH host key verification failed: server fingerprint does not match expected value " ++
        "(expected " ++ expected.fingerprintSha256 ++ ")"))

def connectFailed (detail : String) : EngineError :=
  .withDetail sshConnectFailedCode "Failed to connect to target host" detail

def connectStreamWithHandler (answer : ServerAnswer) (handler : ClientHandler) : Net ClientHandle :=
  match answer.key with
  | .error detail => .fail (connectFailed detail)
  | .ok key =>
    match checkServerKey handler.expectedHostKey key with
    | some err => do
      .modifyGet fun s => ((), if handler.shared then { s with hostKeyError := some err } else s)
      .fail (connectFailed "Unknown server key")
    | none =>
      match answer.handshake with
      | .error detail => .fail (connectFailed detail)
      | .ok () => pure ⟨key, answer.authenticated⟩

def authenticate (handle : ClientHandle) (profile : ConnectProfile) (purpose : AuthPurpose) :
    Net Unit := do
  .modifyGet fun s =>
    ((), { s with log := s.log ++ [⟨purpose, profile.host, profile.port, handle.key⟩] })
  .lift handle.authenticated

section World

variable (world : ConnectWorld)

/-- `connect_entry_stream` or `open_direct_stream`. -/
def openStream : Net ServerAnswer := do
  let n ← .modifyGet fun s => (s.opened, { s with opened := s.opened + 1 })
  .lift ((world.servers n).stream.map fun _ => world.servers n)

/-- One jump host of the loops in `connect_ssh_client` and `connect_probe_client`. -/
def connectJump (jump : JumpHostProfile) : Net Unit := do
  let answer ← openStream world
  let handle ← connectStreamWithHandler answer ⟨jump.expectedHostKey, false⟩
  authenticate handle jump.profile .jump

def connectJumps (spec : JumpHostSpec) : Net ServerAnswer :=
  if sshJumpMaxDepth < spec.length then
    .fail (.withDetail sshJumpDepthExceededCode "Jump chain exceeds the maximum depth"
      ("maxDepth=" ++ toString sshJumpMaxDepth ++ " actual=" ++ toString spec.length))
  else do
    Effect.forM (connectJump world) spec
    openStream world

def connectSshClient (spec : JumpHostSpec) (handler : ClientHandler) : Net ClientHandle := do
  let answer ← connectJumps world spec
  connectStreamWithHandler answer handler

/-- `connect_probe_client` with a `ProbeHandler`: the key that it captures. -/
def connectProbeClient (spec : JumpHostSpec) : Net Text := do
  let answer ← connectJumps world spec
  .lift (answer.key.mapError connectFailed)

/-! ## The plan -/

structure HostKeyProbe where
  keyAlgorithm : Text
  publicKeyBase64 : Text
  fingerprintSha256 : String

def probeHostKey (spec : JumpHostSpec) : Net HostKeyProbe := do
  let result ← (connectProbeClient world spec).attempt
  match result with
  | .ok key => pure ⟨world.algorithm key, key, world.fingerprint key⟩
  | .error err => .fail ((EngineError.withDetail "ssh_host_key_probe_failed"
      "Unable to fetch the target host key" err.display).withMessageKey
        "error.ssh.hostKey.probeFailed")

def sshHostKeyUnknownCode : String := "ssh_host_key_unknown"

def sshHostKeyMismatchCode : String := "ssh_host_key_mismatch"

/-- The decision of `enforce_host_key_policy`. -/
def judgeProbe (policy : HostKeyPolicy) (status : HostKeyMatchStatus) (probe : HostKeyProbe) :
    Except EngineError (Option ExpectedHostKey) :=
  match policy, status with
  | _, .trusted => .ok (some ⟨probe.publicKeyBase64, probe.fingerprintSha256⟩)
  | .strict, .unknown => .error (.new sshHostKeyUnknownCode
      "Target host is not trusted and the current host key policy blocks the connection")
  | .strict, .mismatch => .error (.new sshHostKeyMismatchCode
      "Target host fingerprint does not match the local record; connection blocked")
  | .ask, .unknown => do
    world.emitRequired
    .error (.new sshHostKeyUnknownCode
      "First connection to this host; waiting for host key confirmation")
  | .ask, .mismatch => do
    world.emitRequired
    .error (.new sshHostKeyMismatchCode
      "Target host fingerprint does not match the local record; waiting for confirmation")
  | .off, _ => .ok none

def matchHostKey (profile : ConnectProfile) (algorithm key : Text) :
    Except EngineError HostKeyMatch :=
  matchHostKeyPath world.lineFingerprint world.knownHosts profile.host profile.port algorithm key

def enforceHostKeyPolicy (profile : ConnectProfile) (spec : JumpHostSpec) :
    Net (Option ExpectedHostKey) := do
  let n ← .modifyGet fun s => (s.opened, s)
  let policy ← .lift (world.settings n)
  if policy = .off then pure none
  else do
    let probe ← probeHostKey world spec
    let matched ← .lift (matchHostKey world profile probe.keyAlgorithm probe.publicKeyBase64)
    .lift (judgeProbe world policy matched.status probe)

def validateSshConnectProfile (profile : ConnectProfile) : Except EngineError Unit :=
  if trimBy isWhitespace profile.host = [] then
    .error ((EngineError.new "ssh_profile_host_required" "SSH host is required").withMessageKey
      "error.ssh.profile.hostRequired")
  else if trimBy isWhitespace profile.username = [] then
    .error ((EngineError.new "ssh_profile_username_required"
      "SSH username is required").withMessageKey "error.ssh.profile.usernameRequired")
  else
    match profile.authType with
    | .password =>
      if profile.passwordRef.all (· = []) then
        .error ((EngineError.new "ssh_profile_password_required"
          "SSH password is required").withMessageKey "error.ssh.auth.missingPassword")
      else .ok ()
    | .privateKey =>
      if profile.privateKeyPath.all (trimBy isWhitespace · = []) then
        .error ((EngineError.new "ssh_profile_private_key_required"
          "SSH private key file is required").withMessageKey "error.ssh.auth.missingPrivateKey")
      else .ok ()
    | .agent => .ok ()

def resolveConnectProfile (requested : Text) : Except EngineError ConnectProfile :=
  let notFound := EngineError.new "profile_not_found" "Profile not found"
  if trimBy isWhitespace requested = [] then .error notFound
  else do
    let profiles ← world.profiles
    match profiles.find? (·.id = requested) with
    | none => .error notFound
    | some profile => world.reveal profile

def resolveJumpProfiles (profile : ConnectProfile) : Except EngineError (List ConnectProfile) :=
  let ids := profile.jumpProfileIds.getD []
  if 8 < ids.length then
    .error (.withDetail sshJumpDepthExceededCode "Jump chain exceeds the maximum depth"
      ("maxDepth=8 actual=" ++ toString ids.length))
  else if ¬(profile.id :: ids).Nodup then
    .error (.new "ssh_jump_cycle" "Jump chain contains a cycle")
  else do
    let profiles ← world.jumpProfiles
    collect (fun _ id =>
      match profiles.find? (·.id = id) with
      | none => .error (.new "ssh_jump_profile_missing" "Jump host profile not found")
      | some profile => world.reveal profile) 0 ids

structure SshConnectPlan where
  profile : ConnectProfile
  expectedHostKey : Option ExpectedHostKey
  jumpSpec : JumpHostSpec

/-- The loop of `resolve_ssh_connect_plan`: each host is probed through those approved so far. -/
def approveJumps (spec : JumpHostSpec) : List ConnectProfile → Net JumpHostSpec
  | [] => pure spec
  | jump :: rest => do
    let expectedHostKey ← enforceHostKeyPolicy world jump spec
    approveJumps (spec ++ [⟨jump, expectedHostKey⟩]) rest

def resolveSshConnectPlan (requested : Text) : Net SshConnectPlan := do
  let profile ← .lift (resolveConnectProfile world requested)
  .lift (validateSshConnectProfile profile)
  let jumps ← .lift (resolveJumpProfiles world profile)
  Effect.forM (fun jump => .lift (validateSshConnectProfile jump)) jumps
  let jumpSpec ← approveJumps world [] jumps
  let expectedHostKey ← enforceHostKeyPolicy world profile jumpSpec
  pure ⟨profile, expectedHostKey, jumpSpec⟩

/-! ## The commands -/

inductive ConnectCommand where
  /-- `ssh_connect`, and `run_session_loop` behind it. -/
  | session
  /-- `resource_monitor_start_ssh`, and `run_ssh_resource_monitor` behind it. -/
  | resourceMonitor

/-- The start of `run_session_loop`. -/
def runSessionLoop (plan : SshConnectPlan) : Net Unit := do
  let connection ← (connectSshClient world plan.jumpSpec ⟨plan.expectedHostKey, true⟩).attempt
  let saved ← .modifyGet fun s => (s.hostKeyError, s)
  match connection with
  | .error err => .fail (saved.getD err)
  | .ok handle => authenticate handle plan.profile .session

/-- The start of `run_ssh_resource_monitor`. -/
def runSshResourceMonitor (plan : SshConnectPlan) : Net Unit := do
  let connection ← (connectSshClient world plan.jumpSpec ⟨plan.expectedHostKey, false⟩).attempt
  match connection with
  | .error err => .fail (.withDetail "resource_monitor_connect_failed"
      "Failed to establish resource monitor connection" (err.details.getD err.message))
  | .ok handle => authenticate handle plan.profile .resourceMonitor

def ConnectCommand.run (command : ConnectCommand) (requested : Text) : Net Unit := do
  let plan ← resolveSshConnectPlan world requested
  match command with
  | session => runSessionLoop world plan
  | resourceMonitor => runSshResourceMonitor world plan

/-! ## What is wanted -/

/-- The file records the key as the trusted one: it is that of the first record for the host, the
port and the algorithm of the key. -/
def IsTrusted (host : Text) (port : ℕ) (key : Text) : Prop :=
  ∃ content, readKnownHosts world.knownHosts = .ok content ∧
    lookup parseRecord (hostPattern host port, world.algorithm key) (textLines content) = some key

def PinnedOnly (s : NetState) : Prop :=
  ∀ a ∈ s.log, IsTrusted world a.host a.port a.key

/-- The expected key of a host is there, and is trusted. -/
def Pins (profile : ConnectProfile) (expectedHostKey : Option ExpectedHostKey) : Prop :=
  ∃ expected, expectedHostKey = some expected ∧
    IsTrusted world profile.host profile.port expected.publicKeyBase64

end World

variable {world : ConnectWorld}

/-! ## What the steps keep -/

theorem isTrusted_of_match {profile : ConnectProfile} {key : Text} {matched : HostKeyMatch}
    (h : matchHostKey world profile (world.algorithm key) key = .ok matched)
    (htrusted : matched.status = .trusted) : IsTrusted world profile.host profile.port key := by
  unfold matchHostKey matchHostKeyPath at h
  cases hread : readKnownHosts world.knownHosts with
  | error err => rw [hread] at h; cases h
  | ok content =>
    rw [hread] at h
    dsimp only at h
    rw [matchLines_eq] at h
    refine ⟨content, hread, ?_⟩
    unfold judge at h
    split at h
    · cases h
      cases htrusted
    · rename_i lineKey hlookup
      rw [hlookup]
      split at h
      · rename_i heq
        exact congrArg some heq
      · split at h
        · cases h
        · cases h
          cases htrusted

theorem connectStreamWithHandler_keeps {answer : ServerAnswer} {handler : ClientHandler}
    {profile : ConnectProfile} (hpins : Pins world profile handler.expectedHostKey) :
    Effect.Keeps (PinnedOnly world) (connectStreamWithHandler answer handler) fun handle =>
      IsTrusted world profile.host profile.port handle.key := by
  obtain ⟨expected, hexpected, htrusted⟩ := hpins
  unfold connectStreamWithHandler
  split
  · apply Effect.keeps_fail
  · rename_i key _
    split
    · apply Effect.keeps_bind (Q := fun _ => True)
      · apply Effect.keeps_modifyGet
        · intro s hs
          dsimp only
          split <;> exact hs
        · exact fun _ _ => trivial
      · exact fun _ _ => Effect.keeps_fail _
    · rename_i haccepted
      split
      · apply Effect.keeps_fail
      · apply Effect.keeps_pure
        unfold checkServerKey at haccepted
        rw [hexpected] at haccepted
        dsimp only at haccepted
        split at haccepted
        · rename_i heq
          show IsTrusted world profile.host profile.port key
          rw [heq]
          exact htrusted
        · cases haccepted

theorem authenticate_keeps {handle : ClientHandle} {profile : ConnectProfile}
    {purpose : AuthPurpose} (h : IsTrusted world profile.host profile.port handle.key) :
    Effect.Keeps (PinnedOnly world) (authenticate handle profile purpose) fun _ => True := by
  apply Effect.keeps_bind (Q := fun _ => True)
  · apply Effect.keeps_modifyGet
    · intro s hs a ha
      rcases List.mem_append.mp ha with ha | ha
      · exact hs a ha
      · rw [List.mem_singleton.mp ha]
        exact h
    · exact fun _ _ => trivial
  · exact fun _ _ => Effect.keeps_lift fun _ _ => trivial

theorem openStream_keeps : Effect.Keeps (PinnedOnly world) (openStream world) fun _ => True := by
  apply Effect.keeps_bind (Q := fun _ => True)
  · exact Effect.keeps_modifyGet (fun _ hs => hs) fun _ _ => trivial
  · exact fun _ _ => Effect.keeps_lift fun _ _ => trivial

theorem connectJump_keeps {jump : JumpHostProfile}
    (hpins : Pins world jump.profile jump.expectedHostKey) :
    Effect.Keeps (PinnedOnly world) (connectJump world jump) fun _ => True := by
  apply Effect.keeps_bind openStream_keeps
  intro answer _
  apply Effect.keeps_bind (Q := fun handle =>
    IsTrusted world jump.profile.host jump.profile.port handle.key)
  · exact connectStreamWithHandler_keeps hpins
  · intro handle htrusted
    exact authenticate_keeps htrusted

theorem connectJumps_keeps {spec : JumpHostSpec}
    (hpins : ∀ jump ∈ spec, Pins world jump.profile jump.expectedHostKey) :
    Effect.Keeps (PinnedOnly world) (connectJumps world spec) fun _ => True := by
  unfold connectJumps
  split
  · apply Effect.keeps_fail
  · apply Effect.keeps_bind
    · exact Effect.keeps_forM fun jump hmem => connectJump_keeps (hpins jump hmem)
    · exact fun _ _ => openStream_keeps

theorem enforceHostKeyPolicy_keeps {profile : ConnectProfile} {spec : JumpHostSpec}
    (hpolicy : ∀ n policy, world.settings n = .ok policy → policy ≠ .off)
    (hpins : ∀ jump ∈ spec, Pins world jump.profile jump.expectedHostKey) :
    Effect.Keeps (PinnedOnly world) (enforceHostKeyPolicy world profile spec)
      (Pins world profile) := by
  unfold enforceHostKeyPolicy
  apply Effect.keeps_bind (Q := fun _ => True)
  · exact Effect.keeps_modifyGet (fun _ hs => hs) fun _ _ => trivial
  intro n _
  apply Effect.keeps_bind (Effect.keeps_lift (Q := (· ≠ .off)) (hpolicy n))
  intro policy hoff
  rw [if_neg hoff]
  -- the key that is probed is trusted when the probe is judged so
  apply Effect.keeps_bind (Q := fun probe => probe.keyAlgorithm =
    world.algorithm probe.publicKeyBase64)
  · apply Effect.keeps_bind (Q := fun _ => True)
    · refine Effect.Keeps.mono (Effect.keeps_attempt (Q := fun _ => True) ?_) fun _ _ => trivial
      apply Effect.keeps_bind (connectJumps_keeps hpins)
      exact fun _ _ => Effect.keeps_lift fun _ _ => trivial
    · intro result _
      cases result with
      | error err => exact Effect.keeps_fail _
      | ok key => exact Effect.keeps_pure rfl
  intro probe halgorithm
  rw [halgorithm]
  apply Effect.keeps_bind (Effect.keeps_lift (Q := fun matched => matched.status = .trusted →
    IsTrusted world profile.host profile.port probe.publicKeyBase64)
    fun matched hmatched => isTrusted_of_match hmatched)
  intro matched htrusted
  apply Effect.keeps_lift
  intro expectedHostKey hjudge
  have hemit : ∀ err : EngineError,
      (do world.emitRequired; .error err : Except EngineError (Option ExpectedHostKey)) ≠
        .ok expectedHostKey := by
    intro err hok
    obtain ⟨_, -, hok⟩ := bind_eq_ok_iff.mp hok
    cases hok
  unfold judgeProbe at hjudge
  split at hjudge
  · rename_i hstatus
    cases hjudge
    exact ⟨_, rfl, htrusted hstatus⟩
  · cases hjudge
  · cases hjudge
  · exact absurd hjudge (hemit _)
  · exact absurd hjudge (hemit _)
  · exact absurd rfl hoff

/-- **The loop of the plan.** Whoever has been approved stays pinned. -/
theorem approveJumps_keeps
    (hpolicy : ∀ n policy, world.settings n = .ok policy → policy ≠ .off) :
    ∀ (jumps : List ConnectProfile) {spec : JumpHostSpec},
      (∀ jump ∈ spec, Pins world jump.profile jump.expectedHostKey) →
      Effect.Keeps (PinnedOnly world) (approveJumps world spec jumps) fun jumpSpec =>
        ∀ jump ∈ jumpSpec, Pins world jump.profile jump.expectedHostKey
  | [], _, hpins => Effect.keeps_pure hpins
  | jump :: rest, spec, hpins => by
    apply Effect.keeps_bind (enforceHostKeyPolicy_keeps hpolicy hpins)
    intro expectedHostKey hpin
    apply approveJumps_keeps hpolicy rest
    intro other hmem
    rcases List.mem_append.mp hmem with hmem | hmem
    · exact hpins other hmem
    · rw [List.mem_singleton.mp hmem]
      exact hpin

theorem resolveSshConnectPlan_keeps {requested : Text}
    (hpolicy : ∀ n policy, world.settings n = .ok policy → policy ≠ .off) :
    Effect.Keeps (PinnedOnly world) (resolveSshConnectPlan world requested) fun plan =>
      Pins world plan.profile plan.expectedHostKey ∧
        ∀ jump ∈ plan.jumpSpec, Pins world jump.profile jump.expectedHostKey := by
  unfold resolveSshConnectPlan
  apply Effect.keeps_bind (Effect.keeps_lift (Q := fun _ => True) fun _ _ => trivial)
  intro profile _
  apply Effect.keeps_bind (Effect.keeps_lift (Q := fun _ => True) fun _ _ => trivial)
  intro _ _
  apply Effect.keeps_bind (Effect.keeps_lift (Q := fun _ => True) fun _ _ => trivial)
  intro jumps _
  apply Effect.keeps_bind
    (Effect.keeps_forM fun _ _ => Effect.keeps_lift fun _ _ => trivial)
  intro _ _
  apply Effect.keeps_bind (approveJumps_keeps hpolicy jumps (List.forall_mem_nil _))
  intro jumpSpec hpins
  apply Effect.keeps_bind (enforceHostKeyPolicy_keeps hpolicy hpins)
  intro expectedHostKey hpin
  exact Effect.keeps_pure ⟨hpin, hpins⟩

theorem connectSshClient_keeps {plan : SshConnectPlan} {shared : Bool}
    (hpin : Pins world plan.profile plan.expectedHostKey)
    (hpins : ∀ jump ∈ plan.jumpSpec, Pins world jump.profile jump.expectedHostKey) :
    Effect.Keeps (PinnedOnly world)
      (connectSshClient world plan.jumpSpec ⟨plan.expectedHostKey, shared⟩) fun handle =>
        IsTrusted world plan.profile.host plan.profile.port handle.key := by
  apply Effect.keeps_bind (connectJumps_keeps hpins)
  intro answer _
  exact connectStreamWithHandler_keeps hpin

theorem ConnectCommand.run_keeps {command : ConnectCommand} {requested : Text}
    (hpolicy : ∀ n policy, world.settings n = .ok policy → policy ≠ .off) :
    Effect.Keeps (PinnedOnly world) (command.run world requested) fun _ => True := by
  apply Effect.keeps_bind (resolveSshConnectPlan_keeps hpolicy)
  rintro plan ⟨hpin, hpins⟩
  cases command with
  | session =>
    apply Effect.keeps_bind (Effect.keeps_attempt (connectSshClient_keeps hpin hpins))
    intro connection hconnection
    apply Effect.keeps_bind (Q := fun _ => True)
    · exact Effect.keeps_modifyGet (fun _ hs => hs) fun _ _ => trivial
    intro saved _
    cases connection with
    | error err => exact Effect.keeps_fail _
    | ok handle => exact authenticate_keeps (hconnection handle rfl)
  | resourceMonitor =>
    apply Effect.keeps_bind (Effect.keeps_attempt (connectSshClient_keeps hpin hpins))
    intro connection hconnection
    cases connection with
    | error err => exact Effect.keeps_fail _
    | ok handle => exact authenticate_keeps (hconnection handle rfl)

/-! ## The result -/

/-- **Credentials go to pinned hosts.** Whatever the servers present, each authentication of a
command is at a host that is trusted with the key it presented, unless the policy is `off`. -/
theorem pinnedOnly_run {policy : HostKeyPolicy} (hpolicy : policy ≠ .off)
    (hconstant : ∀ n found, world.settings n = .ok found → found = policy)
    (command : ConnectCommand) (requested : Text) :
    PinnedOnly world (command.run world requested .start).2 := by
  refine (ConnectCommand.run_keeps (fun n found hfound => ?_) NetState.start ?_).1
  · rw [hconstant n found hfound]
    exact hpolicy
  · exact fun a ha => absurd ha List.not_mem_nil

/-- A host behind a jump host; both present the key that the file has for them. -/
def sampleWorld : ConnectWorld where
  profiles := .ok [⟨['p'], ['b'], 22, ['u'], .agent, none, none, some [['j']]⟩]
  jumpProfiles := .ok [⟨['j'], ['a'], 22, ['u'], .agent, none, none, none⟩]
  reveal := .ok
  settings _ := .ok .ask
  knownHosts := some (utf8Bytes "a k x\nb k x\n".toList)
  algorithm _ := ['k']
  fingerprint _ := ""
  lineFingerprint _ := .ok ""
  emitRequired := .ok ()
  servers _ := ⟨.ok (), .ok ['x'], .ok (), .ok ()⟩

def sampleProfiles : ConnectProfile × ConnectProfile :=
  (⟨['j'], ['a'], 22, ['u'], .agent, none, none, none⟩,
    ⟨['p'], ['b'], 22, ['u'], .agent, none, none, some [['j']]⟩)

theorem enforceHostKeyPolicy_sample {profile : ConnectProfile} {spec : JumpHostSpec}
    {s t : NetState}
    (hprofile : profile = sampleProfiles.1 ∨ profile = sampleProfiles.2)
    (hprobe : probeHostKey sampleWorld spec s = (.ok ⟨['k'], ['x'], ""⟩, t)) :
    enforceHostKeyPolicy sampleWorld profile spec s = (.ok (some ⟨['x'], ""⟩), t) := by
  have hmatch : matchHostKey sampleWorld profile ['k'] ['x'] = .ok ⟨.trusted, none⟩ := by
    unfold matchHostKey matchHostKeyPath sampleWorld
    dsimp only
    rw [readKnownHosts_utf8Bytes]
    rcases hprofile with rfl | rfl <;> decide
  have hsettings : ∀ f : HostKeyPolicy → Net (Option ExpectedHostKey),
      (Effect.lift (sampleWorld.settings s.opened) >>= f) s = f .ask s := fun _ => rfl
  unfold enforceHostKeyPolicy
  refine (Effect.bind_of_ok (t := s) (a := s.opened) ?_ _).trans ?_
  · rfl
  rw [hsettings, if_neg (nofun : HostKeyPolicy.ask ≠ .off), Effect.bind_of_ok hprobe]
  exact Effect.bind_of_ok (congrArg (·, t) hmatch) _

theorem sampleRun_pinned :
    PinnedOnly sampleWorld (ConnectCommand.session.run sampleWorld ['p'] .start).2 ∧
      (ConnectCommand.session.run sampleWorld ['p'] .start).2.log =
        [⟨.jump, ['a'], 22, ['x']⟩, ⟨.jump, ['a'], 22, ['x']⟩, ⟨.session, ['b'], 22, ['x']⟩] := by
  have hask : HostKeyPolicy.ask ≠ .off := nofun
  refine ⟨pinnedOnly_run hask (fun _ _ h => by cases h; rfl) .session ['p'], ?_⟩
  have hplan : resolveSshConnectPlan sampleWorld ['p'] .start =
      (.ok ⟨sampleProfiles.2, some ⟨['x'], ""⟩, [⟨sampleProfiles.1, some ⟨['x'], ""⟩⟩]⟩,
        ⟨3, [⟨.jump, ['a'], 22, ['x']⟩], none⟩) := by
    have happroved : approveJumps sampleWorld [] [sampleProfiles.1] .start =
        (.ok [⟨sampleProfiles.1, some ⟨['x'], ""⟩⟩], ⟨1, [], none⟩) := by
      unfold approveJumps
      rw [Effect.bind_of_ok (enforceHostKeyPolicy_sample (.inl rfl) rfl)]
      rfl
    unfold resolveSshConnectPlan
    refine (Effect.bind_of_ok (t := .start) (a := sampleProfiles.2) ?_ _).trans ?_
    · rfl
    refine (Effect.bind_of_ok (t := .start) (a := ()) ?_ _).trans ?_
    · rfl
    refine (Effect.bind_of_ok (t := .start) (a := [sampleProfiles.1]) ?_ _).trans ?_
    · rfl
    refine (Effect.bind_of_ok (t := .start) (a := ()) ?_ _).trans ?_
    · rfl
    rw [Effect.bind_of_ok happroved, Effect.bind_of_ok (enforceHostKeyPolicy_sample (.inr rfl) rfl)]
    rfl
  unfold ConnectCommand.run
  rw [Effect.bind_of_ok hplan]
  rfl

end FluxTerm.Ssh
