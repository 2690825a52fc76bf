import FluxTerm.Lib.Machine
import FluxTerm.Lib.Text

/-!
# FluxTerm — the floating list of files

The floating window shows a snapshot of what the main window has, and sends actions back. An action
names entries and paths; the main window adds the session and the directory that it has when the
message arrives.

* **`hits_handled`** — every call hits what the main window had when it handled the action.
* **`sampleRemove_otherSession`** — a session switch before an action arrives.

A session keeps its kind, so the kinds are one function of the ids.
-/

namespace FluxTerm.Window

open FluxTerm.Lib

structure SftpEntry where
  path : Text
  name : Text
  isDir : Bool
  deriving DecidableEq

inductive SessionKind where
  | ssh | localShell | serial
  deriving DecidableEq

/-! ## Messages and calls -/

/-- `FloatingFilesSnapshot`. -/
structure FilesSnapshot where
  activeSessionId : Option ℕ
  isRemoteSession : Bool
  isRemoteConnected : Bool
  currentPath : Text
  entries : List SftpEntry

/-- `FloatingFilesActionMessage`. -/
inductive FilesAction where
  | refresh (path : Option Text)
  | openDir (path : Text)
  | openFile (entry : SftpEntry)
  | upload
  | uploadPaths (paths : List Text)
  | download (entry : SftpEntry)
  | mkdir (name : Text)
  | rename (entry : SftpEntry) (name : Text)
  | remove (entry : SftpEntry)

/-- The calls of the backend. Those on local files have no session. -/
inductive FileCall where
  | localList (path : Text)
  | sftpHome (sessionId : ℕ)
  | sftpList (sessionId : ℕ) (path : Text)
  | sftpResolvePath (sessionId : ℕ) (path : Text)
  | sftpMkdir (sessionId : ℕ) (path : Text)
  | sftpRename (sessionId : ℕ) (source target : Text)
  | sftpRemove (sessionId : ℕ) (path : Text)
  | sftpUploadPaths (sessionId : ℕ) (localPaths : List Text) (remoteDir : Text)
  | sftpDownload (sessionId : ℕ) (remotePath localPath : Text)
  | sftpDownloadDir (sessionId : ℕ) (remotePath localDir : Text)
  | openRemote (sessionId : ℕ) (path : Text)
  | openLocal (path : Text)

inductive FollowUp where
  | nothing
  /-- `refreshList()`. -/
  | refresh
  | listAnswer

inductive Reaction where
  | nothing
  | choose
  | call (call : FileCall) (followUp : FollowUp)

/-! ## Paths -/

def IsBlank (path : Text) : Prop := trimBy isJsWhitespace path = []

instance (path : Text) : Decidable (IsBlank path) := inferInstanceAs (Decidable (_ = _))

def normalizeLocalPath : Text → Text
  | [c, ':'] => if c.isAlpha then [c, ':', '\\'] else [c, ':']
  | path => path

def joinLocalTargetPath (directory name : Text) : Text :=
  let directory := normalizeLocalPath directory
  if directory.getLast? = some '\\' ∨ directory.getLast? = some '/' then directory ++ name
  else directory ++ '\\' :: name

def childPath (directory name : Text) : Text :=
  if directory.getLast? = some '/' then directory ++ name else directory ++ '/' :: name

/-! ## The main window -/

structure FileView where
  path : Text
  entries : List SftpEntry

/-- What `AppShell` and `useSftpState` have in the main window. -/
structure FilesMain where
  sessions : List ℕ
  activeSessionId : Option ℕ
  active_mem : ∀ id, activeSessionId = some id → id ∈ sessions
  /-- The sessions in the state `connected`. -/
  connected : List ℕ
  fileViews : ℕ → FileView
  enabled : Bool
  active : Bool
  unsupported : List ℕ

variable (kind : ℕ → SessionKind)

namespace FilesMain

variable (main : FilesMain)

def activeSession : Option ℕ := main.activeSessionId.filter (· ∈ main.sessions)

def isLocalSession (id : ℕ) : Bool := id ∈ main.sessions && kind id = .localShell

def currentPath : Text := main.activeSessionId.elim [] fun id => (main.fileViews id).path

def entries : List SftpEntry := main.activeSessionId.elim [] fun id => (main.fileViews id).entries

def isRemoteSession : Bool := main.activeSession.any (kind · = .ssh)

def isRemoteConnected : Bool :=
  main.activeSession.any fun id => kind id = .ssh && id ∈ main.connected

def snapshot : FilesSnapshot :=
  ⟨main.activeSessionId, main.isRemoteSession kind, main.isRemoteConnected kind, main.currentPath,
    main.entries⟩

/-- `refreshList`, with the rest of `loadHomePath` for a path that is blank. The states of the
sessions are those of now, the rest is what `main` has had. -/
def refreshList (now : FilesMain) (path : Text) (sessionId : Option ℕ) : Reaction :=
  sessionId.elim .nothing fun id =>
    if now.isLocalSession kind id then .call (.localList (normalizeLocalPath path)) .nothing
    else if !main.enabled || !main.active then .nothing
    else if id ∈ main.unsupported then .nothing
    else if id ∉ now.connected then .nothing
    else if IsBlank path then .call (.sftpHome id) .listAnswer
    else .call (.sftpList id path) .nothing

def openRemoteDir (path : Text) : Reaction :=
  main.activeSessionId.elim .nothing fun id =>
    if main.isLocalSession kind id then main.refreshList kind main path (some id)
    else if !main.enabled || !main.active then .nothing
    else if id ∈ main.unsupported then .nothing
    else .call (.sftpResolvePath id path) .listAnswer

def usable : Option ℕ :=
  main.activeSession.filter fun id => main.enabled || main.isLocalSession kind id

def uploadFile : Reaction := (main.usable kind).elim .nothing fun _ => .choose

def uploadDroppedPaths (paths : List Text) : Reaction :=
  (main.usable kind).elim .nothing fun id =>
    let normalizedPaths := paths.filter (¬IsBlank ·)
    if normalizedPaths.isEmpty then .nothing
    else .call (.sftpUploadPaths id normalizedPaths main.currentPath) .refresh

def downloadFile : Reaction := (main.usable kind).elim .nothing fun _ => .choose

def createFolder (name : Text) : Reaction :=
  (main.usable kind).elim .nothing fun id =>
    if name.isEmpty then .nothing
    else .call (.sftpMkdir id (childPath main.currentPath name)) .refresh

def rename (entry : SftpEntry) (name : Text) : Reaction :=
  (main.usable kind).elim .nothing fun id =>
    if name.isEmpty || name = entry.name then .nothing
    else .call (.sftpRename id entry.path (childPath main.currentPath name)) .refresh

def remove (entry : SftpEntry) : Reaction :=
  (main.usable kind).elim .nothing fun id => .call (.sftpRemove id entry.path) .refresh

def openFile (entry : SftpEntry) : Reaction :=
  main.activeSessionId.elim .nothing fun id =>
    if main.isRemoteConnected kind then .call (.openRemote id entry.path) .nothing
    else .call (.openLocal entry.path) .nothing

/-- `onMainWindowMessage`. -/
def handle : FilesAction → Reaction
  | .refresh path =>
    main.refreshList kind main (path.getD main.currentPath) main.activeSessionId
  | .openDir path => main.openRemoteDir kind path
  | .openFile entry => main.openFile kind entry
  | .upload => main.uploadFile kind
  | .uploadPaths paths => main.uploadDroppedPaths kind paths
  | .download _ => main.downloadFile kind
  | .mkdir name => main.createFolder kind name
  | .rename entry name => main.rename kind entry name
  | .remove entry => main.remove kind entry

/-- The rest of `uploadFile` and `downloadFile`, with the answer of the dialog. -/
def chosen (target : Option Text) : FilesAction → Reaction
  | .upload => main.activeSession.elim .nothing fun id => target.elim .nothing fun file =>
    .call (.sftpUploadPaths id [file] main.currentPath) .refresh
  | .download entry => main.activeSession.elim .nothing fun id => target.elim .nothing fun target =>
    .call (if entry.isDir then .sftpDownloadDir id entry.path target
      else .sftpDownload id entry.path (joinLocalTargetPath target entry.name)) .nothing
  | _ => .nothing

/-- What follows on the answer of a call, which is `none` when it has failed. -/
def follow (now : FilesMain) (answer : Option Text) : FollowUp → Reaction
  | .nothing => .nothing
  | .refresh => answer.elim .nothing fun _ =>
    main.refreshList kind now main.currentPath main.activeSessionId
  | .listAnswer => answer.elim .nothing fun path =>
    main.refreshList kind now path main.activeSessionId

end FilesMain

/-! ## Both windows -/

inductive Stage where
  | choosing
  | calling (followUp : FollowUp)

structure PendingAction where
  shown : FilesSnapshot
  main : FilesMain
  action : FilesAction
  stage : Stage

structure IssuedCall where
  shown : FilesSnapshot
  handled : FilesSnapshot
  action : FilesAction
  call : FileCall

structure FilesWorld where
  main : FilesMain
  /-- `floatingFilesSnapshot`. -/
  shown : FilesSnapshot
  toFloating : List FilesSnapshot
  toMain : List (FilesAction × FilesSnapshot)
  pending : List PendingAction
  log : List IssuedCall

/-- What happens. -/
inductive FilesEvent where
  | openSession (id : ℕ)
  | closeSession (id : ℕ) (active : Option ℕ)
  | switchSession (id : ℕ)
  | connection (id : ℕ) (connected : Bool)
  | listed (id : ℕ) (view : FileView)
  | setSftp (enabled active : Bool)
  | sftpUnsupported (id : ℕ)
  | broadcastSnapshot
  | deliverSnapshot
  | act (action : FilesAction)
  | deliverAction
  | choose (pending : ℕ) (target : Option Text)
  | answer (pending : ℕ) (result : Option Text)

def FilesAction.entry : FilesAction → Option SftpEntry
  | .openFile entry | .download entry | .rename entry _ | .remove entry => some entry
  | _ => none

def FilesAction.IsShown (action : FilesAction) (shown : FilesSnapshot) : Prop :=
  ∀ entry ∈ action.entry, entry ∈ shown.entries

instance (action : FilesAction) (shown : FilesSnapshot) : Decidable (action.IsShown shown) :=
  inferInstanceAs (Decidable (∀ _ ∈ _, _))

namespace FilesMain

def initial : FilesMain where
  sessions := []
  activeSessionId := none
  active_mem _ h := nomatch h
  connected := []
  fileViews _ := ⟨[], []⟩
  enabled := true
  active := true
  unsupported := []

variable (main : FilesMain)

def openSession (id : ℕ) : FilesMain :=
  { main with
    sessions := main.sessions ++ [id]
    activeSessionId := some id
    active_mem _ h := Option.some.inj h ▸ List.mem_append_right _ (List.mem_singleton_self id) }

/-- The active session becomes `active`, if it is among those that are left. -/
def closeSession (id : ℕ) (active : Option ℕ) : FilesMain :=
  { main with
    sessions := main.sessions.filter (· ≠ id)
    activeSessionId := active.filter (· ∈ main.sessions.filter (· ≠ id))
    active_mem _ h := of_decide_eq_true (Option.filter_eq_some_iff.mp h).2
    connected := main.connected.filter (· ≠ id) }

def switchSession (id : ℕ) : FilesMain :=
  if hmem : id ∈ main.sessions then
    { main with activeSessionId := some id, active_mem _ h := Option.some.inj h ▸ hmem }
  else main

end FilesMain

namespace FilesWorld

variable (s : FilesWorld)

def perform (shown : FilesSnapshot) (main : FilesMain) (action : FilesAction) :
    Reaction → FilesWorld
  | .nothing => s
  | .choose => { s with pending := s.pending ++ [⟨shown, main, action, .choosing⟩] }
  | .call call followUp => { s with
      pending := s.pending ++ [⟨shown, main, action, .calling followUp⟩]
      log := s.log ++ [⟨shown, main.snapshot kind, action, call⟩] }

/-- One step. -/
def next : FilesEvent → Option FilesWorld
  | .openSession id => some { s with main := s.main.openSession id }
  | .closeSession id active => some { s with main := s.main.closeSession id active }
  | .switchSession id => some { s with main := s.main.switchSession id }
  | .connection id connected => some { s with main := { s.main with
      connected := if connected then id :: s.main.connected
        else s.main.connected.filter (· ≠ id) } }
  | .listed id view => some { s with main := { s.main with
      fileViews := Function.update s.main.fileViews id view } }
  | .setSftp enabled active => some { s with main := { s.main with enabled, active } }
  | .sftpUnsupported id => some { s with main := { s.main with
      unsupported := id :: s.main.unsupported } }
  | .broadcastSnapshot => some { s with toFloating := s.toFloating ++ [s.main.snapshot kind] }
  | .deliverSnapshot =>
    match s.toFloating with
    | [] => none
    | shown :: toFloating => some { s with shown, toFloating }
  | .act action =>
    if action.IsShown s.shown then some { s with toMain := s.toMain ++ [(action, s.shown)] }
    else none
  | .deliverAction =>
    match s.toMain with
    | [] => none
    | (action, shown) :: toMain => some
      ({ s with toMain }.perform kind shown s.main action (s.main.handle kind action))
  | .choose i target => (s.pending[i]?).bind fun p =>
    match p.stage with
    | .choosing => some ({ s with pending := s.pending.eraseIdx i }.perform kind p.shown p.main
        p.action (p.main.chosen target p.action))
    | .calling _ => none
  | .answer i result => (s.pending[i]?).bind fun p =>
    match p.stage with
    | .choosing => none
    | .calling followUp => some ({ s with pending := s.pending.eraseIdx i }.perform kind p.shown
        p.main p.action (p.main.follow kind s.main result followUp))

def start : FilesWorld :=
  ⟨.initial, ⟨none, false, false, [], []⟩, [], [], [], []⟩

end FilesWorld

def filesMachine : Machine FilesWorld FilesEvent := .ofStep .start (FilesWorld.next kind)

/-! ## What an action may call -/

namespace FileCall

def sessionId : FileCall → Option ℕ
  | .localList _ | .openLocal _ => none
  | .sftpHome id | .sftpList id _ | .sftpResolvePath id _ | .sftpMkdir id _ | .sftpRename id _ _
  | .sftpRemove id _ | .sftpUploadPaths id _ _ | .sftpDownload id _ _ | .sftpDownloadDir id _ _
  | .openRemote id _ => some id

def Lists (path : Text) : FileCall → Prop
  | .localList listed => listed = normalizeLocalPath path
  | .sftpList _ listed => listed = path
  | .sftpHome _ => IsBlank path
  | _ => False

def Shows (path : Text) (call : FileCall) : Prop :=
  call.Lists path ∨ (IsBlank path ∧ ∃ home, call.Lists home)

/-- The call goes to the session of the view, or to local files if that is not an SSH session that
is connected. -/
def AppliesTo (view : FilesSnapshot) (call : FileCall) : Prop :=
  view.activeSessionId.isSome = true ∧
    call.sessionId.elim (view.isRemoteConnected = false) fun id => view.activeSessionId = some id

/-- The paths of the call are those of the action in the directory. -/
def Names (directory : Text) : FilesAction → FileCall → Prop
  | .openFile entry, .openRemote _ path => path = entry.path
  | .openFile entry, .openLocal path => path = entry.path
  | .openFile _, _ => False
  | .download entry, .sftpDownload _ path _ => path = entry.path
  | .download entry, .sftpDownloadDir _ path _ => path = entry.path
  | .download _, _ => False
  | .refresh path, call => call.Shows (path.getD directory)
  | .openDir path, .sftpResolvePath _ asked => asked = path
  | .openDir path, call =>
    call.Lists path ∨ (call.sessionId.isSome = true ∧ ∃ resolved, call.Lists resolved)
  | .upload, .sftpUploadPaths _ _ remoteDir => remoteDir = directory
  | .uploadPaths paths, .sftpUploadPaths _ localPaths remoteDir =>
    (∀ path ∈ localPaths, path ∈ paths) ∧ remoteDir = directory
  | .mkdir name, .sftpMkdir _ path => path = childPath directory name
  | .rename entry name, .sftpRename _ source target =>
    source = entry.path ∧ target = childPath directory name
  | .remove entry, .sftpRemove _ path => path = entry.path
  | _, call => call.Shows directory

def Hits (view : FilesSnapshot) (action : FilesAction) (call : FileCall) : Prop :=
  call.AppliesTo view ∧ call.Names view.currentPath action

end FileCall

/-- The session, its directory and its connection are the same. -/
def FilesSnapshot.SameView (view other : FilesSnapshot) : Prop :=
  view.activeSessionId = other.activeSessionId ∧ view.currentPath = other.currentPath ∧
    view.isRemoteConnected = other.isRemoteConnected

theorem FileCall.Hits.of_sameView {view other : FilesSnapshot} {action : FilesAction}
    {call : FileCall} (h : call.Hits view action) (hsame : view.SameView other) :
    call.Hits other action := by
  obtain ⟨hsession, hpath, hremote⟩ := hsame
  unfold FileCall.Hits FileCall.AppliesTo at *
  rw [← hsession, ← hpath, ← hremote]
  exact h

/-! ## The main window reacts -/

def FilesAction.Asks : FilesAction → Prop
  | .upload | .download _ => True
  | _ => False

def FilesAction.Refreshes : FilesAction → Prop
  | .upload | .uploadPaths _ | .mkdir _ | .rename _ _ | .remove _ => True
  | _ => False

def FollowUp.Suits (main : FilesMain) (action : FilesAction) : FollowUp → Prop
  | .nothing => True
  | .refresh => action.Refreshes
  | .listAnswer => ∀ call : FileCall,
    (∀ id, main.activeSessionId = some id → kind id ≠ .localShell → call.sessionId = some id) →
      ∀ path, call.Lists path → call.Names main.currentPath action

def Reaction.Hits (main : FilesMain) (action : FilesAction) : Reaction → Prop
  | .nothing => True
  | .choose => action.Asks
  | .call made followUp => made.Hits (main.snapshot kind) action ∧ followUp.Suits kind main action

namespace FilesMain

variable {kind} {main now : FilesMain} {action : FilesAction} {id : ℕ}

theorem usable_eq_some (h : main.usable kind = some id) : main.activeSessionId = some id := by
  have hactive := (Option.filter_eq_some_iff.mp h).1
  exact (Option.filter_eq_some_iff.mp hactive).1

theorem activeSession_eq_some (h : main.activeSession = some id) : main.activeSessionId = some id :=
  (Option.filter_eq_some_iff.mp h).1

theorem isRemoteConnected_of_localShell (hactive : main.activeSessionId = some id)
    (hkind : kind id = .localShell) : main.isRemoteConnected kind = false := by
  cases hremote : main.isRemoteConnected kind with
  | false => rfl
  | true =>
    unfold isRemoteConnected at hremote
    cases hsession : main.activeSession with
    | none =>
      rw [hsession] at hremote
      cases hremote
    | some other =>
      have hid := activeSession_eq_some hsession
      rw [hactive] at hid
      cases hid
      rw [hsession, Option.any_some, hkind] at hremote
      cases hremote

theorem refreshList_hits {path : Text}
    (hlisted : ∀ call : FileCall,
      (∀ id, main.activeSessionId = some id → kind id ≠ .localShell → call.sessionId = some id) →
        call.Lists path → call.Names main.currentPath action)
    (hblank : IsBlank path → FollowUp.listAnswer.Suits kind main action) :
    (main.refreshList kind now path main.activeSessionId).Hits kind main action := by
  cases hactive : main.activeSessionId with
  | none => exact trivial
  | some id =>
    have happlies : ∀ call : FileCall, call.sessionId = some id →
        call.AppliesTo (main.snapshot kind) := by
      intro call hcall
      unfold FileCall.AppliesTo
      rw [hcall]
      show main.activeSessionId.isSome = true ∧ main.activeSessionId = some id
      exact ⟨hactive ▸ rfl, hactive⟩
    have hremote : ∀ call : FileCall, call.sessionId = some id → ∀ other,
        main.activeSessionId = some other → kind other ≠ .localShell →
          call.sessionId = some other := by
      intro call hcall other hother _
      rw [hcall, ← hother, hactive]
    show Reaction.Hits kind main action (refreshList kind main now path (some id))
    unfold refreshList
    dsimp only [Option.elim]
    split
    · rename_i hlocal
      have hkind : kind id = .localShell := by
        unfold isLocalSession at hlocal
        rw [Bool.and_eq_true, decide_eq_true_iff, decide_eq_true_iff] at hlocal
        exact hlocal.2
      refine ⟨⟨⟨?_, ?_⟩, ?_⟩, trivial⟩
      · show main.activeSessionId.isSome = true
        rw [hactive]
        rfl
      · exact isRemoteConnected_of_localShell hactive hkind
      · refine hlisted _ (fun other hother hne => absurd ?_ hne) rfl
        rw [hactive] at hother
        cases hother
        exact hkind
    · split
      · exact trivial
      · split
        · exact trivial
        · split
          · exact trivial
          · split
            · rename_i hpath
              exact ⟨⟨happlies _ rfl, hlisted _ (hremote _ rfl) hpath⟩, hblank hpath⟩
            · exact ⟨⟨happlies _ rfl, hlisted _ (hremote _ rfl) rfl⟩, trivial⟩

theorem names_of_shows {directory : Text} {call : FileCall} (hrefreshes : action.Refreshes)
    (h : call.Shows directory) : call.Names directory action := by
  -- a listing is none of the changes
  have hlists : ∃ path, call.Lists path := h.elim (fun h => ⟨directory, h⟩) (·.2)
  cases action with
  | upload | uploadPaths =>
    cases call with
    | sftpUploadPaths => exact hlists.elim fun _ hfalse => hfalse.elim
    | _ => exact h
  | mkdir name =>
    cases call with
    | sftpMkdir => exact hlists.elim fun _ hfalse => hfalse.elim
    | _ => exact h
  | rename entry name =>
    cases call with
    | sftpRename => exact hlists.elim fun _ hfalse => hfalse.elim
    | _ => exact h
  | remove entry =>
    cases call with
    | sftpRemove => exact hlists.elim fun _ hfalse => hfalse.elim
    | _ => exact h
  | _ => exact hrefreshes.elim

theorem usable_appliesTo {call : FileCall} (h : main.usable kind = some id)
    (hcall : call.sessionId = some id) : call.AppliesTo (main.snapshot kind) := by
  have hactive := usable_eq_some h
  unfold FileCall.AppliesTo
  rw [hcall]
  show main.activeSessionId.isSome = true ∧ main.activeSessionId = some id
  exact ⟨hactive ▸ rfl, hactive⟩

theorem openRemoteDir_hits (path : Text) :
    (main.openRemoteDir kind path).Hits kind main (.openDir path) := by
  cases hactive : main.activeSessionId with
  | none =>
    unfold openRemoteDir
    rw [hactive]
    exact trivial
  | some id =>
    unfold openRemoteDir
    rw [hactive]
    dsimp only [Option.elim]
    have hnames : ∀ call : FileCall, (call.Lists path ∨
        (call.sessionId.isSome = true ∧ ∃ resolved, call.Lists resolved)) →
          call.Names main.currentPath (.openDir path) := by
      intro call hlists
      cases call with
      | sftpResolvePath => exact hlists.elim False.elim fun ⟨_, _, hfalse⟩ => hfalse.elim
      | _ => exact hlists
    -- for an SSH session, what is listed is what the backend has answered
    have hanswer : kind id ≠ .localShell → FollowUp.listAnswer.Suits kind main (.openDir path) := by
      intro hkind call hsession resolved hlists
      refine hnames call (.inr ⟨?_, resolved, hlists⟩)
      rw [hsession id hactive hkind]
      rfl
    split
    · rename_i hlocal
      have hlist : ∀ call : FileCall, call.Lists path →
          call.Names main.currentPath (.openDir path) :=
        fun call hlists => hnames call (.inl hlists)
      unfold refreshList
      dsimp only [Option.elim]
      rw [if_pos hlocal]
      have hkind : kind id = .localShell := by
        unfold isLocalSession at hlocal
        rw [Bool.and_eq_true, decide_eq_true_iff, decide_eq_true_iff] at hlocal
        exact hlocal.2
      refine ⟨⟨⟨?_, isRemoteConnected_of_localShell hactive hkind⟩, hlist _ rfl⟩, trivial⟩
      show main.activeSessionId.isSome = true
      rw [hactive]
      rfl
    · rename_i hlocal
      have hkind : kind id ≠ .localShell := by
        intro hkind
        apply hlocal
        unfold isLocalSession
        rw [hkind, decide_eq_true (main.active_mem id hactive)]
        rfl
      split
      · exact trivial
      · split
        · exact trivial
        · refine ⟨⟨⟨?_, hactive⟩, rfl⟩, hanswer hkind⟩
          show main.activeSessionId.isSome = true
          rw [hactive]
          rfl

theorem openFile_hits (entry : SftpEntry) :
    (main.openFile kind entry).Hits kind main (.openFile entry) := by
  unfold openFile
  cases hactive : main.activeSessionId with
  | none => exact trivial
  | some id =>
    have hsome : main.activeSessionId.isSome = true := by
      rw [hactive]
      rfl
    dsimp only [Option.elim]
    split
    · exact ⟨⟨⟨hsome, hactive⟩, rfl⟩, trivial⟩
    · rename_i hremote
      exact ⟨⟨⟨hsome, Bool.eq_false_iff.mpr hremote⟩, rfl⟩, trivial⟩

theorem handle_hits (action : FilesAction) : (main.handle kind action).Hits kind main action := by
  cases action with
  | refresh path =>
    apply refreshList_hits
    · exact fun call _ hlists => .inl hlists
    · exact fun hblank call _ home hlists => .inr ⟨hblank, home, hlists⟩
  | openDir path => exact openRemoteDir_hits path
  | openFile entry => exact openFile_hits entry
  | upload =>
    show Reaction.Hits kind main _ (main.uploadFile kind)
    unfold uploadFile
    cases main.usable kind <;> exact trivial
  | download entry =>
    show Reaction.Hits kind main _ (main.downloadFile kind)
    unfold downloadFile
    cases main.usable kind <;> exact trivial
  | uploadPaths paths =>
    show Reaction.Hits kind main _ (main.uploadDroppedPaths kind paths)
    unfold uploadDroppedPaths
    cases husable : main.usable kind with
    | none => exact trivial
    | some id =>
      dsimp only [Option.elim]
      split
      · exact trivial
      · refine ⟨⟨usable_appliesTo husable rfl, ?_, rfl⟩, trivial⟩
        exact fun path hpath => List.mem_of_mem_filter hpath
  | mkdir name =>
    show Reaction.Hits kind main _ (main.createFolder kind name)
    unfold createFolder
    cases husable : main.usable kind with
    | none => exact trivial
    | some id =>
      dsimp only [Option.elim]
      split
      · exact trivial
      · exact ⟨⟨usable_appliesTo husable rfl, rfl⟩, trivial⟩
  | rename entry name =>
    show Reaction.Hits kind main _ (main.rename kind entry name)
    unfold rename
    cases husable : main.usable kind with
    | none => exact trivial
    | some id =>
      dsimp only [Option.elim]
      split
      · exact trivial
      · exact ⟨⟨usable_appliesTo husable rfl, rfl, rfl⟩, trivial⟩
  | remove entry =>
    show Reaction.Hits kind main _ (main.remove kind entry)
    unfold remove
    cases husable : main.usable kind with
    | none => exact trivial
    | some id => exact ⟨⟨usable_appliesTo husable rfl, rfl⟩, trivial⟩

theorem chosen_hits (target : Option Text) (action : FilesAction) :
    (main.chosen target action).Hits kind main action := by
  have happlies : ∀ id, main.activeSession = some id → ∀ call : FileCall,
      call.sessionId = some id → call.AppliesTo (main.snapshot kind) := by
    intro id hsession call hcall
    have hactive := activeSession_eq_some hsession
    unfold FileCall.AppliesTo
    rw [hcall]
    show main.activeSessionId.isSome = true ∧ main.activeSessionId = some id
    exact ⟨hactive ▸ rfl, hactive⟩
  unfold chosen
  cases action with
  | upload =>
    cases hsession : main.activeSession with
    | none => exact trivial
    | some id =>
      cases target with
      | none => exact trivial
      | some file => exact ⟨⟨happlies id hsession _ rfl, rfl⟩, trivial⟩
  | download entry =>
    cases hsession : main.activeSession with
    | none => exact trivial
    | some id =>
      cases target with
      | none => exact trivial
      | some target =>
        dsimp only [Option.elim]
        split
        · exact ⟨⟨happlies id hsession _ rfl, rfl⟩, trivial⟩
        · exact ⟨⟨happlies id hsession _ rfl, rfl⟩, trivial⟩
  | _ => exact trivial

theorem follow_hits (answer : Option Text) {followUp : FollowUp}
    (h : followUp.Suits kind main action) :
    (main.follow kind now answer followUp).Hits kind main action := by
  unfold follow
  cases answer with
  | none => cases followUp <;> exact trivial
  | some path =>
    cases followUp with
    | nothing => exact trivial
    | refresh =>
      apply refreshList_hits
      · exact fun call _ hlists => names_of_shows h (.inl hlists)
      · exact fun hblank call _ home hlists => names_of_shows h (.inr ⟨hblank, home, hlists⟩)
    | listAnswer =>
      apply refreshList_hits
      · exact fun call hsession hlists => h call hsession path hlists
      · exact fun _ => h

end FilesMain

/-! ## Runs -/

namespace FilesWorld

variable {kind} {s t : FilesWorld}

/-- A call hits what the main window has had. If that was what the floating window showed, it hits
what was shown. -/
def HitsHandled (issued : IssuedCall) : Prop :=
  issued.action.IsShown issued.shown ∧ issued.call.Hits issued.handled issued.action ∧
    (issued.handled.SameView issued.shown → issued.call.Hits issued.shown issued.action)

structure Aimed (kind : ℕ → SessionKind) (s : FilesWorld) : Prop where
  sent : ∀ message ∈ s.toMain, message.1.IsShown message.2
  shown : ∀ p ∈ s.pending, p.action.IsShown p.shown
  suits : ∀ p ∈ s.pending, ∀ followUp, p.stage = .calling followUp →
    followUp.Suits kind p.main p.action
  log : ∀ issued ∈ s.log, HitsHandled issued

theorem Aimed.mono (h : s.Aimed kind) (htoMain : ∀ message ∈ t.toMain, message ∈ s.toMain)
    (hpending : ∀ p ∈ t.pending, p ∈ s.pending) (hlog : t.log = s.log) : t.Aimed kind where
  sent message hmem := h.sent message (htoMain message hmem)
  shown p hmem := h.shown p (hpending p hmem)
  suits p hmem := h.suits p (hpending p hmem)
  log := hlog ▸ h.log

theorem Aimed.perform {shown : FilesSnapshot} {main : FilesMain} {action : FilesAction}
    {reaction : Reaction} (h : s.Aimed kind) (hshown : action.IsShown shown)
    (hhits : reaction.Hits kind main action) :
    (s.perform kind shown main action reaction).Aimed kind := by
  have hadd : ∀ stage, ∀ p ∈ s.pending ++ [⟨shown, main, action, stage⟩],
      p ∈ s.pending ∨ p = ⟨shown, main, action, stage⟩ := by
    intro stage p hmem
    rcases List.mem_append.mp hmem with hmem | hmem
    · exact .inl hmem
    · exact .inr (List.mem_singleton.mp hmem)
  have hallShown : ∀ stage, ∀ p ∈ s.pending ++ [⟨shown, main, action, stage⟩],
      p.action.IsShown p.shown := by
    intro stage p hmem
    rcases hadd stage p hmem with hmem | rfl
    · exact h.shown p hmem
    · exact hshown
  cases reaction with
  | nothing => exact h
  | choose =>
    refine ⟨h.sent, hallShown _, ?_, h.log⟩
    intro p hmem followUp hstage
    rcases hadd _ p hmem with hmem | rfl
    · exact h.suits p hmem followUp hstage
    · cases hstage
  | call made followUp =>
    obtain ⟨hcall, hsuits⟩ := hhits
    refine ⟨h.sent, hallShown _, ?_, ?_⟩
    · intro p hmem other hstage
      rcases hadd _ p hmem with hmem | rfl
      · exact h.suits p hmem other hstage
      · cases hstage
        exact hsuits
    · intro issued hmem
      rcases List.mem_append.mp hmem with hmem | hmem
      · exact h.log issued hmem
      · cases List.mem_singleton.mp hmem
        exact ⟨hshown, hcall, hcall.of_sameView⟩

theorem Aimed.next {event : FilesEvent} (h : s.Aimed kind) (hstep : s.next kind event = some t) :
    t.Aimed kind := by
  -- a step of the main window on its own
  have hmain : ∀ main, { s with main }.Aimed kind := fun _ => ⟨h.sent, h.shown, h.suits, h.log⟩
  have herase : ∀ i, { s with pending := s.pending.eraseIdx i }.Aimed kind := fun i =>
    h.mono (fun _ hmem => hmem) (fun _ hmem => List.mem_of_mem_eraseIdx hmem) rfl
  cases event with
  | openSession id =>
    cases hstep
    exact hmain _
  | closeSession id active =>
    cases hstep
    exact hmain _
  | switchSession id =>
    cases hstep
    exact hmain _
  | connection id connected =>
    cases hstep
    exact hmain _
  | listed id view =>
    cases hstep
    exact hmain _
  | setSftp enabled active =>
    cases hstep
    exact hmain _
  | sftpUnsupported id =>
    cases hstep
    exact hmain _
  | broadcastSnapshot =>
    cases hstep
    exact ⟨h.sent, h.shown, h.suits, h.log⟩
  | deliverSnapshot =>
    unfold FilesWorld.next at hstep
    dsimp only at hstep
    split at hstep
    · cases hstep
    · cases hstep
      exact ⟨h.sent, h.shown, h.suits, h.log⟩
  | act action =>
    unfold FilesWorld.next at hstep
    dsimp only at hstep
    split at hstep
    · rename_i hshown
      cases hstep
      refine ⟨?_, h.shown, h.suits, h.log⟩
      intro message hmem
      rcases List.mem_append.mp hmem with hmem | hmem
      · exact h.sent message hmem
      · cases List.mem_singleton.mp hmem
        exact hshown
    · cases hstep
  | deliverAction =>
    unfold FilesWorld.next at hstep
    dsimp only at hstep
    split at hstep
    · cases hstep
    · rename_i action shown toMain hmessages
      cases hstep
      have hhead : action.IsShown shown := by
        apply h.sent (action, shown)
        rw [hmessages]
        exact List.mem_cons_self
      refine Aimed.perform (h.mono ?_ (fun _ hmem => hmem) rfl) hhead (s.main.handle_hits action)
      intro message hmem
      rw [hmessages]
      exact List.mem_cons_of_mem _ hmem
  | choose i target =>
    obtain ⟨p, hp, hstep⟩ := Option.bind_eq_some_iff.mp hstep
    split at hstep
    · cases hstep
      exact (herase i).perform (h.shown p (List.mem_of_getElem? hp)) (p.main.chosen_hits _ _)
    · cases hstep
  | answer i result =>
    obtain ⟨p, hp, hstep⟩ := Option.bind_eq_some_iff.mp hstep
    have hmem := List.mem_of_getElem? hp
    split at hstep
    · cases hstep
    · rename_i followUp hstage
      cases hstep
      exact (herase i).perform (h.shown p hmem)
        (p.main.follow_hits result (h.suits p hmem followUp hstage))

end FilesWorld

/-! ## The result -/

variable {kind}

/-- **A floating action hits what the main window had when it handled the action**: each call that
results, at once or later, goes to the session that was active then, and its paths are the action's
in the directory of then. If the floating window showed the same session and directory, the call
hits what was shown. -/
theorem hits_handled {s : FilesWorld} (h : (filesMachine kind).Reachable s) :
    ∀ issued ∈ s.log, FilesWorld.HitsHandled issued := by
  have haimed : s.Aimed kind := by
    refine h.induct (fun s hs => ?_) fun s event t _ haimed hstep => haimed.next hstep
    have hnone : ∀ {α : Type} {p : α → Prop}, ∀ x ∈ ([] : List α), p x :=
      fun x hx => absurd hx List.not_mem_nil
    rw [hs]
    exact ⟨hnone, hnone, hnone, hnone⟩
  exact haimed.log

def sampleEntry : SftpEntry := ⟨"/srv/a".toList, "a".toList, false⟩

def sampleShown : List FilesEvent :=
  [.openSession 1, .connection 1 true, .listed 1 ⟨"/srv".toList, [sampleEntry]⟩, .openSession 2,
    .connection 2 true, .switchSession 1, .broadcastSnapshot, .deliverSnapshot]

/-- A file is renamed in the directory that is shown. -/
theorem sampleRename_hits : ∃ s : FilesWorld, (∀ issued ∈ s.log, FilesWorld.HitsHandled issued) ∧
    s.log.map (·.call) = [.sftpRename 1 "/srv/a".toList "/srv/b".toList,
      .sftpList 1 "/srv".toList] := by
  have hrun : ∃ s, Machine.exec (FilesWorld.next fun _ => .ssh) .start
        (sampleShown ++ [.act (.rename sampleEntry "b".toList), .deliverAction,
          .answer 0 (some [])]) = some s ∧
      s.log.map (·.call) = [.sftpRename 1 "/srv/a".toList "/srv/b".toList,
        .sftpList 1 "/srv".toList] := ⟨_, rfl, rfl⟩
  obtain ⟨s, hexec, hlog⟩ := hrun
  exact ⟨s, hits_handled (Machine.reachable_exec hexec), hlog⟩

/-- The session that is shown is closed before the action arrives: the file of that path is removed
on the server of another session. -/
theorem sampleRemove_otherSession : ∃ s : FilesWorld,
    (filesMachine fun _ => .ssh).Reachable s ∧ ∃ issued ∈ s.log,
      issued.call = .sftpRemove 2 "/srv/a".toList ∧ issued.shown.activeSessionId = some 1 ∧
        ¬issued.call.Hits issued.shown issued.action := by
  have hrun : ∃ s, Machine.exec (FilesWorld.next fun _ => .ssh) .start
        (sampleShown ++ [.act (.remove sampleEntry), .closeSession 1 (some 2),
          .deliverAction]) = some s ∧
      ∃ issued, s.log = [issued] ∧ issued.call = .sftpRemove 2 "/srv/a".toList ∧
        issued.shown.activeSessionId = some 1 := ⟨_, rfl, _, rfl, rfl, rfl⟩
  obtain ⟨s, hexec, issued, hlog, hcall, hshown⟩ := hrun
  refine ⟨s, Machine.reachable_exec hexec, issued, ?_, hcall, hshown, fun hhits => ?_⟩
  · rw [hlog]
    exact List.mem_singleton_self issued
  · obtain ⟨⟨-, hsession⟩, -⟩ := hhits
    rw [hcall] at hsession
    change issued.shown.activeSessionId = some 2 at hsession
    rw [hshown] at hsession
    cases hsession

end FluxTerm.Window
