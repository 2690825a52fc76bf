import FluxTerm.Lib.Machine
import FluxTerm.Lib.Text
import FluxTerm.Lib.Workers

/-!
# FluxTerm — backend sessions of several windows

Each window runs `AppShell` with `useAppSettings` and `useSessionController` of its own. A session
that the backend has created is in the `sessions` of the window whose call has created it.

* **`CallsFromMain`** — the condition; **`seenInMain_of_callsFromMain`** — the result on runs.
* **`sampleEvents_opensShell`** — a floating list of events that opens a shell.

Reconnecting and cancelling belong to the window that has the session, and are left out.
-/

namespace FluxTerm.Window

open FluxTerm.Lib

inductive WidgetKey where
  | profiles | serial | files | transfers | events | history | ai | tunnels | broadcast
  deriving DecidableEq

inductive ConnectCall (Profile SerialProfile : Type) where
  | ssh (profile : Profile)
  | localShell (shellId : Option Text)
  | serial (profile : SerialProfile)

variable {Profile SerialProfile : Type}

/-! ## A window -/

/-- `AppShell`, as far as sessions are concerned. -/
structure SessionWindow where
  /-- `none` in the main window. -/
  floatingWidgetKey : Option WidgetKey
  isOpen : Bool
  settingsLoaded : Bool
  pendingShellId : Option Text
  shellId : Option Text
  availableShells : List Text
  localShellStarted : Bool
  sessions : List ℕ

namespace SessionWindow

def opened (floatingWidgetKey : Option WidgetKey) : SessionWindow :=
  ⟨floatingWidgetKey, true, false, none, none, [], false, []⟩

variable (window : SessionWindow)

def Shows (widget : WidgetKey) : Prop :=
  window.floatingWidgetKey = none ∨ window.floatingWidgetKey = some widget

instance (widget : WidgetKey) : Decidable (window.Shows widget) :=
  inferInstanceAs (Decidable (_ ∨ _))

def resolveDefaultShellId (shells : List Text) : Option Text :=
  (shells.find? (· = "powershell".toList)).or shells.head?

def refreshAvailableShells (shells : List Text) : SessionWindow :=
  let preferred := window.shellId.or window.pendingShellId
  { window with
    availableShells := shells
    shellId := (preferred.filter (· ∈ shells)).or (resolveDefaultShellId shells) }

def initializeFailed : SessionWindow := { window with availableShells := [], shellId := none }

/-- The shell that the call of `connectLocalShell` names. -/
def connectLocalShell (shell : Option Text) : Option Text :=
  let resolvedShellId := shell.or window.shellId
  let resolvedShell := shell.or (window.availableShells.find? (some · = resolvedShellId))
  resolvedShell.or window.shellId

def initialShell : SessionWindow × Option (Option Text) :=
  if !window.settingsLoaded || window.localShellStarted then (window, none)
  else if window.availableShells.isEmpty then (window, none)
  else
    ({ window with localShellStarted := true },
      some (window.connectLocalShell (window.availableShells.find? (some · = window.shellId))))

end SessionWindow

/-! ## The windows and the backend -/

structure ConnectRequest (Profile SerialProfile : Type) where
  /-- The window that has made it. The main window is `none`, a floating one has a number. -/
  window : Option ℕ
  call : ConnectCall Profile SerialProfile
  /-- The response: the session that has been created, or `none` if the call has failed. -/
  answer : Option (Option ℕ)

structure SessionWorld (Profile SerialProfile : Type) where
  main : SessionWindow
  floating : List SessionWindow
  requests : List (ConnectRequest Profile SerialProfile)
  /-- The `serial:connect` messages to the main window. -/
  posted : List SerialProfile
  live : List ℕ
  nextSessionId : ℕ

/-- What happens. -/
inductive SessionEvent (Profile SerialProfile : Type) where
  | openWindow (widget : WidgetKey)
  | closeWindow (window : ℕ)
  | loadSettings (window : Option ℕ) (shellId : Option Text)
  | refreshShells (window : Option ℕ) (shells : List Text)
  | initializeFailed (window : Option ℕ)
  /-- `settingsLoaded` is set. -/
  | ready (window : Option ℕ)
  /-- A profile is opened in the list of hosts, and the checks of `handleConnectProfile` pass. -/
  | connectProfile (window : Option ℕ) (profile : Profile)
  | confirmHostKey (window : Option ℕ) (profile : Profile)
  | connectLocalShell (window : Option ℕ) (shell : Text)
  | connectSerialProfile (window : Option ℕ) (profile : SerialProfile)
  /-- A `serial:connect` message is delivered. -/
  | deliver
  | answer (request : ℕ) (ok : Bool)
  | handle (request : ℕ)
  | exit (sessionId : ℕ)
  | disconnect (window : Option ℕ) (sessionId : ℕ)
  | forget (window : Option ℕ) (sessionId : ℕ)

namespace SessionWorld

variable (s : SessionWorld Profile SerialProfile)

def window : Option ℕ → Option SessionWindow
  | none => some s.main
  | some k => (s.floating[k]?).filter (·.isOpen)

def setWindow (w : Option ℕ) (window : SessionWindow) : SessionWorld Profile SerialProfile :=
  match w with
  | none => { s with main := window }
  | some k => { s with floating := s.floating.set k window }

def issue (w : Option ℕ) (call : ConnectCall Profile SerialProfile) :
    SessionWorld Profile SerialProfile :=
  { s with requests := s.requests ++ [⟨w, call, none⟩] }

def runEffect (w : Option ℕ) (window : SessionWindow) : SessionWorld Profile SerialProfile :=
  let (window, shellId) := window.initialShell
  let s := s.setWindow w window
  shellId.elim s fun shellId => s.issue w (.localShell shellId)

/-- The backend answers the request at `i`. -/
def respond (i : ℕ) (request : ConnectRequest Profile SerialProfile) (ok : Bool) :
    SessionWorld Profile SerialProfile :=
  if ok then
    { s with
      requests := s.requests.set i { request with answer := some (some s.nextSessionId) }
      live := s.live ++ [s.nextSessionId]
      nextSessionId := s.nextSessionId + 1 }
  else { s with requests := s.requests.set i { request with answer := some none } }

def receive (w : Option ℕ) (session : Option ℕ) : SessionWorld Profile SerialProfile :=
  session.elim s fun id => (s.window w).elim s fun window =>
    s.setWindow w { window with sessions := window.sessions ++ [id] }

/-- One step. -/
def next : SessionEvent Profile SerialProfile → Option (SessionWorld Profile SerialProfile)
  | .openWindow widget => some { s with floating := s.floating ++ [.opened (some widget)] }
  | .closeWindow k => (s.window (some k)).map fun window =>
    s.setWindow (some k) { window with isOpen := false }
  | .loadSettings w shellId => (s.window w).map fun window =>
    s.setWindow w { window with pendingShellId := shellId.or window.pendingShellId }
  | .refreshShells w shells => (s.window w).map fun window =>
    s.runEffect w (window.refreshAvailableShells shells)
  | .initializeFailed w => (s.window w).map fun window => s.runEffect w window.initializeFailed
  | .ready w => (s.window w).map fun window =>
    s.runEffect w { window with settingsLoaded := true }
  | .connectProfile w profile => (s.window w).bind fun window =>
    if window.Shows .profiles then some (s.issue w (.ssh profile)) else none
  | .confirmHostKey w profile => (s.window w).map fun _ => s.issue w (.ssh profile)
  | .connectLocalShell w shell => (s.window w).bind fun window =>
    if window.Shows .profiles then
      some (s.issue w (.localShell (window.connectLocalShell (some shell))))
    else none
  | .connectSerialProfile w profile => (s.window w).bind fun window =>
    if window.floatingWidgetKey = some .serial then
      some { s with posted := s.posted ++ [profile] }
    else if window.Shows .serial then some (s.issue w (.serial profile))
    else none
  | .deliver =>
    match s.posted with
    | [] => none
    | profile :: posted => some ({ s with posted }.issue none (.serial profile))
  | .answer i ok => (s.requests[i]?).bind fun request =>
    if request.answer = none then some (s.respond i request ok) else none
  | .handle i => (s.requests[i]?).bind fun request => request.answer.map fun session =>
    { s with requests := s.requests.eraseIdx i }.receive request.window session
  | .exit id => some { s with live := s.live.filter (· ≠ id) }
  | .disconnect w id => (s.window w).bind fun window =>
    if id ∈ window.sessions then some { s with live := s.live.filter (· ≠ id) } else none
  | .forget w id => (s.window w).bind fun window =>
    if id ∈ s.live then none
    else some (s.setWindow w { window with sessions := window.sessions.filter (· ≠ id) })

def start : SessionWorld Profile SerialProfile := ⟨.opened none, [], [], [], [], 0⟩

def SeenInMain : Prop :=
  (∀ request ∈ s.requests, request.answer = none) → ∀ id ∈ s.live, id ∈ s.main.sessions

end SessionWorld

def sessionMachine (Profile SerialProfile : Type) :
    Machine (SessionWorld Profile SerialProfile) (SessionEvent Profile SerialProfile) :=
  .ofStep .start SessionWorld.next

def CallsFromMain (s : SessionWorld Profile SerialProfile) :
    SessionEvent Profile SerialProfile → Prop
  | .answer i true => ∀ request ∈ s.requests[i]?, request.window = none
  | _ => True

instance (s : SessionWorld Profile SerialProfile) (event : SessionEvent Profile SerialProfile) :
    Decidable (CallsFromMain s event) := by
  unfold CallsFromMain
  split <;> infer_instance

/-! ## The invariant -/

namespace SessionWorld

variable {s t : SessionWorld Profile SerialProfile}

/-- The main window has the session, or a response to it says so. -/
def Owned (s : SessionWorld Profile SerialProfile) (id : ℕ) : Prop :=
  id ∈ s.main.sessions ∨
    ∃ request ∈ s.requests, request.window = none ∧ request.answer = some (some id)

def LiveOwned (s : SessionWorld Profile SerialProfile) : Prop := ∀ id ∈ s.live, s.Owned id

theorem LiveOwned.seenInMain (h : s.LiveOwned) : s.SeenInMain := by
  intro hanswered id hid
  rcases h id hid with hmain | ⟨request, hmem, -, hanswer⟩
  · exact hmain
  · rw [hanswered request hmem] at hanswer
    cases hanswer

theorem LiveOwned.mono (h : s.LiveOwned) (hlive : ∀ id ∈ t.live, id ∈ s.live)
    (hmain : ∀ id ∈ t.live, id ∈ s.main.sessions → id ∈ t.main.sessions)
    (hrequests : ∀ request ∈ s.requests, request ∈ t.requests) : t.LiveOwned := by
  intro id hid
  rcases h id (hlive id hid) with hsession | ⟨request, hmem, hrequest⟩
  · exact .inl (hmain id hid hsession)
  · exact .inr ⟨request, hrequests request hmem, hrequest⟩

theorem LiveOwned.setWindow {w : Option ℕ} {window new : SessionWindow} (h : s.LiveOwned)
    (hwindow : s.window w = some window)
    (hsessions : ∀ id ∈ s.live, id ∈ window.sessions → id ∈ new.sessions) :
    (s.setWindow w new).LiveOwned := by
  cases w with
  | none =>
    cases hwindow
    exact h.mono (fun _ hid => hid) hsessions fun _ hmem => hmem
  | some k => exact h.mono (fun _ hid => hid) (fun _ _ hid => hid) fun _ hmem => hmem

theorem LiveOwned.issue (w : Option ℕ) (call : ConnectCall Profile SerialProfile)
    (h : s.LiveOwned) : (s.issue w call).LiveOwned :=
  h.mono (fun _ hid => hid) (fun _ _ hid => hid) fun _ hmem => List.mem_append_left _ hmem

theorem initialShell_sessions (window : SessionWindow) :
    window.initialShell.1.sessions = window.sessions := by
  unfold SessionWindow.initialShell
  split
  · rfl
  · split <;> rfl

theorem LiveOwned.runEffect {w : Option ℕ} {window new : SessionWindow} (h : s.LiveOwned)
    (hwindow : s.window w = some window) (hsessions : new.sessions = window.sessions) :
    (s.runEffect w new).LiveOwned := by
  have hset : (s.setWindow w new.initialShell.1).LiveOwned := by
    apply h.setWindow hwindow
    intro id _ hid
    rw [initialShell_sessions, hsessions]
    exact hid
  unfold SessionWorld.runEffect
  dsimp only
  cases new.initialShell.2 with
  | none => exact hset
  | some shellId => exact hset.issue w _

theorem LiveOwned.respond {i : ℕ} {request : ConnectRequest Profile SerialProfile} {ok : Bool}
    (h : s.LiveOwned) (hrequest : s.requests[i]? = some request) (hanswer : request.answer = none)
    (hmain : ok = true → request.window = none) : (s.respond i request ok).LiveOwned := by
  have hkept : ∀ (new : ConnectRequest Profile SerialProfile) id, s.Owned id →
      id ∈ s.main.sessions ∨ ∃ other ∈ s.requests.set i new,
        other.window = none ∧ other.answer = some (some id) := by
    intro new id howned
    rcases howned with hsession | ⟨other, hmem, hwindow, hother⟩
    · exact .inl hsession
    · rcases mem_set_of_mem (b := new) hrequest hmem with rfl | hmem
      · -- the request had not been answered
        rw [hanswer] at hother
        cases hother
      · exact .inr ⟨other, hmem, hwindow, hother⟩
  unfold SessionWorld.respond
  split
  · rename_i hok
    intro id hid
    rcases List.mem_append.mp hid with hid | hid
    · exact hkept _ id (h id hid)
    · cases List.mem_singleton.mp hid
      refine .inr ⟨{ request with answer := some (some s.nextSessionId) }, ?_, hmain hok, rfl⟩
      exact List.mem_set (List.getElem?_eq_some_iff.mp hrequest).1 _
  · exact fun id hid => hkept _ id (h id hid)

theorem LiveOwned.handle {i : ℕ} {request : ConnectRequest Profile SerialProfile}
    {session : Option ℕ} (h : s.LiveOwned) (hrequest : s.requests[i]? = some request)
    (hanswer : request.answer = some session) :
    ({ s with requests := s.requests.eraseIdx i }.receive request.window session).LiveOwned := by
  have hsplit : ∀ id ∈ s.live, (request.window = none ∧ session = some id) ∨
      id ∈ s.main.sessions ∨ ∃ other ∈ s.requests.eraseIdx i,
        other.window = none ∧ other.answer = some (some id) := by
    intro id hid
    rcases h id hid with hsession | ⟨other, hmem, hother⟩
    · exact .inr (.inl hsession)
    · rcases mem_eraseIdx_of_mem hrequest hmem with rfl | hmem
      · rw [hanswer] at hother
        exact .inl ⟨hother.1, Option.some.inj hother.2⟩
      · exact .inr (.inr ⟨other, hmem, hother⟩)
  cases hw : request.window with
  | none =>
    cases session with
    | none =>
      intro id hid
      rcases hsplit id hid with ⟨-, hnone⟩ | howned
      · cases hnone
      · exact howned
    | some new =>
      intro id hid
      rcases hsplit id hid with ⟨-, hnew⟩ | hsession | hother
      · cases hnew
        exact .inl (List.mem_append_right _ (List.mem_singleton_self _))
      · exact .inl (List.mem_append_left _ hsession)
      · exact .inr hother
  | some k =>
    -- the session of another window
    have hrest : { s with requests := s.requests.eraseIdx i }.LiveOwned := by
      intro id hid
      rcases hsplit id hid with ⟨hnone, -⟩ | howned
      · rw [hw] at hnone
        cases hnone
      · exact howned
    cases session with
    | none => exact hrest
    | some new =>
      show SessionWorld.LiveOwned (Option.elim _ _ _)
      cases hwindow : { s with requests := s.requests.eraseIdx i }.window (some k) with
      | none => exact hrest
      | some window =>
        exact hrest.setWindow hwindow fun _ _ hid => List.mem_append_left _ hid

theorem LiveOwned.next {event : SessionEvent Profile SerialProfile} (h : s.LiveOwned)
    (hguard : CallsFromMain s event) (hstep : s.next event = some t) : t.LiveOwned := by
  cases event with
  | openWindow widget =>
    cases hstep
    exact h.mono (fun _ hid => hid) (fun _ _ hid => hid) fun _ hmem => hmem
  | closeWindow k =>
    obtain ⟨window, hwindow, rfl⟩ := Option.map_eq_some_iff.mp hstep
    exact h.setWindow hwindow fun _ _ hid => hid
  | loadSettings w shellId =>
    obtain ⟨window, hwindow, rfl⟩ := Option.map_eq_some_iff.mp hstep
    exact h.setWindow hwindow fun _ _ hid => hid
  | refreshShells w shells =>
    obtain ⟨window, hwindow, rfl⟩ := Option.map_eq_some_iff.mp hstep
    exact h.runEffect hwindow rfl
  | initializeFailed w =>
    obtain ⟨window, hwindow, rfl⟩ := Option.map_eq_some_iff.mp hstep
    exact h.runEffect hwindow rfl
  | ready w =>
    obtain ⟨window, hwindow, rfl⟩ := Option.map_eq_some_iff.mp hstep
    exact h.runEffect hwindow rfl
  | connectProfile w profile =>
    obtain ⟨window, -, hstep⟩ := Option.bind_eq_some_iff.mp hstep
    split at hstep
    · cases hstep
      exact h.issue w _
    · cases hstep
  | confirmHostKey w profile =>
    obtain ⟨window, -, rfl⟩ := Option.map_eq_some_iff.mp hstep
    exact h.issue w _
  | connectLocalShell w shell =>
    obtain ⟨window, -, hstep⟩ := Option.bind_eq_some_iff.mp hstep
    split at hstep
    · cases hstep
      exact h.issue w _
    · cases hstep
  | connectSerialProfile w profile =>
    obtain ⟨window, -, hstep⟩ := Option.bind_eq_some_iff.mp hstep
    split at hstep
    · cases hstep
      exact h.mono (fun _ hid => hid) (fun _ _ hid => hid) fun _ hmem => hmem
    · split at hstep
      · cases hstep
        exact h.issue w _
      · cases hstep
  | deliver =>
    unfold SessionWorld.next at hstep
    dsimp only at hstep
    split at hstep
    · cases hstep
    · cases hstep
      exact h.mono (fun _ hid => hid) (fun _ _ hid => hid) fun _ hmem =>
        List.mem_append_left _ hmem
  | answer i ok =>
    obtain ⟨request, hrequest, hstep⟩ := Option.bind_eq_some_iff.mp hstep
    split at hstep
    · rename_i hanswer
      cases hstep
      refine h.respond hrequest hanswer fun hok => ?_
      rw [hok] at hguard
      exact hguard request hrequest
    · cases hstep
  | handle i =>
    obtain ⟨request, hrequest, hstep⟩ := Option.bind_eq_some_iff.mp hstep
    obtain ⟨session, hanswer, rfl⟩ := Option.map_eq_some_iff.mp hstep
    exact h.handle hrequest hanswer
  | exit id =>
    cases hstep
    exact h.mono (fun _ hid => List.mem_of_mem_filter hid) (fun _ _ hid => hid) fun _ hmem => hmem
  | disconnect w id =>
    obtain ⟨window, -, hstep⟩ := Option.bind_eq_some_iff.mp hstep
    split at hstep
    · cases hstep
      exact h.mono (fun _ hid => List.mem_of_mem_filter hid) (fun _ _ hid => hid) fun _ hmem =>
        hmem
    · cases hstep
  | forget w id =>
    obtain ⟨window, hwindow, hstep⟩ := Option.bind_eq_some_iff.mp hstep
    split at hstep
    · cases hstep
    · rename_i hended
      cases hstep
      refine h.setWindow hwindow fun other hlive hother => ?_
      refine List.mem_filter.mpr ⟨hother, ?_⟩
      rw [decide_eq_true_iff]
      rintro rfl
      exact hended hlive

end SessionWorld

/-! ## The result -/

/-- **The main window shows every session**, in every run in which the calls of floating windows
fail. -/
theorem seenInMain_of_callsFromMain {s : SessionWorld Profile SerialProfile}
    (h : ((sessionMachine Profile SerialProfile).restrict CallsFromMain).Reachable s) :
    s.SeenInMain := by
  have hinv : s.LiveOwned := by
    refine h.induct (fun s hs => ?_) fun s event t _ hinv hstep => ?_
    · rw [hs]
      exact nofun
    · exact hinv.next hstep.1 hstep.2
  exact hinv.seenInMain

/-- A serial port is opened in a floating window. -/
theorem sampleSerial_seenInMain : ∃ s : SessionWorld Text Text, s.SeenInMain ∧ s.requests = [] ∧
    s.live = [0] := by
  have hrun : ∃ s, Machine.exec
        (fun s event => if CallsFromMain s event then SessionWorld.next s event else none)
        (.start : SessionWorld Text Text)
        [.openWindow .serial, .connectSerialProfile (some 0) "COM3".toList, .deliver,
          .answer 0 true, .handle 0] = some s ∧
      s.requests.length = 0 ∧ s.live = [0] := ⟨_, rfl, rfl, rfl⟩
  obtain ⟨s, hexec, hrequests, hlive⟩ := hrun
  exact ⟨s, seenInMain_of_callsFromMain (Machine.reachable_restrict (Machine.reachable_exec hexec)),
    List.length_eq_zero_iff.mp hrequests, hlive⟩

/-- A floating list of events starts, and opens a shell of its own. -/
theorem sampleEvents_opensShell : ∃ s : SessionWorld Text Text,
    (sessionMachine Text Text).Reachable s ∧ s.live = [0] ∧ s.main.sessions = [] ∧
      ¬s.SeenInMain := by
  have hrun : ∃ s, Machine.exec SessionWorld.next (.start : SessionWorld Text Text)
        [.openWindow .events, .refreshShells (some 0) ["bash".toList], .ready (some 0),
          .answer 0 true, .handle 0] = some s ∧
      s.requests.length = 0 ∧ s.live = [0] ∧ s.main.sessions = [] := ⟨_, rfl, rfl, rfl, rfl⟩
  obtain ⟨s, hexec, hrequests, hlive, hsessions⟩ := hrun
  refine ⟨s, Machine.reachable_exec hexec, hlive, hsessions, fun hseen => ?_⟩
  have hshown := hseen (fun request hmem => ?_) 0 ?_
  · rw [hsessions] at hshown
    cases hshown
  · rw [List.length_eq_zero_iff.mp hrequests] at hmem
    cases hmem
  · rw [hlive]
    exact List.mem_singleton_self 0

end FluxTerm.Window
