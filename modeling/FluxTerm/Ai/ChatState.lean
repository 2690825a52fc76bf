import FluxTerm.Lib.JsNumber
import FluxTerm.Lib.JsString
import FluxTerm.Lib.Machine

/-!
# FluxTerm — the conversations of the AI panel

`src/hooks/useAiState.ts` in one window: the messages of the active session, the stream that answers
them, and the local storage that keeps them for each session.

* **`chatsSeparate_of_inOrder`** — the result on runs.
* **`sampleSwitch_mixes`** — a session becomes active for the first time.

What a commit schedules as microtask runs before the next event, call or commit. Other windows, and
what the messages say to the backend, are left out. Uuids are numbers.
-/

namespace FluxTerm.Ai

open FluxTerm.Lib

/-! ## Messages -/

inductive AiRole where
  | system
  | user
  | assistant
deriving DecidableEq

inductive AiMessageSource where
  | selection
  | chat
deriving DecidableEq

structure AiChatMessage where
  id : ℕ
  role : AiRole
  content : JsString
  source : Option AiMessageSource
deriving DecidableEq

structure PersistedAiSessionState where
  messages : List AiChatMessage
  draft : JsString
  errorMessage : Option JsString
deriving DecidableEq

def normalizeSelectionMaxChars : Option JsNumber → ℕ
  | some (.finite value) => max 1 ⌊value + 1 / 2⌋.toNat
  | _ => 1500

def truncateSelectionText (value : JsString) (maxChars : ℕ) : JsString := value.take maxChars

def appendChunk (content : JsString) (messages : List AiChatMessage) : List AiChatMessage :=
  match messages.getLast? with
  | none => messages
  | some last =>
    if last.role = .assistant then
      messages.dropLast ++ [{ last with content := last.content ++ content }]
    else messages

def dropAnswer (messages : List AiChatMessage) : List AiChatMessage :=
  match messages.getLast? with
  | none => messages
  | some last => if last.role = .assistant then messages.dropLast else messages

def dropId (id : ℕ) (messages : List AiChatMessage) : List AiChatMessage :=
  if messages.getLast?.map (·.id) = some id then messages.dropLast else messages

/-! ## The hook -/

/-- `UseAiStateProps`. -/
structure AiProps where
  activeSessionId : Option Text
  locale : Text
  aiAvailable : Bool
  /-- `aiUnavailableMessage ?? t("ai.unavailable.generic")`. -/
  unavailableMessage : JsString
  selectionMaxChars : Option JsNumber
  enabled : Bool
deriving DecidableEq

/-- What `useState` keeps. -/
structure AiView where
  messages : List AiChatMessage
  draft : JsString
  pending : Bool
  waitingFirstChunk : Bool
  errorMessage : Option JsString
deriving DecidableEq

/-- A call of `aiSessionChatStreamStart`. -/
structure ChatRequest where
  requestId : ℕ
  sessionId : Text
  userMessage : AiChatMessage
  placeholderId : ℕ
deriving DecidableEq

structure RestoredChat where
  had : Option (List AiChatMessage)
  loaded : List AiChatMessage

structure AiState where
  latest : AiView
  rendered : AiView
  props : Option AiProps
  pendingRequestId : Option ℕ
  scheduled : Option (Option Text)
  stored : Text → Option PersistedAiSessionState
  requests : List ChatRequest
  starting : List ChatRequest
  nextId : ℕ
  authored : List (ℕ × Text)
  shown : Text → Option (List AiChatMessage)
  had : Option (List AiChatMessage)
  restored : List RestoredChat

namespace AiState

/-- Before the first commit. -/
def start : AiState where
  latest := ⟨[], [], false, false, none⟩
  rendered := ⟨[], [], false, false, none⟩
  props := none
  pendingRequestId := none
  scheduled := none
  stored _ := none
  requests := []
  starting := []
  nextId := 0
  authored := []
  shown _ := none
  had := none
  restored := []

variable (s : AiState)

def cancelPendingRequest : AiState :=
  match s.pendingRequestId with
  | none => s
  | some _ => { s with
      pendingRequestId := none
      latest := { s.latest with pending := false, waitingFirstChunk := false } }

/-! ### Commits -/

def resubscribes (props : AiProps) : Bool :=
  match s.props with
  | none => false
  | some old => old.enabled ∧ (old.enabled, old.locale) ≠ (props.enabled, props.locale)

def reloads (props : AiProps) : Bool :=
  s.props.map (fun old => (old.activeSessionId, old.enabled))
    ≠ some (props.activeSessionId, props.enabled)

def scheduleLoad (props : AiProps) : AiState :=
  if props.enabled then { s with
    scheduled := some props.activeSessionId
    had := props.activeSessionId.bind s.shown }
  else { s with scheduled := none }

def persist (props : AiProps) : AiState :=
  match props.enabled, props.activeSessionId with
  | true, some sessionId => { s with
      stored := Function.update s.stored sessionId
        (some ⟨s.rendered.messages, s.rendered.draft, s.rendered.errorMessage⟩)
      shown := Function.update s.shown sessionId (some s.rendered.messages) }
  | _, _ => s

def commit (props : AiProps) : AiState :=
  let cleaned := if s.resubscribes props then s.cancelPendingRequest else s
  let committed := { cleaned with rendered := s.latest, props := some props }
  let loading := if s.reloads props then committed.scheduleLoad props else committed
  loading.persist props

/-- The deferred load. -/
def load (sessionId : Option Text) : AiState :=
  let persisted := sessionId.bind s.stored
  let messages := (persisted.map (·.messages)).getD []
  let cancelled := s.cancelPendingRequest
  { cancelled with
    scheduled := none
    latest := { cancelled.latest with
      messages
      draft := (persisted.map (·.draft)).getD []
      waitingFirstChunk := false
      errorMessage := persisted.bind (·.errorMessage) }
    restored := s.restored ++ [⟨s.had, messages⟩] }

/-! ### The stream -/

def sessionOf (requestId : ℕ) : Option Text :=
  (s.requests.find? (·.requestId = requestId)).map (·.sessionId)

def streamedInto (requestId : ℕ) : List (ℕ × Text) :=
  match s.latest.messages.getLast?, s.sessionOf requestId with
  | some last, some sessionId => if last.role = .assistant then [(last.id, sessionId)] else []
  | _, _ => []

def handleChunk (requestId : ℕ) (content : JsString) : AiState :=
  if s.pendingRequestId = some requestId then { s with
    latest := { s.latest with
      waitingFirstChunk := false
      messages := appendChunk content s.latest.messages }
    authored := s.authored ++ s.streamedInto requestId }
  else s

def handleDone (requestId : ℕ) : AiState :=
  if s.pendingRequestId = some requestId then { s with
    pendingRequestId := none
    latest := { s.latest with pending := false, waitingFirstChunk := false } }
  else s

def handleError (requestId : ℕ) (errorMessage : JsString) : AiState :=
  if s.pendingRequestId = some requestId then { s with
    pendingRequestId := none
    latest := { s.latest with
      pending := false
      waitingFirstChunk := false
      errorMessage := some errorMessage
      messages := dropAnswer s.latest.messages } }
  else s

/-! ### The calls -/

/-- `sendStreamingMessage` from where the message is accepted. -/
def accept (sessionId : Text) (content : JsString) (source : Option AiMessageSource)
    (draft : JsString) : AiState :=
  let userMessage : AiChatMessage := ⟨s.nextId, .user, content, source⟩
  let placeholder : AiChatMessage := ⟨s.nextId + 1, .assistant, [], none⟩
  let request : ChatRequest := ⟨s.nextId + 2, sessionId, userMessage, placeholder.id⟩
  { s with
    nextId := s.nextId + 3
    pendingRequestId := some request.requestId
    latest := {
      messages := s.rendered.messages ++ [userMessage, placeholder]
      draft
      pending := true
      waitingFirstChunk := true
      errorMessage := none }
    requests := request :: s.requests
    starting := s.starting ++ [request]
    authored := s.authored ++ [(userMessage.id, sessionId), (placeholder.id, sessionId)] }

/-- `sendStreamingMessage`. An accepted message from the draft clears it. -/
def sendStreamingMessage (props : AiProps) (content : JsString) (source : Option AiMessageSource)
    (clearsDraft : Bool) : AiState :=
  match props.enabled, props.activeSessionId, s.rendered.pending with
  | true, some sessionId, false =>
    if props.aiAvailable then
      s.accept sessionId content source (if clearsDraft then [] else s.latest.draft)
    else { s with latest := { s.latest with errorMessage := some props.unavailableMessage } }
  | _, _, _ => s

def sendMessage (props : AiProps) : AiState :=
  if jsTrim s.rendered.draft = [] then s
  else s.sendStreamingMessage props (jsTrim s.rendered.draft) none true

def sendSelectionText (props : AiProps) (selectionText : JsString) : AiState :=
  let content := truncateSelectionText (jsTrim selectionText)
    (normalizeSelectionMaxChars props.selectionMaxChars)
  if content = [] then s else s.sendStreamingMessage props content (some .selection) false

/-- The start of a stream has failed. -/
def rollBack (request : ChatRequest) (errorMessage : JsString) : AiState := { s with
  pendingRequestId := none
  latest := {
    messages :=
      dropId request.userMessage.id (dropId request.placeholderId s.latest.messages)
    draft := if request.userMessage.source = some .selection then s.latest.draft
      else request.userMessage.content
    pending := false
    waitingFirstChunk := false
    errorMessage := some errorMessage } }

def clearMessages (props : AiProps) : AiState :=
  if props.enabled then
    let cancelled := s.cancelPendingRequest
    { cancelled with latest := { cancelled.latest with messages := [], errorMessage := none } }
  else s

def setDraft (props : AiProps) (value : JsString) : AiState :=
  if props.enabled then { s with latest := { s.latest with draft := value } } else s

end AiState

inductive AiCall where
  | sendMessage
  | sendSelectionText (selectionText : JsString)
  | cancelMessage
  | clearMessages
  | setDraft (value : JsString)

def AiState.call (s : AiState) (props : AiProps) : AiCall → AiState
  | .sendMessage => s.sendMessage props
  | .sendSelectionText selectionText => s.sendSelectionText props selectionText
  | .cancelMessage => s.cancelPendingRequest
  | .clearMessages => s.clearMessages props
  | .setDraft value => s.setDraft props value

inductive AiStep where
  | commit (props : AiProps)
  | load
  | chunk (requestId : ℕ) (content : JsString)
  | done (requestId : ℕ)
  | error (requestId : ℕ) (errorMessage : JsString)
  | call (call : AiCall)
  | started (requestId : ℕ) (errorMessage : Option JsString)

def AiState.unlessScheduled (s t : AiState) : Option AiState :=
  if s.scheduled = none then some t else none

def AiState.next (s : AiState) : AiStep → Option AiState
  | .commit props => s.unlessScheduled (s.commit props)
  | .load => s.scheduled.map s.load
  | .chunk requestId content => s.unlessScheduled (s.handleChunk requestId content)
  | .done requestId => s.unlessScheduled (s.handleDone requestId)
  | .error requestId errorMessage => s.unlessScheduled (s.handleError requestId errorMessage)
  | .call call => s.props.bind fun props => s.unlessScheduled (s.call props call)
  | .started requestId errorMessage =>
    match s.starting.find? (·.requestId = requestId) with
    | none => none
    | some request =>
      let answered := { s with starting := s.starting.filter (·.requestId ≠ requestId) }
      match errorMessage with
      | none => some answered
      | some errorMessage => some (answered.rollBack request errorMessage)

/-- `useAiState` from its start on. -/
def aiState : Machine AiState AiStep := .ofStep .start AiState.next

/-! ## What is wanted -/

/-- The messages were sent for the session, or streamed for it, and for no other. -/
def BelongTo (authored : List (ℕ × Text)) (sessionId : Text) (messages : List AiChatMessage) :
    Prop :=
  ∀ message ∈ messages, (message.id, sessionId) ∈ authored ∧
    ∀ entry ∈ authored, entry.1 = message.id → entry.2 = sessionId

/-- Conversations stay with their session. -/
structure ChatsSeparate (s : AiState) : Prop where
  persisted : ∀ sessionId state, s.stored sessionId = some state →
    BelongTo s.authored sessionId state.messages
  restored : ∀ chat ∈ s.restored, ∀ had, chat.had = some had → chat.loaded = had

def AiStep.InOrder (s : AiState) : AiStep → Prop
  | .commit props => s.reloads props → props.enabled →
    ∀ sessionId, props.activeSessionId = some sessionId →
      s.latest.messages = (s.shown sessionId).getD []
  | _ => True

/-! ## Messages of a session -/

section Messages

variable {authored authored' : List (ℕ × Text)} {sessionId : Text}
  {messages : List AiChatMessage}

def Owned (authored : List (ℕ × Text)) (sessionId : Text) (messages : List AiChatMessage) : Prop :=
  ∀ message ∈ messages, (message.id, sessionId) ∈ authored

theorem owned_nil : Owned authored sessionId [] := fun _ h => absurd h List.not_mem_nil

theorem Owned.mono (h : Owned authored sessionId messages)
    (hmono : ∀ entry ∈ authored, entry ∈ authored') : Owned authored' sessionId messages :=
  fun message hmem => hmono _ (h message hmem)

theorem Owned.of_subset {fewer : List AiChatMessage} (h : Owned authored sessionId messages)
    (hsub : ∀ message ∈ fewer, message ∈ messages) : Owned authored sessionId fewer :=
  fun message hmem => h message (hsub message hmem)

theorem mem_dropAnswer {message : AiChatMessage} (h : message ∈ dropAnswer messages) :
    message ∈ messages := by
  unfold dropAnswer at h
  split at h
  · exact h
  · split at h
    · exact (List.dropLast_sublist _).subset h
    · exact h

theorem mem_dropId {id : ℕ} {message : AiChatMessage} (h : message ∈ dropId id messages) :
    message ∈ messages := by
  unfold dropId at h
  split at h
  · exact (List.dropLast_sublist _).subset h
  · exact h

theorem Owned.appendChunk (h : Owned authored sessionId messages) (content : JsString) :
    Owned authored sessionId (appendChunk content messages) := by
  unfold Ai.appendChunk
  split
  · exact h
  · rename_i last hlast
    split
    · intro message hmem
      rcases List.mem_append.mp hmem with hmem | hmem
      · exact h message ((List.dropLast_sublist _).subset hmem)
      · rw [List.mem_singleton.mp hmem]
        exact h last (List.mem_of_getLast? hlast)
    · exact h

end Messages

/-! ## The invariant -/

def AiProps.active (props : AiProps) : Option Text :=
  if props.enabled then props.activeSessionId else none

namespace AiState

variable {s : AiState} {sessionId : Text}

def active (s : AiState) : Option Text := s.props.bind AiProps.active

/-- **The invariant.** -/
structure Separate (s : AiState) : Prop where
  fresh : ∀ entry ∈ s.authored, entry.1 < s.nextId
  one : ∀ entry ∈ s.authored, ∀ other ∈ s.authored, entry.1 = other.1 → entry.2 = other.2
  stored : ∀ sessionId state, s.stored sessionId = some state →
    Owned s.authored sessionId state.messages
  shown : ∀ sessionId, s.shown sessionId = (s.stored sessionId).map (·.messages)
  active : ∀ sessionId, s.active = some sessionId →
    Owned s.authored sessionId s.rendered.messages ∧ Owned s.authored sessionId s.latest.messages
  scheduled : ∀ target, s.scheduled = some target → s.active = target ∧
    ∀ had, s.had = some had → target.bind s.shown = some had
  pending : s.scheduled = none → ∀ requestId, s.pendingRequestId = some requestId →
    s.sessionOf requestId = s.active ∧ s.active ≠ none
  restored : ∀ chat ∈ s.restored, ∀ had, chat.had = some had → chat.loaded = had

theorem Separate.chatsSeparate (h : s.Separate) : ChatsSeparate s where
  persisted sessionId state hstate message hmem :=
    ⟨h.stored sessionId state hstate message hmem, fun entry hentry heq =>
      h.one entry hentry _ (h.stored sessionId state hstate message hmem) heq⟩
  restored := h.restored

theorem separate_start : start.Separate where
  fresh _ h := absurd h List.not_mem_nil
  one _ h := absurd h List.not_mem_nil
  stored _ _ h := by cases h
  shown _ := rfl
  active _ h := by cases h
  scheduled _ h := by cases h
  pending _ _ h := by cases h
  restored _ h := absurd h List.not_mem_nil

/-! ### Updates of the view -/

theorem Separate.view (h : s.Separate) (latest : AiView) {pendingRequestId : Option ℕ}
    (hpending : pendingRequestId = none ∨ pendingRequestId = s.pendingRequestId)
    (hmessages : ∀ sessionId, s.active = some sessionId →
      Owned s.authored sessionId s.latest.messages →
        Owned s.authored sessionId latest.messages) :
    Separate { s with latest, pendingRequestId } where
  fresh := h.fresh
  one := h.one
  stored := h.stored
  shown := h.shown
  active sessionId hactive :=
    ⟨(h.active sessionId hactive).1, hmessages sessionId hactive (h.active sessionId hactive).2⟩
  scheduled := h.scheduled
  pending hscheduled requestId hrequest := by
    rcases hpending with hnone | hsame
    · rw [hnone] at hrequest
      cases hrequest
    · exact h.pending hscheduled requestId (hsame ▸ hrequest)
  restored := h.restored

theorem cancelPendingRequest_eq (s : AiState) : ∃ pending waitingFirstChunk,
    s.cancelPendingRequest = { s with
      pendingRequestId := none
      latest := { s.latest with pending, waitingFirstChunk } } := by
  unfold AiState.cancelPendingRequest
  split
  · rename_i hnone
    obtain ⟨⟩ := s
    cases hnone
    exact ⟨_, _, rfl⟩
  · exact ⟨_, _, rfl⟩

theorem Separate.cancelPendingRequest (h : s.Separate) : s.cancelPendingRequest.Separate := by
  obtain ⟨pending, waitingFirstChunk, heq⟩ := s.cancelPendingRequest_eq
  rw [heq]
  exact h.view _ (.inl rfl) fun _ _ => id

theorem Separate.handleDone (h : s.Separate) (requestId : ℕ) :
    (s.handleDone requestId).Separate := by
  unfold AiState.handleDone
  split
  · exact h.view _ (.inl rfl) fun _ _ => id
  · exact h

theorem Separate.handleError (h : s.Separate) (requestId : ℕ) (errorMessage : JsString) :
    (s.handleError requestId errorMessage).Separate := by
  unfold AiState.handleError
  split
  · exact h.view _ (.inl rfl) fun _ _ howned => howned.of_subset fun _ => mem_dropAnswer
  · exact h

theorem Separate.rollBack (h : s.Separate) (request : ChatRequest) (errorMessage : JsString) :
    (s.rollBack request errorMessage).Separate :=
  h.view _ (.inl rfl) fun _ _ howned =>
    howned.of_subset fun _ hmem => mem_dropId (mem_dropId hmem)

/-! ### The stream -/

theorem Separate.handleChunk (h : s.Separate) (hscheduled : s.scheduled = none) (requestId : ℕ)
    (content : JsString) : (s.handleChunk requestId content).Separate := by
  unfold AiState.handleChunk
  split
  · rename_i hrequest
    obtain ⟨hsession, hsome⟩ := h.pending hscheduled requestId hrequest
    obtain ⟨sessionId, hactive⟩ := Option.ne_none_iff_exists'.mp hsome
    -- the last message is one of the session that the request is for
    have hold : ∀ entry ∈ s.streamedInto requestId, entry ∈ s.authored := by
      intro entry hentry
      unfold streamedInto at hentry
      split at hentry
      · rename_i last other hlast hother
        split at hentry
        · rw [List.mem_singleton.mp hentry]
          rw [hother, hactive, Option.some.injEq] at hsession
          rw [hsession]
          exact (h.active sessionId hactive).2 last (List.mem_of_getLast? hlast)
        · exact absurd hentry List.not_mem_nil
      · exact absurd hentry List.not_mem_nil
    have hmem : ∀ entry, entry ∈ s.authored ++ s.streamedInto requestId ↔ entry ∈ s.authored :=
      fun entry => List.mem_append.trans (or_iff_left_of_imp (hold entry))
    have hmono : ∀ entry ∈ s.authored, entry ∈ s.authored ++ s.streamedInto requestId :=
      fun entry => (hmem entry).mpr
    exact {
      fresh := fun entry hentry => h.fresh entry ((hmem entry).mp hentry)
      one := fun entry hentry other hother =>
        h.one entry ((hmem entry).mp hentry) other ((hmem other).mp hother)
      stored := fun sessionId state hstate => (h.stored sessionId state hstate).mono hmono
      shown := h.shown
      active := fun sessionId hactive =>
        ⟨(h.active sessionId hactive).1.mono hmono,
          ((h.active sessionId hactive).2.appendChunk content).mono hmono⟩
      scheduled := h.scheduled
      pending := h.pending
      restored := h.restored }
  · exact h

/-! ### The calls -/

theorem Separate.accept (h : s.Separate)
    (hactive : s.active = some sessionId) (content : JsString) (source : Option AiMessageSource)
    (draft : JsString) : (s.accept sessionId content source draft).Separate := by
  have hmono : ∀ entry ∈ s.authored, entry ∈ (s.accept sessionId content source draft).authored :=
    fun entry => List.mem_append_left _
  have hentry : ∀ entry ∈ (s.accept sessionId content source draft).authored,
      entry ∈ s.authored ∨ (s.nextId ≤ entry.1 ∧ entry.1 < s.nextId + 3 ∧ entry.2 = sessionId) := by
    intro entry hmem
    refine (List.mem_append.mp hmem).imp_right fun hnew => ?_
    rcases List.mem_cons.mp hnew with rfl | hnew
    · exact ⟨le_refl _, by dsimp only; omega, rfl⟩
    · rw [List.mem_singleton.mp hnew]
      exact ⟨Nat.le_succ _, by dsimp only; omega, rfl⟩
  refine ⟨?_, ?_, ?_, h.shown, ?_, h.scheduled, ?_, h.restored⟩
  · intro entry hmem
    change entry.1 < s.nextId + 3
    rcases hentry entry hmem with hold | ⟨-, hlt, -⟩
    · have := h.fresh entry hold
      omega
    · exact hlt
  · intro entry hmem other hother heq
    rcases hentry entry hmem with hold | ⟨hge, -, hsession⟩
    · rcases hentry other hother with hold' | ⟨hge', -, -⟩
      · exact h.one entry hold other hold' heq
      · have := h.fresh entry hold
        omega
    · rcases hentry other hother with hold' | ⟨-, -, hsession'⟩
      · have := h.fresh other hold'
        omega
      · rw [hsession, hsession']
  · exact fun sessionId state hstate => (h.stored sessionId state hstate).mono hmono
  · intro other hother
    obtain rfl : sessionId = other := Option.some.inj (hactive.symm.trans hother)
    refine ⟨(h.active sessionId hactive).1.mono hmono, fun message hmem => ?_⟩
    rcases List.mem_append.mp hmem with hmem | hmem
    · exact hmono _ ((h.active sessionId hactive).1 message hmem)
    · refine List.mem_append_right _ ?_
      rcases List.mem_cons.mp hmem with rfl | hmem
      · exact List.mem_cons_self
      · rw [List.mem_singleton.mp hmem]
        exact List.mem_cons_of_mem _ (List.mem_singleton_self _)
  · rintro - _ ⟨⟩
    have hfind : ∀ request : ChatRequest,
        (request :: s.requests).find? (·.requestId = request.requestId) = some request :=
      fun request => List.find?_cons_of_pos (decide_eq_true rfl)
    have hsome : s.active ≠ none := by
      rw [hactive]
      exact Option.some_ne_none _
    refine ⟨?_, hsome⟩
    refine Eq.trans (b := some sessionId) ?_ hactive.symm
    exact congrArg (Option.map (·.sessionId)) (hfind (.mk (s.nextId + 2) sessionId _ _))

theorem Separate.sendStreamingMessage (h : s.Separate)
    {props : AiProps} (hprops : s.props = some props) (content : JsString)
    (source : Option AiMessageSource) (clearsDraft : Bool) :
    (s.sendStreamingMessage props content source clearsDraft).Separate := by
  unfold AiState.sendStreamingMessage
  split
  · rename_i sessionId henabled hsession _
    split
    · have hactive : s.active = some sessionId := by
        unfold AiState.active AiProps.active
        rw [hprops, Option.bind_some, if_pos henabled, hsession]
      exact h.accept hactive _ _ _
    · exact h.view _ (.inr rfl) fun _ _ => id
  · exact h

theorem Separate.call (h : s.Separate) {props : AiProps}
    (hprops : s.props = some props) (call : AiCall) : (s.call props call).Separate := by
  cases call with
  | sendMessage =>
    unfold AiState.call AiState.sendMessage
    dsimp only
    split
    · exact h
    · exact h.sendStreamingMessage hprops _ _ _
  | sendSelectionText selectionText =>
    unfold AiState.call AiState.sendSelectionText
    dsimp only
    split
    · exact h
    · exact h.sendStreamingMessage hprops _ _ _
  | cancelMessage => exact h.cancelPendingRequest
  | clearMessages =>
    unfold AiState.call AiState.clearMessages
    dsimp only
    split
    · exact h.cancelPendingRequest.view _ (.inr rfl) fun _ _ _ => owned_nil
    · exact h
  | setDraft value =>
    unfold AiState.call AiState.setDraft
    dsimp only
    split
    · exact h.view _ (.inr rfl) fun _ _ => id
    · exact h

/-! ### The load -/

theorem Separate.load (h : s.Separate) {target : Option Text}
    (hscheduled : s.scheduled = some target) : (s.load target).Separate := by
  obtain ⟨hactive, hhad⟩ := h.scheduled target hscheduled
  obtain ⟨pending, waitingFirstChunk, heq⟩ := s.cancelPendingRequest_eq
  unfold AiState.load
  rw [heq]
  refine ⟨h.fresh, h.one, h.stored, h.shown, fun sessionId hsession => ?_, nofun, nofun, ?_⟩
  · refine ⟨(h.active sessionId hsession).1, ?_⟩
    obtain rfl : target = some sessionId := hactive.symm.trans hsession
    dsimp only [Option.bind_some]
    cases hstored : s.stored sessionId with
    | none => exact owned_nil
    | some state => exact h.stored sessionId state hstored
  · intro chat hchat had hchathad
    rcases List.mem_append.mp hchat with hchat | hchat
    · exact h.restored chat hchat had hchathad
    · rw [List.mem_singleton.mp hchat] at hchathad ⊢
      have hshown := hhad had hchathad
      cases target with
      | none => cases hshown
      | some sessionId =>
        rw [Option.bind_some, h.shown] at hshown
        dsimp only [Option.bind_some]
        rw [hshown, Option.getD_some]

/-! ### Commits -/

theorem Separate.persist (h : s.Separate) {props : AiProps} (hprops : s.props = some props)
    (hhad : ∀ had, s.scheduled ≠ none → s.had = some had → s.rendered.messages = had) :
    (s.persist props).Separate := by
  unfold AiState.persist
  split
  · rename_i sessionId henabled hsession
    have hactive : s.active = some sessionId := by
      unfold AiState.active AiProps.active
      rw [hprops, Option.bind_some, if_pos henabled, hsession]
    refine ⟨h.fresh, h.one, ?_, ?_, h.active, ?_, h.pending, h.restored⟩
    · intro other state hstate
      dsimp only at hstate
      by_cases hother : other = sessionId
      · subst hother
        rw [Function.update_self] at hstate
        cases hstate
        exact (h.active other hactive).1
      · rw [Function.update_of_ne hother] at hstate
        exact h.stored other state hstate
    · intro other
      dsimp only
      by_cases hother : other = sessionId
      · subst hother
        rw [Function.update_self, Function.update_self]
        rfl
      · rw [Function.update_of_ne hother, Function.update_of_ne hother]
        exact h.shown other
    · intro target htarget
      obtain ⟨htargetActive, -⟩ := h.scheduled target htarget
      refine ⟨htargetActive, fun had hhad' => ?_⟩
      have hmessages := hhad had (by rw [htarget]; exact Option.some_ne_none _) hhad'
      obtain rfl : target = some sessionId := htargetActive.symm.trans hactive
      change Function.update s.shown sessionId (some s.rendered.messages) sessionId = some had
      rw [Function.update_self, hmessages]
  · exact h

theorem Separate.committed (h : s.Separate) (props : AiProps) {scheduled : Option (Option Text)}
    {had : Option (List AiChatMessage)} {pendingRequestId : Option ℕ} {latest : AiView}
    (hmessages : latest.messages = s.latest.messages)
    (howned : ∀ sessionId, props.active = some sessionId →
      Owned s.authored sessionId s.latest.messages)
    (hscheduled : ∀ target, scheduled = some target → props.active = target ∧
      ∀ messages, had = some messages → target.bind s.shown = some messages)
    (hpending : scheduled = none → ∀ requestId, pendingRequestId = some requestId →
      s.sessionOf requestId = props.active ∧ props.active ≠ none) :
    Separate { s with
      latest, scheduled, had, pendingRequestId
      rendered := s.latest
      props := some props } where
  fresh := h.fresh
  one := h.one
  stored := h.stored
  shown := h.shown
  active sessionId hactive := by
    rw [hmessages]
    exact ⟨howned sessionId hactive, howned sessionId hactive⟩
  scheduled := hscheduled
  pending := hpending
  restored := h.restored

theorem cleaned_eq (s : AiState) (props : AiProps) : ∃ pendingRequestId latest,
    (if s.resubscribes props then s.cancelPendingRequest else s)
        = { s with pendingRequestId, latest } ∧
      latest.messages = s.latest.messages ∧
      ∀ requestId, pendingRequestId = some requestId →
        s.pendingRequestId = some requestId ∧ s.resubscribes props = false := by
  cases hresubscribes : s.resubscribes props with
  | true =>
    obtain ⟨pending, waitingFirstChunk, heq⟩ := s.cancelPendingRequest_eq
    exact ⟨none, _, heq, rfl, nofun⟩
  | false => exact ⟨s.pendingRequestId, s.latest, rfl, rfl, fun requestId h => ⟨h, rfl⟩⟩

theorem enabled_of_not_resubscribes {props : AiProps} (h : s.resubscribes props = false)
    (hactive : s.active ≠ none) : props.enabled = true := by
  unfold resubscribes at h
  unfold AiState.active AiProps.active at hactive
  cases hprops : s.props with
  | none =>
    rw [hprops] at hactive
    exact absurd rfl hactive
  | some old =>
    rw [hprops] at h hactive
    dsimp only at h
    rw [Option.bind_some] at hactive
    split at hactive
    · rename_i henabled
      by_contra hne
      refine absurd (decide_eq_false_iff_not.mp h) (not_not.mpr ⟨henabled, fun heq => hne ?_⟩)
      exact (congrArg Prod.fst heq).symm.trans henabled
    · exact absurd rfl hactive

theorem active_of_not_reloads {props : AiProps} (h : s.reloads props = false) :
    props.active = s.active := by
  unfold reloads at h
  have heq := not_not.mp (decide_eq_false_iff_not.mp h)
  obtain ⟨old, hprops, hsame⟩ := Option.map_eq_some_iff.mp heq
  obtain ⟨hsession, henabled⟩ := Prod.mk.inj hsame
  unfold AiState.active AiProps.active
  rw [hprops, Option.bind_some, hsession, henabled]

theorem Separate.commit (h : s.Separate) (hscheduled : s.scheduled = none) {props : AiProps}
    (horder : (AiStep.commit props).InOrder s) : (s.commit props).Separate := by
  obtain ⟨pendingRequestId, latest, hcleaned, hmessages, hpending⟩ := s.cleaned_eq props
  unfold AiState.commit
  rw [hcleaned]
  dsimp only
  cases hreloads : s.reloads props with
  | false =>
    have hactive := active_of_not_reloads hreloads
    refine Separate.persist (h.committed props hmessages ?_ ?_ ?_) rfl ?_
    · exact fun sessionId hsession => (h.active sessionId (hactive ▸ hsession)).2
    · exact fun target htarget => absurd (hscheduled.symm.trans htarget) nofun
    · exact fun _ requestId hrequest =>
        hactive.symm ▸ h.pending hscheduled requestId (hpending requestId hrequest).1
    · exact fun had hne => absurd hscheduled hne
  | true =>
    rw [if_pos rfl]
    unfold scheduleLoad
    split
    · rename_i henabled
      have hhad : ∀ had, props.activeSessionId.bind s.shown = some had →
          s.latest.messages = had := by
        intro had heq
        obtain ⟨sessionId, hsession, hshown⟩ := Option.bind_eq_some_iff.mp heq
        rw [horder hreloads henabled sessionId hsession, hshown, Option.getD_some]
      have hactive : props.active = props.activeSessionId := if_pos henabled
      have hcommitted : Separate { s with
          latest, pendingRequestId
          rendered := s.latest
          props := some props
          scheduled := some props.activeSessionId
          had := props.activeSessionId.bind s.shown } := by
        refine h.committed props hmessages ?_ ?_ fun hnone => absurd hnone (Option.some_ne_none _)
        · intro sessionId hsession
          rw [horder hreloads henabled sessionId (hactive ▸ hsession), h.shown]
          cases hstored : s.stored sessionId with
          | none => exact owned_nil
          | some state => exact h.stored sessionId state hstored
        · rintro _ ⟨⟩
          exact ⟨hactive, fun had heq => heq⟩
      exact hcommitted.persist rfl fun had _ => hhad had
    · rename_i henabled
      have hactive : props.active = none := if_neg henabled
      have hcommitted : Separate { s with
          latest, pendingRequestId
          rendered := s.latest
          props := some props
          scheduled := none } := by
        refine h.committed props hmessages ?_ (fun _ htarget => absurd htarget.symm
          (Option.some_ne_none _)) ?_
        · intro sessionId hsession
          rw [hactive] at hsession
          cases hsession
        · -- nothing is awaited any more
          intro _ requestId hrequest
          obtain ⟨hrequest, hresubscribes⟩ := hpending requestId hrequest
          have hsome := (h.pending hscheduled requestId hrequest).2
          exact absurd (enabled_of_not_resubscribes hresubscribes hsome) henabled
      exact hcommitted.persist rfl fun had hne => absurd rfl hne

/-! ### Runs -/

/-- **The step lemma.** -/
theorem Separate.next {t : AiState} {step : AiStep} (h : s.Separate) (horder : step.InOrder s)
    (hstep : s.next step = some t) : t.Separate := by
  have hunless : ∀ {u : AiState}, s.unlessScheduled u = some t → (s.scheduled = none → u.Separate) →
      t.Separate := by
    intro u hu hkept
    unfold unlessScheduled at hu
    split at hu
    · rename_i hscheduled
      cases hu
      exact hkept hscheduled
    · cases hu
  cases step with
  | commit props => exact hunless hstep fun hscheduled => h.commit hscheduled horder
  | load =>
    obtain ⟨target, hscheduled, rfl⟩ := Option.map_eq_some_iff.mp hstep
    exact h.load hscheduled
  | chunk requestId content =>
    exact hunless hstep fun hscheduled => h.handleChunk hscheduled requestId content
  | done requestId => exact hunless hstep fun _ => h.handleDone requestId
  | error requestId errorMessage =>
    exact hunless hstep fun _ => h.handleError requestId errorMessage
  | call call =>
    obtain ⟨props, hprops, hcall⟩ := Option.bind_eq_some_iff.mp hstep
    exact hunless hcall fun _ => h.call hprops call
  | started requestId errorMessage =>
    unfold AiState.next at hstep
    dsimp only at hstep
    split at hstep
    · cases hstep
    · rename_i request _
      have hanswered : Separate { s with
          starting := s.starting.filter (·.requestId ≠ requestId) } :=
        ⟨h.fresh, h.one, h.stored, h.shown, h.active, h.scheduled, h.pending, h.restored⟩
      split at hstep
      · cases hstep
        exact hanswered
      · cases hstep
        exact hanswered.rollBack request _

end AiState

/-- **Conversations stay with their session** in any run whose steps meet the condition. -/
theorem chatsSeparate_of_inOrder (s : AiState)
    (h : (aiState.restrict fun s step => step.InOrder s).Reachable s) : ChatsSeparate s := by
  refine AiState.Separate.chatsSeparate (h.induct (I := AiState.Separate) ?_ ?_)
  · rintro s rfl
    exact AiState.separate_start
  · rintro s step t - hs ⟨horder, hstep⟩
    exact hs.next horder hstep

/-! ## A session is active for the first time -/

def sampleProps (sessionId : Text) : AiProps where
  activeSessionId := some sessionId
  locale := ['z', 'h']
  aiAvailable := true
  unavailableMessage := []
  selectionMaxChars := none
  enabled := true

def sampleSend : List AiStep :=
  [.commit (sampleProps ['a']), .load, .call (.setDraft [104]), .commit (sampleProps ['a']),
    .call .sendMessage, .chunk 2 [105], .commit (sampleProps ['a'])]

def sampleMessages : List AiChatMessage :=
  [⟨0, .user, [104], none⟩, ⟨1, .assistant, [105], none⟩]

theorem inOrder_commit_same {s : AiState} (props : AiProps) (h : s.reloads props = false) :
    (AiStep.commit props).InOrder s := fun hreloads => absurd (hreloads.symm.trans h) nofun

/-- The message and its answer are stored for the session. -/
theorem chatsSeparate_of_inOrder_sampleChat : ∃ s : AiState, ChatsSeparate s ∧
    (s.stored ['a']).map (·.messages) = some sampleMessages := by
  have hstart : (aiState.restrict fun s step => step.InOrder s).Reachable .start := .init rfl
  have hfirst : (AiStep.commit (sampleProps ['a'])).InOrder .start := by
    rintro - - _ ⟨⟩
    rfl
  have hdraft := ((hstart.step ⟨hfirst, rfl⟩).step
      ⟨show AiStep.InOrder _ .load from trivial, rfl⟩).step
    ⟨show AiStep.InOrder _ (.call (.setDraft [104])) from trivial, rfl⟩
  have hshown := hdraft.step ⟨inOrder_commit_same (sampleProps ['a']) rfl, rfl⟩
  have hchunk := (hshown.step ⟨show AiStep.InOrder _ (.call .sendMessage) from trivial, rfl⟩).step
    ⟨show AiStep.InOrder _ (.chunk 2 [105]) from trivial, rfl⟩
  have hstored := hchunk.step ⟨inOrder_commit_same (sampleProps ['a']) rfl, rfl⟩
  exact ⟨_, chatsSeparate_of_inOrder _ hstored, by decide⟩

/-- The session that becomes active gets the messages of the one before. -/
theorem sampleSwitch_mixes : ¬∀ s, aiState.Reachable s → ChatsSeparate s := by
  intro h
  have hrun : ∃ s, Machine.exec AiState.next .start
        (sampleSend ++ [.commit (sampleProps ['b'])]) = some s ∧
      (s.stored ['b']).map (·.messages) = some sampleMessages ∧
      (0, ['b']) ∉ s.authored := ⟨_, rfl, by decide, by decide⟩
  obtain ⟨s, hexec, hstored, hother⟩ := hrun
  obtain ⟨state, hstate, hmessages⟩ := Option.map_eq_some_iff.mp hstored
  have hbelong := (h s (Machine.reachable_exec hexec)).persisted _ state hstate
  rw [hmessages] at hbelong
  exact hother (hbelong _ List.mem_cons_self).1

end FluxTerm.Ai
