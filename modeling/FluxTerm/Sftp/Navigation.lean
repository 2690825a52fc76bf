import FluxTerm.Terminal.PathSync
import FluxTerm.Window.FileActions

/-!
# FluxTerm — navigation in the file panel

`openRemoteDir`, `refreshList` and `loadHomePath` of `useSftpState`: chains of calls of the backend
that write the view of their session when they end.

* **`lastWins_of_inOrder`** — in runs that keep to it the last request wins.
-/

namespace FluxTerm.Sftp

open Lib Terminal Window

structure Captured where
  enabled : Bool
  active : Bool
  /-- `availabilityBySession[sessionId] === "unsupported"`. -/
  unsupported : Bool

inductive NavStage where
  /-- `sftpResolvePath` is in flight. -/
  | resolving
  /-- `sftpHome` or `localHome` is in flight. -/
  | homing
  /-- `sftpList` or `localList` is in flight. -/
  | listing (path : Text)
  | shown (view : FileView)
  | failed

structure NavEffect where
  availability : Option SftpAvailability
  stage : NavStage

/-- `clearFileView`. -/
def cleared : FileView := ⟨[], []⟩

inductive NavAnswer where
  /-- The answer of `sftpResolvePath`, `sftpHome` and `localHome`. -/
  | path (path : Text)
  | entries (entries : List SftpEntry)
  | error (code : Option Text)

def isSftpInitUnsupported (code : Option Text) : Bool := code = some "sftp_init_failed".toList

section Calls

-- of the session; `connected` is read when the piece of the chain runs
variable (isLocal connected : Bool) (captured : Captured)

def loadHomePath : NavEffect :=
  if isLocal then ⟨some .ready, .homing⟩
  else if !captured.enabled || !captured.active then ⟨some .disabled, .shown cleared⟩
  else if captured.unsupported then ⟨none, .shown cleared⟩
  else if !connected then ⟨none, .shown cleared⟩
  else ⟨some .checking, .homing⟩

def refreshList (path : Text) : NavEffect :=
  if isLocal then ⟨some .ready, .listing (normalizeLocalPath path)⟩
  else if !captured.enabled || !captured.active then ⟨some .disabled, .shown cleared⟩
  else if captured.unsupported then ⟨none, .shown cleared⟩
  else if !connected then ⟨none, .shown cleared⟩
  else if IsBlank path then loadHomePath isLocal connected captured
  else ⟨none, .listing path⟩

def openRemoteDir (path : Text) : NavEffect :=
  if isLocal then refreshList isLocal connected captured path
  else if !captured.enabled || !captured.active then ⟨some .disabled, .shown cleared⟩
  else if captured.unsupported then ⟨none, .shown cleared⟩
  else ⟨some .checking, .resolving⟩

/-- The chain of a call goes on with an answer. -/
def goOn : NavStage → NavAnswer → Option NavEffect
  | .resolving, .path path =>
    let rest := refreshList isLocal connected captured path
    some ⟨rest.availability <|> some .ready, rest.stage⟩
  | .homing, .path path =>
    let rest := refreshList isLocal connected captured path
    some ⟨rest.availability <|> (if isLocal then none else some .ready), rest.stage⟩
  | .listing path, .entries entries =>
    some ⟨if isLocal then none else some .ready, .shown ⟨path, entries⟩⟩
  | .resolving, .error code | .homing, .error code | .listing _, .error code =>
    -- `markUnsupported`; there is no `catch` for a local session
    if !isLocal && isSftpInitUnsupported code then some ⟨some .unsupported, .shown cleared⟩
    else some ⟨none, .failed⟩
  | _, _ => none

end Calls

structure NavRequest where
  sessionId : Text
  captured : Captured
  stage : NavStage

structure NavWorld where
  fileViews : Text → Option FileView
  availabilityBySession : Text → Option SftpAvailability
  /-- `sessionStatesRef.current[sessionId] === "connected"`. -/
  connected : Text → Bool
  requests : List NavRequest

inductive NavEvent where
  | connection (sessionId : Text) (connected : Bool)
  | openRemoteDir (sessionId : Text) (captured : Captured) (path : Text)
  | refreshList (sessionId : Text) (captured : Captured) (path : Text)
  | loadHomePath (sessionId : Text) (captured : Captured)
  | answer (k : ℕ) (answer : NavAnswer)

namespace NavWorld

def start (connected : Text → Bool) : NavWorld := ⟨fun _ => none, fun _ => none, connected, []⟩

/-- `setSessionAvailability` and `updateFileView`. -/
def apply (w : NavWorld) (sessionId : Text) (effect : NavEffect) (requests : List NavRequest) :
    NavWorld :=
  { w with
    availabilityBySession :=
      match effect.availability with
      | none => w.availabilityBySession
      | some availability => Function.update w.availabilityBySession sessionId (some availability)
    fileViews :=
      match effect.stage with
      | .shown view => Function.update w.fileViews sessionId (some view)
      | _ => w.fileViews
    requests := requests }

/-- A call, up to its first `await`. -/
def call (w : NavWorld) (sessionId : Text) (captured : Captured) (effect : NavEffect) : NavWorld :=
  w.apply sessionId effect (w.requests ++ [⟨sessionId, captured, effect.stage⟩])

variable (isLocal : Text → Bool)

def next (w : NavWorld) : NavEvent → Option NavWorld
  | .connection sessionId connected =>
    some { w with connected := Function.update w.connected sessionId connected }
  | .openRemoteDir sessionId captured path =>
    some (w.call sessionId captured
      (Sftp.openRemoteDir (isLocal sessionId) (w.connected sessionId) captured path))
  | .refreshList sessionId captured path =>
    some (w.call sessionId captured
      (Sftp.refreshList (isLocal sessionId) (w.connected sessionId) captured path))
  | .loadHomePath sessionId captured =>
    some (w.call sessionId captured
      (Sftp.loadHomePath (isLocal sessionId) (w.connected sessionId) captured))
  | .answer k answer => do
    let request ← w.requests[k]?
    let effect ← goOn (isLocal request.sessionId) (w.connected request.sessionId) request.captured
      request.stage answer
    return w.apply request.sessionId effect
      (w.requests.set k { request with stage := effect.stage })

end NavWorld

def navMachine (isLocal connected : Text → Bool) : Machine NavWorld NavEvent :=
  Machine.ofStep (.start connected) (NavWorld.next isLocal)

/-! ## What is wanted -/

namespace NavStage

def pending : NavStage → Bool
  | .resolving | .homing | .listing _ => true
  | _ => false

def view? : NavStage → Option FileView
  | .shown view => some view
  | _ => none

end NavStage

def NavRequest.viewOf (sessionId : Text) (request : NavRequest) : Option FileView :=
  if request.sessionId = sessionId then request.stage.view? else none

namespace NavWorld

def InFlight (w : NavWorld) (sessionId : Text) : Prop :=
  ∃ request ∈ w.requests, request.sessionId = sessionId ∧ request.stage.pending = true

def lastShown (w : NavWorld) (sessionId : Text) : Option FileView :=
  (w.requests.filterMap (NavRequest.viewOf sessionId)).getLast?

end NavWorld

/-- Once nothing is in flight for a session, it shows what the last successful request has found,
and its availability is known. -/
structure LastWins (w : NavWorld) : Prop where
  view : ∀ sessionId, ¬w.InFlight sessionId → w.fileViews sessionId = w.lastShown sessionId
  known : ∀ sessionId, ¬w.InFlight sessionId →
    w.availabilityBySession sessionId ≠ some .checking

/-! ## When it is so -/

def fulfils (isLocal connected : Bool) (captured : Captured) : NavAnswer → Bool
  | .path _ =>
    !isLocal && (!captured.enabled || !captured.active || captured.unsupported || !connected)
  | .entries _ => true
  | .error code => !isLocal && isSftpInitUnsupported code

def rejects (isLocal : Bool) : NavAnswer → Bool
  | .error code => isLocal || !isSftpInitUnsupported code
  | _ => false

/-- A request does not succeed after a later one of its session, and the last request in flight of
a session does not fail while the availability is being checked. -/
def NavInOrder (isLocal : Text → Bool) (w : NavWorld) : NavEvent → Prop
  | .answer k answer => ∀ request, w.requests[k]? = some request →
    (fulfils (isLocal request.sessionId) (w.connected request.sessionId) request.captured answer =
        true →
      ∀ later ∈ w.requests.drop (k + 1), later.viewOf request.sessionId = none) ∧
    (rejects (isLocal request.sessionId) answer = true →
      w.availabilityBySession request.sessionId = some .checking →
      ∃ (j : ℕ) (other : NavRequest), j ≠ k ∧ w.requests[j]? = some other ∧
        other.sessionId = request.sessionId ∧ other.stage.pending = true)
  | _ => True

/-! ## What a piece of a chain does -/

section Effects

variable {isLocal connected : Bool} {captured : Captured} {stage : NavStage}

/-- No call fails at once, and what is being checked is in flight. -/
structure NavEffect.Fair (isLocal : Bool) (effect : NavEffect) : Prop where
  ended : effect.stage ≠ .failed
  checking : effect.availability = some .checking →
    isLocal = false ∧ effect.stage.pending = true

theorem loadHomePath_fair : (loadHomePath isLocal connected captured).Fair isLocal := by
  unfold loadHomePath
  split
  · exact ⟨nofun, nofun⟩
  split
  · exact ⟨nofun, nofun⟩
  split
  · exact ⟨nofun, nofun⟩
  split
  · exact ⟨nofun, nofun⟩
  · exact ⟨nofun, fun _ => ⟨eq_false_of_ne_true ‹_›, rfl⟩⟩

theorem refreshList_fair (path : Text) :
    (refreshList isLocal connected captured path).Fair isLocal := by
  unfold refreshList
  split
  · exact ⟨nofun, nofun⟩
  split
  · exact ⟨nofun, nofun⟩
  split
  · exact ⟨nofun, nofun⟩
  split
  · exact ⟨nofun, nofun⟩
  split
  · exact loadHomePath_fair
  · exact ⟨nofun, nofun⟩

theorem openRemoteDir_fair (path : Text) :
    (openRemoteDir isLocal connected captured path).Fair isLocal := by
  unfold openRemoteDir
  split
  · exact refreshList_fair path
  split
  · exact ⟨nofun, nofun⟩
  split
  · exact ⟨nofun, nofun⟩
  · exact ⟨nofun, fun _ => ⟨eq_false_of_ne_true ‹_›, rfl⟩⟩

theorem refreshList_refused {path : Text} {view : FileView}
    (h : (refreshList isLocal connected captured path).stage = .shown view) :
    fulfils isLocal connected captured (.path path) = true := by
  unfold fulfils
  unfold refreshList loadHomePath at h
  revert h
  cases isLocal <;> cases captured.enabled <;> cases captured.active <;>
    cases captured.unsupported <;> cases connected <;> simp
  split <;> simp

/-- What an answer does to the chain of a request. -/
structure GoesOn (isLocal connected : Bool) (captured : Captured) (answer : NavAnswer)
    (effect : NavEffect) : Prop where
  shown : ∀ view, effect.stage = .shown view → fulfils isLocal connected captured answer = true
  failed : effect.stage = .failed → rejects isLocal answer = true
  checking : effect.availability = some .checking → isLocal = false ∧ effect.stage.pending = true
  known : isLocal = false → effect.stage.pending = false → effect.stage ≠ .failed →
    effect.availability.isSome = true

theorem goesOn_path {path : Text} {preset : Option SftpAvailability}
    (hpreset : preset ≠ some .checking) (hready : isLocal = false → preset.isSome = true) :
    GoesOn isLocal connected captured (.path path)
      ⟨(refreshList isLocal connected captured path).availability <|> preset,
        (refreshList isLocal connected captured path).stage⟩ where
  shown _ h := refreshList_refused h
  failed h := absurd h (refreshList_fair path).ended
  checking h := by
    refine (refreshList_fair path).checking ?_
    dsimp only at h
    cases hset : (refreshList isLocal connected captured path).availability with
    | none =>
      rw [hset] at h
      exact absurd h hpreset
    | some availability =>
      rw [hset] at h
      exact h
  known hlocal _ _ := by
    dsimp only
    cases (refreshList isLocal connected captured path).availability with
    | none => exact hready hlocal
    | some availability => rfl

theorem goesOn_error {code : Option Text} :
    GoesOn isLocal connected captured (.error code)
      (if !isLocal && isSftpInitUnsupported code then ⟨some .unsupported, .shown cleared⟩
      else ⟨none, .failed⟩) := by
  by_cases h : (!isLocal && isSftpInitUnsupported code) = true
  · rw [if_pos h]
    exact ⟨fun _ _ => h, nofun, nofun, fun _ _ _ => rfl⟩
  · rw [if_neg h]
    refine ⟨nofun, fun _ => ?_, nofun, fun _ _ hne => absurd rfl hne⟩
    show (isLocal || !isSftpInitUnsupported code) = true
    revert h
    generalize isSftpInitUnsupported code = unsupported
    cases isLocal <;> cases unsupported <;> simp

theorem goesOn_of_goOn {answer : NavAnswer} {effect : NavEffect}
    (h : goOn isLocal connected captured stage answer = some effect) :
    stage.pending = true ∧ GoesOn isLocal connected captured answer effect := by
  cases stage with
  | resolving =>
    cases answer with
    | path path =>
      cases h
      exact ⟨rfl, goesOn_path nofun fun _ => rfl⟩
    | entries => cases h
    | error code =>
      rw [goOn, ← apply_ite] at h
      cases h
      exact ⟨rfl, goesOn_error⟩
  | homing =>
    cases answer with
    | path path =>
      cases h
      refine ⟨rfl, goesOn_path ?_ fun hlocal => ?_⟩
      · split <;> simp
      · rw [hlocal]
        rfl
    | entries => cases h
    | error code =>
      rw [goOn, ← apply_ite] at h
      cases h
      exact ⟨rfl, goesOn_error⟩
  | listing path =>
    cases answer with
    | path => cases h
    | entries entries =>
      cases h
      refine ⟨rfl, fun _ _ => rfl, nofun, fun h => ?_, fun hlocal _ _ => ?_⟩
      · revert h
        cases isLocal <;> simp
      · rw [hlocal]
        rfl
    | error code =>
      rw [goOn, ← apply_ite] at h
      cases h
      exact ⟨rfl, goesOn_error⟩
  | shown => cases answer <;> cases h
  | failed => cases answer <;> cases h

end Effects

/-! ## What a step does -/

section Apply

variable {w : NavWorld} {effect : NavEffect} {requests : List NavRequest} {sessionId : Text}

theorem fileViews_apply (other : Text) :
    (w.apply sessionId effect requests).fileViews other =
      if other = sessionId then effect.stage.view? <|> w.fileViews other
      else w.fileViews other := by
  unfold NavWorld.apply
  cases hstage : effect.stage <;>
    simp [NavStage.view?, Function.update_apply]

theorem availability_apply (other : Text) :
    (w.apply sessionId effect requests).availabilityBySession other =
      if other = sessionId then effect.availability <|> w.availabilityBySession other
      else w.availabilityBySession other := by
  unfold NavWorld.apply
  cases hset : effect.availability <;> simp [Function.update_apply]

theorem getLast?_viewOf (before after : List NavRequest) (request : NavRequest) (other : Text)
    (hafter : request.viewOf other ≠ none → ∀ later ∈ after, later.viewOf other = none) :
    ((before ++ request :: after).filterMap (NavRequest.viewOf other)).getLast? =
      (request.viewOf other <|>
        ((before ++ after).filterMap (NavRequest.viewOf other)).getLast?) := by
  cases hview : request.viewOf other with
  | none => simp [List.filterMap_append, hview]
  | some view =>
    have hnone : after.filterMap (NavRequest.viewOf other) = [] :=
      List.filterMap_eq_nil_iff.mpr (hafter (by rw [hview]; nofun))
    simp [List.filterMap_append, hview, hnone]

end Apply

/-- What is kept in runs that are in order. -/
structure NavKept (isLocal : Text → Bool) (w : NavWorld) : Prop where
  view : ∀ sessionId, w.fileViews sessionId = w.lastShown sessionId
  checking : ∀ sessionId, w.availabilityBySession sessionId = some .checking →
    isLocal sessionId = false ∧ w.InFlight sessionId

namespace NavKept

variable {isLocal : Text → Bool} {w : NavWorld}

theorem apply (h : NavKept isLocal w) {before after : List NavRequest} {sessionId : Text}
    {captured : Captured} {effect : NavEffect}
    (hlast : ∀ other, w.lastShown other =
      ((before ++ after).filterMap (NavRequest.viewOf other)).getLast?)
    (hkept : ∀ other, w.InFlight other → other ≠ sessionId →
      ∃ request ∈ before ++ after, request.sessionId = other ∧ request.stage.pending = true)
    (hshown : ∀ view, effect.stage = .shown view →
      ∀ later ∈ after, later.viewOf sessionId = none)
    (hchecking : effect.availability = some .checking →
      isLocal sessionId = false ∧ effect.stage.pending = true)
    (hleft : effect.availability = none → w.availabilityBySession sessionId = some .checking →
      effect.stage.pending = true ∨
        ∃ request ∈ before ++ after, request.sessionId = sessionId ∧
          request.stage.pending = true) :
    NavKept isLocal
      (w.apply sessionId effect (before ++ ⟨sessionId, captured, effect.stage⟩ :: after)) where
  view other := by
    rw [fileViews_apply, h.view, NavWorld.lastShown]
    show _ =
      ((before ++ NavRequest.mk sessionId captured effect.stage :: after).filterMap _).getLast?
    rw [getLast?_viewOf, ← hlast]
    · by_cases hother : other = sessionId
      · subst hother
        simp [NavRequest.viewOf, NavWorld.lastShown]
      · simp [NavRequest.viewOf, NavWorld.lastShown, hother, Ne.symm hother]
    · intro hview
      by_cases hother : other = sessionId
      · subst hother
        cases hstage : effect.stage with
        | shown view => exact hshown view hstage
        | _ => simp [NavRequest.viewOf, NavStage.view?, hstage] at hview
      · simp [NavRequest.viewOf, Ne.symm hother] at hview
  checking other hother := by
    have hmem : ∀ request ∈ before ++ after,
        request ∈ before ++ NavRequest.mk sessionId captured effect.stage :: after := by
      intro request hrequest
      rcases List.mem_append.mp hrequest with hb | ha
      · exact List.mem_append_left _ hb
      · exact List.mem_append_right _ (List.mem_cons_of_mem _ ha)
    have hself : NavRequest.mk sessionId captured effect.stage ∈
        before ++ NavRequest.mk sessionId captured effect.stage :: after := by simp
    rw [availability_apply] at hother
    split at hother
    · rename_i heq
      subst heq
      cases hset : effect.availability with
      | some availability =>
        rw [hset] at hother
        obtain ⟨hlocal, hpending⟩ := hchecking (hset.trans hother)
        exact ⟨hlocal, _, hself, rfl, hpending⟩
      | none =>
        rw [hset] at hother
        refine ⟨(h.checking other hother).1, ?_⟩
        rcases hleft hset hother with hpending | ⟨request, hrequest, hsession, hpending⟩
        · exact ⟨_, hself, rfl, hpending⟩
        · exact ⟨request, hmem request hrequest, hsession, hpending⟩
    · rename_i hne
      obtain ⟨hlocal, hflight⟩ := h.checking other hother
      obtain ⟨request, hrequest, hsession, hpending⟩ := hkept other hflight hne
      exact ⟨hlocal, request, hmem request hrequest, hsession, hpending⟩

theorem call (h : NavKept isLocal w) {sessionId : Text} {captured : Captured} {effect : NavEffect}
    (hfair : effect.Fair (isLocal sessionId)) :
    NavKept isLocal (w.call sessionId captured effect) := by
  refine @NavKept.apply _ _ h _ [] _ _ _ ?_ ?_ ?_ hfair.checking ?_
  · intro other
    rw [List.append_nil]
    rfl
  · intro other hflight _
    rw [List.append_nil]
    exact hflight
  · exact fun _ _ _ hlater => absurd hlater List.not_mem_nil
  · intro _ hchecking
    rw [List.append_nil]
    exact .inr (h.checking sessionId hchecking).2

theorem answer (h : NavKept isLocal w) {k : ℕ} {request : NavRequest} {answer : NavAnswer}
    {effect : NavEffect} (hrequest : w.requests[k]? = some request)
    (hgo : goOn (isLocal request.sessionId) (w.connected request.sessionId) request.captured
      request.stage answer = some effect)
    (horder : NavInOrder isLocal w (.answer k answer)) :
    NavKept isLocal (w.apply request.sessionId effect
      (w.requests.set k { request with stage := effect.stage })) := by
  obtain ⟨hpending, hgoes⟩ := goesOn_of_goOn hgo
  obtain ⟨hovertaken, hlast⟩ := horder request hrequest
  obtain ⟨hk, hget⟩ := List.getElem?_eq_some_iff.mp hrequest
  have hsplit : w.requests = w.requests.take k ++ request :: w.requests.drop (k + 1) := by
    rw [← hget, ← List.drop_eq_getElem_cons hk, List.take_append_drop]
  have hset : w.requests.set k { request with stage := effect.stage } =
      w.requests.take k ++ { request with stage := effect.stage } :: w.requests.drop (k + 1) :=
    List.set_eq_take_append_cons_drop ..|>.trans (if_pos hk)
  have hothers : ∀ (j : ℕ) (other : NavRequest), j ≠ k → w.requests[j]? = some other →
      other ∈ w.requests.take k ++ w.requests.drop (k + 1) := by
    intro j other hjk hother
    rw [← List.eraseIdx_eq_take_drop_succ]
    exact List.mem_eraseIdx_iff_getElem?.mpr ⟨j, hjk, hother⟩
  rw [hset]
  refine h.apply ?_ ?_ ?_ hgoes.checking ?_
  · intro other
    rw [NavWorld.lastShown]
    conv_lhs => rw [hsplit]
    rw [getLast?_viewOf]
    · have hnone : request.viewOf other = none := by
        unfold NavRequest.viewOf
        revert hpending
        cases request.stage <;> simp [NavStage.pending, NavStage.view?]
      rw [hnone]
      rfl
    · intro hview
      revert hview hpending
      unfold NavRequest.viewOf
      cases request.stage <;> simp [NavStage.pending, NavStage.view?]
  · rintro other ⟨before, hbefore, hsession, hbusy⟩ hne
    obtain ⟨j, hj⟩ := List.mem_iff_getElem?.mp hbefore
    refine ⟨before, hothers j before ?_ hj, hsession, hbusy⟩
    rintro rfl
    rw [hrequest] at hj
    cases hj
    exact hne hsession.symm
  · exact fun view hview => hovertaken (hgoes.shown view hview)
  · intro hunset hchecking
    by_cases hended : effect.stage.pending = true
    · exact .inl hended
    · right
      have hlocal := (h.checking _ hchecking).1
      have hfailed : effect.stage = .failed := by
        by_contra hne
        have hsome := hgoes.known hlocal (eq_false_of_ne_true hended) hne
        rw [hunset] at hsome
        cases hsome
      obtain ⟨j, other, hjk, hother, hsame, hbusy⟩ := hlast (hgoes.failed hfailed) hchecking
      exact ⟨other, hothers j other hjk hother, hsame, hbusy⟩

protected theorem start (connected : Text → Bool) : NavKept isLocal (.start connected) :=
  ⟨fun _ => rfl, nofun⟩

theorem next {event : NavEvent} {w' : NavWorld} (h : NavKept isLocal w)
    (horder : NavInOrder isLocal w event) (hstep : w.next isLocal event = some w') :
    NavKept isLocal w' := by
  cases event with
  | connection sessionId connected =>
    cases hstep
    exact ⟨h.view, h.checking⟩
  | openRemoteDir sessionId captured path =>
    cases hstep
    exact h.call (openRemoteDir_fair path)
  | refreshList sessionId captured path =>
    cases hstep
    exact h.call (refreshList_fair path)
  | loadHomePath sessionId captured =>
    cases hstep
    exact h.call loadHomePath_fair
  | answer k answer =>
    obtain ⟨request, hrequest, hstep⟩ := Option.bind_eq_some_iff.mp hstep
    obtain ⟨effect, hgo, hstep⟩ := Option.bind_eq_some_iff.mp hstep
    cases hstep
    exact h.answer hrequest hgo horder

end NavKept

/-- **The last request wins** in every run in which no request succeeds after a later one of its
session, and the last request in flight of a session does not fail during a check. -/
theorem lastWins_of_inOrder (isLocal connected : Text → Bool) (w : NavWorld)
    (h : ((navMachine isLocal connected).restrict (NavInOrder isLocal)).Reachable w) :
    LastWins w := by
  have hkept : NavKept isLocal w :=
    h.induct (fun _ hinit => by cases hinit; exact NavKept.start connected)
      fun _ _ _ _ hkept hstep => hkept.next hstep.1 hstep.2
  exact ⟨fun sessionId _ => hkept.view sessionId,
    fun sessionId hidle hchecking => hidle (hkept.checking sessionId hchecking).2⟩

/-! ## Sample runs -/

def sampleCaptured : Captured := ⟨true, true, false⟩

def sampleEntry : SftpEntry := ⟨"/a/x".toList, "x".toList, false⟩

/-- A directory is opened, and its entries arrive. -/
theorem lastWins_of_inOrder_sampleOpen : ∃ w : NavWorld, LastWins w ∧
    w.fileViews ['s'] = some ⟨"/a".toList, [sampleEntry]⟩ ∧
    w.availabilityBySession ['s'] = some .ready := by
  have hstart : ((navMachine (fun _ => false) fun _ => true).restrict
      (NavInOrder fun _ => false)).Reachable (.start fun _ => true) := .init rfl
  have hopened := hstart.step ⟨show NavInOrder _ _ (.openRemoteDir ['s'] sampleCaptured
    "a".toList) from trivial, rfl⟩
  have hresolved := hopened.step ⟨show NavInOrder _ _ (.answer 0 (.path "/a".toList)) from
    fun _ _ => ⟨fun _ _ hlater => absurd hlater List.not_mem_nil, nofun⟩, rfl⟩
  have hlisted := hresolved.step ⟨show NavInOrder _ _ (.answer 0 (.entries [sampleEntry])) from
    fun _ _ => ⟨fun _ _ hlater => absurd hlater List.not_mem_nil, nofun⟩, rfl⟩
  exact ⟨_, lastWins_of_inOrder _ _ _ hlisted, rfl, rfl⟩

/-- `/b` is opened after `/a`, and its entries arrive first. -/
def overtaken : List NavEvent :=
  [.openRemoteDir ['s'] sampleCaptured "/a".toList, .openRemoteDir ['s'] sampleCaptured "/b".toList,
    .answer 0 (.path "/a".toList), .answer 1 (.path "/b".toList), .answer 1 (.entries []),
    .answer 0 (.entries [sampleEntry])]

/-- The directory of the first call stays in the panel. -/
theorem overtaken_shows : ¬∀ (isLocal connected : Text → Bool) (w : NavWorld),
    (navMachine isLocal connected).Reachable w → LastWins w := by
  intro h
  have hrun : ∃ w, Machine.exec (NavWorld.next fun _ => false) (.start fun _ => true) overtaken =
      some w ∧ (w.requests.all fun request => !request.stage.pending) = true ∧
      w.fileViews ['s'] = some ⟨"/a".toList, [sampleEntry]⟩ ∧
      w.lastShown ['s'] = some ⟨"/b".toList, []⟩ := ⟨_, rfl, rfl, rfl, rfl⟩
  obtain ⟨w, hexec, hdone, hview, hlast⟩ := hrun
  have hidle : ¬w.InFlight ['s'] := by
    rintro ⟨request, hrequest, -, hpending⟩
    have hended := List.all_eq_true.mp hdone request hrequest
    rw [hpending] at hended
    cases hended
  have hwins := (h _ _ w (Machine.reachable_exec hexec)).view ['s'] hidle
  rw [hview, hlast] at hwins
  cases hwins

end FluxTerm.Sftp
