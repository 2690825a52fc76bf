import FluxTerm.Ai.ChatStream
import FluxTerm.Ai.SessionPrompt
import FluxTerm.Lib.Transducer

/-!
# FluxTerm — cached answers

`ai_session_chat` and `ai_session_chat_stream_start` of `src-tauri/src/commands/ai.rs`, with the
request cache of `src-tauri/src/ai/mod.rs` that both use, for any interleaving of calls, replies,
stream endings, saves of the settings and the passing of time.

* **`transparent_iff`** — a run stays transparent if and only if each of its steps meets **`Met`**.

The key of the cache is a hash of the input alone, which is a parameter.
-/

namespace FluxTerm.Ai.AnswerCache

open FluxTerm.Ai.ChatStream FluxTerm.Ai.SessionPrompt FluxTerm.Engine FluxTerm.Lib
open Security (trim)

/-! ## Requests -/

structure OpenAiClientConfig where
  apiKey : Text
  baseUrl : Text
  model : Text
  timeoutMs : ℕ
deriving DecidableEq

def aiProviderConfigInvalid : EngineError :=
  .new "ai_provider_config_invalid" "The active AI provider configuration is incomplete"

/-- `read_active_provider_config`. The key may be unavailable. -/
def readActiveProviderConfig (settings : AiSettings) (apiKey : Except EngineError Text) :
    Except EngineError OpenAiClientConfig :=
  match settings.providers.find? (·.id = settings.activeProviderId) with
  | none => .error aiProviderConfigInvalid
  | some provider =>
    if trim provider.baseUrl = [] ∨ trim provider.model = [] then .error aiProviderConfigInvalid
    else do
      return {
        apiKey := ← apiKey
        baseUrl := trim provider.baseUrl
        model := trim provider.model
        timeoutMs := settings.limits.requestTimeoutMs }

structure ActiveProvider where
  id : Text
  baseUrl : Text
  model : Text
deriving DecidableEq

def activeProvider (settings : AiSettings) : Option ActiveProvider :=
  (settings.providers.find? (·.id = settings.activeProviderId)).map fun provider =>
    ⟨provider.id, trim provider.baseUrl, trim provider.model⟩

structure Call where
  input : OpenAiSessionChatInput
  config : OpenAiClientConfig
  provider : Option ActiveProvider
  ttlMs : ℕ
  finished : Bool

structure StreamCall where
  call : Call
  requestId : Text
  arrivals : List Arrival
  cancelled : Bool

/-! ## The store -/

inductive Response where
  | chat (content : Text)
  | stream (arrivals : List Arrival)

structure Origin where
  input : OpenAiSessionChatInput
  provider : Option ActiveProvider
  response : Response
  storedAt : ℕ
  lifetimeMs : ℕ

structure CachedAiResponse where
  content : Text
  expiresAt : ℕ
  origin : Origin

structure AiRuntimeStore (κ : Type) where
  sessions : Text → Option SessionContext
  activeStreams : Text → Option ℕ
  requestCache : κ → Option CachedAiResponse

structure World (κ : Type) where
  settings : AiSettings
  now : ℕ
  store : AiRuntimeStore κ
  chats : List Call
  streams : List StreamCall

structure CacheAnswer where
  input : OpenAiSessionChatInput
  content : Text
deriving DecidableEq

def chunksOf (arrivals : List Arrival) : List Bytes :=
  arrivals.filterMap fun
    | .chunk bytes _ => some bytes
    | .broken _ => none

variable {κ : Type} [DecidableEq κ] (serde : SerdeJson)
  (digest : String → OpenAiSessionChatInput → κ)

/-- `build_cache_key("session_chat", input)`. -/
def buildCacheKey (input : OpenAiSessionChatInput) : κ := digest "session_chat" input

def Response.text : Response → Text
  | .chat content => content
  | .stream arrivals => (receive serde [] arrivals).1.flatten

/-- The response came to its end: the body of a stream has a `[DONE]` event. -/
def Response.isComplete : Response → Bool
  | .chat _ => true
  | .stream arrivals => (dataGroups (chunkText (chunksOf arrivals))).any (·.contains doneMark)

namespace World
variable (w : World κ)

def withStore (store : AiRuntimeStore κ) : World κ := { w with store }

def pruneExpiredCache : World κ :=
  w.withStore { w.store with
    requestCache := fun key => (w.store.requestCache key).filter (w.now < ·.expiresAt) }

def getCachedResponse (key : κ) : World κ × Option Text :=
  (w.pruneExpiredCache, (w.pruneExpiredCache.store.requestCache key).map (·.content))

/-- `store_cached_response`, for the answer of a call. -/
def storeCachedResponse (call : Call) (content : Text) (response : Response) : World κ :=
  let pruned := w.pruneExpiredCache
  pruned.withStore { pruned.store with
    requestCache := Function.update pruned.store.requestCache (buildCacheKey digest call.input)
      (some {
        content
        expiresAt := w.now + call.ttlMs
        origin := {
          input := call.input
          provider := call.provider
          response
          storedAt := w.now
          lifetimeMs := w.settings.limits.requestCacheTtlMs } }) }

/-- What both commands do first. -/
def prepare (request : AiSessionChatRequest) (apiKey : Except EngineError Text) :
    Except EngineError Call := do
  let config ← readActiveProviderConfig w.settings apiKey
  let input ← buildSessionChatInput w.store.sessions request w.settings
  return {
    input
    config
    provider := activeProvider w.settings
    ttlMs := w.settings.limits.requestCacheTtlMs
    finished := false }

/-- What both commands do first: the answer of the cache, or the call that is to be made. -/
def ask (request : AiSessionChatRequest) (apiKey : Except EngineError Text) :
    World κ × List CacheAnswer × Option Call :=
  match w.prepare request apiKey with
  | .error _ => (w, [], none)
  | .ok call =>
    match w.getCachedResponse (buildCacheKey digest call.input) with
    | (next, some content) => (next, [⟨call.input, content⟩], none)
    | (next, none) => (next, [], some call)

/-- `ai_session_chat`, up to the request to the provider. -/
def aiSessionChat (request : AiSessionChatRequest) (apiKey : Except EngineError Text) :
    World κ × List CacheAnswer :=
  match w.ask digest request apiKey with
  | (next, answers, none) => (next, answers)
  | (next, answers, some call) => ({ next with chats := next.chats ++ [call] }, answers)

/-- `ai_session_chat`, when the provider has answered, or the request has failed. -/
def chatReplied (index : ℕ) (reply : Except EngineError ChatMessage) : World κ :=
  match w.chats[index]? with
  | none => w
  | some call =>
    if call.finished then w
    else
      let next := { w with chats := w.chats.set index { call with finished := true } }
      match reply with
      | .error _ => next
      | .ok message => next.storeCachedResponse digest call message.content (.chat message.content)

/-- `ai_session_chat_stream_start`, up to the request to the provider. -/
def aiSessionChatStreamStart (requestId : Text) (request : AiSessionChatRequest)
    (apiKey : Except EngineError Text) : World κ × List CacheAnswer :=
  match w.ask digest request apiKey with
  | (next, answers, none) => (next, answers)
  | (next, answers, some call) =>
    -- `register_chat_stream`
    ({ next with
        store := { next.store with
          activeStreams :=
            Function.update next.store.activeStreams requestId (some next.streams.length) }
        streams := next.streams ++ [{ call, requestId, arrivals := [], cancelled := false }] },
      answers)

/-- A chunk of a stream arrives, or the connection breaks. -/
def streamArrived (index : ℕ) (part : Except OpenAiError Bytes) : World κ :=
  match w.streams[index]? with
  | none => w
  | some stream =>
    let arrival : Arrival :=
      match part with
      | .ok bytes => .chunk bytes stream.cancelled
      | .error err => .broken err
    let arrivals := stream.arrivals ++ [arrival]
    { w with streams := w.streams.set index { stream with arrivals } }

def cancelChatStream (requestId : Text) : World κ :=
  match (w.store.activeStreams requestId).bind (w.streams[·]?), w.store.activeStreams requestId with
  | some stream, some index =>
    { w with streams := w.streams.set index { stream with cancelled := true } }
  | _, _ => w

/-- The end of the task of `ai_session_chat_stream_start`. It fails if the request does, or if a
chunk cannot be passed on; else it ends as the response does. -/
def streamEnded (index : ℕ) (failure : Option EngineError) : World κ :=
  match w.streams[index]? with
  | none => w
  | some stream =>
    if stream.call.finished then w
    else
      -- `finish_chat_stream`
      let next := { w with
        store := { w.store with
          activeStreams := Function.update w.store.activeStreams stream.requestId none }
        streams := w.streams.set index
          { stream with call := { stream.call with finished := true } } }
      let (pieces, result) := receive serde [] stream.arrivals
      if failure.isNone && result.isOk && !stream.cancelled && !pieces.flatten.isEmpty then
        next.storeCachedResponse digest stream.call pieces.flatten (.stream stream.arrivals)
      else next
end World

inductive AiEvent where
  /-- `ai_settings_save`: the settings that are saved. -/
  | save (settings : AiSettings)
  | record (sessions : Text → Option SessionContext)
  | elapse (ms : ℕ)
  | chat (request : AiSessionChatRequest) (apiKey : Except EngineError Text)
  | chatReplied (index : ℕ) (reply : Except EngineError ChatMessage)
  | streamStart (requestId : Text) (request : AiSessionChatRequest)
      (apiKey : Except EngineError Text)
  | streamArrived (index : ℕ) (part : Except OpenAiError Bytes)
  | streamCancel (requestId : Text)
  | streamEnded (index : ℕ) (failure : Option EngineError)

def World.on (w : World κ) : AiEvent → World κ × List CacheAnswer
  | .save settings => ({ w with settings }, [])
  | .record sessions => (w.withStore { w.store with sessions }, [])
  | .elapse ms => ({ w with now := w.now + ms }, [])
  | .chat request apiKey => w.aiSessionChat digest request apiKey
  | .chatReplied index reply => (w.chatReplied digest index reply, [])
  | .streamStart requestId request apiKey =>
    w.aiSessionChatStreamStart digest requestId request apiKey
  | .streamArrived index part => (w.streamArrived index part, [])
  | .streamCancel requestId => (w.cancelChatStream requestId, [])
  | .streamEnded index failure => (w.streamEnded serde digest index failure, [])

/-- The store when the application starts. -/
def World.start (settings : AiSettings) (now : ℕ) : World κ where
  settings := settings
  now := now
  store := {
    sessions := fun _ => none
    activeStreams := fun _ => none
    requestCache := fun _ => none }
  chats := []
  streams := []

def World.run (w : World κ) (events : List AiEvent) : World κ × List CacheAnswer :=
  feed (World.on serde digest) w events

/-! ## Transparency -/

/-- A cached answer is the complete answer that the active provider gave for an input, within the
lifetime that was configured when it was stored. -/
structure Genuine (w : World κ) (input : OpenAiSessionChatInput) (entry : CachedAiResponse) :
    Prop where
  input : entry.origin.input = input
  given : entry.content = entry.origin.response.text serde
  complete : entry.origin.response.isComplete = true
  active : entry.origin.provider = activeProvider w.settings
  inTime : w.now < entry.origin.storedAt + entry.origin.lifetimeMs

/-- What the cache has for a request is genuine, whatever its input is. -/
def Transparent (w : World κ) : Prop :=
  ∀ input content, (w.getCachedResponse (buildCacheKey digest input)).2 = some content →
    ∃ entry, w.store.requestCache (buildCacheKey digest input) = some entry
      ∧ entry.content = content ∧ Genuine serde w input entry

/-- The answer of a call can be stored: its response has come to its end, and the provider it was
sent to is still the active one. An answer without a lifetime is never found. -/
def StoresWell (w : World κ) (call : Call) (response : Response) : Prop :=
  call.ttlMs = 0 ∨
    (response.isComplete = true ∧ call.provider = activeProvider w.settings
      ∧ 0 < w.settings.limits.requestCacheTtlMs)

/-- A save leaves the provider as it is that the cached answers came from; no answer outlives the
lifetime that was configured when it was stored; and what is stored is stored well. -/
def Met (w : World κ) : AiEvent → Prop
  | .save settings => ∀ key entry, w.store.requestCache key = some entry →
      w.now < entry.expiresAt → entry.origin.provider = activeProvider settings
  | .elapse ms => ∀ key entry, w.store.requestCache key = some entry →
      w.now + ms < entry.expiresAt →
      w.now + ms < entry.origin.storedAt + entry.origin.lifetimeMs
  | .chatReplied index (.ok message) => ∀ call, w.chats[index]? = some call →
      call.finished = false → StoresWell w call (.chat message.content)
  | .streamEnded index none => ∀ stream, w.streams[index]? = some stream →
      stream.call.finished = false → stream.cancelled = false →
      (receive serde [] stream.arrivals).2.isOk = true →
      (receive serde [] stream.arrivals).1.flatten ≠ [] →
      StoresWell w stream.call (.stream stream.arrivals)
  | _ => True

/-- The entries are under the keys of their inputs, with the texts of their responses. -/
def Recorded (w : World κ) : Prop :=
  ∀ key entry, w.store.requestCache key = some entry →
    key = buildCacheKey digest entry.origin.input
      ∧ entry.content = entry.origin.response.text serde

/-- The entries that are not expired came from the active provider, in full and in time. -/
def Clean (w : World κ) : Prop :=
  ∀ key entry, w.store.requestCache key = some entry → w.now < entry.expiresAt →
    entry.origin.response.isComplete = true
      ∧ entry.origin.provider = activeProvider w.settings
      ∧ w.now < entry.origin.storedAt + entry.origin.lifetimeMs

section
variable {serde digest} {w : World κ}

omit [DecidableEq κ] in
theorem pruned_eq_some {key : κ} {entry : CachedAiResponse} :
    w.pruneExpiredCache.store.requestCache key = some entry
      ↔ w.store.requestCache key = some entry ∧ w.now < entry.expiresAt := by
  show (w.store.requestCache key).filter (w.now < ·.expiresAt) = some entry ↔ _
  rw [Option.filter_eq_some_iff, decide_eq_true_iff]

omit [DecidableEq κ] in
theorem getCachedResponse_eq_some {key : κ} {content : Text} :
    (w.getCachedResponse key).2 = some content
      ↔ ∃ entry, w.store.requestCache key = some entry ∧ w.now < entry.expiresAt
        ∧ entry.content = content := by
  show (w.pruneExpiredCache.store.requestCache key).map (·.content) = some content ↔ _
  rw [Option.map_eq_some_iff]
  refine exists_congr fun entry => ?_
  rw [pruned_eq_some, and_assoc]

omit [DecidableEq κ] in
theorem transparent_iff_clean (hdigest : Function.Injective (digest "session_chat"))
    (hw : Recorded serde digest w) : Transparent serde digest w ↔ Clean w := by
  constructor
  · intro h key entry hentry hlive
    obtain ⟨rfl, -⟩ := hw key entry hentry
    obtain ⟨found, hfound, -, hgenuine⟩ :=
      h entry.origin.input entry.content (getCachedResponse_eq_some.mpr ⟨entry, hentry, hlive, rfl⟩)
    obtain rfl := Option.some.inj (hentry.symm.trans hfound)
    exact ⟨hgenuine.complete, hgenuine.active, hgenuine.inTime⟩
  · intro h input content hcached
    obtain ⟨entry, hentry, hlive, hcontent⟩ := getCachedResponse_eq_some.mp hcached
    obtain ⟨hkey, htext⟩ := hw _ entry hentry
    obtain ⟨hcomplete, hactive, hinTime⟩ := h _ entry hentry hlive
    exact ⟨entry, hentry, hcontent, (hdigest hkey).symm, htext, hcomplete, hactive, hinTime⟩

/-! ## Steps -/

omit [DecidableEq κ] in
theorem Recorded.prune (hw : Recorded serde digest w) : Recorded serde digest w.pruneExpiredCache :=
  fun key entry hentry => hw key entry (pruned_eq_some.mp hentry).1

omit [DecidableEq κ] in
theorem clean_prune : Clean w.pruneExpiredCache ↔ Clean w := by
  refine forall₂_congr fun key entry => ?_
  rw [pruned_eq_some]
  exact ⟨fun h hentry hlive => h ⟨hentry, hlive⟩ hlive, fun h hentry => h hentry.1⟩

theorem stored_cache (call : Call) (content : Text) (response : Response) :
    (w.storeCachedResponse digest call content response).store.requestCache
      = Function.update w.pruneExpiredCache.store.requestCache (buildCacheKey digest call.input)
        (some ⟨content, w.now + call.ttlMs, ⟨call.input, call.provider, response, w.now,
          w.settings.limits.requestCacheTtlMs⟩⟩) := rfl

theorem Recorded.store (hw : Recorded serde digest w) {call : Call} {content : Text}
    {response : Response} (hcontent : content = response.text serde) :
    Recorded serde digest (w.storeCachedResponse digest call content response) := by
  intro key entry hentry
  rw [stored_cache] at hentry
  by_cases hkey : key = buildCacheKey digest call.input
  · subst hkey
    rw [Function.update_self] at hentry
    obtain rfl := Option.some.inj hentry
    exact ⟨rfl, hcontent⟩
  · rw [Function.update_of_ne hkey] at hentry
    exact hw.prune key entry hentry

theorem clean_store_iff (hw : Clean w) (call : Call) (content : Text) (response : Response) :
    Clean (w.storeCachedResponse digest call content response) ↔ StoresWell w call response := by
  constructor
  · intro h
    rcases Nat.eq_zero_or_pos call.ttlMs with hzero | hpos
    · exact .inl hzero
    · have hnew := h (buildCacheKey digest call.input)
      rw [stored_cache, Function.update_self] at hnew
      obtain ⟨hcomplete, hactive, hinTime⟩ := hnew _ rfl (Nat.lt_add_of_pos_right hpos)
      exact .inr ⟨hcomplete, hactive, Nat.lt_add_right_iff_pos.mp hinTime⟩
  · intro h key entry hentry hlive
    rw [stored_cache] at hentry
    by_cases hkey : key = buildCacheKey digest call.input
    · subst hkey
      rw [Function.update_self] at hentry
      obtain rfl := Option.some.inj hentry
      rcases h with hzero | ⟨hcomplete, hactive, hpos⟩
      · have hnow : w.now < w.now + call.ttlMs := hlive
        omega
      · exact ⟨hcomplete, hactive, Nat.lt_add_of_pos_right hpos⟩
    · rw [Function.update_of_ne hkey] at hentry
      exact hw key entry (pruned_eq_some.mp hentry).1 hlive

omit [DecidableEq κ] in
theorem ask_spec (w : World κ) (request : AiSessionChatRequest)
    (apiKey : Except EngineError Text) :
    ((w.ask digest request apiKey).1 = w ∨ (w.ask digest request apiKey).1 = w.pruneExpiredCache)
      ∧ ∀ answer ∈ (w.ask digest request apiKey).2.1,
        (w.getCachedResponse (buildCacheKey digest answer.input)).2 = some answer.content := by
  unfold World.ask
  cases w.prepare request apiKey with
  | error err => exact ⟨.inl rfl, fun _ h => nomatch h⟩
  | ok call =>
    dsimp only
    split
    · rename_i next content hcached
      refine ⟨.inr (congrArg Prod.fst hcached).symm, ?_⟩
      intro answer hanswer
      obtain rfl := List.mem_singleton.mp hanswer
      exact congrArg Prod.snd hcached
    · rename_i next hcached
      exact ⟨.inr (congrArg Prod.fst hcached).symm, fun _ h => nomatch h⟩

omit [DecidableEq κ] in
theorem ask_clean (serde : SerdeJson) (request : AiSessionChatRequest)
    (apiKey : Except EngineError Text) :
    (Clean (w.ask digest request apiKey).1 ↔ Clean w)
      ∧ (Recorded serde digest w → Recorded serde digest (w.ask digest request apiKey).1) := by
  rcases (ask_spec w request apiKey).1 with h | h
  · rw [h]
    exact ⟨Iff.rfl, id⟩
  · rw [h]
    exact ⟨clean_prune, Recorded.prune⟩

omit [DecidableEq κ] in
theorem call_clean (serde : SerdeJson) (request : AiSessionChatRequest)
    (apiKey : Except EngineError Text) :
    (Clean (w.aiSessionChat digest request apiKey).1 ↔ Clean w)
      ∧ (Recorded serde digest w →
        Recorded serde digest (w.aiSessionChat digest request apiKey).1) := by
  have hask := @ask_clean κ digest w serde request apiKey
  unfold World.aiSessionChat
  split
  · rename_i next answers hcall
    rw [hcall] at hask
    exact hask
  · rename_i next answers call hcall
    rw [hcall] at hask
    exact hask

omit [DecidableEq κ] in
theorem stream_clean (serde : SerdeJson) (requestId : Text) (request : AiSessionChatRequest)
    (apiKey : Except EngineError Text) :
    (Clean (w.aiSessionChatStreamStart digest requestId request apiKey).1 ↔ Clean w)
      ∧ (Recorded serde digest w →
        Recorded serde digest (w.aiSessionChatStreamStart digest requestId request apiKey).1) := by
  have hask := @ask_clean κ digest w serde request apiKey
  unfold World.aiSessionChatStreamStart
  split
  · rename_i next answers hcall
    rw [hcall] at hask
    exact hask
  · rename_i next answers call hcall
    rw [hcall] at hask
    exact hask

theorem clean_chatReplied_iff (hw : Clean w) (index : ℕ)
    (reply : Except EngineError ChatMessage) :
    Clean (w.chatReplied digest index reply) ↔ Met serde w (.chatReplied index reply) := by
  unfold World.chatReplied
  cases reply with
  | error err =>
    refine iff_of_true ?_ trivial
    split
    · exact hw
    · split <;> exact hw
  | ok message =>
    show _ ↔ ∀ call, w.chats[index]? = some call → call.finished = false →
      StoresWell w call (.chat message.content)
    cases w.chats[index]? with
    | none => exact iff_of_true hw (fun _ h => nomatch h)
    | some call =>
      dsimp only
      by_cases hfinished : call.finished = true
      · rw [if_pos hfinished]
        refine iff_of_true hw ?_
        rintro other ⟨⟩ hrunning
        rw [hfinished] at hrunning
        cases hrunning
      · rw [if_neg hfinished]
        have hnext : Clean { w with
          chats := w.chats.set index { call with finished := true } } := hw
        rw [clean_store_iff hnext]
        constructor
        · rintro h other ⟨⟩ -
          exact h
        · intro h
          exact h call rfl (Bool.eq_false_iff.mpr hfinished)

theorem clean_streamEnded_iff (hw : Clean w) (index : ℕ) (failure : Option EngineError) :
    Clean (w.streamEnded serde digest index failure)
      ↔ Met serde w (.streamEnded index failure) := by
  unfold World.streamEnded
  cases failure with
  | some err =>
    refine iff_of_true ?_ trivial
    split
    · exact hw
    · split <;> exact hw
  | none =>
    show _ ↔ ∀ stream, w.streams[index]? = some stream → stream.call.finished = false →
      stream.cancelled = false → (receive serde [] stream.arrivals).2.isOk = true →
      (receive serde [] stream.arrivals).1.flatten ≠ [] →
      StoresWell w stream.call (.stream stream.arrivals)
    cases w.streams[index]? with
    | none => exact iff_of_true hw (fun _ h => nomatch h)
    | some stream =>
      dsimp only
      by_cases hfinished : stream.call.finished = true
      · rw [if_pos hfinished]
        refine iff_of_true hw ?_
        rintro other ⟨⟩ hrunning
        rw [hfinished] at hrunning
        cases hrunning
      · rw [if_neg hfinished]
        split
        · rename_i hstored
          simp only [Bool.and_eq_true, Bool.not_eq_true', List.isEmpty_eq_false_iff] at hstored
          rw [clean_store_iff (by exact hw)]
          constructor
          · rintro h other ⟨⟩ - - - -
            exact h
          · intro h
            exact h stream rfl (Bool.eq_false_iff.mpr hfinished) hstored.1.2 hstored.1.1.2
              hstored.2
        · rename_i hskipped
          refine iff_of_true hw ?_
          rintro other ⟨⟩ - hrunning hok htext
          exact absurd (by simp [hrunning, hok, htext]) hskipped

/-- **One step** keeps the cache clean if and only if it meets the condition. -/
theorem clean_on_iff (hw : Clean w) (event : AiEvent) :
    Clean (w.on serde digest event).1 ↔ Met serde w event := by
  cases event with
  | save settings =>
    constructor
    · intro h key entry hentry hlive
      exact (h key entry hentry hlive).2.1
    · intro h key entry hentry hlive
      obtain ⟨hcomplete, -, hinTime⟩ := hw key entry hentry hlive
      exact ⟨hcomplete, h key entry hentry hlive, hinTime⟩
  | record sessions => exact iff_true_intro hw
  | elapse ms =>
    constructor
    · intro h key entry hentry hlive
      exact (h key entry hentry hlive).2.2
    · intro h key entry hentry hlive
      have hlive' : w.now < entry.expiresAt := (Nat.le_add_right w.now ms).trans_lt hlive
      obtain ⟨hcomplete, hactive, -⟩ := hw key entry hentry hlive'
      exact ⟨hcomplete, hactive, h key entry hentry hlive⟩
  | chat request apiKey =>
    exact iff_of_true ((call_clean serde request apiKey).1.mpr hw) trivial
  | streamStart requestId request apiKey =>
    exact iff_of_true ((stream_clean serde requestId request apiKey).1.mpr hw) trivial
  | chatReplied index reply =>
    exact clean_chatReplied_iff hw index reply
  | streamArrived index part =>
    show Clean (w.streamArrived index part) ↔ True
    unfold World.streamArrived
    cases w.streams[index]? with
    | none => exact iff_true_intro hw
    | some stream => exact iff_true_intro hw
  | streamCancel requestId =>
    show Clean (w.cancelChatStream requestId) ↔ True
    unfold World.cancelChatStream
    split
    · exact iff_true_intro hw
    · exact iff_true_intro hw
  | streamEnded index failure =>
    exact clean_streamEnded_iff hw index failure

theorem Recorded.on (hw : Recorded serde digest w) (event : AiEvent) :
    Recorded serde digest (w.on serde digest event).1 := by
  cases event with
  | save settings => exact hw
  | record sessions => exact hw
  | elapse ms => exact hw
  | chat request apiKey => exact (call_clean serde request apiKey).2 hw
  | streamStart requestId request apiKey =>
    exact (stream_clean serde requestId request apiKey).2 hw
  | chatReplied index reply =>
    show Recorded serde digest (w.chatReplied digest index reply)
    unfold World.chatReplied
    split
    · exact hw
    · split
      · exact hw
      · dsimp only
        split
        · exact hw
        · exact Recorded.store hw rfl
  | streamArrived index part =>
    show Recorded serde digest (w.streamArrived index part)
    unfold World.streamArrived
    split <;> exact hw
  | streamCancel requestId =>
    show Recorded serde digest (w.cancelChatStream requestId)
    unfold World.cancelChatStream
    split <;> exact hw
  | streamEnded index failure =>
    show Recorded serde digest (w.streamEnded serde digest index failure)
    unfold World.streamEnded
    split
    · exact hw
    · split
      · exact hw
      · dsimp only
        split
        · exact Recorded.store hw rfl
        · exact hw

theorem getCachedResponse_of_answer {event : AiEvent} {answer : CacheAnswer}
    (h : answer ∈ (w.on serde digest event).2) :
    (w.getCachedResponse (buildCacheKey digest answer.input)).2 = some answer.content := by
  cases event with
  | chat request apiKey =>
    replace h : answer ∈ (w.aiSessionChat digest request apiKey).2 := h
    have hask := (@ask_spec κ digest w request apiKey).2
    unfold World.aiSessionChat at h
    split at h
    · rename_i next answers hcall
      rw [hcall] at hask
      exact hask answer h
    · rename_i next answers call hcall
      rw [hcall] at hask
      exact hask answer h
  | streamStart requestId request apiKey =>
    replace h : answer ∈ (w.aiSessionChatStreamStart digest requestId request apiKey).2 := h
    have hask := (@ask_spec κ digest w request apiKey).2
    unfold World.aiSessionChatStreamStart at h
    split at h
    · rename_i next answers hcall
      rw [hcall] at hask
      exact hask answer h
    · rename_i next answers call hcall
      rw [hcall] at hask
      exact hask answer h
  | save settings => cases h
  | record sessions => cases h
  | elapse ms => cases h
  | chatReplied index reply => cases h
  | streamArrived index part => cases h
  | streamCancel requestId => cases h
  | streamEnded index failure => cases h

end

/-! ## Runs -/

/-- **A run stays transparent if and only if each of its steps meets the condition**, provided that
no two inputs share a key; and whatever a call is answered from the cache is what transparency is
about. -/
theorem transparent_iff (hdigest : Function.Injective (digest "session_chat"))
    (settings : AiSettings) (now : ℕ) (events : List AiEvent) :
    ((∀ before, before <+: events →
        Transparent serde digest ((World.start settings now).run serde digest before).1)
      ↔ ∀ before event, before ++ [event] <+: events →
        Met serde ((World.start settings now).run serde digest before).1 event)
    ∧ ∀ before event, before ++ [event] <+: events →
        ∀ answer ∈ (((World.start settings now).run serde digest before).1.on serde digest event).2,
          (((World.start settings now).run serde digest before).1.getCachedResponse
            (buildCacheKey digest answer.input)).2 = some answer.content := by
  have hrecorded : ∀ before,
      Recorded serde digest ((World.start settings now).run serde digest before).1 := by
    have hstep : ∀ (w : World κ) event, Recorded serde digest w →
        Recorded serde digest (w.on serde digest event).1 := fun _ event hw => hw.on event
    have hstart : Recorded serde digest (World.start settings now) := by
      intro key entry hentry
      cases hentry
    exact fun before => feed_invariant hstep hstart before
  have hsnoc : ∀ before event,
      Transparent serde digest ((World.start settings now).run serde digest before).1 →
      (Transparent serde digest ((World.start settings now).run serde digest (before ++ [event])).1
        ↔ Met serde ((World.start settings now).run serde digest before).1 event) := by
    intro before event htransparent
    have hclean := (transparent_iff_clean hdigest (hrecorded before)).mp htransparent
    rw [transparent_iff_clean hdigest (hrecorded (before ++ [event])), World.run, feed_snoc]
    exact clean_on_iff hclean event
  have hstart :
      Transparent serde digest ((World.start settings now).run serde digest []).1 := by
    intro input content hcached
    obtain ⟨entry, hentry, -⟩ := getCachedResponse_eq_some.mp hcached
    cases hentry
  exact ⟨forall_prefix_iff hstart hsnoc events,
    fun _ _ _ _ hanswer => getCachedResponse_of_answer hanswer⟩

/-! ## Answers that are not genuine -/

def sampleProvider (id : String) : AiProviderSettings where
  id := id.toList
  mode := .compatible
  vendor := .custom
  name := id.toList
  baseUrl := "https://".toList ++ id.toList
  model := ['m']
  key := none

def sampleChoice (id : String) : AiSettings where
  limits := ⟨1500, 1200, 4, 600, 2, 15000, 20000⟩
  activeProviderId := id.toList
  providers := [sampleProvider "a", sampleProvider "b"]

def sampleDigest (_ : String) (input : OpenAiSessionChatInput) : OpenAiSessionChatInput := input

def askedEvents : List AiEvent :=
  [.record (fun _ => some (sampleSession [])), .chat sampleRequest (.ok []),
    .chatReplied 0 (.ok ⟨"assistant".toList, "42".toList⟩)]

def askedInput : OpenAiSessionChatInput := ⟨sampleSession [], .followUi, "en-US".toList, []⟩

def closedEvents : List AiEvent :=
  [.record (fun _ => some (sampleSession [])), .streamStart ['r'] sampleRequest (.ok []),
    .streamArrived 0 (.ok (sampleEvent [0x34])), .streamEnded 0 none]

/-- A second request is answered from the cache. -/
theorem asked_twice :
    (((World.start (sampleChoice "a") 0).run sampleSerde sampleDigest
      askedEvents).1.getCachedResponse (buildCacheKey sampleDigest askedInput)).2
        = some "42".toList := by
  have hdigest : Function.Injective (sampleDigest "session_chat") := fun _ _ h => h
  have hall := (transparent_iff sampleSerde sampleDigest hdigest (sampleChoice "a") 0
    (askedEvents ++ [.chat sampleRequest (.ok [])])).2
  exact hall askedEvents _ List.prefix_rfl ⟨askedInput, "42".toList⟩ (by decide)

/-- After a switch to another provider the answer of the first one is found, and so is what came
of a stream before its connection was closed. -/
theorem not_transparent :
    ¬Transparent sampleSerde sampleDigest ((World.start (sampleChoice "a") 0).run sampleSerde
        sampleDigest (askedEvents ++ [.save (sampleChoice "b")])).1
      ∧ ¬Transparent sampleSerde sampleDigest ((World.start (sampleChoice "a") 0).run sampleSerde
        sampleDigest closedEvents).1 := by
  constructor
  · intro h
    obtain ⟨entry, hentry, -, hgenuine⟩ :=
      h askedInput "42".toList (by decide)
    have hactive := congrArg (Option.map (·.origin.provider)) hentry
    rw [Option.map_some, hgenuine.active] at hactive
    revert hactive
    decide
  · intro h
    obtain ⟨entry, hentry, -, hgenuine⟩ :=
      h askedInput ['4'] (by decide)
    have hcomplete := congrArg (Option.map (·.origin.response.isComplete)) hentry
    rw [Option.map_some, hgenuine.complete] at hcomplete
    revert hcomplete
    decide

end FluxTerm.Ai.AnswerCache
