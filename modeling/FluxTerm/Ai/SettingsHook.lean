import FluxTerm.Ai.Settings
import FluxTerm.Lib.Machine
import FluxTerm.Security.StandIn

/-!
# FluxTerm — the settings page of the assistant

`useAiSettings.ts`: the settings are edited in memory and saved after a pause; a key is saved at
once, and so is a provider that is added with its key, and everything before a connection test. The
answer of such a save replaces the list of providers.

* **`survives_of_inStep`** — the result on runs.
-/

namespace FluxTerm.Ai

open Lib Engine
open Security (AiLimits CryptoService Primitives revealOptionalString trim)

/-! ## Presets -/

structure AiProviderPreset where
  label : Text
  defaultBaseUrl : Text
  models : List Text

def getAiProviderPreset : AiProviderVendor → Option AiProviderPreset
  | .deepseek => some ⟨"DeepSeek".toList, "https://api.deepseek.com".toList,
      ["deepseek-chat".toList, "deepseek-reasoner".toList]⟩
  | .openai => some ⟨"OpenAI".toList, "https://api.openai.com".toList,
      ["gpt-4o-mini".toList, "gpt-4.1-mini".toList, "gpt-4.1".toList]⟩
  | .qwen => some ⟨"通义千问".toList, "https://dashscope.aliyuncs.com/compatible-mode".toList,
      ["qwen-plus".toList, "qwen-turbo".toList, "qwen-max".toList]⟩
  | .moonshot => some ⟨"Moonshot".toList, "https://api.moonshot.cn".toList,
      ["moonshot-v1-8k".toList, "moonshot-v1-32k".toList, "moonshot-v1-128k".toList]⟩
  | .custom => none

/-- `String.prototype.trim`. -/
def trimJs (s : Text) : Text := trimBy isJsWhitespace s

def buildProviderName (vendor : AiProviderVendor) (index : ℕ) : Text :=
  match getAiProviderPreset vendor with
  | some preset => preset.label ++ ' ' :: (toString index).toList
  | none => "Compatible ".toList ++ (toString index).toList

/-- `buildPresetProvider`, with the id that `crypto.randomUUID` gives. -/
def buildPresetProvider (uuid : Text) (vendor : AiProviderVendor) (count : ℕ) :
    AiProviderView where
  id := uuid
  mode := .preset
  vendor := vendor
  name := buildProviderName vendor (count + 1)
  baseUrl := ((getAiProviderPreset vendor).map AiProviderPreset.defaultBaseUrl).getD []
  model := ((getAiProviderPreset vendor).bind (·.models.head?)).getD []
  key := false

def buildCompatibleProvider (uuid : Text) (count : ℕ) : AiProviderView where
  id := uuid
  mode := .compatible
  vendor := .custom
  name := buildProviderName .custom (count + 1)
  baseUrl := []
  model := []
  key := false

/-! ## What is sent -/

def normalizeTextLimit (value : JsNumber) : JsNumber :=
  .max (.finite 100) (.min (.finite 20000) value.round)

def normalizeRequestTimeoutMs (value : JsNumber) : JsNumber :=
  .max (.finite 1000) (.min (.finite 120000) value.round)

structure Form where
  selectionMaxChars : JsNumber
  sessionRecentOutputMaxChars : JsNumber
  requestTimeoutMs : JsNumber
  activeProviderId : Text
  providers : List AiProviderView
deriving DecidableEq

def Form.ofView (view : AiSettingsView) : Form where
  selectionMaxChars := .finite view.limits.selectionMaxChars
  sessionRecentOutputMaxChars := .finite view.limits.sessionRecentOutputMaxChars
  requestTimeoutMs := .finite view.limits.requestTimeoutMs
  activeProviderId := view.activeProviderId
  providers := view.providers

/-- `AiSettingsSaveInput` as it is sent. -/
structure SaveInput where
  selectionMaxChars : JsNumber
  sessionRecentOutputMaxChars : JsNumber
  sessionRecentOutputMaxSnippets : ℕ
  selectionRecentOutputMaxChars : ℕ
  selectionRecentOutputMaxSnippets : ℕ
  requestCacheTtlMs : ℕ
  requestTimeoutMs : JsNumber
  activeProviderId : Text
  providers : List AiProviderInput
deriving DecidableEq

/-- `overrides[provider.id] ?? { mode: "keep" }`, where there is one override at most. -/
def overrideOf (overrides : Option (Text × SecretFieldUpdate)) (id : Text) : SecretFieldUpdate :=
  match overrides with
  | some (target, update) => if id = target then update else .keep
  | none => .keep

/-- A provider as it is sent. -/
def providerInput (overrides : Option (Text × SecretFieldUpdate)) (provider : AiProviderView) :
    AiProviderInput where
  id := provider.id
  mode := provider.mode
  vendor := provider.vendor
  name := trimJs provider.name
  baseUrl := trimJs provider.baseUrl
  model := trimJs provider.model
  key := overrideOf overrides provider.id

def buildSaveInput (source : Form) (lastLoaded : AiSettingsView)
    (overrides : Option (Text × SecretFieldUpdate)) : SaveInput where
  selectionMaxChars := normalizeTextLimit source.selectionMaxChars
  sessionRecentOutputMaxChars := normalizeTextLimit source.sessionRecentOutputMaxChars
  sessionRecentOutputMaxSnippets := lastLoaded.limits.sessionRecentOutputMaxSnippets
  selectionRecentOutputMaxChars := lastLoaded.limits.selectionRecentOutputMaxChars
  selectionRecentOutputMaxSnippets := lastLoaded.limits.selectionRecentOutputMaxSnippets
  requestCacheTtlMs := lastLoaded.limits.requestCacheTtlMs
  requestTimeoutMs := normalizeRequestTimeoutMs source.requestTimeoutMs
  activeProviderId := source.activeProviderId
  providers := source.providers.map (providerInput overrides)

def natural : JsNumber → Option ℕ
  | .finite q => if q.den = 1 ∧ 0 ≤ q.num then some q.num.toNat else none
  | _ => none

/-- The input as the backend reads it, if it can. -/
def SaveInput.received (input : SaveInput) : Option AiSettingsSaveInput := do
  let selectionMaxChars ← natural input.selectionMaxChars
  let sessionRecentOutputMaxChars ← natural input.sessionRecentOutputMaxChars
  let requestTimeoutMs ← natural input.requestTimeoutMs
  return {
    limits := {
      selectionMaxChars
      sessionRecentOutputMaxChars
      sessionRecentOutputMaxSnippets := input.sessionRecentOutputMaxSnippets
      selectionRecentOutputMaxChars := input.selectionRecentOutputMaxChars
      selectionRecentOutputMaxSnippets := input.selectionRecentOutputMaxSnippets
      requestCacheTtlMs := input.requestCacheTtlMs
      requestTimeoutMs }
    activeProviderId := input.activeProviderId
    providers := input.providers }

/-- `ai_settings_save`: what the file holds afterwards, if it succeeds. -/
def aiSettingsSave (P : Primitives) (service : CryptoService) (outcome : SaveOutcome)
    (file : AiSettings) (input : SaveInput) : Option AiSettings := do
  let received ← input.received
  (saveAiSettingsInput P service outcome file received).toOption

/-! ## The page -/

structure Draft where
  form : Form
  lastLoaded : AiSettingsView

inductive Origin where
  | autosave
  /-- `saveWithSecretUpdate`. -/
  | secretUpdate (providerId : Text) (update : SecretFieldUpdate)
  /-- `addPresetProviderWithConfig`, `addCompatibleProviderWithConfig`. -/
  | addition (next : AiProviderView) (apiKey : Text)
  /-- `testProviderConnection`. -/
  | test

namespace Origin

/-- `savingSecretRef` is set while the save is under way. -/
def secret : Origin → Bool
  | .secretUpdate _ _ | .addition _ _ => true
  | _ => false

def replaces : Origin → Bool
  | .autosave => false
  | _ => true

def added : Origin → List AiProviderView
  | .addition next _ => [next]
  | _ => []

def overrides : Origin → Option (Text × SecretFieldUpdate)
  | .secretUpdate providerId update => some (providerId, update)
  | .addition next apiKey => if apiKey = [] then none else some (next.id, .replace apiKey)
  | _ => none

end Origin

structure Request where
  origin : Origin
  draft : Draft

def Request.form (request : Request) : Form :=
  { request.draft.form with
    providers := request.draft.form.providers ++ request.origin.added }

/-- `nextSaveInput`. -/
def Request.input (request : Request) : SaveInput :=
  buildSaveInput request.form request.draft.lastLoaded request.origin.overrides

/-- The state of the hook. -/
structure Page where
  form : Form
  rendered : Form
  touched : Bool
  /-- `saveTimerRef`, while the timer runs. -/
  timer : Option Draft
  /-- `savingSecretRef`. -/
  savingSecret : Bool
  /-- `lastSavedConfigRef`. -/
  lastSaved : SaveInput
  /-- `lastLoadedViewRef`. -/
  lastLoaded : AiSettingsView

namespace Page

def effect (page : Page) : Page :=
  if page.savingSecret then { page with timer := none }
  else if buildSaveInput page.rendered page.lastLoaded none = page.lastSaved then
    { page with timer := none }
  else { page with timer := some ⟨page.rendered, page.lastLoaded⟩ }

def render (page : Page) : Page :=
  let rendered := { page with rendered := page.form, touched := false }
  if page.touched ∨ page.form ≠ page.rendered then rendered.effect else rendered

/-- `setProviders(f)`. -/
def setProviders (page : Page) (f : List AiProviderView → List AiProviderView) : Page :=
  { page with
    form := { page.form with providers := f page.form.providers }
    touched := true }

def draft (page : Page) : Draft := ⟨page.rendered, page.lastLoaded⟩

def holdAutosave (page : Page) : Page := { page with timer := none, savingSecret := true }

/-- A save is over, with the view of it if it has succeeded. -/
def finish (page : Page) (request : Request) : Option AiSettingsView → Page
  | none => { page with savingSecret := page.savingSecret && !request.origin.secret }
  | some saved =>
    let page := { page with
      lastLoaded := saved
      lastSaved := request.input
      savingSecret := page.savingSecret && !request.origin.secret }
    if request.origin.replaces then
      { page with
        form := { page.form with
          providers := saved.providers
          activeProviderId := saved.activeProviderId }
        touched := true }
    else page

end Page

/-- The edits of `updateProviderName`, `updateProviderBaseUrl`, `updateProviderModel` and
`updateProviderVendor`. -/
inductive ProviderEdit where
  | name (value : Text)
  | baseUrl (value : Text)
  | model (value : Text)
  | vendor (newVendor : AiProviderVendor)

/-- An edit of a provider. -/
def ProviderEdit.apply (provider : AiProviderView) : ProviderEdit → AiProviderView
  | .name value => { provider with name := value }
  | .baseUrl value => { provider with baseUrl := value }
  | .model value => { provider with model := value }
  | .vendor newVendor =>
    match getAiProviderPreset newVendor with
    | none => { provider with vendor := newVendor, mode := .compatible }
    | some preset =>
      { provider with
        vendor := newVendor
        mode := .preset
        baseUrl := preset.defaultBaseUrl
        model := preset.models.head?.getD provider.model
        name := if trimJs provider.name = [] then preset.label else trimJs provider.name }

def updateProvider (providerId : Text) (edit : ProviderEdit) (providers : List AiProviderView) :
    List AiProviderView :=
  providers.map fun item => if item.id = providerId then edit.apply item else item

inductive FieldEdit where
  | selectionMaxChars (value : JsNumber)
  | sessionRecentOutputMaxChars (value : JsNumber)
  | requestTimeoutMs (value : JsNumber)
  | activeProviderId (value : Text)

def FieldEdit.apply (form : Form) : FieldEdit → Form
  | .selectionMaxChars value => { form with selectionMaxChars := value }
  | .sessionRecentOutputMaxChars value => { form with sessionRecentOutputMaxChars := value }
  | .requestTimeoutMs value => { form with requestTimeoutMs := value }
  | .activeProviderId value => { form with activeProviderId := value }

/-! ## The page, the saves under way and the file -/

structure Meant where
  providers : List AiProviderView
  keys : Text → Except EngineError (Option Text)
  failed : Bool

def Meant.answered (meant : Meant) (added answer : List AiProviderView) : List AiProviderView :=
  if SameProviders answer (meant.providers ++ added) then answer else meant.providers ++ added

def Meant.keysAfter (meant : Meant) (overrides : Option (Text × SecretFieldUpdate)) (id : Text) :
    Except EngineError (Option Text) :=
  match (overrideOf overrides id).effective with
  | .keep => meant.keys id
  | .clear => .ok none
  | .replace value => .ok (some value)

structure World where
  page : Page
  requests : List Request
  /-- The saves whose answer the page has not handled yet; `none` for a failure. -/
  answers : List (Request × Option AiSettingsView)
  /-- `ai.json`, as it is read. -/
  file : AiSettings
  meant : Meant

/-- What happens. -/
inductive Action where
  | updateProvider (providerId : Text) (edit : ProviderEdit)
  | addPresetProvider (uuid : Text) (vendor : AiProviderVendor) (name : Option Text)
  | addCompatibleProvider (uuid : Text)
  | removeProvider (providerId : Text)
  | setField (edit : FieldEdit)
  | retrySave
  | addPresetProviderWithConfig (uuid : Text) (vendor : Option AiProviderVendor)
      (name model apiKey : Text)
  | addCompatibleProviderWithConfig (uuid name baseUrl model apiKey : Text)
  | replaceProviderApiKey (providerId value : Text)
  | clearProviderApiKey (providerId : Text)
  | testProviderConnection
  | render
  | expire
  | carryOut (outcome : SaveOutcome)
  | handle (index : ℕ)

namespace World

def change (w : World) (f : List AiProviderView → List AiProviderView) : World :=
  { w with
    page := w.page.setProviders f
    meant := { w.meant with providers := f w.meant.providers, failed := false } }

def saveSecret (w : World) (origin : Origin) : World :=
  { w with
    page := w.page.holdAutosave
    requests := w.requests ++ [⟨origin, w.page.draft⟩]
    meant := { w.meant with failed := false } }

/-- `vendor === "custom" ? "deepseek" : vendor`. -/
def normalizedVendor (vendor : AiProviderVendor) : AiProviderVendor :=
  if vendor = .custom then .deepseek else vendor

def addPresetProvider (w : World) (uuid : Text) (vendor : AiProviderVendor) (name : Option Text) :
    World :=
  let next := buildPresetProvider uuid (normalizedVendor vendor) w.page.rendered.providers.length
  let name := trimJs (name.getD [])
  w.change (· ++ [if name = [] then next else { next with name }])

def addPresetProviderWithConfig (w : World) (uuid : Text) (vendor : Option AiProviderVendor)
    (name model apiKey : Text) : World :=
  let next := buildPresetProvider uuid (normalizedVendor (vendor.getD .custom))
    w.page.rendered.providers.length
  if trimJs name = [] ∨ trimJs model = [] then w
  else
    w.saveSecret (.addition { next with name := trimJs name, model := trimJs model } (trimJs apiKey))

def addCompatibleProviderWithConfig (w : World) (uuid name baseUrl model apiKey : Text) : World :=
  let next := buildCompatibleProvider uuid w.page.rendered.providers.length
  if trimJs name = [] ∨ trimJs baseUrl = [] ∨ trimJs model = [] then w
  else
    w.saveSecret (.addition
      { next with name := trimJs name, baseUrl := trimJs baseUrl, model := trimJs model }
      (trimJs apiKey))

def removeProvider (w : World) (providerId : Text) : World :=
  let targetId := trimJs providerId
  if targetId = [] then w
  else
    let w := w.change (·.filter (·.id ≠ targetId))
    if w.page.form.activeProviderId = targetId then
      { w with page := { w.page with form := { w.page.form with activeProviderId := [] } } }
    else w

def replaceProviderApiKey (w : World) (providerId value : Text) : World :=
  if trimJs value = [] ∨ trimJs providerId = [] then w
  else w.saveSecret (.secretUpdate (trimJs providerId) (.replace (trimJs value)))

def clearProviderApiKey (w : World) (providerId : Text) : World :=
  if trimJs providerId = [] then w else w.saveSecret (.secretUpdate (trimJs providerId) .clear)

/-- `testProviderConnection`, as far as it saves. -/
def testProviderConnection (w : World) : World :=
  { w with requests := w.requests ++ [⟨.test, w.page.draft⟩] }

def expire (w : World) : Option World :=
  w.page.timer.map fun draft =>
    { w with
      page := { w.page with timer := none }
      requests := w.requests ++ [⟨.autosave, draft⟩] }

/-- The backend carries out the first save, and the answer is on its way. -/
def carryOut (P : Primitives) (service : CryptoService) (w : World) (outcome : SaveOutcome) :
    Option World :=
  match w.requests with
  | [] => none
  | request :: requests =>
    match aiSettingsSave P service outcome w.file request.input with
    | none => some { w with requests, answers := w.answers ++ [(request, none)] }
    | some file => some { w with
      requests
      answers := w.answers ++ [(request, some (buildSettingsView file))]
      file
      meant := { w.meant with keys := w.meant.keysAfter request.origin.overrides } }

/-- The page handles an answer. -/
def handle (w : World) (index : ℕ) : Option World :=
  match w.answers[index]? with
  | none => none
  | some (request, result) =>
    let answers := w.answers.eraseIdx index
    let page := w.page.finish request result
    match result with
    | none => some { w with page, answers, meant := { w.meant with failed := true } }
    | some saved =>
      if request.origin.replaces then some { w with
        page
        answers
        meant := { w.meant with
          providers := w.meant.answered request.origin.added saved.providers } }
      else some { w with page, answers }

def withId (uuid : Text) (w : World) : Option World := if trim uuid = uuid then some w else none

/-- One step. -/
def next (P : Primitives) (service : CryptoService) (w : World) : Action → Option World
  | .updateProvider providerId edit => some (w.change (updateProvider providerId edit))
  | .addPresetProvider uuid vendor name => withId uuid (w.addPresetProvider uuid vendor name)
  | .addCompatibleProvider uuid => withId uuid (w.change (· ++
      [buildCompatibleProvider uuid w.page.rendered.providers.length]))
  | .removeProvider providerId => some (w.removeProvider providerId)
  | .setField edit => some { w with page := { w.page with form := edit.apply w.page.form } }
  | .retrySave => some { w with page := { w.page with touched := true } }
  | .addPresetProviderWithConfig uuid vendor name model apiKey =>
    withId uuid (w.addPresetProviderWithConfig uuid vendor name model apiKey)
  | .addCompatibleProviderWithConfig uuid name baseUrl model apiKey =>
    withId uuid (w.addCompatibleProviderWithConfig uuid name baseUrl model apiKey)
  | .replaceProviderApiKey providerId value => some (w.replaceProviderApiKey providerId value)
  | .clearProviderApiKey providerId => some (w.clearProviderApiKey providerId)
  | .testProviderConnection => some w.testProviderConnection
  | .render => some { w with page := w.page.render }
  | .expire => w.expire
  | .carryOut outcome => w.carryOut P service outcome
  | .handle index => w.handle index

/-- The page when the settings have been loaded. -/
def loaded (P : Primitives) (service : CryptoService) (file : AiSettings) : World :=
  let view := buildSettingsView file
  { page :=
      { form := .ofView view
        rendered := .ofView view
        touched := false
        timer := none
        savingSecret := false
        lastSaved := buildSaveInput (.ofView view) view none
        lastLoaded := view }
    requests := []
    answers := []
    file
    meant :=
      { providers := view.providers
        keys := fun id =>
          revealOptionalString P service ((currentProvider file id).bind AiProvider.key)
        failed := false } }

end World

def settingsMachine (P : Primitives) (service : CryptoService) : Machine World Action where
  init w := ∃ raw file, validateAiSettings raw = .ok file ∧ w = .loaded P service file
  step w action w' := w.next P service action = some w'

/-- No timer runs, no save is under way, none has failed since the last change, and no change of
the providers waits for its render. -/
structure World.Quiet (w : World) : Prop where
  touched : w.page.touched = false
  timer : w.page.timer = none
  requests : w.requests = []
  answers : w.answers = []
  failed : w.meant.failed = false

def World.coming (w : World) : List (AiProvider Unit) :=
  match w.requests.getLast? with
  | some request => request.form.providers.map AiProvider.shown
  | none => w.file.providers.map AiProvider.shown

/-- **No edit is lost, and everything arrives.** -/
structure Survives (P : Primitives) (service : CryptoService) (w : World) : Prop where
  edits : w.page.form.providers = w.meant.providers
  stored : w.Quiet → SameProviders w.file.providers w.page.form.providers
  keys : w.Quiet → ∀ provider ∈ w.file.providers,
    revealOptionalString P service provider.key = w.meant.keys provider.id

/-- Nothing gets in the way: the autosave is not skipped for the last saved settings while other
providers are on their way to the file; an answer that replaces the list finds the one that its
save took along; and a save that is carried out keeps no key that was set and is not stored. -/
def InStep (P : Primitives) (service : CryptoService) (w : World) : Action → Prop
  | .render =>
    w.page.touched = true ∨ w.page.form ≠ w.page.rendered → w.page.savingSecret = false →
      buildSaveInput w.page.form w.page.lastLoaded none = w.page.lastSaved →
      w.coming = w.page.form.providers.map AiProvider.shown
  | .handle index => ∀ request saved, w.answers[index]? = some (request, some saved) →
    request.origin.replaces = true →
    SameProviders request.draft.form.providers w.page.form.providers
  | .carryOut outcome => ∀ request, w.requests.head? = some request →
    (aiSettingsSave P service outcome w.file request.input).isSome = true →
    ∀ provider ∈ request.form.providers,
      (overrideOf request.origin.overrides provider.id).effective = .keep →
      currentProvider w.file provider.id = none → w.meant.keys provider.id = .ok none
  | _ => True

/-! ## What a save takes along -/

section Saves

variable {P : Primitives} {service : CryptoService} {file saved : AiSettings} {κ κ' : Type}

theorem shown_providerInput (overrides : Option (Text × SecretFieldUpdate))
    (provider : AiProviderView) : (providerInput overrides provider).shown = provider.shown := by
  simp only [AiProvider.shown, providerInput, trimJs, bare_trimJs]

theorem sameProviders_input (request : Request) :
    SameProviders request.input.providers request.form.providers := by
  show (request.form.providers.map _).map _ = _
  rw [List.map_map]
  exact List.map_congr_left fun provider _ => shown_providerInput _ provider

theorem sameProviders_view (file : AiSettings) :
    SameProviders (buildSettingsView file).providers file.providers := by
  show (file.providers.map _).map _ = _
  rw [List.map_map]
  rfl

theorem IdsTrimmed.of_same {ps : List (AiProvider κ)} {qs : List (AiProvider κ')}
    (h : IdsTrimmed qs) (hsame : SameProviders ps qs) : IdsTrimmed ps := by
  intro p hp
  have hmem : p.shown ∈ qs.map AiProvider.shown := by
    rw [← hsame]
    exact List.mem_map_of_mem hp
  obtain ⟨q, hq, hshown⟩ := List.mem_map.mp hmem
  have hid : q.id = p.id := congrArg AiProvider.id hshown
  rw [← hid]
  exact h q hq

theorem IdsTrimmed.append {ps qs : List (AiProvider κ)} (hps : IdsTrimmed ps)
    (hqs : IdsTrimmed qs) : IdsTrimmed (ps ++ qs) := fun p hp =>
  (List.mem_append.mp hp).elim (hps p) (hqs p)

/-- **A save that succeeds**: the providers it was sent, with the keys that `keyAfter` says. -/
theorem aiSettingsSave_some (hP : P.Lawful) (hfile : file.Checked) {outcome : SaveOutcome}
    {input : SaveInput} (h : aiSettingsSave P service outcome file input = some saved) :
    List.Forall₂ (SavedFrom P service file) input.providers saved.providers ∧ saved.Checked := by
  obtain ⟨received, hreceived, h⟩ := Option.bind_eq_some_iff.mp h
  obtain ⟨_, _, hreceived⟩ := Option.bind_eq_some_iff.mp hreceived
  obtain ⟨_, _, hreceived⟩ := Option.bind_eq_some_iff.mp hreceived
  obtain ⟨_, _, hreceived⟩ := Option.bind_eq_some_iff.mp hreceived
  cases hreceived
  cases hsave : saveAiSettingsInput P service outcome file _ with
  | error error => rw [hsave] at h; cases h
  | ok result =>
    rw [hsave] at h
    cases h
    have hsaved := saveAiSettingsInput_ok hP hfile hsave
    refine ⟨hsaved, fun stored hstored => ?_⟩
    obtain ⟨_, _, hfrom⟩ := (Security.exists_mem_of_forall₂ hsaved).2 stored hstored
    exact hfrom.trimmed

end Saves

/-! ## The invariant -/

def World.underWay (w : World) : List Request := w.requests ++ w.answers.map Prod.fst

/-- Nothing is going to change the list of providers, and nothing has gone wrong. -/
structure World.Settling (w : World) : Prop where
  touched : w.page.touched = false
  timer : w.page.timer = none
  failed : w.meant.failed = false
  autosaves : ∀ request ∈ w.underWay, request.origin.replaces = false
  succeeded : ∀ answer ∈ w.answers, answer.2 ≠ none

/-- **What every run that keeps in step has.** -/
structure Kept (P : Primitives) (service : CryptoService) (w : World) : Prop where
  edits : w.page.form.providers = w.meant.providers
  rendered : w.page.touched = false → w.page.form.providers = w.page.rendered.providers
  timer : ∀ draft, w.page.timer = some draft → draft.form.providers = w.page.rendered.providers
  saving : w.page.savingSecret = true → ∃ request ∈ w.underWay, request.origin.secret = true
  formIds : IdsTrimmed w.page.form.providers
  renderedIds : IdsTrimmed w.page.rendered.providers
  requestIds : ∀ request ∈ w.underWay, IdsTrimmed request.form.providers
  answered : ∀ request saved, (request, some saved) ∈ w.answers →
    SameProviders saved.providers request.form.providers
  checked : w.file.Checked
  keys : ∀ provider ∈ w.file.providers,
    revealOptionalString P service provider.key = w.meant.keys provider.id
  arrives : w.Settling → w.coming = w.page.rendered.providers.map AiProvider.shown

section Steps

variable {P : Primitives} {service : CryptoService} {w w' : World}

theorem Kept.survives (h : Kept P service w) : Survives P service w := by
  refine ⟨h.edits, fun hquiet => ?_, fun _ => h.keys⟩
  have hsettling : w.Settling := by
    refine ⟨hquiet.touched, hquiet.timer, hquiet.failed, ?_, ?_⟩
    · rw [World.underWay, hquiet.requests, hquiet.answers]
      simp
    · rw [hquiet.answers]
      simp
  have harrives := h.arrives hsettling
  rw [World.coming, hquiet.requests] at harrives
  exact harrives.trans (congrArg _ (h.rendered hquiet.touched).symm)

theorem Kept.setForm (h : Kept P service w) {form : Form}
    (hform : form.providers = w.page.form.providers) :
    Kept P service { w with page := { w.page with form } } where
  edits := hform.trans h.edits
  rendered htouched := hform.trans (h.rendered htouched)
  timer := h.timer
  saving := h.saving
  formIds := by
    show IdsTrimmed form.providers
    rw [hform]
    exact h.formIds
  renderedIds := h.renderedIds
  requestIds := h.requestIds
  answered := h.answered
  checked := h.checked
  keys := h.keys
  arrives hsettling := h.arrives ⟨hsettling.touched, hsettling.timer, hsettling.failed,
    hsettling.autosaves, hsettling.succeeded⟩

theorem Kept.change (h : Kept P service w) {f : List AiProviderView → List AiProviderView}
    (hf : IdsTrimmed (f w.page.form.providers)) : Kept P service (w.change f) where
  edits := congrArg f h.edits
  rendered htouched := by cases htouched
  timer := h.timer
  saving := h.saving
  formIds := hf
  renderedIds := h.renderedIds
  requestIds := h.requestIds
  answered := h.answered
  checked := h.checked
  keys := h.keys
  arrives hsettling := by cases hsettling.touched

theorem Kept.retrySave (h : Kept P service w) :
    Kept P service { w with page := { w.page with touched := true } } where
  edits := h.edits
  rendered htouched := by cases htouched
  timer := h.timer
  saving := h.saving
  formIds := h.formIds
  renderedIds := h.renderedIds
  requestIds := h.requestIds
  answered := h.answered
  checked := h.checked
  keys := h.keys
  arrives hsettling := by cases hsettling.touched

theorem mem_underWay_ask {requests : List Request} {answers : List (Request × Option AiSettingsView)}
    {request asked : Request} : request ∈ (requests ++ [asked]) ++ answers.map Prod.fst ↔
      request = asked ∨ request ∈ requests ++ answers.map Prod.fst := by
  simp only [List.mem_append, List.mem_singleton]
  tauto

theorem Kept.ask (h : Kept P service w) {origin : Origin} (hreplaces : origin.replaces = true)
    (hadded : IdsTrimmed origin.added) {timer : Option Draft} {savingSecret failed : Bool}
    (htimer : ∀ draft, timer = some draft → w.page.timer = some draft)
    (hsaving : savingSecret = true → w.page.savingSecret = true ∨ origin.secret = true) :
    Kept P service { w with
      page := { w.page with timer, savingSecret }
      requests := w.requests ++ [⟨origin, w.page.draft⟩]
      meant := { w.meant with failed } } where
  edits := h.edits
  rendered := h.rendered
  timer draft hdraft := h.timer draft (htimer draft hdraft)
  saving hsecret := by
    rcases hsaving hsecret with hsaving | horigin
    · obtain ⟨request, hrequest, hsecret⟩ := h.saving hsaving
      exact ⟨request, mem_underWay_ask.mpr (.inr hrequest), hsecret⟩
    · exact ⟨_, mem_underWay_ask.mpr (.inl rfl), horigin⟩
  formIds := h.formIds
  renderedIds := h.renderedIds
  requestIds request hrequest := by
    rcases mem_underWay_ask.mp hrequest with rfl | hrequest
    · exact h.renderedIds.append hadded
    · exact h.requestIds request hrequest
  answered := h.answered
  checked := h.checked
  keys := h.keys
  arrives hsettling := by
    have hnot := hsettling.autosaves _ (mem_underWay_ask.mpr (.inl rfl))
    rw [hreplaces] at hnot
    cases hnot

theorem Kept.saveSecret (h : Kept P service w) {origin : Origin} (hsecret : origin.secret = true)
    (hadded : IdsTrimmed origin.added) : Kept P service (w.saveSecret origin) := by
  have hreplaces : origin.replaces = true := by
    cases origin with
    | autosave => cases hsecret
    | _ => rfl
  exact h.ask hreplaces hadded (fun draft hdraft => by cases hdraft) fun _ => .inr hsecret

theorem idsTrimmed_singleton {next : AiProviderView} (hid : trim next.id = next.id) :
    IdsTrimmed [next] := fun p hp => by
  rw [List.mem_singleton] at hp
  rw [hp]
  exact hid

theorem idsTrimmed_updateProvider {providers : List AiProviderView} (hids : IdsTrimmed providers)
    (providerId : Text) (edit : ProviderEdit) :
    IdsTrimmed (updateProvider providerId edit providers) := by
  have hid : ∀ item : AiProviderView, (edit.apply item).id = item.id := by
    intro item
    cases edit with
    | vendor newVendor =>
      rw [ProviderEdit.apply]
      cases getAiProviderPreset newVendor <;> rfl
    | _ => rfl
  intro p hp
  obtain ⟨item, hitem, rfl⟩ := List.mem_map.mp hp
  by_cases htarget : item.id = providerId
  · rw [if_pos htarget, hid]
    exact hids item hitem
  · rw [if_neg htarget]
    exact hids item hitem

theorem Page.effect_eq (page : Page) : ∃ timer, page.effect = { page with timer } ∧
    (∀ draft, timer = some draft → draft.form = page.rendered) ∧
    (timer = none → page.savingSecret = true ∨ page.savingSecret = false ∧
      buildSaveInput page.rendered page.lastLoaded none = page.lastSaved) := by
  rw [Page.effect]
  by_cases hsaving : page.savingSecret = true
  · exact ⟨none, by rw [if_pos hsaving], fun _ h => (by cases h), fun _ => .inl hsaving⟩
  · rw [if_neg hsaving]
    by_cases hsame : buildSaveInput page.rendered page.lastLoaded none = page.lastSaved
    · exact ⟨none, by rw [if_pos hsame], fun _ h => (by cases h),
        fun _ => .inr ⟨by simpa using hsaving, hsame⟩⟩
    · exact ⟨_, by rw [if_neg hsame], fun _ h => (by cases h; rfl), fun h => (by cases h)⟩

/-- **A render**, after which what is in memory has been saved, is under way, or waits for the
timer. -/
theorem Kept.render (h : Kept P service w) (hguard : InStep P service w .render) :
    Kept P service { w with page := w.page.render } := by
  rw [Page.render]
  by_cases hchanged : w.page.touched = true ∨ w.page.form ≠ w.page.rendered
  · obtain ⟨timer, heffect, htimer, hskipped⟩ :=
      Page.effect_eq { w.page with rendered := w.page.form, touched := false }
    rw [if_pos hchanged, heffect]
    refine ⟨h.edits, fun _ => rfl, fun draft hdraft => ?_, h.saving, h.formIds, h.formIds,
      h.requestIds, h.answered, h.checked, h.keys, fun hsettling => ?_⟩
    · rw [htimer draft hdraft]
    · rcases hskipped hsettling.timer with hsaving | ⟨hsaving, hsame⟩
      · obtain ⟨request, hrequest, hsecret⟩ := h.saving hsaving
        have hnot := hsettling.autosaves request hrequest
        cases horigin : request.origin with
        | secretUpdate _ _ => rw [horigin] at hnot; cases hnot
        | addition _ _ => rw [horigin] at hnot; cases hnot
        | autosave => rw [horigin] at hsecret; cases hsecret
        | test => rw [horigin] at hsecret; cases hsecret
      · exact hguard hchanged hsaving hsame
  · rw [if_neg hchanged]
    rw [not_or, not_not, Bool.not_eq_true] at hchanged
    obtain ⟨htouched, hform⟩ := hchanged
    have hpage : { w.page with rendered := w.page.form, touched := false } = w.page := by
      rw [hform, ← htouched]
    rw [hpage]
    exact h

/-- **The timer expires.** -/
theorem Kept.expire (h : Kept P service w) (hstep : w.expire = some w') : Kept P service w' := by
  obtain ⟨draft, hdraft, rfl⟩ := Option.map_eq_some_iff.mp hstep
  have hform : draft.form.providers ++ [] = w.page.rendered.providers :=
    (List.append_nil _).trans (h.timer draft hdraft)
  refine ⟨h.edits, h.rendered, fun draft hdraft => (by cases hdraft), fun hsaving => ?_, h.formIds,
    h.renderedIds, fun request hrequest => ?_, h.answered, h.checked, h.keys, fun _ => ?_⟩
  · obtain ⟨request, hrequest, hsecret⟩ := h.saving hsaving
    exact ⟨request, mem_underWay_ask.mpr (.inr hrequest), hsecret⟩
  · rcases mem_underWay_ask.mp hrequest with rfl | hrequest
    · show IdsTrimmed (draft.form.providers ++ [])
      rw [hform]
      exact h.renderedIds
    · exact h.requestIds request hrequest
  · rw [World.coming]
    simp only [List.getLast?_concat]
    exact congrArg _ hform

theorem mem_underWay_carryOut {requests : List Request} {request asked : Request}
    {answers : List (Request × Option AiSettingsView)} {result : Option AiSettingsView} :
    request ∈ requests ++ (answers ++ [(asked, result)]).map Prod.fst ↔
      request ∈ (asked :: requests) ++ answers.map Prod.fst := by
  simp only [List.map_append, List.map_singleton, List.mem_append, List.mem_cons]
  tauto

theorem World.coming_of_getLast {request : Request} (h : w.requests.getLast? = some request) :
    w.coming = request.form.providers.map AiProvider.shown := by
  rw [World.coming, h]

theorem keysAfter_of_savedFrom (h : Kept P service w) {request : Request}
    {file : AiSettings} (hids : IdsTrimmed request.form.providers)
    (hsaved : List.Forall₂ (SavedFrom P service w.file) request.input.providers file.providers)
    (hguard : ∀ provider ∈ request.form.providers,
      (overrideOf request.origin.overrides provider.id).effective = .keep →
      currentProvider w.file provider.id = none → w.meant.keys provider.id = .ok none) :
    ∀ stored ∈ file.providers, revealOptionalString P service stored.key
      = w.meant.keysAfter request.origin.overrides stored.id := by
  intro stored hstored
  obtain ⟨input, hinput, hfrom⟩ := (Security.exists_mem_of_forall₂ hsaved).2 stored hstored
  obtain ⟨provider, hprovider, rfl⟩ := List.mem_map.mp hinput
  have hid : stored.id = provider.id := hfrom.id.trans (hids provider hprovider)
  rw [hfrom.key, hid, keyAfter, Meant.keysAfter]
  show (match (overrideOf request.origin.overrides provider.id).effective with
    | .keep => _
    | .clear => _
    | .replace value => _) = _
  cases hupdate : (overrideOf request.origin.overrides provider.id).effective with
  | clear => rfl
  | replace value => rfl
  | keep =>
    show revealOptionalString P service ((currentProvider w.file provider.id).bind AiProvider.key)
      = w.meant.keys provider.id
    cases hcurrent : currentProvider w.file provider.id with
    | none => exact (hguard provider hprovider hupdate hcurrent).symm
    | some current =>
      have hmem : current ∈ w.file.providers :=
        List.mem_reverse.mp (List.mem_of_find?_eq_some hcurrent)
      have hcurrentId : current.id = provider.id := by
        simpa using List.find?_some hcurrent
      rw [← hcurrentId]
      exact h.keys current hmem

/-- **The backend carries out a save.** -/
theorem Kept.carryOut (hP : P.Lawful) (h : Kept P service w) {outcome : SaveOutcome}
    (hguard : InStep P service w (.carryOut outcome))
    (hstep : w.carryOut P service outcome = some w') : Kept P service w' := by
  rw [World.carryOut] at hstep
  cases hrequests : w.requests with
  | nil => rw [hrequests] at hstep; cases hstep
  | cons request requests =>
    simp only [hrequests] at hstep
    have hunderWay : w.underWay = (request :: requests) ++ w.answers.map Prod.fst := by
      rw [World.underWay, hrequests]
    have hmem : ∀ (result : Option AiSettingsView) (asked : Request),
        asked ∈ requests ++ (w.answers ++ [(request, result)]).map Prod.fst ↔
          asked ∈ w.underWay := by
      intro result asked
      rw [mem_underWay_carryOut, hunderWay]
    have hids : IdsTrimmed request.form.providers :=
      h.requestIds request (by rw [hunderWay]; exact List.mem_cons_self)
    cases hsave : aiSettingsSave P service outcome w.file request.input with
    | none =>
      simp only [hsave, Option.some.injEq] at hstep
      subst hstep
      refine ⟨h.edits, h.rendered, h.timer, fun hsaving => ?_, h.formIds, h.renderedIds,
        fun asked hasked => h.requestIds asked ((hmem _ _).mp hasked), fun asked saved hasked => ?_,
        h.checked, h.keys, fun hsettling => ?_⟩
      · obtain ⟨asked, hasked, hsecret⟩ := h.saving hsaving
        exact ⟨asked, (hmem _ _).mpr hasked, hsecret⟩
      · rcases List.mem_append.mp hasked with hasked | hasked
        · exact h.answered asked saved hasked
        · simp at hasked
      · exact absurd rfl (hsettling.succeeded (request, none) (by simp))
    | some file =>
      simp only [hsave, Option.some.injEq] at hstep
      subst hstep
      obtain ⟨hsaved, hchecked⟩ := aiSettingsSave_some hP h.checked hsave
      have hinputIds : IdsTrimmed request.input.providers :=
        hids.of_same (sameProviders_input request)
      have hstored : SameProviders file.providers request.form.providers :=
        (sameProviders_of_forall₂ hinputIds hsaved).trans (sameProviders_input request)
      refine ⟨h.edits, h.rendered, h.timer, fun hsaving => ?_, h.formIds, h.renderedIds,
        fun asked hasked => h.requestIds asked ((hmem _ _).mp hasked), fun asked saved hasked => ?_,
        hchecked, ?_, fun hsettling => ?_⟩
      · obtain ⟨asked, hasked, hsecret⟩ := h.saving hsaving
        exact ⟨asked, (hmem _ _).mpr hasked, hsecret⟩
      · rcases List.mem_append.mp hasked with hasked | hasked
        · exact h.answered asked saved hasked
        · rw [List.mem_singleton, Prod.mk.injEq, Option.some.injEq] at hasked
          obtain ⟨rfl, rfl⟩ := hasked
          exact (sameProviders_view file).trans hstored
      · exact keysAfter_of_savedFrom h hids hsaved
          (hguard request (by rw [hrequests]; rfl) (by rw [hsave]; rfl))
      · have hbefore : w.Settling :=
          ⟨hsettling.touched, hsettling.timer, hsettling.failed,
            fun asked hasked => hsettling.autosaves asked ((hmem _ _).mpr hasked),
            fun answer hanswer => hsettling.succeeded answer (List.mem_append_left _ hanswer)⟩
        rw [← h.arrives hbefore]
        cases requests with
        | nil =>
          have hlast : w.requests.getLast? = some request := by rw [hrequests]; rfl
          rw [World.coming_of_getLast hlast]
          exact hstored
        | cons second rest =>
          obtain ⟨last, hlast⟩ : ∃ last, (second :: rest).getLast? = some last :=
            ⟨_, List.getLast?_cons⟩
          have hlast' : w.requests.getLast? = some last := by
            rw [hrequests, List.getLast?_cons_cons, hlast]
          rw [World.coming_of_getLast hlast', World.coming_of_getLast hlast]

theorem mem_answers_iff {answers : List (Request × Option AiSettingsView)} {index : ℕ}
    {answer other : Request × Option AiSettingsView} (hanswer : answers[index]? = some answer) :
    other ∈ answers ↔ other = answer ∨ other ∈ answers.eraseIdx index := by
  obtain ⟨hlt, rfl⟩ := List.getElem?_eq_some_iff.mp hanswer
  rw [← List.mem_cons]
  exact (List.getElem_cons_eraseIdx_perm hlt).mem_iff.symm

theorem mem_underWay_handle {index : ℕ} {request asked : Request}
    {result : Option AiSettingsView} (hanswer : w.answers[index]? = some (request, result)) :
    asked ∈ w.underWay ↔
      asked = request ∨ asked ∈ w.requests ++ (w.answers.eraseIdx index).map Prod.fst := by
  rw [World.underWay, List.mem_append, List.mem_append, List.mem_map, List.mem_map]
  constructor
  · rintro (hasked | ⟨answer, hmem, rfl⟩)
    · exact .inr (.inl hasked)
    · rcases (mem_answers_iff hanswer).mp hmem with rfl | hmem
      · exact .inl rfl
      · exact .inr (.inr ⟨answer, hmem, rfl⟩)
  · rintro (rfl | hasked | ⟨answer, hmem, rfl⟩)
    · exact .inr ⟨(asked, result), List.mem_of_getElem? hanswer, rfl⟩
    · exact .inl hasked
    · exact .inr ⟨answer, (mem_answers_iff hanswer).mpr (.inr hmem), rfl⟩

theorem Kept.saving_handle (h : Kept P service w) {index : ℕ} {request : Request}
    {result : Option AiSettingsView} (hanswer : w.answers[index]? = some (request, result))
    (hsaving : (w.page.savingSecret && !request.origin.secret) = true) :
    ∃ asked ∈ w.requests ++ (w.answers.eraseIdx index).map Prod.fst,
      asked.origin.secret = true := by
  rw [Bool.and_eq_true, Bool.not_eq_true'] at hsaving
  obtain ⟨asked, hasked, hsecret⟩ := h.saving hsaving.1
  rcases (mem_underWay_handle hanswer).mp hasked with rfl | hasked
  · rw [hsaving.2] at hsecret
    cases hsecret
  · exact ⟨asked, hasked, hsecret⟩

/-- **The page handles an answer.** -/
theorem Kept.handle (h : Kept P service w) {index : ℕ}
    (hguard : InStep P service w (.handle index)) (hstep : w.handle index = some w') :
    Kept P service w' := by
  rw [World.handle] at hstep
  cases hanswer : w.answers[index]? with
  | none => rw [hanswer] at hstep; cases hstep
  | some answer =>
    obtain ⟨request, result⟩ := answer
    simp only [hanswer] at hstep
    have hids : ∀ asked ∈ w.requests ++ (w.answers.eraseIdx index).map Prod.fst,
        IdsTrimmed asked.form.providers := fun asked hasked =>
      h.requestIds asked ((mem_underWay_handle hanswer).mpr (.inr hasked))
    have hanswered : ∀ asked saved, (asked, some saved) ∈ w.answers.eraseIdx index →
        SameProviders saved.providers asked.form.providers := fun asked saved hmem =>
      h.answered asked saved ((mem_answers_iff hanswer).mpr (.inr hmem))
    cases result with
    | none =>
      simp only [Option.some.injEq] at hstep
      subst hstep
      exact ⟨h.edits, h.rendered, h.timer, h.saving_handle hanswer, h.formIds, h.renderedIds, hids,
        hanswered, h.checked, h.keys, fun hsettling => by cases hsettling.failed⟩
    | some saved =>
      have hsaved : SameProviders saved.providers request.form.providers :=
        h.answered request saved (List.mem_of_getElem? hanswer)
      have hsavedIds : IdsTrimmed saved.providers :=
        (h.requestIds request ((mem_underWay_handle hanswer).mpr (.inl rfl))).of_same hsaved
      cases hreplaces : request.origin.replaces with
      | true =>
        simp only [hreplaces, if_true, Page.finish, Option.some.injEq] at hstep
        subst hstep
        -- the answer is the list that is meant, with the provider that was added
        have hsame : SameProviders saved.providers (w.meant.providers ++ request.origin.added) := by
          have hdraft := hguard request saved hanswer hreplaces
          rw [SameProviders, hsaved, Request.form, ← h.edits, List.map_append, List.map_append,
            hdraft]
        refine ⟨(if_pos hsame).symm, fun htouched => (by cases htouched), h.timer,
          h.saving_handle hanswer, hsavedIds, h.renderedIds, hids, hanswered, h.checked, h.keys,
          fun hsettling => by cases hsettling.touched⟩
      | false =>
        simp only [hreplaces, Bool.false_eq_true, if_false, Page.finish, Option.some.injEq] at hstep
        subst hstep
        refine ⟨h.edits, h.rendered, h.timer, h.saving_handle hanswer, h.formIds, h.renderedIds,
          hids, hanswered, h.checked, h.keys, fun hsettling => ?_⟩
        refine h.arrives ⟨hsettling.touched, hsettling.timer, hsettling.failed,
          fun asked hasked => ?_, fun other hother => ?_⟩
        · rcases (mem_underWay_handle hanswer).mp hasked with rfl | hasked
          · exact hreplaces
          · exact hsettling.autosaves asked hasked
        · rcases (mem_answers_iff hanswer).mp hother with rfl | hother
          · exact Option.some_ne_none saved
          · exact hsettling.succeeded other hother

theorem withId_some {uuid : Text} (hstep : World.withId uuid w = some w') :
    trim uuid = uuid ∧ w' = w := by
  rw [World.withId] at hstep
  split at hstep
  · exact ⟨‹_›, (Option.some.inj hstep).symm⟩
  · cases hstep

/-- **The step lemma.** -/
theorem Kept.next (hP : P.Lawful) (h : Kept P service w) {action : Action}
    (hguard : InStep P service w action) (hstep : w.next P service action = some w') :
    Kept P service w' := by
  cases action with
  | updateProvider providerId edit =>
    cases hstep
    exact h.change (idsTrimmed_updateProvider h.formIds providerId edit)
  | addPresetProvider uuid vendor name =>
    obtain ⟨hid, rfl⟩ := withId_some hstep
    refine h.change (h.formIds.append (idsTrimmed_singleton ?_))
    split <;> exact hid
  | addCompatibleProvider uuid =>
    obtain ⟨hid, rfl⟩ := withId_some hstep
    exact h.change (h.formIds.append (idsTrimmed_singleton hid))
  | removeProvider providerId =>
    cases hstep
    rw [World.removeProvider]
    have hids : IdsTrimmed (w.page.form.providers.filter (·.id ≠ trimJs providerId)) :=
      fun provider hprovider => h.formIds provider (List.mem_of_mem_filter hprovider)
    split
    · exact h
    · dsimp only
      split
      · exact (h.change hids).setForm rfl
      · exact h.change hids
  | setField edit =>
    cases hstep
    refine h.setForm ?_
    cases edit <;> rfl
  | retrySave =>
    cases hstep
    exact h.retrySave
  | addPresetProviderWithConfig uuid vendor name model apiKey =>
    obtain ⟨hid, rfl⟩ := withId_some hstep
    rw [World.addPresetProviderWithConfig]
    split
    · exact h
    · exact h.saveSecret rfl (idsTrimmed_singleton hid)
  | addCompatibleProviderWithConfig uuid name baseUrl model apiKey =>
    obtain ⟨hid, rfl⟩ := withId_some hstep
    rw [World.addCompatibleProviderWithConfig]
    split
    · exact h
    · exact h.saveSecret rfl (idsTrimmed_singleton hid)
  | replaceProviderApiKey providerId value =>
    cases hstep
    rw [World.replaceProviderApiKey]
    split
    · exact h
    · exact h.saveSecret rfl fun _ hp => absurd hp List.not_mem_nil
  | clearProviderApiKey providerId =>
    cases hstep
    rw [World.clearProviderApiKey]
    split
    · exact h
    · exact h.saveSecret rfl fun _ hp => absurd hp List.not_mem_nil
  | testProviderConnection =>
    cases hstep
    exact h.ask rfl (fun _ hp => absurd hp List.not_mem_nil) (fun _ => id) .inl
  | render =>
    cases hstep
    exact h.render hguard
  | expire => exact h.expire hstep
  | carryOut outcome => exact h.carryOut hP hguard hstep
  | handle index => exact h.handle hguard hstep

end Steps

/-! ## The result -/

section Runs

variable {P : Primitives} {service : CryptoService}

theorem currentProvider_of_mem {raw file : AiSettings} (h : validateAiSettings raw = .ok file)
    {provider : AiProviderSettings} (hmem : provider ∈ file.providers) :
    currentProvider file provider.id = some provider := by
  obtain ⟨checked, hchecked, hfile⟩ := bind_eq_ok_iff.mp h
  cases hfile
  obtain ⟨hvalid, hproviders⟩ := Security.valid_of_validateAiSettings hchecked
  have hnodup : ((raw.providers.map AiProvider.trimmed).map AiProvider.id).Nodup := by
    have hids := hvalid.nodup
    rw [hproviders, List.map_map, List.map_map] at hids
    rw [List.map_map]
    exact hids
  rw [currentProvider]
  refine List.find?_eq_some_iff_append.mpr ⟨by simp, ?_⟩
  obtain ⟨before, after, hsplit⟩ := List.append_of_mem hmem
  simp only at hsplit
  refine ⟨after.reverse, before.reverse, by rw [hsplit]; simp, fun other hother => ?_⟩
  have hne : other.id ≠ provider.id := by
    rw [hsplit, List.map_append, List.map_cons] at hnodup
    have htail := (List.nodup_append.mp hnodup).2.1
    intro heq
    exact (List.nodup_cons.mp htail).1 (heq ▸ List.mem_map_of_mem (List.mem_reverse.mp hother))
  simpa using hne

theorem kept_loaded {raw file : AiSettings} (h : validateAiSettings raw = .ok file) :
    Kept P service (.loaded P service file) where
  edits := rfl
  rendered _ := rfl
  timer draft hdraft := by cases hdraft
  saving hsaving := by cases hsaving
  formIds := (checked_of_validate h).idsTrimmed.of_same (sameProviders_view file)
  renderedIds := (checked_of_validate h).idsTrimmed.of_same (sameProviders_view file)
  requestIds request hrequest := by cases hrequest
  answered request saved hmem := by cases hmem
  checked := checked_of_validate h
  keys provider hprovider := by
    show _ = revealOptionalString P service ((currentProvider file provider.id).bind _)
    rw [currentProvider_of_mem h hprovider]
    rfl
  arrives _ := (sameProviders_view file).symm

/-- **Edits and keys survive**, in every run that keeps in step. -/
theorem survives_of_inStep (hP : P.Lawful) {w : World}
    (h : ((settingsMachine P service).restrict (InStep P service)).Reachable w) :
    Survives P service w := by
  have hkept : Kept P service w := by
    refine h.induct (fun w hinit => ?_) fun w action w' _ hkept hstep => ?_
    · obtain ⟨raw, file, hfile, rfl⟩ := hinit
      exact kept_loaded hfile
    · exact hkept.next hP hstep.1 hstep.2
  exact hkept.survives

end Runs

/-! ## One provider -/

def sampleService : CryptoService := .lockedFor "k".toList

def sampleSettings : AiSettings where
  limits := ⟨1500, 1200, 4, 600, 2, 15000, 20000⟩
  activeProviderId := "p".toList
  providers := [⟨"p".toList, .preset, .deepseek, "Deep".toList, "https://api.deepseek.com".toList,
    "deepseek-chat".toList, none⟩]

def sampleOutcome : SaveOutcome := ⟨none, none, none, fun _ => .empty⟩

theorem sampleSettings_valid : validateAiSettings sampleSettings = .ok sampleSettings := by
  rfl

abbrev sampleLoaded : World := .loaded Security.standIn sampleService sampleSettings

theorem reachable_sampleLoaded :
    (settingsMachine Security.standIn sampleService).Reachable sampleLoaded :=
  .init ⟨_, _, sampleSettings_valid, rfl⟩

def sampleEdited : World :=
  sampleLoaded.change (updateProvider "p".toList (.name "Mine".toList))

/-- A name is changed and waits for its autosave. -/
theorem survives_of_inStep_sampleEdited :
    Survives Security.standIn sampleService
      { sampleEdited with page := sampleEdited.page.render } := by
  have hstart : ((settingsMachine Security.standIn sampleService).restrict
      (InStep Security.standIn sampleService)).Reachable sampleLoaded :=
    .init ⟨_, _, sampleSettings_valid, rfl⟩
  have hedit : ((settingsMachine Security.standIn sampleService).restrict
      (InStep Security.standIn sampleService)).Reachable sampleEdited :=
    .step (a := .updateProvider "p".toList (.name "Mine".toList)) hstart ⟨trivial, rfl⟩
  have hguard : InStep Security.standIn sampleService sampleEdited .render := by
    -- the new name is not what was saved last
    intro _ _ hsame
    have hdiffers : buildSaveInput sampleEdited.page.form sampleEdited.page.lastLoaded none
        ≠ sampleEdited.page.lastSaved := by decide +kernel
    exact absurd hsame hdiffers
  exact survives_of_inStep Security.standIn_lawful (.step (a := .render) hedit ⟨hguard, rfl⟩)

/-- The name of the provider is changed while a connection test saves: the answer of the save puts
the old name back. -/
theorem sampleRenamed_lost :
    ¬∀ w, (settingsMachine Security.standIn sampleService).Reachable w →
      Survives Security.standIn sampleService w := by
  intro h
  have hrun : (Machine.exec (World.next Security.standIn sampleService) sampleLoaded
        [.testProviderConnection, .updateProvider "p".toList (.name "Mine".toList), .render,
          .carryOut sampleOutcome, .handle 0]).map
        (fun w => (w.page.form.providers.map AiProvider.name,
          w.meant.providers.map AiProvider.name))
      = some (["Deep".toList], ["Mine".toList]) := by decide +kernel
  obtain ⟨w, hexec, hnames⟩ := Option.map_eq_some_iff.mp hrun
  obtain ⟨hform, hmeant⟩ := Prod.mk.inj hnames
  have hsurvives := h w (reachable_sampleLoaded.exec (fun _ _ _ hstep => hstep) _ hexec)
  rw [hsurvives.edits, hmeant] at hform
  revert hform
  decide

end FluxTerm.Ai
