import FluxTerm.Lib.Machine
import FluxTerm.Lib.Workers
import FluxTerm.Security.StandIn

/-!
# FluxTerm — one configuration key for a directory

`src-tauri/src/config_key_store.rs`: any number of calls read the key file of one directory, or
create it when it is missing. The file is written to a temporary name and appears as a whole.

* **`oneKey_of_reachable`** — the result on runs.
* **`sampleLater_fails`** — a later call cannot read the file.
-/

namespace FluxTerm.Security

open FluxTerm.Engine FluxTerm.Lib

/-! ## The key file -/

structure ConfigKeyFile where
  version : ℕ
  keyId : Text
  keyMaterial : Text
deriving DecidableEq

structure KeySetting where
  P : Primitives
  toStringPretty : ConfigKeyFile → Text
  fromStr : Text → Except String ConfigKeyFile
  hasParent : Bool

/-- What `create_config_key_at_path` draws: a UUID and 32 bytes. -/
structure KeyDraw where
  uuid : Text
  keyMaterial : Bytes
  size_keyMaterial : keyMaterial.size = 32

def configKeyInvalid : EngineError :=
  .new "config_key_invalid" "The configuration key file is invalid"

def decodeConfigKey (P : Primitives) (stored : ConfigKeyFile) : Except EngineError ConfigKey :=
  if h : stored.version = 1 ∧ configKeyPrefix <+: stored.keyId then
    match P.base64Decode stored.keyMaterial with
    | .error err =>
      .error (.withDetail "config_key_invalid" "The configuration key file is invalid" err)
    | .ok decoded =>
      if decoded.size = 32 then .ok ⟨stored.keyId, decoded, h.2⟩
      else
        .error (.new "config_key_invalid" "The configuration key must contain exactly 32 bytes")
  else .error configKeyInvalid

namespace KeySetting

variable (setting : KeySetting)

/-- The content that `create_config_key_at_path` writes. -/
def rawKey (draw : KeyDraw) : Text := setting.toStringPretty
  { version := 1
    keyId := configKeyPrefix ++ draw.uuid
    keyMaterial := setting.P.base64Encode draw.keyMaterial }

/-- `read_config_key_from_path`, on the content of the file. -/
def parseKey (raw : Text) : Except EngineError ConfigKey :=
  match setting.fromStr raw with
  | .error err =>
    .error (.withDetail "config_key_invalid" "The configuration key file is invalid" err)
  | .ok stored => decodeConfigKey setting.P stored

end KeySetting

/-! ## Calls -/

/-- How far a call is: what it does next. -/
inductive KeyStage where
  /-- `path.exists` of `create_config_key_at_path`. -/
  | checking
  /-- `create_dir_all`. -/
  | creatingDir (raw : Text)
  /-- `tempfile_in`. -/
  | creatingTemp (raw : Text)
  /-- `write_all` and `sync_all`, with what has been written. -/
  | writing (raw written : Text)
  /-- `persist_noclobber`. -/
  | persisting (written : Text)
  /-- `path.exists` of `read_config_key_from_path`. -/
  | reading
  /-- `read_to_string`. -/
  | opening
  | done (result : Except EngineError (Option ConfigKey))

/-- A call of `read_config_key_from_path`, or of `create_config_key_at_path` with what it draws. -/
structure KeyCall where
  creates : Option KeyDraw
  stage : KeyStage
  faulty : Bool
  observed : Option Text
  seen : Option ConfigKey

namespace KeyCall

variable (setting : KeySetting) (c : KeyCall)

def finish (result : Except EngineError (Option ConfigKey)) : KeyCall :=
  { c with stage := .done result }

/-- An operation of `write_new_config_key` has failed. -/
def writeFailed (message detail : String) : KeyCall :=
  c.finish (.error (.withDetail "config_key_write_failed" message detail))

/-- `write_all` writes some more. -/
def writes (n : ℕ) : Option KeyCall :=
  match c.stage with
  | .writing raw written => some
      { c with stage := .writing raw (written ++ (raw.drop written.length).take n) }
  | _ => none

/-- The next operation of the call, which may fail: the file and the call after it. An existence
check that fails finds nothing. -/
def act (target : Option Text) (failure : Option String) : Option (Option Text × KeyCall) :=
  let c := { c with faulty := c.faulty || failure.isSome }
  match c.stage with
  | .checking => c.creates.map fun draw =>
    if failure.isNone ∧ target.isSome then (target, { c with stage := .reading })
    else if setting.hasParent then
      (target, { c with stage := .creatingDir (setting.rawKey draw) })
    else (target, c.finish (.error (.new "config_key_write_failed"
      "Failed to resolve the configuration key directory")))
  | .creatingDir raw =>
    match failure with
    | some err =>
      some (target, c.writeFailed "Failed to create the configuration key directory" err)
    | none => some (target, { c with stage := .creatingTemp raw })
  | .creatingTemp raw =>
    match failure with
    | some err =>
      some (target, c.writeFailed "Failed to create a temporary configuration key file" err)
    | none => some (target, { c with stage := .writing raw [] })
  | .writing raw written =>
    match failure with
    | some err => some (target, c.writeFailed "Failed to write the configuration key" err)
    | none =>
      if written = raw then some (target, { c with stage := .persisting written }) else none
  | .persisting written =>
    match failure with
    | some err => some (target, c.writeFailed "Failed to persist the configuration key" err)
    -- an existing file stays, and that is no error
    | none => some (some (target.getD written), { c with stage := .reading })
  | .reading =>
    if failure.isNone ∧ target.isSome then some (target, { c with stage := .opening })
    else some (target, c.finish (if c.creates.isSome then .error configKeyInvalid else .ok none))
  | .opening =>
    match failure with
    | some err => some (target, c.finish (.error (.withDetail "config_key_read_failed"
        "Failed to read the configuration key" err)))
    | none => target.map fun raw =>
      (target, { c with
        stage := .done ((setting.parseKey raw).map some)
        observed := some raw })
  | .done _ => none

def key? : Option ConfigKey :=
  match c.stage with
  | .done (.ok key) => key
  | _ => none

end KeyCall

structure KeyWorld where
  target : Option Text
  calls : List KeyCall

inductive KeyEvent where
  /-- A call begins: of `create_config_key_at_path` if it draws a key. -/
  | start (creates : Option KeyDraw)
  | writes (call n : ℕ)
  | act (call : ℕ) (failure : Option String)

namespace KeyWorld

variable (setting : KeySetting) (w : KeyWorld)

def returned : Option ConfigKey := w.calls.findSome? KeyCall.key?

def next : KeyEvent → Option KeyWorld
  | .start creates =>
    let stage := if creates.isSome then KeyStage.checking else .reading
    some { w with calls := w.calls ++ [⟨creates, stage, false, none, w.returned⟩] }
  | .writes k n => (w.calls[k]?).bind fun c => (c.writes n).map fun c' =>
    { w with calls := w.calls.set k c' }
  | .act k failure => (w.calls[k]?).bind fun c =>
    (c.act setting w.target failure).map fun (target, c') => ⟨target, w.calls.set k c'⟩

end KeyWorld

def keyMachine (setting : KeySetting) (target : Option Text) : Machine KeyWorld KeyEvent :=
  .ofStep ⟨target, []⟩ (KeyWorld.next setting)

/-- All calls that return a key return the same; a call that begins when a key has been returned
returns that key, unless one of its operations fails; a file that was there stays; and what a call
reads is that file or the whole content that one call has drawn. -/
structure OneKey (setting : KeySetting) (start : Option Text) (w : KeyWorld) : Prop where
  agree : ∀ c ∈ w.calls, ∀ d ∈ w.calls, ∀ key key', c.stage = .done (.ok (some key)) →
    d.stage = .done (.ok (some key')) → key = key'
  later : ∀ c ∈ w.calls, ∀ key result, c.seen = some key → c.stage = .done result →
    c.faulty = false → result = .ok (some key)
  kept : ∀ raw, start = some raw → w.target = some raw
  whole : ∀ c ∈ w.calls, ∀ raw, c.observed = some raw →
    start = some raw ∨ ∃ d ∈ w.calls, ∃ draw, d.creates = some draw ∧ raw = setting.rawKey draw

/-! ## One operation -/

variable {setting : KeySetting} {start target target' : Option Text} {c c' : KeyCall}
  {w w' : KeyWorld}

def Holds (setting : KeySetting) (target : Option Text) (key : ConfigKey) : Prop :=
  ∃ raw, target = some raw ∧ setting.parseKey raw = .ok key

/-- What is known of a stage. -/
def StageSound (setting : KeySetting) (target : Option Text) (creates : Option KeyDraw) :
    KeyStage → Prop
  | .creatingDir raw | .creatingTemp raw | .persisting raw =>
    ∃ draw, creates = some draw ∧ raw = setting.rawKey draw
  | .writing raw written =>
    (∃ draw, creates = some draw ∧ raw = setting.rawKey draw) ∧ written <+: raw
  | .done (.ok (some key)) => Holds setting target key
  | .done (.ok none) => creates = none
  | _ => True

def OnItsWay (key : ConfigKey) : KeyStage → Prop
  | .checking | .reading | .opening => True
  | .done result => result = .ok (some key)
  | _ => False

/-- What is known of a call. -/
structure CallSound (setting : KeySetting) (target : Option Text) (c : KeyCall) : Prop where
  stage : StageSound setting target c.creates c.stage
  observed : ∀ raw, c.observed = some raw → target = some raw
  seen : ∀ key, c.seen = some key → Holds setting target key
  later : ∀ key, c.seen = some key → c.faulty = false → OnItsWay key c.stage

def Stays (target target' : Option Text) : Prop := ∀ raw, target = some raw → target' = some raw

theorem Stays.refl (target : Option Text) : Stays target target := fun _ h => h

theorem Holds.mono {key : ConfigKey} (h : Holds setting target key) (hstays : Stays target target') :
    Holds setting target' key := by
  obtain ⟨raw, htarget, hparse⟩ := h
  exact ⟨raw, hstays raw htarget, hparse⟩

theorem Holds.unique {key key' : ConfigKey} (h : Holds setting target key)
    (h' : Holds setting target key') : key = key' := by
  obtain ⟨raw, htarget, hparse⟩ := h
  obtain ⟨raw', htarget', hparse'⟩ := h'
  rw [htarget, Option.some.injEq] at htarget'
  rw [← htarget', hparse, Except.ok.injEq] at hparse'
  exact hparse'

theorem StageSound.mono {creates : Option KeyDraw} {stage : KeyStage}
    (h : StageSound setting target creates stage) (hstays : Stays target target') :
    StageSound setting target' creates stage := by
  cases stage with
  | done result =>
    cases result with
    | ok key =>
      cases key with
      | some key => exact Holds.mono h hstays
      | none => exact h
    | error err => trivial
  | _ => exact h

theorem CallSound.mono (h : CallSound setting target c) (hstays : Stays target target') :
    CallSound setting target' c where
  stage := h.stage.mono hstays
  observed raw hraw := hstays raw (h.observed raw hraw)
  seen key hkey := (h.seen key hkey).mono hstays
  later := h.later

theorem CallSound.step {failure : Option String} (h : CallSound setting target c)
    (hstays : Stays target target')
    (hkept : c'.creates = c.creates ∧ c'.observed = c.observed ∧ c'.seen = c.seen ∧
      c'.faulty = (c.faulty || failure.isSome))
    (hstage : StageSound setting target' c.creates c'.stage)
    (hway : ∀ key, Holds setting target key → failure = none → OnItsWay key c.stage →
      OnItsWay key c'.stage) : CallSound setting target' c' where
  stage := hkept.1 ▸ hstage
  observed raw hraw := hstays raw (h.observed raw (hkept.2.1 ▸ hraw))
  seen key hkey := (h.seen key (hkept.2.2.1 ▸ hkey)).mono hstays
  later key hkey hfaulty := by
    rw [hkept.2.2.1] at hkey
    rw [hkept.2.2.2, Bool.or_eq_false_iff, Option.isSome_eq_false_iff, Option.isNone_iff_eq_none]
      at hfaulty
    exact hway key (h.seen key hkey) hfaulty.2 (h.later key hkey hfaulty.1)

/-- **What one operation does.** The file stays if it is there, and appears as a whole if not. -/
theorem act_spec {failure : Option String} (h : CallSound setting target c)
    (hact : c.act setting target failure = some (target', c')) :
    Stays target target' ∧ CallSound setting target' c' ∧ c'.creates = c.creates ∧
      (target' = target ∨
        ∃ draw, c.creates = some draw ∧ target' = some (setting.rawKey draw)) := by
  have hstage := h.stage
  -- the operations that leave the file alone
  have hsame : ∀ d : KeyCall, (d.creates = c.creates ∧ d.observed = c.observed ∧ d.seen = c.seen ∧
        d.faulty = (c.faulty || failure.isSome)) → StageSound setting target c.creates d.stage →
      (∀ key, Holds setting target key → failure = none → OnItsWay key c.stage →
        OnItsWay key d.stage) →
      Stays target target ∧ CallSound setting target d ∧ d.creates = c.creates ∧
        (target = target ∨
          ∃ draw, c.creates = some draw ∧ target = some (setting.rawKey draw)) :=
    fun d hkept hsound hway => ⟨.refl target, h.step (.refl target) hkept hsound hway, hkept.1,
      .inl rfl⟩
  unfold KeyCall.act at hact
  dsimp only at hact
  split at hact
  all_goals
    rename_i hat
    rw [hat] at hstage hsame
  · -- checking
    obtain ⟨draw, hdraw, hact⟩ := Option.map_eq_some_iff.mp hact
    split at hact
    · cases hact
      exact hsame _ ⟨rfl, rfl, rfl, rfl⟩ trivial fun _ _ _ _ => trivial
    · rename_i hmissing
      have haway : ∀ key, Holds setting target key → failure = none → False := by
        rintro key ⟨raw, htarget, -⟩ hnone
        exact hmissing ⟨Option.isNone_iff_eq_none.mpr hnone, htarget ▸ rfl⟩
      split at hact
      · cases hact
        exact hsame _ ⟨rfl, rfl, rfl, rfl⟩ ⟨draw, hdraw, rfl⟩
          fun key hheld hnone => absurd hnone (haway key hheld)
      · cases hact
        exact hsame _ ⟨rfl, rfl, rfl, rfl⟩ trivial
          fun key hheld hnone => absurd hnone (haway key hheld)
  · -- creatingDir
    split at hact
    · cases hact
      exact hsame _ ⟨rfl, rfl, rfl, rfl⟩ trivial fun _ _ => nofun
    · cases hact
      exact hsame _ ⟨rfl, rfl, rfl, rfl⟩ hstage fun _ _ _ => False.elim
  · -- creatingTemp
    split at hact
    · cases hact
      exact hsame _ ⟨rfl, rfl, rfl, rfl⟩ trivial fun _ _ => nofun
    · cases hact
      exact hsame _ ⟨rfl, rfl, rfl, rfl⟩ ⟨hstage, List.nil_prefix⟩ fun _ _ _ => False.elim
  · -- writing
    split at hact
    · cases hact
      exact hsame _ ⟨rfl, rfl, rfl, rfl⟩ trivial fun _ _ => nofun
    · split at hact
      · rename_i heq
        cases hact
        exact hsame _ ⟨rfl, rfl, rfl, rfl⟩ (heq ▸ hstage.1) fun _ _ _ => False.elim
      · cases hact
  · -- persisting
    split at hact
    · cases hact
      exact hsame _ ⟨rfl, rfl, rfl, rfl⟩ trivial fun _ _ => nofun
    · cases hact
      obtain ⟨draw, hdraw, rfl⟩ := hstage
      cases target with
      | some raw => exact hsame _ ⟨rfl, rfl, rfl, rfl⟩ trivial fun _ _ _ => False.elim
      | none =>
        refine ⟨nofun, h.step nofun ⟨rfl, rfl, rfl, rfl⟩ trivial fun _ _ _ _ => trivial, rfl, ?_⟩
        exact .inr ⟨draw, hdraw, rfl⟩
  · -- reading
    split at hact
    · cases hact
      exact hsame _ ⟨rfl, rfl, rfl, rfl⟩ trivial fun _ _ _ _ => trivial
    · rename_i hmissing
      cases hact
      refine hsame _ ⟨rfl, rfl, rfl, rfl⟩ ?_ ?_
      · show StageSound setting target c.creates (.done (if c.creates.isSome then _ else _))
        split
        · trivial
        · rename_i hreads
          exact Option.not_isSome_iff_eq_none.mp hreads
      · rintro key ⟨raw, htarget, -⟩ hnone
        exact absurd ⟨Option.isNone_iff_eq_none.mpr hnone, htarget ▸ rfl⟩ hmissing
  · -- opening
    split at hact
    · cases hact
      exact hsame _ ⟨rfl, rfl, rfl, rfl⟩ trivial fun _ _ => nofun
    · obtain ⟨raw, hraw, hact⟩ := Option.map_eq_some_iff.mp hact
      cases hact
      refine ⟨.refl _, ⟨?_, ?_, h.seen, ?_⟩, rfl, .inl rfl⟩
      · show StageSound setting target c.creates (.done ((setting.parseKey raw).map some))
        cases hparse : setting.parseKey raw with
        | error err => trivial
        | ok key => exact ⟨raw, hraw, hparse⟩
      · rintro other ⟨⟩
        exact hraw
      · intro key hkey _
        obtain ⟨raw', hraw', hparse⟩ := h.seen key hkey
        rw [hraw, Option.some.injEq] at hraw'
        show (setting.parseKey raw).map some = .ok (some key)
        rw [hraw', hparse]
        rfl
  · -- done
    cases hact

/-! ## Runs -/

/-- The calls are sound, the file that was there stays, and another one has been drawn. -/
structure KeyTrack (setting : KeySetting) (start : Option Text) (w : KeyWorld) : Prop where
  calls : ∀ c ∈ w.calls, CallSound setting w.target c
  kept : Stays start w.target
  origin : ∀ raw, w.target = some raw →
    start = some raw ∨ ∃ d ∈ w.calls, ∃ draw, d.creates = some draw ∧ raw = setting.rawKey draw

theorem holds_of_returned (h : ∀ c ∈ w.calls, CallSound setting w.target c) {key : ConfigKey}
    (hreturned : w.returned = some key) : Holds setting w.target key := by
  obtain ⟨c, hc, hkey⟩ := List.exists_of_findSome?_eq_some hreturned
  have hstage := (h c hc).stage
  unfold KeyCall.key? at hkey
  split at hkey
  · rename_i hdone
    rw [hdone, hkey] at hstage
    exact hstage
  · cases hkey

theorem callSound_start {creates : Option KeyDraw} {seen : Option ConfigKey}
    (hseen : ∀ key, seen = some key → Holds setting target key) :
    CallSound setting target
      ⟨creates, if creates.isSome then .checking else .reading, false, none, seen⟩ where
  stage := by
    dsimp only
    split
    · trivial
    · trivial
  observed := nofun
  seen := hseen
  later _ _ _ := by
    dsimp only
    split
    · trivial
    · trivial

theorem KeyTrack.set (h : KeyTrack setting start w) {k : ℕ} (hc : w.calls[k]? = some c)
    (hstays : Stays w.target target') (hsound : CallSound setting target' c')
    (hcreates : c'.creates = c.creates)
    (horigin : target' = w.target ∨
      ∃ draw, c.creates = some draw ∧ target' = some (setting.rawKey draw)) :
    KeyTrack setting start ⟨target', w.calls.set k c'⟩ where
  calls d hd := by
    rcases List.mem_or_eq_of_mem_set hd with hd | rfl
    · exact (h.calls d hd).mono hstays
    · exact hsound
  kept raw hraw := hstays raw (h.kept raw hraw)
  origin raw hraw := by
    have hmem : c' ∈ w.calls.set k c' :=
      List.mem_set (List.getElem?_eq_some_iff.mp hc).1 c'
    rcases horigin with rfl | ⟨draw, hdraw, rfl⟩
    · refine (h.origin raw hraw).imp_right ?_
      rintro ⟨d, hd, draw, hdraw, hfull⟩
      rcases mem_set_of_mem (b := c') hc hd with rfl | hd
      · exact ⟨c', hmem, draw, hcreates.trans hdraw, hfull⟩
      · exact ⟨d, hd, draw, hdraw, hfull⟩
    · exact .inr ⟨c', hmem, draw, hcreates.trans hdraw, (Option.some.inj hraw).symm⟩

/-- **The step lemma.** -/
theorem KeyTrack.next (h : KeyTrack setting start w) {event : KeyEvent}
    (hstep : w.next setting event = some w') :
    KeyTrack setting start w' ∧ Stays w.target w'.target := by
  cases event with
  | start creates =>
    cases hstep
    refine ⟨⟨?_, h.kept, ?_⟩, .refl _⟩
    · intro c hc
      rcases List.mem_append.mp hc with hc | hc
      · exact h.calls c hc
      · rw [List.mem_singleton.mp hc]
        exact callSound_start fun key => holds_of_returned h.calls
    · intro raw hraw
      refine (h.origin raw hraw).imp_right ?_
      rintro ⟨d, hd, hdraw⟩
      exact ⟨d, List.mem_append_left _ hd, hdraw⟩
  | writes k n =>
    obtain ⟨c, hc, hstep⟩ := Option.bind_eq_some_iff.mp hstep
    obtain ⟨c', hwrites, hstep⟩ := Option.map_eq_some_iff.mp hstep
    have hsound := h.calls c (List.mem_of_getElem? hc)
    cases hstep
    unfold KeyCall.writes at hwrites
    split at hwrites
    · rename_i raw written hat
      cases hwrites
      refine ⟨h.set hc (.refl _) ?_ rfl (.inl rfl), .refl _⟩
      have hstage := hsound.stage
      rw [hat] at hstage
      refine ⟨⟨hstage.1, ?_⟩, hsound.observed, hsound.seen, ?_⟩
      · -- the temporary file holds a longer beginning
        obtain ⟨rest, rfl⟩ := hstage.2
        rw [List.drop_left]
        exact (List.prefix_append_right_inj written).mpr (List.take_prefix n rest)
      · intro key hkey hfaulty
        have hway := hsound.later key hkey hfaulty
        rw [hat] at hway
        exact hway.elim
    · cases hwrites
  | act k failure =>
    obtain ⟨c, hc, hstep⟩ := Option.bind_eq_some_iff.mp hstep
    obtain ⟨⟨target', c'⟩, hact, hstep⟩ := Option.map_eq_some_iff.mp hstep
    cases hstep
    obtain ⟨hstays, hsound, hcreates, horigin⟩ :=
      act_spec (h.calls c (List.mem_of_getElem? hc)) hact
    exact ⟨h.set hc hstays hsound hcreates horigin, hstays⟩

theorem KeyTrack.oneKey (h : KeyTrack setting start w) : OneKey setting start w where
  agree c hc d hd key key' hkey hkey' := by
    have hheld := (h.calls c hc).stage
    have hheld' := (h.calls d hd).stage
    rw [hkey] at hheld
    rw [hkey'] at hheld'
    exact Holds.unique hheld hheld'
  later c hc key result hseen hdone hfaulty := by
    have hway := (h.calls c hc).later key hseen hfaulty
    rw [hdone] at hway
    exact hway
  kept := h.kept
  whole c hc raw hraw := h.origin raw ((h.calls c hc).observed raw hraw)

theorem keyTrack_of_reachable (h : (keyMachine setting start).Reachable w) :
    KeyTrack setting start w := by
  refine h.induct (I := KeyTrack setting start) ?_ ?_
  · rintro _ rfl
    exact ⟨List.forall_mem_nil _, .refl _, fun _ h => .inl h⟩
  · rintro w event w' - htrack hstep
    exact (htrack.next hstep).1

/-- **One key.** In every run the calls agree on one key, and no file is replaced. -/
theorem oneKey_of_reachable (setting : KeySetting) (start : Option Text) (w : KeyWorld)
    (h : (keyMachine setting start).Reachable w) :
    OneKey setting start w ∧
      ∀ events w', (keyMachine setting start).Run w events w' → Stays w.target w'.target := by
  refine ⟨(keyTrack_of_reachable h).oneKey, fun events w' hrun => ?_⟩
  induction hrun with
  | nil => exact .refl _
  | snoc hrun hstep ih =>
    have htrack := keyTrack_of_reachable (hrun.reachable h)
    exact fun raw hraw => (htrack.next hstep).2 raw (ih raw hraw)

/-! ## Two calls -/

/-- A codec in place of JSON, and Base64 in place. -/
def sampleSetting : KeySetting where
  P := standIn
  toStringPretty stored := stored.keyId ++ '|' :: stored.keyMaterial
  fromStr raw :=
    match splitOnce '|' raw with
    | some (keyId, keyMaterial) => .ok ⟨1, keyId, keyMaterial⟩
    | none => .error "EOF while parsing"
  hasParent := true

def sampleDraw : KeyDraw where
  uuid := "7".toList
  keyMaterial := ofList (List.replicate 32 7)
  size_keyMaterial := rfl

def sampleCreation : List KeyEvent :=
  [.start (some sampleDraw), .act 0 none, .act 0 none, .act 0 none, .writes 0 41, .act 0 none,
    .act 0 none, .act 0 none, .act 0 none]

def sampleKeyWorld (events : List KeyEvent) : KeyWorld :=
  (Machine.exec (fun w event => w.next sampleSetting event) ⟨none, []⟩ events).getD ⟨none, []⟩

theorem oneKey_of_reachable_sampleCreation :
    OneKey sampleSetting none (sampleKeyWorld sampleCreation) ∧
      (sampleKeyWorld sampleCreation).returned.map (·.keyId) = some "config-7".toList :=
  have hexec : Machine.exec (fun w event => w.next sampleSetting event) ⟨none, []⟩ sampleCreation =
      some (sampleKeyWorld sampleCreation) := rfl
  ⟨(oneKey_of_reachable sampleSetting none _ (Machine.reachable_exec hexec)).1, rfl⟩

def sampleLater : List KeyEvent :=
  sampleCreation ++ [.start none, .act 1 none, .act 1 (some "Permission denied")]

theorem sampleLater_fails :
    (keyMachine sampleSetting none).Reachable (sampleKeyWorld sampleLater) ∧
      ∃ c ∈ (sampleKeyWorld sampleLater).calls, ∃ key, c.seen = some key ∧
        c.stage ≠ .done (.ok (some key)) ∧ ∃ err, c.stage = .done (.error err) := by
  have hexec : Machine.exec (fun w event => w.next sampleSetting event) ⟨none, []⟩ sampleLater =
      some (sampleKeyWorld sampleLater) := rfl
  refine ⟨Machine.reachable_exec hexec, ?_⟩
  obtain ⟨c, hc, hseen, err, hdone⟩ : ∃ c, (sampleKeyWorld sampleLater).calls[1]? = some c ∧
      c.seen.isSome = true ∧ ∃ err, c.stage = .done (.error err) := ⟨_, rfl, rfl, _, rfl⟩
  obtain ⟨key, hkey⟩ := Option.isSome_iff_exists.mp hseen
  refine ⟨c, List.mem_of_getElem? hc, key, hkey, ?_, err, hdone⟩
  rw [hdone]
  exact nofun

end FluxTerm.Security
