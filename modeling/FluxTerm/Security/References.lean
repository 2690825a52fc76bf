import Mathlib.Data.List.Nodup
import FluxTerm.Security.ProfileCommands
import FluxTerm.Security.StandIn

/-!
# FluxTerm — profiles that use a credential

`credential_save`, `credential_delete`, `profile_save` and `profile_remove` with whatever they are
called with. A profile names its credential by id, and the two are in different files.

* **`noDangling_of_reachable`** — the result on runs.

A process that stops before a write leaves the files as the write does when it fails.
-/

namespace FluxTerm.Security

open FluxTerm.Engine FluxTerm.Lib

/-! ## The commands -/

/-- `CredentialSaveInput`. There is one kind. -/
structure CredentialSaveInput where
  id : Text
  name : Text
  username : Text
  password : Option Text
deriving DecidableEq

def requiredTrimmed (value : Text) (code message : String) : Except EngineError Text :=
  if trim value = [] then .error (.new code message) else .ok (trim value)

def credentialPasswordRequired : EngineError :=
  .new "credential_password_required" "Credential password is required"

def requiredPassword (value : Option Text) : Except EngineError Text :=
  match value.filter (· ≠ []) with
  | some password => .ok password
  | none => .error credentialPasswordRequired

section Commands

variable (P : Primitives) (ctx : SecurityContext) (faults : CommandFaults)

def protectPassword (crypto : CryptoService) (nonce : Bytes) (password : Option Text) :
    Except EngineError Text := do
  let password ← requiredPassword password
  match ← protectOptionalString P crypto nonce (some password) with
  | some passwordRef => return passwordRef
  | none => .error credentialPasswordRequired

/-- The credential that `credential_save` stores: a new one, or the one with the id changed. -/
def savedCredential (crypto : CryptoService) (nonce : Bytes) (uuid username : Text)
    (input : CredentialSaveInput) (credentials : List StoredCredential) :
    Except EngineError StoredCredential :=
  if trim input.id = [] then do
    let passwordRef ← protectPassword P crypto nonce input.password
    return { id := uuid, username, passwordRef }
  else
    match credentials.find? (·.id = input.id) with
    | none => .error (.new "credential_not_found" "Credential not found")
    | some existing =>
      match input.password with
      | none => .ok { existing with username }
      | some password => do
        let passwordRef ← protectPassword P crypto nonce (some password)
        return { existing with username, passwordRef }

def replaceCredential (credential : StoredCredential) :
    List StoredCredential → List StoredCredential
  | [] => [credential]
  | item :: items =>
    if item.id = credential.id then credential :: items
    else item :: replaceCredential credential items

/-- `credential_save`: the stores after it. The name is checked and otherwise left out. -/
def credentialSave (nonce : Bytes) (uuid : Text) (input : CredentialSaveInput)
    (stores : SecretStores) : Except EngineError SecretStores := do
  access faults.credentialsRead
  let _ ← requiredTrimmed input.name "credential_name_required" "Credential name is required"
  let username ← requiredTrimmed input.username "credential_username_required"
    "Credential username is required"
  access faults.configRead
  let crypto ← ctx.crypto
  let credential ← savedCredential P crypto nonce uuid username input stores.credentials
  access faults.credentialsWrite
  return { stores with credentials := replaceCredential credential stores.credentials }

/-- `profile_remove`: the stores after it. -/
def profileRemove (profileId : Text) (stores : SecretStores) : Except EngineError SecretStores := do
  access faults.profilesRead
  access faults.profilesWrite
  return { stores with profiles := stores.profiles.filter (·.id ≠ profileId) }

end Commands

/-! ## Sequences of commands -/

inductive ReferenceCommand where
  | credentialSave (nonce : Bytes) (uuid : Text) (input : CredentialSaveInput)
  | credentialDelete (credentialId : Text) (detachReferences : Bool)
  | profileSave (nonce : ℕ → Bytes) (uuid : Text) (profile : StoredProfile)
  | profileRemove (profileId : Text)

structure ReferenceCall where
  command : ReferenceCommand
  ctx : SecurityContext
  faults : CommandFaults

/-- The stores after a command, which may have failed. -/
def ReferenceCall.run (P : Primitives) (call : ReferenceCall) (stores : SecretStores) :
    SecretStores :=
  match call.command with
  | .credentialSave nonce uuid input =>
    (credentialSave P call.ctx call.faults nonce uuid input stores).toOption.getD stores
  | .credentialDelete credentialId detachReferences =>
    (credentialDelete call.ctx call.faults credentialId detachReferences stores).1
  | .profileSave nonce uuid profile =>
    ((profileSave P call.ctx call.faults nonce uuid profile stores).map
      Prod.snd).toOption.getD stores
  | .profileRemove profileId => (profileRemove call.faults profileId stores).toOption.getD stores

/-- The credential that the profile uses is there, and the profile has no user name and no password
of its own. -/
structure Attached (credentials : List StoredCredential) (profile : StoredProfile) : Prop where
  found : ∀ credentialId, profile.credentialId = some credentialId →
    ∃ credential ∈ credentials, credential.id = credentialId
  bare : profile.credentialId ≠ none →
    profile.username = [] ∧ profile.passwordRef = none ∧ profile.authType = .password

/-- No reference dangles, and the ids of the credentials are distinct. -/
structure NoDangling (stores : SecretStores) : Prop where
  attached : ∀ profile ∈ stores.profiles, Attached stores.credentials profile
  nodup : (stores.credentials.map (·.id)).Nodup

def referenceMachine (P : Primitives) : Machine SecretStores ReferenceCall where
  init := NoDangling
  step stores call stores' := stores' = call.run P stores

/-! ## What a command keeps -/

section Results

variable {P : Primitives} {ctx : SecurityContext} {faults : CommandFaults}
  {stores stores' : SecretStores} {credentials credentials' : List StoredCredential}
  {profile : StoredProfile}

theorem Attached.mono (h : Attached credentials profile)
    (hids : ∀ id ∈ credentials.map (·.id), id ∈ credentials'.map (·.id)) :
    Attached credentials' profile where
  found credentialId hprofile := by
    obtain ⟨credential, hmem, rfl⟩ := h.found credentialId hprofile
    exact List.mem_map.mp (hids _ (List.mem_map_of_mem hmem))
  bare := h.bare

theorem Attached.of_none (h : profile.credentialId = none) : Attached credentials profile where
  found credentialId hprofile := by
    rw [h] at hprofile
    cases hprofile
  bare hsome := absurd h hsome

/-! ### Saving a credential -/

theorem ids_replaceCredential (credential : StoredCredential) (credentials : List StoredCredential) :
    (replaceCredential credential credentials).map (·.id) = credentials.map (·.id) ∨
      ((replaceCredential credential credentials).map (·.id)
          = credentials.map (·.id) ++ [credential.id] ∧
        credential.id ∉ credentials.map (·.id)) := by
  induction credentials with
  | nil => exact .inr ⟨rfl, List.not_mem_nil⟩
  | cons item items ih =>
    unfold replaceCredential
    split
    · rename_i heq
      refine .inl ?_
      rw [List.map_cons, List.map_cons, heq]
    · rename_i hne
      rw [List.map_cons, List.map_cons]
      refine ih.imp (fun heq => by rw [heq]) fun ⟨heq, hnew⟩ => ⟨by rw [heq]; rfl, ?_⟩
      rw [List.mem_cons, not_or]
      exact ⟨Ne.symm hne, hnew⟩

theorem NoDangling.credentialSave {nonce : Bytes} {uuid : Text} {input : CredentialSaveInput}
    (h : NoDangling stores)
    (hsave : credentialSave P ctx faults nonce uuid input stores = .ok stores') :
    NoDangling stores' := by
  unfold Security.credentialSave at hsave
  obtain ⟨-, -, hsave⟩ := bind_eq_ok_iff.mp hsave
  obtain ⟨_name, -, hsave⟩ := bind_eq_ok_iff.mp hsave
  obtain ⟨username, -, hsave⟩ := bind_eq_ok_iff.mp hsave
  obtain ⟨-, -, hsave⟩ := bind_eq_ok_iff.mp hsave
  obtain ⟨crypto, -, hsave⟩ := bind_eq_ok_iff.mp hsave
  obtain ⟨credential, -, hsave⟩ := bind_eq_ok_iff.mp hsave
  obtain ⟨-, -, hsave⟩ := bind_eq_ok_iff.mp hsave
  cases hsave
  rcases ids_replaceCredential credential stores.credentials with heq | ⟨heq, hnew⟩
  · refine ⟨fun profile hprofile => (h.attached profile hprofile).mono fun id hid => ?_, ?_⟩
    · rw [heq]
      exact hid
    · rw [heq]
      exact h.nodup
  · refine ⟨fun profile hprofile => (h.attached profile hprofile).mono fun id hid => ?_, ?_⟩
    · rw [heq]
      exact List.mem_append_left _ hid
    · rw [heq]
      exact List.nodup_append'.mpr ⟨h.nodup, List.nodup_singleton _,
        List.disjoint_singleton.mpr hnew⟩

/-! ### Saving and removing a profile -/

theorem mem_replaceProfile {saved : StoredProfile} {profiles : List StoredProfile}
    (h : profile ∈ replaceProfile saved profiles) : profile = saved ∨ profile ∈ profiles := by
  induction profiles with
  | nil => exact .inl (List.mem_singleton.mp h)
  | cons item items ih =>
    unfold replaceProfile at h
    split at h
    · exact (List.mem_cons.mp h).imp_right (List.mem_cons_of_mem _)
    · rcases List.mem_cons.mp h with rfl | h
      · exact .inr List.mem_cons_self
      · exact (ih h).imp_right (List.mem_cons_of_mem _)

theorem exists_of_resolveRuntimeCredential {credentialId password : Text}
    (h : resolveRuntimeCredential P ctx faults stores credentialId = .ok password) :
    ∃ credential ∈ stores.credentials, credential.id = credentialId := by
  unfold resolveRuntimeCredential at h
  obtain ⟨-, -, h⟩ := bind_eq_ok_iff.mp h
  cases hfind : stores.credentials.find? (·.id = credentialId) with
  | none =>
    rw [hfind] at h
    cases h
  | some credential =>
    have hid := List.find?_some hfind
    exact ⟨credential, List.mem_of_find?_eq_some hfind, of_decide_eq_true hid⟩

theorem attached_of_useCredential {resolved : StoredProfile}
    (h : useCredential P ctx faults stores profile = .ok resolved) :
    Attached stores.credentials resolved := by
  unfold useCredential at h
  split at h
  · rename_i hnone
    cases h
    exact .of_none hnone
  · rename_i credentialId hsome
    cases hresolve : resolveRuntimeCredential P ctx faults stores credentialId with
    | error err =>
      rw [hresolve] at h
      cases h
    | ok password =>
      rw [hresolve] at h
      cases h
      refine ⟨fun other hother => ?_, fun _ => ⟨rfl, rfl, rfl⟩⟩
      rw [hsome, Option.some.injEq] at hother
      rw [← hother]
      exact exists_of_resolveRuntimeCredential hresolve

theorem Attached.encrypted {crypto : CryptoService} {nonce : ℕ → Bytes} {encrypted : StoredProfile}
    (h : Attached credentials profile)
    (hencrypt : (profile.mapSecrets fun field => protectOptionalString P crypto (nonce field))
      = .ok encrypted) : Attached credentials encrypted := by
  unfold StoredProfile.mapSecrets at hencrypt
  obtain ⟨secrets, hsecrets, hencrypt⟩ := bind_eq_ok_iff.mp hencrypt
  cases hencrypt
  refine ⟨h.found, fun hsome => ?_⟩
  obtain ⟨husername, hpassword, hauth⟩ := h.bare hsome
  refine ⟨husername, ?_, hauth⟩
  have hkept := (HostProfile.mapSecrets_eq_ok_iff.mp hsecrets).2.1
  rw [hpassword] at hkept
  exact (Except.ok.inj hkept).symm

theorem NoDangling.profileSave {nonce : ℕ → Bytes} {uuid : Text} {saved : StoredProfile}
    (h : NoDangling stores)
    (hsave : profileSave P ctx faults nonce uuid profile stores = .ok (saved, stores')) :
    NoDangling stores' := by
  unfold Security.profileSave at hsave
  obtain ⟨-, -, hsave⟩ := bind_eq_ok_iff.mp hsave
  obtain ⟨-, -, hsave⟩ := bind_eq_ok_iff.mp hsave
  obtain ⟨crypto, -, hsave⟩ := bind_eq_ok_iff.mp hsave
  obtain ⟨name, -, hsave⟩ := bind_eq_ok_iff.mp hsave
  obtain ⟨iconKey, -, hsave⟩ := bind_eq_ok_iff.mp hsave
  obtain ⟨tags, -, hsave⟩ := bind_eq_ok_iff.mp hsave
  obtain ⟨resolved, hresolved, hsave⟩ := bind_eq_ok_iff.mp hsave
  obtain ⟨encrypted, hencrypt, hsave⟩ := bind_eq_ok_iff.mp hsave
  obtain ⟨-, -, hsave⟩ := bind_eq_ok_iff.mp hsave
  cases hsave
  refine ⟨fun other hother => ?_, h.nodup⟩
  rcases mem_replaceProfile hother with rfl | hother
  · exact (attached_of_useCredential hresolved).encrypted hencrypt
  · exact h.attached other hother

theorem NoDangling.profileRemove {profileId : Text} (h : NoDangling stores)
    (hremove : profileRemove faults profileId stores = .ok stores') : NoDangling stores' := by
  unfold Security.profileRemove at hremove
  obtain ⟨-, -, hremove⟩ := bind_eq_ok_iff.mp hremove
  obtain ⟨-, -, hremove⟩ := bind_eq_ok_iff.mp hremove
  cases hremove
  exact ⟨fun other hother => h.attached other (List.mem_of_mem_filter hother), h.nodup⟩

/-! ### Deleting a credential -/

theorem NoDangling.detach (h : NoDangling stores) (credentialId : Text) :
    NoDangling { stores with profiles := stores.profiles.map (detachCredential credentialId) } where
  attached other hother := by
    obtain ⟨profile, hprofile, rfl⟩ := List.mem_map.mp hother
    unfold detachCredential
    split
    · exact .of_none rfl
    · exact h.attached profile hprofile
  nodup := h.nodup

theorem NoDangling.drop (h : NoDangling stores) {credentialId : Text}
    (hfree : ∀ profile ∈ stores.profiles, profile.credentialId ≠ some credentialId) :
    NoDangling { stores with
      credentials := stores.credentials.filter (·.id ≠ credentialId) } where
  attached profile hprofile := by
    refine ⟨fun other hother => ?_, (h.attached profile hprofile).bare⟩
    obtain ⟨credential, hmem, rfl⟩ := (h.attached profile hprofile).found other hother
    refine ⟨credential, List.mem_filter.mpr ⟨hmem, decide_eq_true ?_⟩, rfl⟩
    intro heq
    exact hfree profile hprofile (heq ▸ hother)
  nodup := h.nodup.sublist (List.Sublist.map _ List.filter_sublist)

theorem checkDelete_eq_ok {credentialId : Text} {detachReferences referenced : Bool}
    (h : checkDelete ctx faults credentialId detachReferences stores = .ok referenced) :
    referenced = stores.profiles.any (refersTo credentialId) := by
  unfold checkDelete at h
  obtain ⟨-, -, h⟩ := bind_eq_ok_iff.mp h
  obtain ⟨-, -, h⟩ := bind_eq_ok_iff.mp h
  obtain ⟨-, -, h⟩ := bind_eq_ok_iff.mp h
  cases hfind : stores.credentials.find? (·.id = credentialId) with
  | none =>
    rw [hfind] at h
    cases h
  | some credential =>
    rw [hfind] at h
    obtain ⟨-, -, h⟩ := bind_eq_ok_iff.mp h
    obtain ⟨-, -, h⟩ := bind_eq_ok_iff.mp h
    cases h
    have hid := List.find?_some hfind
    rw [of_decide_eq_true hid]

theorem NoDangling.credentialDelete (h : NoDangling stores) (credentialId : Text)
    (detachReferences : Bool) :
    NoDangling (credentialDelete ctx faults credentialId detachReferences stores).1 := by
  unfold Security.credentialDelete
  split
  · exact h
  · rename_i referenced hcheck
    have hreferenced := checkDelete_eq_ok hcheck
    dsimp only
    split
    · exact h
    · cases referenced with
      | true =>
        split
        · exact h.detach credentialId
        · refine (h.detach credentialId).drop fun other hother => ?_
          obtain ⟨profile, -, rfl⟩ := List.mem_map.mp hother
          unfold detachCredential
          split
          · exact nofun
          · rename_i hother
            exact fun heq => hother (decide_eq_true heq)
      | false =>
        have hfree : ∀ profile ∈ stores.profiles, profile.credentialId ≠ some credentialId := by
          intro profile hprofile heq
          have hnone := List.any_eq_false.mp hreferenced.symm profile hprofile
          exact hnone (decide_eq_true heq)
        split
        · exact h
        · exact h.drop hfree

/-! ## Runs -/

/-- **The step lemma.** -/
theorem NoDangling.run (h : NoDangling stores) (call : ReferenceCall) :
    NoDangling (call.run P stores) := by
  unfold ReferenceCall.run
  split
  · rename_i nonce uuid input _
    cases hsave : Security.credentialSave P call.ctx call.faults nonce uuid input stores with
    | error err => exact h
    | ok stores' => exact h.credentialSave hsave
  · exact h.credentialDelete _ _
  · rename_i nonce uuid profile _
    cases hsave : Security.profileSave P call.ctx call.faults nonce uuid profile stores with
    | error err => exact h
    | ok result => exact h.profileSave hsave
  · rename_i profileId _
    cases hremove : Security.profileRemove call.faults profileId stores with
    | error err => exact h
    | ok stores' => exact h.profileRemove hremove

/-- **No reference dangles**, after any sequence of commands. -/
theorem noDangling_of_reachable (P : Primitives) (stores : SecretStores)
    (h : (referenceMachine P).Reachable stores) : NoDangling stores := by
  refine h.induct (I := NoDangling) (fun _ h => h) ?_
  rintro stores call _ - hkept rfl
  exact hkept.run call

end Results

/-! ## A deletion that gets halfway -/

def sampleAttached : SecretStores where
  profiles := [{
    id := ['p'], passwordRef := none, privateKeyPassphraseRef := none, proxyConfig := none
    name := ['p'], host := ['h'], port := 22, username := [], authType := .password
    credentialId := some ['c'], iconKey := none, tags := none }]
  credentials := [⟨⟨['c'], "secret".toList⟩, ['u']⟩]

theorem halfwayKeyId_prefix : configKeyPrefix <+: "config-1".toList := ⟨['1'], rfl⟩

def sampleHalfway : ReferenceCall where
  command := .credentialDelete ['c'] true
  ctx := ⟨none, none, .missing, ⟨"config-1".toList, ⟨#[]⟩, halfwayKeyId_prefix⟩⟩
  faults := { CommandFaults.none with credentialsWrite := some (.new "storage" "Disk full") }

theorem noDangling_of_reachable_sampleHalfway :
    NoDangling (sampleHalfway.run standIn sampleAttached) ∧
      (sampleHalfway.run standIn sampleAttached).profiles.map (·.credentialId) = [none] ∧
      (sampleHalfway.run standIn sampleAttached).credentials = sampleAttached.credentials := by
  refine ⟨noDangling_of_reachable standIn _ (.step (.init ?_) rfl), rfl, rfl⟩
  refine ⟨fun profile hprofile => ?_, List.nodup_singleton _⟩
  rw [List.mem_singleton.mp hprofile]
  refine ⟨fun credentialId hid => ⟨_, List.mem_singleton_self _, Option.some.inj hid⟩, fun _ => ?_⟩
  exact ⟨rfl, rfl, rfl⟩

end FluxTerm.Security
