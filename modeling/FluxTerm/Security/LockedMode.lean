import FluxTerm.Security.ProfileCommands
import FluxTerm.Security.StandIn

/-!
# FluxTerm — what the commands do to stored secrets while the master password is locked

* **`protects_iff_spares`** — in every sequence of commands, exactly those commands protect the
  ciphertexts.
-/

namespace FluxTerm.Security

open FluxTerm.Engine FluxTerm.Lib

/-! ## The condition -/

/-- The master password mode without an unlocked session. -/
structure SecurityContext.IsLocked (ctx : SecurityContext) : Prop where
  mode : providerName ctx.config = "user_password".toList
  session : ctx.session = none

def HasNoSecret (refs : List (Option Text)) : Prop := secretsOf refs = []

section Condition

variable (ctx : SecurityContext) (faults : CommandFaults)

def IsLoadable : Prop :=
  faults.configRead = none ∧ (CryptoService.activeKeyId ctx.config).isOk = true

/-- Nothing keeps `profile_save` from writing. -/
structure MaySave (profile : StoredProfile) : Prop where
  profilesRead : faults.profilesRead = none
  loadable : IsLoadable ctx faults
  name : (validateProfileName profile.name).isOk = true
  iconKey : (normalizeProfileIconKey profile.iconKey).isOk = true
  tags : (normalizeProfileTags profile.tags).isOk = true
  credential : trimmedCredentialId profile = none
  profilesWrite : faults.profilesWrite = none

/-- `credential_delete` comes to its writes. -/
structure MayDelete (credentialId : Text) (detachReferences : Bool) (stores : SecretStores) :
    Prop where
  loadable : IsLoadable ctx faults
  credentialsRead : faults.credentialsRead = none
  found : ∃ credential ∈ stores.credentials, credential.id = credentialId
  profilesRead : faults.profilesRead = none
  detached : stores.profiles.any (refersTo credentialId) = true →
    detachReferences = true ∧ faults.profilesWrite = none

/-- The command does no harm to these stores. -/
def LockedCommand.Spares (stores : SecretStores) : LockedCommand → Prop
  | .profileList _ => True
  | .profileSave profile _ uuid faults => MaySave ctx faults profile →
    ∀ old, stores.profiles.find? (·.id = savedId uuid profile) = some old → HasNoSecret old.refs
  | .credentialDelete credentialId detachReferences faults =>
    MayDelete ctx faults credentialId detachReferences stores →
      faults.credentialsWrite.isSome = true ∧
        ∀ profile ∈ stores.profiles, refersTo credentialId profile = true →
          HasNoSecret [profile.passwordRef]

end Condition

/-! ## The locked service -/

variable {P : Primitives} {ctx : SecurityContext} {faults : CommandFaults} {crypto : CryptoService}

theorem crypto_of_locked (h : ctx.IsLocked) :
    ctx.crypto = (CryptoService.activeKeyId ctx.config).map CryptoService.lockedFor := by
  have hembedded : isEmbedded ctx.config = false := by
    unfold isEmbedded
    rw [h.mode]
    decide
  unfold SecurityContext.crypto CryptoService.load CryptoService.new
  rw [hembedded, h.mode, h.session]
  cases CryptoService.activeKeyId ctx.config with
  | error err => rfl
  | ok keyId => rfl

theorem provider_of_locked (h : ctx.IsLocked) (hcrypto : ctx.crypto = .ok crypto) :
    crypto.provider = none ∧ crypto.providerKind = .userPassword := by
  rw [crypto_of_locked h] at hcrypto
  cases hkey : CryptoService.activeKeyId ctx.config with
  | error err =>
    rw [hkey] at hcrypto
    cases hcrypto
  | ok keyId =>
    rw [hkey] at hcrypto
    cases hcrypto
    exact ⟨rfl, rfl⟩

theorem reveal_of_locked (h : crypto.provider = none) {v w : Option Text}
    (hreveal : revealOptionalString P crypto v = .ok w) : w = none := by
  unfold revealOptionalString at hreveal
  split at hreveal
  · split at hreveal
    · cases hreveal
      rfl
    · split at hreveal
      · cases hreveal
      · -- the provider is asked for
        rename_i raw _ _
        cases hdecrypt : crypto.decryptString P raw with
        | error err =>
          rw [hdecrypt] at hreveal
          cases hreveal
        | ok plain =>
          obtain ⟨_, provider, _, _, _, _, hprovider, -⟩ :=
            CryptoService.decryptString_eq_ok_iff.mp hdecrypt
          rw [h] at hprovider
          cases hprovider
  · cases hreveal
    rfl

/-! ## Profiles without secrets -/

def RefsAbsent (profile : StoredProfile) : Prop := ∀ ref ∈ profile.refs, ref = none

theorem refsAbsent_redact (profile : StoredProfile) :
    RefsAbsent (redactProfileSecrets profile) := by
  intro ref href
  unfold redactProfileSecrets HostProfile.refs at href
  cases hproxy : profile.proxyConfig with
  | none => simpa [hproxy] using href
  | some proxy => simpa [hproxy] using href

theorem refsAbsent_of_reveal (h : crypto.provider = none) {profile shown : StoredProfile}
    (hreveal : (profile.mapSecrets fun _ => revealOptionalString P crypto) = .ok shown) :
    RefsAbsent shown := by
  obtain ⟨secrets, hsecrets, hshown⟩ := bind_eq_ok_iff.mp hreveal
  cases hshown
  have hrelated : HostProfile.Related (fun _ w => w = none) profile.toHostProfile secrets :=
    HostProfile.related_of_mapSecrets (fun _ _ _ hf => reveal_of_locked h hf) hsecrets
  intro ref href
  obtain ⟨_, -, hnone⟩ := (exists_mem_of_forall₂ hrelated.refs).2 ref href
  exact hnone

theorem listed_refs (h : ctx.IsLocked) {stores : SecretStores} {listed : List StoredProfile}
    (hlist : profileList P ctx faults stores = .ok listed) : ∀ profile ∈ listed,
      RefsAbsent profile := by
  obtain ⟨-, -, hlist⟩ := bind_eq_ok_iff.mp hlist
  obtain ⟨-, -, hlist⟩ := bind_eq_ok_iff.mp hlist
  obtain ⟨-, -, hlist⟩ := bind_eq_ok_iff.mp hlist
  obtain ⟨crypto, hcrypto, hlist⟩ := bind_eq_ok_iff.mp hlist
  have hshown : List.Forall₂ (fun _ shown => RefsAbsent shown) stores.profiles listed := by
    refine forall₂_of_collect (fun _ profile shown hprofile => ?_) hlist
    unfold listedProfile shownProfile at hprofile
    dsimp only at hprofile
    split at hprofile
    · rename_i decrypted hreveal
      have habsent := refsAbsent_of_reveal (provider_of_locked h hcrypto).1 hreveal
      cases hprofile
      exact habsent
    · split at hprofile
      · cases hprofile
        exact refsAbsent_redact profile
      · cases hprofile
  intro profile hprofile
  obtain ⟨_, -, habsent⟩ := (exists_mem_of_forall₂ hshown).2 profile hprofile
  exact habsent

theorem protect_of_absent {nonce : ℕ → Bytes} {profile : StoredProfile}
    (habsent : RefsAbsent profile) :
    (profile.mapSecrets fun field => protectOptionalString P crypto (nonce field)) =
      .ok profile := by
  have hrelated : HostProfile.Related (fun v w => v = none ∧ w = none) profile.toHostProfile
      profile.toHostProfile := by
    have hfield : ∀ ref ∈ profile.refs, ref = none ∧ ref = none := fun ref href =>
      ⟨habsent ref href, habsent ref href⟩
    refine ⟨rfl, hfield _ (by simp [HostProfile.refs]), hfield _ (by simp [HostProfile.refs]), ?_⟩
    cases hproxy : profile.proxyConfig with
    | none => exact .none
    | some proxy => exact .some (hfield _ (by simp [HostProfile.refs, hproxy]))
  refine bind_eq_ok_iff.mpr ⟨profile.toHostProfile, ?_, rfl⟩
  refine HostProfile.mapSecrets_of_related (fun _ v w hvw => ?_) hrelated
  rw [hvw.1, hvw.2]
  rfl

/-! ## Saving -/

theorem access_eq_ok_iff {fault : Option EngineError} : access fault = .ok () ↔ fault = none := by
  cases fault with
  | none => simp [access]
  | some err => simp [access]

theorem isLoadable_iff (h : ctx.IsLocked) : IsLoadable ctx faults ↔
    access faults.configRead = .ok () ∧ ∃ crypto, ctx.crypto = .ok crypto := by
  unfold IsLoadable
  rw [access_eq_ok_iff, crypto_of_locked h]
  cases CryptoService.activeKeyId ctx.config with
  | error err => simp [Except.map, Except.isOk, Except.toBool]
  | ok keyId => simp [Except.map, Except.isOk, Except.toBool]

theorem isOk_iff {α : Type} {x : Except EngineError α} : x.isOk = true ↔ ∃ a, x = .ok a := by
  cases x with
  | error err => simp [Except.isOk, Except.toBool]
  | ok a => simp [Except.isOk, Except.toBool]

theorem resolve_of_locked (h : ctx.IsLocked) {stores : SecretStores}
    {credentialId password : Text} :
    resolveRuntimeCredential P ctx faults stores credentialId ≠ .ok password := by
  intro hresolve
  obtain ⟨-, -, hresolve⟩ := bind_eq_ok_iff.mp hresolve
  split at hresolve
  · cases hresolve
  · obtain ⟨-, -, hresolve⟩ := bind_eq_ok_iff.mp hresolve
    obtain ⟨crypto, hcrypto, hresolve⟩ := bind_eq_ok_iff.mp hresolve
    obtain ⟨revealed, hreveal, hresolve⟩ := bind_eq_ok_iff.mp hresolve
    cases reveal_of_locked (provider_of_locked h hcrypto).1 hreveal
    cases hresolve

theorem credentialId_of_locked (h : ctx.IsLocked) {stores : SecretStores}
    {profile resolved : StoredProfile}
    (hresolved : useCredential P ctx faults stores profile = .ok resolved) :
    profile.credentialId = none := by
  unfold useCredential at hresolved
  split at hresolved
  · rename_i hid
    exact hid
  · rename_i credentialId _
    cases hpassword : resolveRuntimeCredential P ctx faults stores credentialId with
    | error err =>
      rw [hpassword] at hresolved
      cases hresolved
    | ok password => exact absurd hpassword (resolve_of_locked h)

theorem profileSave_spec (P : Primitives) (faults : CommandFaults) (h : ctx.IsLocked)
    (nonce : ℕ → Bytes) (uuid : Text) (stores : SecretStores) {profile : StoredProfile}
    (habsent : RefsAbsent profile) :
    (MaySave ctx faults profile → ∃ saved,
      profileSave P ctx faults nonce uuid profile stores =
        .ok (saved, { stores with profiles := replaceProfile saved stores.profiles }) ∧
      saved.id = savedId uuid profile ∧ RefsAbsent saved) ∧
    (¬MaySave ctx faults profile → ∃ err,
      profileSave P ctx faults nonce uuid profile stores = .error err) := by
  constructor
  · rintro ⟨hread, hload, hname, hicon, htags, hcredential, hwrite⟩
    obtain ⟨hconfig, crypto, hcrypto⟩ := (isLoadable_iff h).mp hload
    obtain ⟨name, hname⟩ := isOk_iff.mp hname
    obtain ⟨iconKey, hicon⟩ := isOk_iff.mp hicon
    obtain ⟨tags, htags⟩ := isOk_iff.mp htags
    let saved : StoredProfile := { profile with
      name
      iconKey
      tags
      id := savedId uuid profile
      port := if profile.port = 0 then 22 else profile.port
      credentialId := none }
    have hsaved : RefsAbsent saved := habsent
    refine ⟨saved, ?_, rfl, hsaved⟩
    unfold profileSave
    rw [access_eq_ok_iff.mpr hread, hconfig, hcrypto, hname, hicon, htags, hcredential]
    show (do
      let encrypted ← saved.mapSecrets fun field => protectOptionalString P crypto (nonce field)
      access faults.profilesWrite
      return (saved, { stores with profiles := replaceProfile encrypted stores.profiles })) = _
    rw [protect_of_absent hsaved, access_eq_ok_iff.mpr hwrite]
    rfl
  · intro hprevented
    cases hsave : profileSave P ctx faults nonce uuid profile stores with
    | error err => exact ⟨err, rfl⟩
    | ok result =>
      -- whatever returns has come past all checks
      refine absurd ?_ hprevented
      unfold profileSave at hsave
      obtain ⟨⟨⟩, hread, hsave⟩ := bind_eq_ok_iff.mp hsave
      obtain ⟨⟨⟩, hconfig, hsave⟩ := bind_eq_ok_iff.mp hsave
      obtain ⟨crypto, hcrypto, hsave⟩ := bind_eq_ok_iff.mp hsave
      obtain ⟨name, hname, hsave⟩ := bind_eq_ok_iff.mp hsave
      obtain ⟨iconKey, hicon, hsave⟩ := bind_eq_ok_iff.mp hsave
      obtain ⟨tags, htags, hsave⟩ := bind_eq_ok_iff.mp hsave
      obtain ⟨resolved, hresolved, hsave⟩ := bind_eq_ok_iff.mp hsave
      obtain ⟨encrypted, -, hsave⟩ := bind_eq_ok_iff.mp hsave
      obtain ⟨⟨⟩, hwrite, -⟩ := bind_eq_ok_iff.mp hsave
      have hcredential : trimmedCredentialId profile = none := credentialId_of_locked h hresolved
      exact ⟨access_eq_ok_iff.mp hread, (isLoadable_iff h).mpr ⟨hconfig, crypto, hcrypto⟩,
        isOk_iff.mpr ⟨name, hname⟩, isOk_iff.mpr ⟨iconKey, hicon⟩, isOk_iff.mpr ⟨tags, htags⟩,
        hcredential, access_eq_ok_iff.mp hwrite⟩

theorem KeepsRefs.refl (refs : List (Option Text)) : KeepsRefs refs refs := fun _ _ href _ => href

theorem hasNoSecret_iff {refs : List (Option Text)} :
    HasNoSecret refs ↔ ∀ ref, some ref ∈ refs → isBlank ref = true := by
  unfold HasNoSecret
  rw [List.eq_nil_iff_forall_not_mem]
  simp only [mem_secretsOf, not_and, Bool.not_eq_false]

theorem keepsRefs_iff_of_absent {refs after : List (Option Text)}
    (habsent : ∀ ref ∈ after, ref = none) : KeepsRefs refs after ↔ HasNoSecret refs := by
  rw [hasNoSecret_iff]
  constructor
  · intro h ref href
    by_contra hblank
    obtain ⟨field, hfield⟩ := List.getElem?_of_mem href
    have hkept := h field ref hfield (Bool.eq_false_iff.mpr hblank)
    cases habsent _ (List.mem_of_getElem? hkept)
  · intro h field ref hfield hblank
    rw [h ref (List.mem_of_getElem? hfield)] at hblank
    cases hblank

theorem keeps_replaceProfile_iff {saved : StoredProfile} (habsent : RefsAbsent saved) :
    ∀ profiles : List StoredProfile,
      (∀ (i : ℕ) (profile : StoredProfile), profiles[i]? = some profile →
        ∃ kept, (replaceProfile saved profiles)[i]? = some kept ∧
          KeepsRefs profile.refs kept.refs) ↔
      ∀ old, profiles.find? (·.id = saved.id) = some old → HasNoSecret old.refs := by
  intro profiles
  induction profiles with
  | nil => simp
  | cons item items ih =>
    unfold replaceProfile
    by_cases hid : item.id = saved.id
    · rw [if_pos hid, List.find?_cons_of_pos (by simpa using hid)]
      constructor
      · intro h old hold
        cases hold
        obtain ⟨kept, hkept, hrefs⟩ := h 0 item rfl
        cases hkept
        exact (keepsRefs_iff_of_absent habsent).mp hrefs
      · intro h i profile hprofile
        cases i with
        | zero =>
          cases hprofile
          exact ⟨saved, rfl, (keepsRefs_iff_of_absent habsent).mpr (h item rfl)⟩
        | succ i => exact ⟨profile, hprofile, .refl _⟩
    · rw [if_neg hid, List.find?_cons_of_neg (by simpa using hid), ← ih]
      constructor
      · exact fun h i profile hprofile => h (i + 1) profile hprofile
      · intro h i profile hprofile
        cases i with
        | zero => exact ⟨profile, hprofile, .refl _⟩
        | succ i => exact h i profile hprofile

/-! ## Deleting -/

theorem map_detach_of_unreferenced {credentialId : Text} {profiles : List StoredProfile}
    (h : profiles.any (refersTo credentialId) = false) :
    profiles.map (detachCredential credentialId) = profiles := by
  have hsame : ∀ profile ∈ profiles, detachCredential credentialId profile = id profile := by
    intro profile hprofile
    unfold detachCredential
    rw [if_neg (List.any_eq_false.mp h profile hprofile)]
    rfl
  rw [List.map_congr_left hsame, List.map_id]

theorem checkDelete_of_mayDelete (h : ctx.IsLocked) {credentialId : Text} {detachReferences : Bool}
    {stores : SecretStores} (hmay : MayDelete ctx faults credentialId detachReferences stores) :
    checkDelete ctx faults credentialId detachReferences stores =
      .ok (stores.profiles.any (refersTo credentialId)) := by
  obtain ⟨hload, hcredentials, ⟨credential, hmem, hid⟩, hprofiles, hdetached⟩ := hmay
  obtain ⟨hconfig, crypto, hcrypto⟩ := (isLoadable_iff h).mp hload
  have hfound : (stores.credentials.find? (·.id = credentialId)).isSome = true :=
    List.find?_isSome.mpr ⟨credential, hmem, by simpa using hid⟩
  obtain ⟨found, hfound⟩ := Option.isSome_iff_exists.mp hfound
  have hfoundId : found.id = credentialId := by simpa using List.find?_some hfound
  have hallowed : ensureDetachAllowed (stores.profiles.any (refersTo credentialId))
      detachReferences = .ok () := by
    unfold ensureDetachAllowed
    cases hreferenced : stores.profiles.any (refersTo credentialId) with
    | false => rfl
    | true =>
      rw [(hdetached hreferenced).1]
      rfl
  unfold checkDelete
  rw [hconfig, hcrypto, access_eq_ok_iff.mpr hcredentials, hfound]
  show (do
    access faults.profilesRead
    ensureDetachAllowed (stores.profiles.any (refersTo found.id)) detachReferences
    return stores.profiles.any (refersTo found.id)) = _
  rw [access_eq_ok_iff.mpr hprofiles, hfoundId, hallowed]
  rfl

theorem credentialDelete_spec (faults : CommandFaults) (h : ctx.IsLocked) (credentialId : Text)
    (detachReferences : Bool) (stores : SecretStores) :
    (¬MayDelete ctx faults credentialId detachReferences stores → ∃ err,
      credentialDelete ctx faults credentialId detachReferences stores = (stores, .error err)) ∧
    (MayDelete ctx faults credentialId detachReferences stores →
      (∀ err, faults.credentialsWrite = some err →
        credentialDelete ctx faults credentialId detachReferences stores =
          ({ stores with profiles := stores.profiles.map (detachCredential credentialId) },
            .error err)) ∧
      (faults.credentialsWrite = none → ∃ after,
        credentialDelete ctx faults credentialId detachReferences stores = (after, .ok ()))) := by
  constructor
  · intro hprevented
    unfold credentialDelete
    cases hcheck : checkDelete ctx faults credentialId detachReferences stores with
    | error err => exact ⟨err, rfl⟩
    | ok referenced =>
      dsimp only
      split
      · rename_i err _
        exact ⟨err, rfl⟩
      · rename_i hwrite
        -- whatever comes to the second write has come past all checks
        refine absurd ?_ hprevented
        unfold checkDelete at hcheck
        obtain ⟨⟨⟩, hconfig, hcheck⟩ := bind_eq_ok_iff.mp hcheck
        obtain ⟨crypto, hcrypto, hcheck⟩ := bind_eq_ok_iff.mp hcheck
        obtain ⟨⟨⟩, hcredentials, hcheck⟩ := bind_eq_ok_iff.mp hcheck
        split at hcheck
        · cases hcheck
        · rename_i credential hfound
          have hid : credential.id = credentialId := by simpa using List.find?_some hfound
          obtain ⟨⟨⟩, hprofiles, hcheck⟩ := bind_eq_ok_iff.mp hcheck
          obtain ⟨⟨⟩, hdetach, hcheck⟩ := bind_eq_ok_iff.mp hcheck
          cases hcheck
          refine ⟨(isLoadable_iff h).mpr ⟨hconfig, crypto, hcrypto⟩,
            access_eq_ok_iff.mp hcredentials, ⟨credential, List.mem_of_find?_eq_some hfound, hid⟩,
            access_eq_ok_iff.mp hprofiles, fun hreferenced => ?_⟩
          rw [← hid] at hreferenced
          rw [hreferenced] at hdetach hwrite
          refine ⟨?_, access_eq_ok_iff.mp hwrite⟩
          cases detachReferences with
          | true => rfl
          | false => cases hdetach
  · intro hmay
    have hcheck := checkDelete_of_mayDelete h hmay
    have hwrite : (if stores.profiles.any (refersTo credentialId) = true then
        access faults.profilesWrite else .ok ()) = .ok () := by
      split
      · rename_i hreferenced
        exact access_eq_ok_iff.mpr (hmay.detached hreferenced).2
      · rfl
    have hstores : (if stores.profiles.any (refersTo credentialId) = true then
        { stores with profiles := stores.profiles.map (detachCredential credentialId) }
        else stores) =
        { stores with profiles := stores.profiles.map (detachCredential credentialId) } := by
      split
      · rfl
      · rename_i hreferenced
        rw [map_detach_of_unreferenced (Bool.eq_false_iff.mpr hreferenced)]
    unfold credentialDelete
    rw [hcheck]
    dsimp only
    rw [hwrite]
    dsimp only
    rw [hstores]
    constructor
    · intro err hfault
      rw [hfault]
      rfl
    · intro hfault
      rw [hfault]
      exact ⟨_, rfl⟩

theorem keeps_detach_iff {credentialId : Text} {stores : SecretStores} :
    KeepsCiphertexts stores
        { stores with profiles := stores.profiles.map (detachCredential credentialId) } ↔
      ∀ profile ∈ stores.profiles, refersTo credentialId profile = true →
        HasNoSecret [profile.passwordRef] := by
  constructor
  · intro h profile hprofile hrefers
    obtain ⟨i, hi⟩ := List.getElem?_of_mem hprofile
    obtain ⟨kept, hkept, hrefs⟩ := h.profiles i profile hi
    rw [List.getElem?_map, hi, Option.map_some, Option.some.injEq] at hkept
    subst hkept
    rw [hasNoSecret_iff]
    intro ref href
    by_contra hblank
    have hfield : profile.refs[0]? = some (some ref) := by
      rw [List.mem_singleton.mp href]
      rfl
    have hlost := hrefs 0 ref hfield (Bool.eq_false_iff.mpr hblank)
    unfold detachCredential at hlost
    rw [if_pos hrefers] at hlost
    cases hlost
  · intro h
    refine ⟨fun i profile hprofile => ?_, fun i credential hcredential =>
      ⟨credential, hcredential, .refl _⟩⟩
    refine ⟨detachCredential credentialId profile, by rw [List.getElem?_map, hprofile]; rfl, ?_⟩
    unfold detachCredential
    split
    · rename_i hrefers
      have hnone := hasNoSecret_iff.mp (h profile (List.mem_of_getElem? hprofile) hrefers)
      intro field ref hfield hblank
      cases field with
      | zero =>
        rw [hnone ref (List.mem_singleton.mpr (Option.some.inj hfield).symm)] at hblank
        cases hblank
      | succ field => exact hfield
    · exact .refl _

/-! ## Every sequence of commands -/

/-- What a run keeps: nothing that was returned has a secret, and each command protects the
ciphertexts exactly if it spares them. -/
structure LockedRun.Orderly (ctx : SecurityContext) (s : LockedRun) : Prop where
  listed : ∀ profile ∈ s.listed, RefsAbsent profile
  done : ∀ r ∈ s.done, r.Protects ↔ r.command.Spares ctx r.before

theorem keepsCiphertexts_refl (stores : SecretStores) : KeepsCiphertexts stores stores :=
  ⟨fun _ profile h => ⟨profile, h, .refl _⟩, fun _ credential h => ⟨credential, h, .refl _⟩⟩

namespace LockedRun

variable {s t : LockedRun} {command : LockedCommand}

theorem Orderly.record (h : s.Orderly ctx) {failed : Bool} {stores : SecretStores}
    {listed : List StoredProfile} (hlisted : ∀ profile ∈ listed, RefsAbsent profile)
    (hprotects : CommandRecord.Protects ⟨command, s.stores, failed, stores⟩ ↔
      command.Spares ctx s.stores) : (s.record command failed stores listed).Orderly ctx := by
  constructor
  · intro profile hprofile
    rcases List.mem_append.mp hprofile with hprofile | hprofile
    · exact h.listed profile hprofile
    · exact hlisted profile hprofile
  · intro r hr
    rcases List.mem_append.mp hr with hr | hr
    · exact h.done r hr
    · rw [List.mem_singleton.mp hr]
      exact hprotects

theorem Orderly.next (hlocked : ctx.IsLocked) (h : s.Orderly ctx)
    (hnext : s.next P ctx command = some t) : t.Orderly ctx := by
  cases command with
  | profileList faults =>
    have hsafe : ∀ failed,
        CommandRecord.Protects ⟨.profileList faults, s.stores, failed, s.stores⟩ ↔
        LockedCommand.Spares ctx s.stores (.profileList faults) := fun failed =>
      iff_of_true ⟨.inr (keepsCiphertexts_refl _), nofun⟩ trivial
    unfold LockedRun.next at hnext
    dsimp only at hnext
    split at hnext
    · cases hnext
      exact h.record (List.forall_mem_nil _) (hsafe true)
    · rename_i listed hlist
      cases hnext
      exact h.record (listed_refs hlocked hlist) (hsafe false)
  | profileSave profile nonce uuid faults =>
    unfold LockedRun.next at hnext
    dsimp only at hnext
    split at hnext
    · rename_i hedit
      obtain ⟨original, horiginal, hedit⟩ := hedit
      have habsent : RefsAbsent profile := by
        rw [hedit]
        exact h.listed original horiginal
      obtain ⟨hsaves, hfails⟩ :=
        profileSave_spec P faults hlocked nonce uuid s.stores habsent
      by_cases hmay : MaySave ctx faults profile
      · obtain ⟨saved, hsave, hid, hsaved⟩ := hsaves hmay
        rw [hsave] at hnext
        cases hnext
        refine h.record (fun p hp => by rw [List.mem_singleton.mp hp]; exact hsaved) ?_
        have hkept := keeps_replaceProfile_iff hsaved s.stores.profiles
        rw [hid] at hkept
        constructor
        · intro hprotects _
          rcases hprotects.kept with ⟨hfailed, -⟩ | hkeeps
          · cases hfailed
          · exact hkept.mp hkeeps.profiles
        · intro hspares
          exact ⟨.inr ⟨hkept.mpr (hspares hmay), fun i credential hcredential =>
            ⟨credential, hcredential, .refl _⟩⟩, nofun⟩
      · obtain ⟨err, hsave⟩ := hfails hmay
        rw [hsave] at hnext
        cases hnext
        exact h.record (List.forall_mem_nil _) (iff_of_true ⟨.inl ⟨rfl, rfl⟩, nofun⟩ fun hno => absurd hno hmay)
    · cases hnext
  | credentialDelete credentialId detachReferences faults =>
    unfold LockedRun.next at hnext
    dsimp only at hnext
    obtain ⟨hfails, hmay⟩ :=
      credentialDelete_spec faults hlocked credentialId detachReferences s.stores
    by_cases hgo : MayDelete ctx faults credentialId detachReferences s.stores
    · obtain ⟨hhalf, hwhole⟩ := hmay hgo
      cases hwrite : faults.credentialsWrite with
      | some err =>
        rw [hhalf err hwrite] at hnext
        cases hnext
        refine h.record (List.forall_mem_nil _) ?_
        constructor
        · intro hprotects _
          refine ⟨by rw [hwrite]; rfl, ?_⟩
          rcases hprotects.kept with ⟨-, hsame⟩ | hkeeps
          · -- what is left as it was has been kept
            have hleft : SecretStores.mk (s.stores.profiles.map (detachCredential credentialId))
                s.stores.credentials = s.stores := hsame
            apply keeps_detach_iff.mp
            rw [hleft]
            exact keepsCiphertexts_refl _
          · exact keeps_detach_iff.mp hkeeps
        · exact fun hspares => ⟨.inr (keeps_detach_iff.mpr (hspares hgo).2), fun _ => rfl⟩
      | none =>
        obtain ⟨after, hdelete⟩ := hwhole hwrite
        rw [hdelete] at hnext
        cases hnext
        refine h.record (List.forall_mem_nil _) (iff_of_false (fun hprotects => ?_) fun hspares => ?_)
        · cases hprotects.refused rfl
        · have hfault := (hspares hgo).1
          rw [hwrite] at hfault
          cases hfault
    · obtain ⟨err, hdelete⟩ := hfails hgo
      rw [hdelete] at hnext
      cases hnext
      exact h.record (List.forall_mem_nil _) (iff_of_true ⟨.inl ⟨rfl, rfl⟩, fun _ => rfl⟩ fun hno => absurd hno hgo)

end LockedRun

/-- **Which commands protect the secrets.** In every sequence of commands while the master password
is locked, all commands protect the ciphertexts if and only if each of them is prevented or has
nothing to lose. -/
theorem protects_iff_spares (P : Primitives) (ctx : SecurityContext) (hlocked : ctx.IsLocked)
    (stores : SecretStores) (s : LockedRun) (h : (lockedMachine P ctx stores).Reachable s) :
    (∀ r ∈ s.done, r.Protects) ↔ ∀ r ∈ s.done, r.command.Spares ctx r.before := by
  have horderly : s.Orderly ctx := by
    refine Machine.Reachable.induct (I := fun s => s.Orderly ctx) ?_ ?_ h
    · rintro s rfl
      exact ⟨fun _ hmem => absurd hmem List.not_mem_nil,
        fun _ hmem => absurd hmem List.not_mem_nil⟩
    · intro s command t _ hs hnext
      exact LockedRun.Orderly.next hlocked hs hnext
  exact forall₂_congr horderly.done

/-! ## Two profiles and a credential -/

def sampleLocked : SecurityContext where
  config := some ⟨1, "user_password".toList, some "k".toList, none, none⟩
  session := none
  file := .missing
  fresh := ⟨"config-1".toList, ⟨#[]⟩, ['1'], rfl⟩

def sampleToken : Text := encodeToken standIn ⟨.userPassword, .aes256Gcm, "k".toList, [], []⟩

/-- A profile with its password. -/
def sampleProfile (id : Text) (passwordRef : Option Text) : StoredProfile where
  id
  passwordRef
  privateKeyPassphraseRef := none
  proxyConfig := none
  name := id
  host := "h".toList
  port := 22
  username := "u".toList
  authType := .password
  credentialId := none
  iconKey := none
  tags := none

def sampleStores : SecretStores where
  profiles := [sampleProfile ['p'] (some sampleToken), sampleProfile ['q'] none]
  credentials := [⟨⟨['c'], sampleToken⟩, "u".toList⟩]

def sampleMove (id : Text) : LockedCommand :=
  .profileSave { sampleProfile id none with tags := some [['g']] } (fun _ => ⟨#[]⟩) [] .none

def sampleHarmless : List LockedCommand :=
  [.profileList .none, sampleMove ['q'], .credentialDelete ['x'] true .none]

theorem sampleHarmless_protects : ∃ s : LockedRun, (∀ r ∈ s.done, r.Protects) ∧
    s.done.map (·.failed) = [false, false, true] := by
  have hrun : ∃ s, Machine.exec (LockedRun.next standIn sampleLocked) ⟨sampleStores, [], []⟩
        sampleHarmless = some s ∧
      s.done.map (fun r => (r.command, r.before)) = [(.profileList .none, sampleStores),
        (sampleMove ['q'], sampleStores), (.credentialDelete ['x'] true .none, s.stores)] ∧
      s.stores.credentials = sampleStores.credentials ∧
      s.done.map (·.failed) = [false, false, true] := ⟨_, rfl, rfl, rfl, rfl⟩
  obtain ⟨s, hexec, hdone, hcredentials, hfailed⟩ := hrun
  have hreach := Machine.reachable_exec hexec
  refine ⟨s, (protects_iff_spares standIn sampleLocked ⟨rfl, rfl⟩ sampleStores s hreach).mpr ?_,
    hfailed⟩
  intro r hr
  have hpair := List.mem_map_of_mem (f := fun r => (r.command, r.before)) hr
  rw [hdone] at hpair
  simp only [List.mem_cons, Prod.mk.injEq, List.not_mem_nil, or_false] at hpair
  rcases hpair with ⟨hcommand, hbefore⟩ | ⟨hcommand, hbefore⟩ | ⟨hcommand, hbefore⟩
  all_goals rw [hcommand, hbefore]
  · exact trivial
  · intro _ old hold
    cases hold
    rfl
  · rintro ⟨-, -, ⟨credential, hmem, hid⟩, -, -⟩
    rw [hcredentials] at hmem
    rw [List.mem_singleton.mp hmem] at hid
    cases hid

/-- The profile with a password is moved. -/
theorem sampleMove_destroys : ¬∀ s, (lockedMachine standIn sampleLocked sampleStores).Reachable s →
    ∀ r ∈ s.done, r.Protects := by
  intro h
  have hrun : ∃ s, Machine.exec (LockedRun.next standIn sampleLocked) ⟨sampleStores, [], []⟩
        [.profileList .none, sampleMove ['p']] = some s ∧
      ∃ r ∈ s.done, r.failed = false ∧ r.before.profiles[0]?.map (·.refs[0]?) =
        some (some (some sampleToken)) ∧ r.after.profiles[0]?.map (·.refs[0]?) = some (some none) :=
    ⟨_, rfl, _, List.mem_cons_of_mem _ (List.mem_cons_self ..), rfl, rfl, rfl⟩
  obtain ⟨s, hexec, r, hr, hfailed, hbefore, hafter⟩ := hrun
  rcases (h s (Machine.reachable_exec hexec) r hr).kept with ⟨htrue, -⟩ | hkeeps
  · rw [hfailed] at htrue
    cases htrue
  · obtain ⟨profile, hprofile, hrefs⟩ := Option.map_eq_some_iff.mp hbefore
    obtain ⟨kept, hkept, hkeepsRefs⟩ := hkeeps.profiles 0 profile hprofile
    have hlost := hkeepsRefs 0 sampleToken hrefs rfl
    rw [hkept, Option.map_some, hlost] at hafter
    cases hafter

end FluxTerm.Security
