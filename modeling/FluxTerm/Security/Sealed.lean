import FluxTerm.Security.Stores

/-!
# FluxTerm — stored secrets and their plaintexts

What the passes over the stores do to every secret field at once.
-/

namespace FluxTerm.Security

open FluxTerm.Engine FluxTerm.Lib

variable {P : Primitives} {service : CryptoService}

/-! ## Secrets and sealed fields -/

def secretsOf (refs : List (Option Text)) : List Text := (refs.filterMap id).filter (!isBlank ·)

theorem mem_secretsOf {refs : List (Option Text)} {t : Text} :
    t ∈ secretsOf refs ↔ some t ∈ refs ∧ isBlank t = false := by
  simp [secretsOf]

/-- What a service stores for a plaintext field. -/
inductive Sealed (P : Primitives) (service : CryptoService) : Option Text → Option Text → Prop where
  | absent : Sealed P service none none
  | blank {s : Text} (hs : isBlank s = true) : Sealed P service (some s) none
  | token {s t : Text} (hs : isBlank s = false) (hpre : secretTokenPrefix <+: t)
      (hspace : ∀ c ∈ t, isWhitespace c = false) (hdecrypt : service.decryptString P t = .ok s) :
      Sealed P service (some s) (some t)

theorem Sealed.isBlank_eq_false {s t : Text} (h : Sealed P service (some s) (some t)) :
    isBlank s = false := by
  cases h with
  | token hs _ _ _ => exact hs

def NotBlank (v : Option Text) : Prop := ∀ s, v = some s → isBlank s = false

theorem trim_token {t : Text} (hspace : ∀ c ∈ t, isWhitespace c = false) : trim t = t :=
  trimBy_eq_self hspace

theorem isBlank_token {t : Text} (hpre : secretTokenPrefix <+: t)
    (hspace : ∀ c ∈ t, isWhitespace c = false) : isBlank t = false := by
  rw [isBlank, trim_token hspace, beq_eq_false_iff_ne]
  rintro rfl
  exact absurd (List.prefix_nil.mp hpre) (by decide)

theorem sealed_of_protect (hP : P.RoundTrips) {nonce : Bytes} {v w : Option Text}
    (h : protectOptionalString P service nonce v = .ok w) : Sealed P service v w := by
  cases v with
  | none => cases h; exact .absent
  | some s =>
    rw [protectOptionalString] at h
    split at h
    · rename_i hs
      cases h
      exact .blank hs
    · rename_i hs
      cases hencrypt : service.encryptString P nonce s with
      | error err => rw [hencrypt] at h; cases h
      | ok t =>
        rw [hencrypt] at h
        cases h
        obtain ⟨hpre, hspace⟩ := CryptoService.token_of_encryptString hP hencrypt
        exact .token (by simpa using hs) hpre hspace
          (CryptoService.decryptString_encryptString hP hencrypt)

theorem exists_protect {provider : Provider} (hprovider : service.provider = some provider)
    (nonce : Bytes) (v : Option Text) : ∃ w, protectOptionalString P service nonce v = .ok w := by
  cases v with
  | none => exact ⟨none, rfl⟩
  | some s =>
    rw [protectOptionalString]
    split
    · exact ⟨none, rfl⟩
    · obtain ⟨t, ht⟩ := CryptoService.exists_encryptString (P := P) hprovider nonce s
      exact ⟨some t, by rw [ht]; rfl⟩

theorem reveal_of_sealed {v w : Option Text} (h : Sealed P service v w) (hv : NotBlank v) :
    revealOptionalString P service w = .ok v := by
  cases h with
  | absent => rfl
  | blank hs => rw [hv _ rfl] at hs; cases hs
  | token _ hpre hspace hdecrypt =>
    rw [revealOptionalString, isBlank_token hpre hspace, if_neg Bool.false_ne_true,
      if_neg (by simpa using hpre), hdecrypt]
    rfl

theorem notBlank_of_reveal_sealed {service' : CryptoService} {v w : Option Text}
    (h : Sealed P service v w) (hreveal : revealOptionalString P service' w = .ok v) :
    NotBlank v := by
  cases h with
  | absent => rintro s ⟨⟩
  | blank _ => cases hreveal
  | token hs => rintro s ⟨⟩; exact hs

theorem decrypt_of_reveal {t : Text} {w : Option Text} (ht : isBlank t = false)
    (h : revealOptionalString P service (some t) = .ok w) :
    ∃ s, service.decryptString P t = .ok s := by
  rw [revealOptionalString, ht, if_neg Bool.false_ne_true] at h
  split at h
  · cases h
  · cases hdecrypt : service.decryptString P t with
    | error err => rw [hdecrypt] at h; cases h
    | ok s => exact ⟨s, rfl⟩

theorem exists_mem_of_forall₂ {α β : Type} {R : α → β → Prop} {as : List α} {bs : List β}
    (h : List.Forall₂ R as bs) : (∀ a ∈ as, ∃ b ∈ bs, R a b) ∧ ∀ b ∈ bs, ∃ a ∈ as, R a b := by
  induction h with
  | nil => simp
  | cons hab _ ih =>
    obtain ⟨hleft, hright⟩ := ih
    constructor
    · intro a ha
      rcases List.mem_cons.mp ha with rfl | ha
      · exact ⟨_, List.mem_cons_self, hab⟩
      · obtain ⟨b, hb, hab'⟩ := hleft a ha
        exact ⟨b, List.mem_cons_of_mem _ hb, hab'⟩
    · intro b hb
      rcases List.mem_cons.mp hb with rfl | hb
      · exact ⟨_, List.mem_cons_self, hab⟩
      · obtain ⟨a, ha, hab'⟩ := hright b hb
        exact ⟨a, List.mem_cons_of_mem _ ha, hab'⟩

theorem decrypt_of_mem_secretsOf {refs plains : List (Option Text)}
    (h : List.Forall₂ (fun w v => revealOptionalString P service w = .ok v) refs plains)
    {t : Text} (ht : t ∈ secretsOf refs) : ∃ s, service.decryptString P t = .ok s := by
  obtain ⟨hmem, hblank⟩ := mem_secretsOf.mp ht
  obtain ⟨w, -, hw⟩ := (exists_mem_of_forall₂ h).1 _ hmem
  exact decrypt_of_reveal hblank hw

theorem decrypt_of_mem_sealed {refs plains : List (Option Text)}
    (h : List.Forall₂ (Sealed P service) plains refs) {t : Text} (ht : t ∈ secretsOf refs) :
    ∃ s, service.decryptString P t = .ok s := by
  obtain ⟨hmem, -⟩ := mem_secretsOf.mp ht
  obtain ⟨v, -, hv⟩ := (exists_mem_of_forall₂ h).2 _ hmem
  cases hv with
  | token _ _ _ hdecrypt => exact ⟨_, hdecrypt⟩

theorem secretsOf_sealed_eq_nil_iff {refs plains : List (Option Text)}
    (h : List.Forall₂ (Sealed P service) plains refs) :
    secretsOf refs = [] ↔ secretsOf plains = [] := by
  rw [List.eq_nil_iff_forall_not_mem, List.eq_nil_iff_forall_not_mem]
  constructor
  · intro hnone s hs
    obtain ⟨hmem, hblank⟩ := mem_secretsOf.mp hs
    obtain ⟨w, hw, hsealed⟩ := (exists_mem_of_forall₂ h).1 _ hmem
    cases hsealed with
    | blank hs => rw [hblank] at hs; cases hs
    | token _ hpre hspace _ =>
      exact hnone _ (mem_secretsOf.mpr ⟨hw, isBlank_token hpre hspace⟩)
  · intro hnone t ht
    obtain ⟨hmem, -⟩ := mem_secretsOf.mp ht
    obtain ⟨v, hv, hsealed⟩ := (exists_mem_of_forall₂ h).2 _ hmem
    cases hsealed with
    | token hs _ _ _ => exact hnone _ (mem_secretsOf.mpr ⟨hv, hs⟩)

theorem notBlank_of_reveal {service' : CryptoService} {refs plains : List (Option Text)}
    (h : List.Forall₂ (Sealed P service) plains refs)
    (hreveal : List.Forall₂ (fun w v => revealOptionalString P service' w = .ok v) refs plains) :
    ∀ v ∈ plains, NotBlank v := by
  induction h with
  | nil => simp
  | cons hsealed _ ih =>
    cases hreveal with
    | cons hw hreveal =>
      intro v hv
      rcases List.mem_cons.mp hv with rfl | hv
      · exact notBlank_of_reveal_sealed hsealed hw
      · exact ih hreveal v hv

/-! ## SSH profiles -/

theorem reveal_sshProfiles {ps qs : List HostProfile}
    (h : decryptSshProfiles P service ps = .ok qs) : List.Forall₂
      (HostProfile.Related fun w v => revealOptionalString P service w = .ok v) ps qs := by
  refine forall₂_of_collect (fun _ p q hp => ?_) h
  refine HostProfile.related_of_mapSecrets (fun field v w hv => ?_) hp
  exact hv

theorem sealed_sshProfiles (hP : P.Lawful) {nonce : ℕ → ℕ → Bytes} {ps qs : List HostProfile}
    (h : encryptSshProfiles P service nonce ps = .ok qs) :
    List.Forall₂ (HostProfile.Related (Sealed P service)) ps qs := by
  refine forall₂_of_collect (fun _ p q hp => ?_) h
  refine HostProfile.related_of_mapSecrets (fun field v w hv => ?_) hp
  exact sealed_of_protect hP.roundTrips hv

theorem exists_encryptSshProfiles {provider : Provider}
    (hprovider : service.provider = some provider) (nonce : ℕ → ℕ → Bytes)
    (ps : List HostProfile) : ∃ qs, encryptSshProfiles P service nonce ps = .ok qs :=
  exists_collect_eq_ok (fun i p _ => HostProfile.exists_mapSecrets
    (fun field v => exists_protect hprovider (nonce i field) v) p) 0

theorem decryptSshProfiles_of_sealed {ps qs : List HostProfile}
    (h : List.Forall₂ (HostProfile.Related (Sealed P service)) ps qs)
    (hblank : ∀ v ∈ sshRefs ps, NotBlank v) : decryptSshProfiles P service qs = .ok ps := by
  have hflip : List.Forall₂
      (HostProfile.Related fun w v => revealOptionalString P service w = .ok v) qs ps := by
    induction h with
    | nil => exact .nil
    | cons hpq _ ih =>
      rw [sshRefs, List.flatMap_cons] at hblank
      refine .cons (hpq.flip fun v hv w hw => ?_)
        (ih fun v hv => hblank v (List.mem_append_right _ hv))
      exact reveal_of_sealed hw (hblank v (List.mem_append_left _ hv))
  refine collect_of_forall₂ (fun _ p q hpq => ?_) hflip 0
  exact HostProfile.mapSecrets_of_related
    (R := fun w v => revealOptionalString P service w = .ok v) (fun _ _ _ hv => hv) hpq

/-! ## Credentials -/

theorem reveal_credentials {cs ds : List Credential}
    (h : decryptCredentials P service cs = .ok ds) : List.Forall₂
      (Credential.Related fun w v => revealOptionalString P service w = .ok v) cs ds := by
  refine forall₂_of_collect (fun _ c d hc => ?_) h
  obtain ⟨hid, href⟩ := Credential.mapSecret_eq_ok_iff.mp hc
  exact ⟨hid, href⟩

theorem sealed_credentials (hP : P.Lawful) {nonce : ℕ → Bytes} {cs ds : List Credential}
    (h : encryptCredentials P service nonce cs = .ok ds) :
    List.Forall₂ (Credential.Related (Sealed P service)) cs ds := by
  refine forall₂_of_collect (fun _ c d hc => ?_) h
  obtain ⟨hid, href⟩ := Credential.mapSecret_eq_ok_iff.mp hc
  exact ⟨hid, sealed_of_protect hP.roundTrips href⟩

theorem exists_encryptCredentials_iff (hP : P.Lawful) {provider : Provider}
    (hprovider : service.provider = some provider) (nonce : ℕ → Bytes) (cs : List Credential) :
    (∃ ds, encryptCredentials P service nonce cs = .ok ds) ↔
      ∀ c ∈ cs, isBlank c.passwordRef = false := by
  constructor
  · rintro ⟨ds, hds⟩ c hc
    obtain ⟨d, -, hcd⟩ := (exists_mem_of_forall₂ (sealed_credentials hP hds)).1 c hc
    obtain ⟨-, href⟩ := hcd
    exact href.isBlank_eq_false
  · intro h
    refine exists_collect_eq_ok (fun i c hc => ?_) 0
    obtain ⟨t, ht⟩ := CryptoService.exists_encryptString (P := P) hprovider (nonce i) c.passwordRef
    refine ⟨⟨c.id, t⟩, Credential.mapSecret_eq_ok_iff.mpr ⟨rfl, ?_⟩⟩
    rw [protectOptionalString, h c hc, if_neg Bool.false_ne_true, ht]
    rfl

theorem decryptCredentials_of_sealed {cs ds : List Credential}
    (h : List.Forall₂ (Credential.Related (Sealed P service)) cs ds) :
    decryptCredentials P service ds = .ok cs := by
  have hflip : List.Forall₂
      (Credential.Related fun w v => revealOptionalString P service w = .ok v) ds cs := by
    induction h with
    | nil => exact .nil
    | cons hcd _ ih =>
      refine .cons ⟨hcd.id.symm, reveal_of_sealed hcd.passwordRef ?_⟩ ih
      rintro s ⟨⟩
      exact hcd.passwordRef.isBlank_eq_false
  refine collect_of_forall₂ (fun _ c d hcd => ?_) hflip 0
  exact Credential.mapSecret_eq_ok_iff.mpr ⟨hcd.id, hcd.passwordRef⟩

/-! ## AI settings -/

def readAiRefs (file : AiSettings) : List (Option Text) :=
  file.providers.map (·.trimmed.apiKeyRef)

theorem reveal_aiSettings {file plain : AiSettings}
    (h : decryptAiSettings P service file = .ok plain) :
    ∃ settings : AiSettings, settings.Valid ∧ settings.refs = readAiRefs file ∧
      AiSettings.Related (fun w v => revealOptionalString P service w = .ok v) settings plain := by
  obtain ⟨settings, hvalid, h⟩ := bind_eq_ok_iff.mp h
  obtain ⟨hvalid, hproviders⟩ := valid_of_validateAiSettings hvalid
  refine ⟨settings, hvalid, ?_, ?_⟩
  · rw [AiSettings.refs, hproviders, List.map_map]
    rfl
  · refine AiSettings.related_of_mapSecrets (fun i v w hv => ?_) h
    exact hv

theorem sealed_aiSettings (hP : P.Lawful) {nonce : ℕ → Bytes} {plain file : AiSettings}
    (h : encryptAiSettings P service nonce plain = .ok file) :
    AiSettings.Related (Sealed P service) plain file := by
  refine AiSettings.related_of_mapSecrets (fun i v w hv => ?_) h
  exact sealed_of_protect hP.roundTrips hv

theorem exists_encryptAiSettings {provider : Provider}
    (hprovider : service.provider = some provider) (nonce : ℕ → Bytes) (plain : AiSettings) :
    ∃ file, encryptAiSettings P service nonce plain = .ok file :=
  AiSettings.exists_mapSecrets (fun i v => exists_protect hprovider (nonce i) v) plain

theorem trimmed_sealed {v w : Option Text} (h : Sealed P service v w) :
    (w.map trim).filter (· ≠ []) = w := by
  cases h with
  | absent => rfl
  | blank _ => rfl
  | token _ hpre hspace _ =>
    have hne := isBlank_token hpre hspace
    rw [isBlank, trim_token hspace, beq_eq_false_iff_ne] at hne
    simp [trim_token hspace, Option.filter, hne]

theorem valid_of_sealed {R : Option Text → Option Text → Prop} {settings plain file : AiSettings}
    (hvalid : settings.Valid) (hplain : AiSettings.Related R settings plain)
    (h : AiSettings.Related (Sealed P service) plain file) : file.Valid := by
  have hids : file.providers.map (·.id) = settings.providers.map (·.id) :=
    h.map_id.trans hplain.map_id
  have hmem : ∀ p ∈ file.providers, ∃ q ∈ settings.providers, q.id = p.id := fun p hp => by
    have hpid : p.id ∈ settings.providers.map (·.id) := hids ▸ List.mem_map_of_mem hp
    exact List.mem_map.mp hpid
  refine ⟨?_, fun p hp => ?_, fun p hp => ?_, hids ▸ hvalid.nodup, ?_⟩
  · rw [h.limits, hplain.limits]
    exact hvalid.limits
  · obtain ⟨q, hq, hqid⟩ := hmem p hp
    have hqtrim : trim q.id = q.id := congrArg AiProviderSettings.id (hvalid.trimmed q hq)
    obtain ⟨a, -, ha⟩ := (exists_mem_of_forall₂ h.providers).2 p hp
    rw [AiProviderSettings.trimmed, trimmed_sealed ha.apiKeyRef, ← hqid, hqtrim, hqid]
  · obtain ⟨q, hq, hqid⟩ := hmem p hp
    exact hqid ▸ hvalid.ids q hq
  · rw [h.activeProviderId, hplain.activeProviderId, validActiveProviderId_congr hids]
    exact hvalid.activeProviderId

theorem decryptAiSettings_of_sealed {plain file : AiSettings} (hvalid : file.Valid)
    (h : AiSettings.Related (Sealed P service) plain file)
    (hblank : ∀ v ∈ plain.refs, NotBlank v) : decryptAiSettings P service file = .ok plain := by
  rw [decryptAiSettings, validateAiSettings_of_valid hvalid]
  refine AiSettings.mapSecrets_of_related
    (R := fun w v => revealOptionalString P service w = .ok v) (fun _ _ _ hv => hv) ?_
  exact h.flip fun v hv w hw => reveal_of_sealed hw (hblank v hv)

end FluxTerm.Security
