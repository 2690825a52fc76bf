import FluxTerm.Ssh.ConfigImport

/-!
# FluxTerm — the jump hosts of imported profiles

`resolve_imported_proxy_jump_ids` looks a jump host up by its name among all profiles. The names of
imported profiles are cut to 14 characters, the name that is looked up is not.

* **`jumpsResolved_iff`** — an import resolves the jump hosts that are reached.
-/

namespace FluxTerm.Ssh.ConfigImport

open Lib Engine
open Security (trim)

def importName (hostAlias : Text) : Text := trim (truncateProfileName hostAlias)

def profileOf (profiles : List HostProfile) (hostAlias : Text) : Option HostProfile :=
  existingInGroup profiles (importName hostAlias)

/-- The jump hosts of a profile are the profiles that its aliases stand for, in order. -/
def JumpsResolved (profiles : List HostProfile) (profile : HostProfile) : Prop :=
  ∀ proxyJump ∈ profile.proxyJump, List.Forall₂
    (fun id hostAlias => ∃ jump, profileOf profiles hostAlias = some jump ∧ jump.id = id)
    (profile.jumpProfileIds.getD []) (jumpItems proxyJump)

/-- The last profile with the name that is looked up for an alias is the one it stands for. -/
def Reached (profiles : List HostProfile) (hostAlias : Text) : Prop :=
  ∃ jump last, profileOf profiles hostAlias = some jump ∧
    (profiles.filter fun profile => asciiLower profile.name = jumpKey hostAlias).getLast? =
      some last ∧ last.id = jump.id

/-- The alias is looked up by the name of its profile, and no later profile has that name, up to
letter case. -/
def StandsLast (profiles : List HostProfile) (hostAlias : Text) : Prop :=
  jumpKey hostAlias = asciiLower (importName hostAlias) ∧
    ∃ before jump behind, profiles = before ++ jump :: behind ∧
      profileOf profiles hostAlias = some jump ∧
      ∀ profile ∈ behind, asciiLower profile.name ≠ jumpKey hostAlias

/-! ## The search -/

theorem nameToId_eq (profiles : List HostProfile) (name : Text) :
    nameToId profiles name =
      ((profiles.filter fun profile => asciiLower profile.name = name).getLast?).map (·.id) := by
  rw [nameToId, ← List.head?_filter, List.filter_reverse, List.head?_reverse]

theorem reached_iff_nameToId (profiles : List HostProfile) (hostAlias : Text) :
    Reached profiles hostAlias ↔ ∃ id, nameToId profiles (jumpKey hostAlias) = some id ∧
      ∃ jump, profileOf profiles hostAlias = some jump ∧ jump.id = id := by
  rw [nameToId_eq]
  constructor
  · rintro ⟨jump, last, hjump, hlast, hid⟩
    exact ⟨last.id, by rw [hlast]; rfl, jump, hjump, hid.symm⟩
  · rintro ⟨id, hid, jump, hjump, rfl⟩
    obtain ⟨last, hlast, hsame⟩ := Option.map_eq_some_iff.mp hid
    exact ⟨jump, last, hjump, hlast, hsame⟩

theorem name_of_profileOf {profiles : List HostProfile} {hostAlias : Text} {jump : HostProfile}
    (h : profileOf profiles hostAlias = some jump) : jump.name = importName hostAlias := by
  have hfound := List.find?_some h
  rw [Bool.and_eq_true, decide_eq_true_eq] at hfound
  exact hfound.1

/-- **Where no two profiles have the same id**, an alias is reached if it is looked up by the name
of its profile, and if no later profile has that name. -/
theorem reached_iff {profiles : List HostProfile} (hids : (profiles.map (·.id)).Nodup)
    (hostAlias : Text) : Reached profiles hostAlias ↔ StandsLast profiles hostAlias := by
  constructor
  · rintro ⟨jump, last, hjump, hlast, hid⟩
    obtain ⟨-, before, behind, hsplit, -⟩ := List.find?_eq_some_iff_append.mp hjump
    have hlastMem := List.mem_of_getLast? hlast
    obtain rfl : last = jump := List.inj_on_of_nodup_map hids (List.mem_of_mem_filter hlastMem)
      (hsplit ▸ List.mem_append_right _ List.mem_cons_self) hid
    have hkey : asciiLower last.name = jumpKey hostAlias := by
      simpa using (List.mem_filter.mp hlastMem).2
    refine ⟨by rw [← hkey, name_of_profileOf hjump], before, last, behind, hsplit, hjump, ?_⟩
    intro profile hprofile hname
    -- the last profile with the name would be behind itself
    have hne : behind.filter (fun profile => asciiLower profile.name = jumpKey hostAlias) ≠ [] :=
      List.ne_nil_of_mem (List.mem_filter.mpr ⟨hprofile, by simpa using hname⟩)
    rw [hsplit, List.filter_append, List.filter_cons_of_pos (by simpa using hkey),
      List.getLast?_append_of_ne_nil _ (List.cons_ne_nil _ _), List.getLast?_cons,
      List.getLast?_eq_some_getLast hne, Option.getD_some] at hlast
    have hbehind : last ∈ behind := by
      rw [← Option.some.inj hlast]
      exact List.mem_of_mem_filter (List.getLast_mem hne)
    rw [hsplit, List.map_append, List.map_cons] at hids
    exact (List.nodup_cons.mp hids.of_append_right).1 (List.mem_map_of_mem hbehind)
  · rintro ⟨hkey, before, jump, behind, hsplit, hjump, hbehind⟩
    refine ⟨jump, jump, hjump, ?_, rfl⟩
    have hnone : behind.filter (fun profile => asciiLower profile.name = jumpKey hostAlias) = [] :=
      List.filter_eq_nil_iff.mpr fun profile hprofile => by simpa using hbehind profile hprofile
    have hname : asciiLower jump.name = jumpKey hostAlias := by
      rw [hkey, name_of_profileOf hjump]
    rw [hsplit, List.filter_append, List.filter_cons_of_pos (by simpa using hname), hnone,
      List.getLast?_concat]

/-! ## The import -/

section Search

variable {α β : Type} {f : α → Option β} {Q : β → α → Prop}

theorem forall₂_mapM_iff {items : List α} {found : List β} (h : items.mapM f = some found) :
    List.Forall₂ Q found items ↔ ∀ item ∈ items, ∃ result, f item = some result ∧ Q result item := by
  induction items generalizing found with
  | nil =>
    rw [List.mapM_nil] at h
    cases h
    exact ⟨fun _ _ hitem => absurd hitem List.not_mem_nil, fun _ => .nil⟩
  | cons item items ih =>
    rw [List.mapM_cons] at h
    obtain ⟨result, hresult, h⟩ := Option.bind_eq_some_iff.mp h
    obtain ⟨results, hresults, h⟩ := Option.bind_eq_some_iff.mp h
    cases h
    rw [List.forall₂_cons, ih hresults, List.forall_mem_cons, hresult]
    refine and_congr_left fun _ => ?_
    exact ⟨fun hQ => ⟨result, rfl, hQ⟩, fun ⟨_, heq, hQ⟩ => Option.some.inj heq ▸ hQ⟩

theorem exists_mapM {items : List α} (h : ∀ item ∈ items, ∃ result, f item = some result) :
    ∃ found, items.mapM f = some found := by
  induction items with
  | nil => exact ⟨[], List.mapM_nil⟩
  | cons item items ih =>
    rw [List.forall_mem_cons] at h
    obtain ⟨⟨result, hresult⟩, hrest⟩ := h
    obtain ⟨results, hresults⟩ := ih hrest
    exact ⟨result :: results, by rw [List.mapM_cons, hresult, hresults]; rfl⟩

end Search

variable {lowercase : Text → Text} {parse : Text → Text → Except String ResolvedConfig}
  {content : Text} {parsed : ParsedOpensshConfig} {groups groups' : List Text}
  {store store' : SshProfileStore} {summary : OpensshImportSummary} {uuids : ℕ → Text} {now : ℕ}

theorem jumpProfileIds_of_mem_newProfiles {targets : List (Text × OpensshImportTarget)}
    {profiles : List HostProfile} {profile : HostProfile}
    (h : profile ∈ newProfiles parse content profiles targets) : profile.jumpProfileIds = none := by
  induction targets generalizing profiles with
  | nil => cases h
  | cons target targets ih =>
    rw [newProfiles] at h
    rcases List.mem_append.mp h with h | h
    · unfold newProfile at h
      split at h
      · cases h
      · rename_i mapped hmapped
        split at h
        · cases h
        · rw [List.mem_singleton.mp h]
          exact (mapHostTargetToProfile_group hmapped).2
    · exact ih h

theorem jumpsResolved_withJumpIds_iff (profiles : List HostProfile) {profile : HostProfile}
    (hnone : profile.jumpProfileIds = none) :
    JumpsResolved (resolveImportedProxyJumpIds profiles) (withJumpIds profiles profile) ↔
      ∀ proxyJump ∈ profile.proxyJump, ∀ hostAlias ∈ jumpItems proxyJump,
        Reached profiles hostAlias := by
  have hprofileOf (hostAlias id : Text) :
      (∃ jump, profileOf (resolveImportedProxyJumpIds profiles) hostAlias = some jump ∧
        jump.id = id) ↔ ∃ jump, profileOf profiles hostAlias = some jump ∧ jump.id = id := by
    unfold profileOf
    rw [existingInGroup_resolve]
    constructor
    · rintro ⟨jump, hjump, rfl⟩
      obtain ⟨found, hfound, rfl⟩ := Option.map_eq_some_iff.mp hjump
      exact ⟨found, hfound, rfl⟩
    · rintro ⟨jump, hjump, rfl⟩
      exact ⟨withJumpIds profiles jump, by rw [hjump]; rfl, rfl⟩
  have hids : ∀ proxyJump ∈ profile.proxyJump,
      (withJumpIds profiles profile).jumpProfileIds = jumpIds profiles proxyJump := by
    intro proxyJump hproxyJump
    rw [withJumpIds, hnone, Option.mem_def.mp hproxyJump, Option.or_none]
    rfl
  refine forall₂_congr fun proxyJump hproxyJump => ?_
  simp only [hprofileOf, reached_iff_nameToId, hids proxyJump hproxyJump]
  rw [jumpIds]
  cases hfound : (jumpItems proxyJump).mapM fun item => nameToId profiles (jumpKey item) with
  | none =>
    constructor
    · intro hresolved
      rw [List.forall₂_nil_left_iff.mp hresolved]
      exact fun _ hitem => absurd hitem List.not_mem_nil
    · intro hreached
      obtain ⟨ids, hids⟩ := exists_mapM fun hostAlias hitem =>
        (hreached hostAlias hitem).imp fun _ => And.left
      rw [hfound] at hids
      cases hids
  | some ids =>
    have hget : ((some ids).filter (· ≠ [])).getD [] = ids := by
      cases ids <;> rfl
    rw [hget]
    exact forall₂_mapM_iff hfound

/-- **An import resolves** the jump hosts of a new profile exactly if all its aliases are reached:
each of them is looked up by the name of its profile, and no later profile has that name. -/
theorem jumpsResolved_iff
    (h : applyImport lowercase parse uuids now store groups content parsed =
      .ok (summary, store', groups')) :
    (∀ profile ∈ store'.profiles.drop store.profiles.length,
      (JumpsResolved store'.profiles profile ↔
        ∀ proxyJump ∈ profile.proxyJump, ∀ hostAlias ∈ jumpItems proxyJump,
          Reached (store.profiles ++ newProfiles parse content store.profiles
            (numbered uuids parsed)) hostAlias)) ∧
      (((store.profiles ++ newProfiles parse content store.profiles
          (numbered uuids parsed)).map (·.id)).Nodup →
        ∀ hostAlias, Reached (store.profiles ++ newProfiles parse content store.profiles
            (numbered uuids parsed)) hostAlias ↔
          StandsLast (store.profiles ++ newProfiles parse content store.profiles
            (numbered uuids parsed)) hostAlias) := by
  obtain ⟨-, -, rfl⟩ := applyImport_eq_ok_iff.mp h
  refine ⟨fun profile hprofile => ?_, fun hids hostAlias => reached_iff hids hostAlias⟩
  dsimp only at hprofile ⊢
  rw [resolveImportedProxyJumpIds, ← List.map_drop, List.drop_left] at hprofile
  obtain ⟨new, hnew, rfl⟩ := List.mem_map.mp hprofile
  exact jumpsResolved_withJumpIds_iff _ (jumpProfileIds_of_mem_newProfiles hnew)

/-! ## An alias of fifteen characters -/

def sampleProfiles : List HostProfile :=
  newProfiles sampleParse sampleConfig [] (numbered sampleUuids sampleParsed)

theorem applyImport_sample : ∃ summary groups',
    applyImport asciiLower sampleParse sampleUuids 1 ⟨1, 0, []⟩ [] sampleConfig sampleParsed =
      .ok (summary, ⟨1, 1, resolveImportedProxyJumpIds sampleProfiles⟩, groups') :=
  ⟨_, _, applyImport_eq_ok_iff.mpr ⟨rfl, rfl, rfl⟩⟩

theorem jumpsResolved_iff_sample :
    ∃ profile, (resolveImportedProxyJumpIds sampleProfiles)[1]? = some profile ∧
      (JumpsResolved (resolveImportedProxyJumpIds sampleProfiles) profile ↔
        ∀ proxyJump ∈ profile.proxyJump, ∀ hostAlias ∈ jumpItems proxyJump,
          Reached sampleProfiles hostAlias) := by
  obtain ⟨summary, groups', h⟩ := applyImport_sample
  exact ⟨_, rfl, (jumpsResolved_iff h).1 _ (List.mem_of_getElem? (i := 1) rfl)⟩

/-- The jump host is imported under a shorter name, and is not found. -/
theorem sample_not_resolved : ∃ summary groups' profile,
    applyImport asciiLower sampleParse sampleUuids 1 ⟨1, 0, []⟩ [] sampleConfig sampleParsed =
      .ok (summary, ⟨1, 1, resolveImportedProxyJumpIds sampleProfiles⟩, groups') ∧
    (resolveImportedProxyJumpIds sampleProfiles)[1]? = some profile ∧
    profile.proxyJump = some "build-server-01".toList ∧
    jumpItems "build-server-01".toList = ["build-server-01".toList] ∧
    (profileOf (resolveImportedProxyJumpIds sampleProfiles) "build-server-01".toList).isSome ∧
    ¬JumpsResolved (resolveImportedProxyJumpIds sampleProfiles) profile := by
  obtain ⟨summary, groups', h⟩ := applyImport_sample
  refine ⟨summary, groups', _, h, rfl, rfl, by decide, by decide, fun hresolved => ?_⟩
  have hall := hresolved _ rfl
  have hlength := hall.length_eq
  revert hlength
  decide

end FluxTerm.Ssh.ConfigImport
