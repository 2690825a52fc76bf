import FluxTerm.Lib.LineStore
import FluxTerm.Security.ProfileCommands
import Mathlib.Data.Char
import Mathlib.Data.List.Lex
import Mathlib.Data.List.Sort

/-!
# FluxTerm — importing the OpenSSH configuration

`ssh_config_import.rs`: the aliases of `~/.ssh/config` that become profiles, and the import of their
profiles into the store.

* **`applyImport`** — the import; **`applyImport_twice`** — it keeps what is there, its counts add
  up, and the second time it adds nothing.

What `russh_config` makes of a configuration for an alias, the new ids and the clock are parameters.
-/

namespace FluxTerm.Ssh.ConfigImport

open Lib Engine
open Security (AuthType trim validateProfileName)

/-! ## The configuration -/

structure OpensshImportTarget where
  hostAlias : Text
deriving DecidableEq

structure ParsedOpensshConfig where
  targets : List OpensshImportTarget
  unsupportedCount : ℕ

/-- `split_config_line`, of a line without white space around it. -/
def splitConfigLine (line : Text) : Option (Text × Text) :=
  let key := trim (line.takeWhile (!isWhitespace ·))
  match line.dropWhile (!isWhitespace ·) with
  | [] => none
  | _ :: value => if key = [] ∨ trim value = [] then none else some (key, trim value)

def isExactHostAlias (value : Text) : Bool :=
  trim value ≠ [] && !(trim value).any fun c => c == '*' || c == '?' || c == '!'

/-- What the patterns of a `Host` line add. -/
def addPatterns (patterns : List Text) (parsed : ParsedOpensshConfig) : ParsedOpensshConfig :=
  let unsupported := { parsed with unsupportedCount := parsed.unsupportedCount + 1 }
  if patterns = [] then unsupported
  else if patterns = [['*']] then parsed
  else if patterns.any (·.head? = some '!') then unsupported
  else
    let aliases := patterns.filter isExactHostAlias
    if aliases = [] then unsupported
    else {
      targets := aliases.foldl (fun targets hostAlias =>
        if hostAlias ∈ targets.map (·.hostAlias) then targets else targets ++ [⟨hostAlias⟩]) parsed.targets
      unsupportedCount :=
        parsed.unsupportedCount + if aliases.length ≠ patterns.length then 1 else 0 }

/-- One line of the configuration. -/
def parseLine (parsed : ParsedOpensshConfig) (rawLine : Text) :
    Except EngineError ParsedOpensshConfig :=
  let line := trim rawLine
  if line = [] ∨ line.head? = some '#' then .ok parsed
  else match splitConfigLine line with
    | none => .error (.new "ssh_config_parse_failed" "Failed to parse SSH config")
    | some (key, value) =>
      if asciiLower key ≠ "host".toList then .ok parsed
      else .ok (addPatterns (splitWhitespace value) parsed)

def parseOpensshConfig (content : Text) : Except EngineError ParsedOpensshConfig :=
  (textLines content).foldlM parseLine ⟨[], 0⟩

/-! ## Profiles -/

/-- `HostProfile`, with what an import sets. -/
structure HostProfile where
  id : Text
  name : Text
  host : Text
  port : ℕ
  username : Text
  authType : AuthType
  privateKeyPath : Option Text
  identityFiles : Option (List Text)
  proxyCommand : Option Text
  proxyJump : Option Text
  jumpProfileIds : Option (List Text)
  addKeysToAgent : Option Text
  userKnownHostsFile : Option Text
  strictHostKeyChecking : Option Bool
  tags : Option (List Text)
deriving DecidableEq

structure SshProfileStore where
  version : ℕ
  updatedAt : ℕ
  profiles : List HostProfile

/-- What `russh_config::parse` finds for an alias. -/
structure ResolvedConfig where
  host : Text
  port : ℕ
  user : Option Text
  identityFile : Option (List Text)
  proxyCommand : Option Text
  proxyJump : Option Text
  /-- As `Debug` shows it. -/
  addKeysToAgent : Option Text
  userKnownHostsFile : Option Text
  strictHostKeyChecking : Option Bool

def importGroupName : Text := "OpenSSH".toList

def importProfileNameMaxChars : ℕ := 14

def truncateProfileName (value : Text) : Text := value.take importProfileNameMaxChars

def collectIdentityFiles (config : ResolvedConfig) : Option (List Text) :=
  config.identityFile.filter (· ≠ [])

def HostProfile.inImportGroup (profile : HostProfile) : Bool :=
  profile.tags.any (importGroupName ∈ ·)

structure OpensshImportSummary where
  addedCount : ℕ
  skippedCount : ℕ
  conflictCount : ℕ
  unsupportedCount : ℕ
  errorCount : ℕ
deriving DecidableEq

/-! ## The group -/

def dedupeGroups (lowercase : Text → Text) (values : List Text) : List Text :=
  let kept := (values.map trim).foldl (fun list value =>
    if value = [] ∨ lowercase value ∈ list.map lowercase then list else list ++ [value]) []
  kept.insertionSort fun a b => lowercase a ≤ lowercase b

def validateAndDedupeGroups (lowercase : Text → Text) (values : List Text) :
    Except EngineError (List Text) :=
  let normalized := (values.map trim).filter (· ≠ [])
  if normalized.any (12 < ·.length) then
    .error (.new "group_name_too_long" "Group name cannot exceed 12 characters")
  else .ok (dedupeGroups lowercase normalized)

def ensureImportGroup (lowercase : Text → Text) (groups : List Text) :
    Except EngineError (List Text) :=
  validateAndDedupeGroups lowercase (groups ++ [importGroupName])

/-! ## The import -/

section Import

/- `parse` is `russh_config::parse`, with the text of its error. -/
variable (parse : Text → Text → Except String ResolvedConfig) (content : Text)

def mapHostTargetToProfile (uuid : Text) (target : OpensshImportTarget) :
    Except EngineError HostProfile :=
  match parse content target.hostAlias with
  | .error err => .error (.withDetail "ssh_config_parse_failed" "Failed to parse SSH config" err)
  | .ok resolved => do
    let identityFiles := collectIdentityFiles resolved
    let privateKeyPath := identityFiles.bind List.head?
    let name ← validateProfileName (truncateProfileName target.hostAlias)
    return {
      id := uuid
      name := name
      host := resolved.host
      port := resolved.port
      username := resolved.user.getD []
      authType := if privateKeyPath.isSome then .privateKey else .password
      privateKeyPath := privateKeyPath
      identityFiles := identityFiles
      proxyCommand := resolved.proxyCommand
      proxyJump := resolved.proxyJump
      jumpProfileIds := none
      addKeysToAgent := resolved.addKeysToAgent.map asciiLower
      userKnownHostsFile := resolved.userKnownHostsFile
      strictHostKeyChecking := resolved.strictHostKeyChecking
      tags := some [importGroupName] }

def existingInGroup (profiles : List HostProfile) (name : Text) : Option HostProfile :=
  profiles.find? fun item => item.name = name && item.inImportGroup

/-- One target. -/
def importTarget (state : List HostProfile × OpensshImportSummary)
    (target : Text × OpensshImportTarget) : List HostProfile × OpensshImportSummary :=
  let (profiles, summary) := state
  match mapHostTargetToProfile parse content target.1 target.2 with
  | .error _ => (profiles, { summary with errorCount := summary.errorCount + 1 })
  | .ok mapped =>
    match existingInGroup profiles mapped.name with
    | some item =>
      if item.host = mapped.host ∧ item.port = mapped.port ∧ item.username = mapped.username then
        (profiles, { summary with skippedCount := summary.skippedCount + 1 })
      else (profiles, { summary with conflictCount := summary.conflictCount + 1 })
    | none =>
      (profiles ++ [mapped], { summary with addedCount := summary.addedCount + 1 })

end Import

def jumpKey (item : Text) : Text := asciiLower ((afterLast '@' item).takeWhile (· ≠ ':'))

def jumpItems (proxyJump : Text) : List Text :=
  ((proxyJump.splitOn ',').map trim).filter (· ≠ [])

/-- `name_to_id`: the last profile with a name. -/
def nameToId (profiles : List HostProfile) (name : Text) : Option Text :=
  (profiles.reverse.find? fun profile => asciiLower profile.name = name).map (·.id)

def jumpIds (profiles : List HostProfile) (proxyJump : Text) : Option (List Text) :=
  ((jumpItems proxyJump).mapM fun item => nameToId profiles (jumpKey item)).filter (· ≠ [])

def withJumpIds (profiles : List HostProfile) (profile : HostProfile) : HostProfile :=
  { profile with
    jumpProfileIds := (profile.proxyJump.bind (jumpIds profiles)).or profile.jumpProfileIds }

def resolveImportedProxyJumpIds (profiles : List HostProfile) : List HostProfile :=
  profiles.map (withJumpIds profiles)

/-- `apply_import`. Each target has the id that its profile would get. -/
def applyImport (lowercase : Text → Text) (parse : Text → Text → Except String ResolvedConfig)
    (uuids : ℕ → Text) (now : ℕ) (store : SshProfileStore) (groups : List Text) (content : Text)
    (parsed : ParsedOpensshConfig) :
    Except EngineError (OpensshImportSummary × SshProfileStore × List Text) := do
  let groups ← ensureImportGroup lowercase groups
  let targets := parsed.targets.mapIdx fun index target => (uuids index, target)
  let (profiles, summary) := targets.foldl (importTarget parse content)
    (store.profiles, ⟨0, 0, 0, parsed.unsupportedCount, 0⟩)
  return (summary,
    { store with profiles := resolveImportedProxyJumpIds profiles, updatedAt := now }, groups)

/-! ## What happens to each target -/

inductive ImportOutcome where
  | added
  | skipped
  | conflict
  | failed
deriving DecidableEq

def OpensshImportSummary.count (summary : OpensshImportSummary) :
    ImportOutcome → OpensshImportSummary
  | .added => { summary with addedCount := summary.addedCount + 1 }
  | .skipped => { summary with skippedCount := summary.skippedCount + 1 }
  | .conflict => { summary with conflictCount := summary.conflictCount + 1 }
  | .failed => { summary with errorCount := summary.errorCount + 1 }

def SameTarget (item mapped : HostProfile) : Prop :=
  item.host = mapped.host ∧ item.port = mapped.port ∧ item.username = mapped.username

instance (item mapped : HostProfile) : Decidable (SameTarget item mapped) :=
  inferInstanceAs (Decidable (_ ∧ _))

def outcomeOf (profiles : List HostProfile) : Except EngineError HostProfile → ImportOutcome
  | .error _ => .failed
  | .ok mapped =>
    match existingInGroup profiles mapped.name with
    | some item => if SameTarget item mapped then .skipped else .conflict
    | none => .added

def newProfile (profiles : List HostProfile) : Except EngineError HostProfile → List HostProfile
  | .error _ => []
  | .ok mapped => if (existingInGroup profiles mapped.name).isSome then [] else [mapped]

section Run

variable (parse : Text → Text → Except String ResolvedConfig) (content : Text)

def outcomes : List HostProfile → List (Text × OpensshImportTarget) → List ImportOutcome
  | _, [] => []
  | profiles, target :: targets =>
    let mapped := mapHostTargetToProfile parse content target.1 target.2
    outcomeOf profiles mapped :: outcomes (profiles ++ newProfile profiles mapped) targets

def newProfiles : List HostProfile → List (Text × OpensshImportTarget) → List HostProfile
  | _, [] => []
  | profiles, target :: targets =>
    let mapped := mapHostTargetToProfile parse content target.1 target.2
    newProfile profiles mapped ++ newProfiles (profiles ++ newProfile profiles mapped) targets

theorem importTarget_eq (profiles : List HostProfile) (summary : OpensshImportSummary)
    (target : Text × OpensshImportTarget) :
    importTarget parse content (profiles, summary) target =
      (profiles ++ newProfile profiles (mapHostTargetToProfile parse content target.1 target.2),
        summary.count
          (outcomeOf profiles (mapHostTargetToProfile parse content target.1 target.2))) := by
  unfold importTarget newProfile outcomeOf
  dsimp only
  cases mapHostTargetToProfile parse content target.1 target.2 with
  | error err => simp [OpensshImportSummary.count]
  | ok mapped =>
    dsimp only
    cases existingInGroup profiles mapped.name with
    | none => rfl
    | some item =>
      dsimp only
      rw [Option.isSome_some, if_pos rfl, List.append_nil]
      by_cases hsame : SameTarget item mapped
      · rw [if_pos hsame]
        exact if_pos hsame
      · rw [if_neg hsame]
        exact if_neg hsame

/-- **The loop over the targets**: the profiles that are added, and the counts of the outcomes. -/
theorem importTargets_eq (targets : List (Text × OpensshImportTarget))
    (profiles : List HostProfile) (summary : OpensshImportSummary) :
    targets.foldl (importTarget parse content) (profiles, summary) =
      (profiles ++ newProfiles parse content profiles targets,
        (outcomes parse content profiles targets).foldl OpensshImportSummary.count summary) := by
  induction targets generalizing profiles summary with
  | nil => simp [newProfiles, outcomes]
  | cons target targets ih =>
    rw [List.foldl_cons, importTarget_eq, ih, newProfiles, outcomes, List.foldl_cons,
      List.append_assoc]

theorem length_outcomes (targets : List (Text × OpensshImportTarget))
    (profiles : List HostProfile) :
    (outcomes parse content profiles targets).length = targets.length := by
  induction targets generalizing profiles with
  | nil => rfl
  | cons target targets ih => rw [outcomes, List.length_cons, List.length_cons, ih]

end Run

theorem foldl_count (targets : List ImportOutcome) (summary : OpensshImportSummary) :
    targets.foldl OpensshImportSummary.count summary =
      { addedCount := summary.addedCount + targets.count .added
        skippedCount := summary.skippedCount + targets.count .skipped
        conflictCount := summary.conflictCount + targets.count .conflict
        unsupportedCount := summary.unsupportedCount
        errorCount := summary.errorCount + targets.count .failed } := by
  induction targets generalizing summary with
  | nil => rfl
  | cons target targets ih =>
    rw [List.foldl_cons, ih]
    cases target <;> simp [OpensshImportSummary.count, Nat.add_comm, Nat.add_left_comm]

theorem count_outcomes (targets : List ImportOutcome) :
    targets.count .added + targets.count .skipped + targets.count .conflict +
      targets.count .failed = targets.length := by
  induction targets with
  | nil => rfl
  | cons target targets ih =>
    rw [List.length_cons, ← ih]
    cases target <;> simp <;> omega

/-! ## A second import -/

def ImportOutcome.again : ImportOutcome → ImportOutcome
  | .added => .skipped
  | outcome => outcome

theorem count_again (targets : List ImportOutcome) :
    (targets.map ImportOutcome.again).count .added = 0 ∧
      (targets.map ImportOutcome.again).count .skipped =
        targets.count .skipped + targets.count .added := by
  induction targets with
  | nil => exact ⟨rfl, rfl⟩
  | cons target targets ih =>
    obtain ⟨hadded, hskipped⟩ := ih
    rw [List.map_cons]
    cases target <;> simp [ImportOutcome.again, hadded, hskipped] <;> omega

theorem SameTarget.symm {item mapped : HostProfile} (h : SameTarget item mapped) :
    SameTarget mapped item := ⟨h.1.symm, h.2.1.symm, h.2.2.symm⟩

theorem SameTarget.trans {item other mapped : HostProfile} (h : SameTarget item other)
    (h' : SameTarget other mapped) : SameTarget item mapped :=
  ⟨h.1.trans h'.1, h.2.1.trans h'.2.1, h.2.2.trans h'.2.2⟩

theorem existingInGroup_append (profiles more : List HostProfile) (name : Text) :
    existingInGroup (profiles ++ more) name =
      (existingInGroup profiles name).or (existingInGroup more name) := List.find?_append

theorem existingInGroup_self {mapped : HostProfile} (h : mapped.inImportGroup = true)
    (more : List HostProfile) : existingInGroup (mapped :: more) mapped.name = some mapped := by
  unfold existingInGroup
  rw [List.find?_cons_of_pos]
  simp [h]

theorem newProfile_of_none {profiles : List HostProfile} {mapped : HostProfile}
    (h : existingInGroup profiles mapped.name = none) :
    newProfile profiles (.ok mapped) = [mapped] := by
  rw [newProfile, h]
  rfl

section Again

variable {parse : Text → Text → Except String ResolvedConfig} {content : Text}

theorem mapHostTargetToProfile_group {uuid : Text} {target : OpensshImportTarget}
    {mapped : HostProfile} (h : mapHostTargetToProfile parse content uuid target = .ok mapped) :
    mapped.inImportGroup = true ∧ mapped.jumpProfileIds = none := by
  unfold mapHostTargetToProfile at h
  split at h
  · cases h
  · cases hname : validateProfileName (truncateProfileName target.hostAlias) with
    | error err =>
      rw [hname] at h
      cases h
    | ok name =>
      rw [hname] at h
      cases h
      exact ⟨by simp [HostProfile.inImportGroup], rfl⟩

theorem mapHostTargetToProfile_again (uuid uuid' : Text) (target : OpensshImportTarget) :
    mapHostTargetToProfile parse content uuid' target =
      (mapHostTargetToProfile parse content uuid target).map ({ · with id := uuid' }) := by
  unfold mapHostTargetToProfile
  split
  · rfl
  · cases validateProfileName (truncateProfileName target.hostAlias) <;> rfl

/-- **The second time** a target is skipped where it has been added, and nothing is added. What is
in the group by then leads where the first import left it. -/
theorem outcomes_again {targets targets' : List (Text × OpensshImportTarget)}
    (hsame : List.Forall₂ (fun target target' => target.2 = target'.2) targets targets')
    (profiles profiles' : List HostProfile)
    (hgroup : ∀ name item,
      existingInGroup (profiles ++ newProfiles parse content profiles targets) name = some item →
      ∃ item', existingInGroup profiles' name = some item' ∧ SameTarget item' item) :
    outcomes parse content profiles' targets' =
        (outcomes parse content profiles targets).map ImportOutcome.again ∧
      newProfiles parse content profiles' targets' = [] := by
  induction hsame generalizing profiles with
  | nil => exact ⟨rfl, rfl⟩
  | @cons target target' targets targets' htarget _ ih =>
    obtain ⟨uuid, target⟩ := target
    obtain ⟨uuid', target''⟩ := target'
    obtain rfl : target = target'' := htarget
    rw [newProfiles, ← List.append_assoc] at hgroup
    obtain ⟨houtcomes, hnew⟩ := ih _ hgroup
    -- the target itself, at its turn
    have hturn : outcomeOf profiles' (mapHostTargetToProfile parse content uuid' target) =
        (outcomeOf profiles (mapHostTargetToProfile parse content uuid target)).again ∧
        newProfile profiles' (mapHostTargetToProfile parse content uuid' target) = [] := by
      rw [mapHostTargetToProfile_again uuid uuid' target]
      cases hmapped : mapHostTargetToProfile parse content uuid target with
      | error err => exact ⟨rfl, rfl⟩
      | ok mapped =>
        rw [hmapped] at hgroup
        unfold outcomeOf newProfile
        simp only [Except.map]
        cases hexisting : existingInGroup profiles mapped.name with
        | none =>
          obtain ⟨item', hitem', hsame'⟩ := hgroup mapped.name mapped (by
            rw [newProfile_of_none hexisting, existingInGroup_append, existingInGroup_append,
              hexisting, Option.none_or,
              existingInGroup_self (mapHostTargetToProfile_group hmapped).1, Option.some_or])
          have hsame' : SameTarget item' { mapped with id := uuid' } := hsame'
          rw [hitem']
          dsimp only
          rw [if_pos hsame']
          exact ⟨rfl, if_pos rfl⟩
        | some item =>
          obtain ⟨item', hitem', hsame'⟩ := hgroup mapped.name item (by
            rw [existingInGroup_append, existingInGroup_append, hexisting, Option.some_or,
              Option.some_or])
          rw [hitem']
          dsimp only
          refine ⟨?_, if_pos rfl⟩
          by_cases hduplicate : SameTarget item mapped
          · have hagain : SameTarget item' { mapped with id := uuid' } := hsame'.trans hduplicate
            rw [if_pos hduplicate, if_pos hagain]
            rfl
          · have hagain : ¬SameTarget item' { mapped with id := uuid' } := fun h =>
              hduplicate (hsame'.symm.trans h)
            rw [if_neg hduplicate, if_neg hagain]
            rfl
    obtain ⟨houtcome, hnone⟩ := hturn
    rw [outcomes, outcomes, newProfiles, List.map_cons]
    dsimp only
    rw [hnone, List.append_nil, houtcome, houtcomes, hnew]
    exact ⟨rfl, rfl⟩

end Again

/-! ## The groups -/

theorem mem_dedupeGroups {lowercase : Text → Text} {values : List Text} {value : Text}
    (h : value ∈ dedupeGroups lowercase values) : ∃ given ∈ values, value = trim given := by
  have hkept : ∀ (rest list : List Text), value ∈ rest.foldl (fun list value =>
      if value = [] ∨ lowercase value ∈ list.map lowercase then list else list ++ [value]) list →
      value ∈ list ∨ value ∈ rest := by
    intro rest
    induction rest with
    | nil => exact fun _ hmem => .inl hmem
    | cons first rest ih =>
      intro list hmem
      rw [List.foldl_cons] at hmem
      rcases ih _ hmem with hmem | hmem
      · split at hmem
        · exact .inl hmem
        · rcases List.mem_append.mp hmem with hmem | hmem
          · exact .inl hmem
          · exact .inr (List.mem_singleton.mp hmem ▸ List.mem_cons_self)
      · exact .inr (List.mem_cons_of_mem _ hmem)
  have hmem := (List.perm_insertionSort _ _).mem_iff.mp h
  rcases hkept _ _ hmem with hmem | hmem
  · cases hmem
  · obtain ⟨given, hgiven, rfl⟩ := List.mem_map.mp hmem
    exact ⟨given, hgiven, rfl⟩

theorem ensureImportGroup_again {lowercase : Text → Text} {groups groups' : List Text}
    (h : ensureImportGroup lowercase groups = .ok groups') :
    ∃ groups'', ensureImportGroup lowercase groups' = .ok groups'' := by
  unfold ensureImportGroup validateAndDedupeGroups at h ⊢
  dsimp only at h ⊢
  split at h
  · cases h
  · rename_i hshort
    obtain rfl := Except.ok.inj h
    rw [if_neg]
    · exact ⟨_, rfl⟩
    · intro hlong
      obtain ⟨name, hname, hlength⟩ := List.any_eq_true.mp hlong
      obtain ⟨given, hgiven, rfl⟩ := List.mem_map.mp (List.mem_of_mem_filter hname)
      rcases List.mem_append.mp hgiven with hgiven | hgiven
      · obtain ⟨checked, hchecked, rfl⟩ := mem_dedupeGroups hgiven
        obtain ⟨raw, -, rfl⟩ := List.mem_map.mp (List.mem_of_mem_filter hchecked)
        refine hshort (List.any_eq_true.mpr ⟨_, hchecked, ?_⟩)
        rwa [Security.trim_trim, Security.trim_trim] at hlength
      · rw [List.mem_singleton.mp hgiven] at hlength
        exact absurd hlength (by decide)

/-! ## The import, twice -/

def numbered (uuids : ℕ → Text) (parsed : ParsedOpensshConfig) :
    List (Text × OpensshImportTarget) :=
  parsed.targets.mapIdx fun index target => (uuids index, target)

/-- The store has the profiles that it had, with all but their jump hosts, and maybe more. -/
def KeepsProfiles (before after : SshProfileStore) : Prop :=
  ∀ (index : ℕ) (profile : HostProfile), before.profiles[index]? = some profile →
    ∃ jumpProfileIds, after.profiles[index]? = some { profile with jumpProfileIds }

section Twice

variable {lowercase : Text → Text} {parse : Text → Text → Except String ResolvedConfig}
  {content : Text} {parsed : ParsedOpensshConfig} {groups groups' : List Text}
  {store store' : SshProfileStore} {summary : OpensshImportSummary} {uuids : ℕ → Text} {now : ℕ}

theorem applyImport_eq_ok_iff :
    applyImport lowercase parse uuids now store groups content parsed =
        .ok (summary, store', groups') ↔
      ensureImportGroup lowercase groups = .ok groups' ∧
      summary = (outcomes parse content store.profiles (numbered uuids parsed)).foldl
        OpensshImportSummary.count ⟨0, 0, 0, parsed.unsupportedCount, 0⟩ ∧
      store' = { store with
        profiles := resolveImportedProxyJumpIds (store.profiles ++
          newProfiles parse content store.profiles (numbered uuids parsed))
        updatedAt := now } := by
  unfold applyImport
  rw [← numbered]
  dsimp only
  rw [importTargets_eq]
  cases ensureImportGroup lowercase groups with
  | error err => exact ⟨nofun, fun h => nomatch h.1⟩
  | ok groups'' =>
    constructor
    · intro h
      cases h
      exact ⟨rfl, rfl, rfl⟩
    · rintro ⟨h, rfl, rfl⟩
      cases h
      rfl

theorem keepsProfiles_applyImport
    (h : applyImport lowercase parse uuids now store groups content parsed =
      .ok (summary, store', groups')) : KeepsProfiles store store' := by
  obtain ⟨-, -, rfl⟩ := applyImport_eq_ok_iff.mp h
  intro index profile hprofile
  have hlt : index < store.profiles.length := (List.getElem?_eq_some_iff.mp hprofile).1
  have hafter := congrArg (Option.map (withJumpIds (store.profiles ++
    newProfiles parse content store.profiles (numbered uuids parsed)))) hprofile
  rw [← List.getElem?_append_left hlt, ← List.getElem?_map] at hafter
  exact ⟨_, hafter⟩

theorem existingInGroup_resolve (profiles : List HostProfile) (name : Text) :
    existingInGroup (resolveImportedProxyJumpIds profiles) name =
      (existingInGroup profiles name).map (withJumpIds profiles) := by
  unfold existingInGroup resolveImportedProxyJumpIds
  rw [List.find?_map]
  rfl

/-- **An import keeps** the profiles that there are, and its counts add up. The same configuration
adds nothing the second time, and every target that was added is skipped. -/
theorem applyImport_twice (uuids' : ℕ → Text) (now' : ℕ)
    (h : applyImport lowercase parse uuids now store groups content parsed =
      .ok (summary, store', groups')) :
    KeepsProfiles store store' ∧
      summary.addedCount + summary.skippedCount + summary.conflictCount + summary.errorCount =
        parsed.targets.length ∧
      ∃ summary' store'' groups'',
        applyImport lowercase parse uuids' now' store' groups' content parsed =
          .ok (summary', store'', groups'') ∧
        KeepsProfiles store' store'' ∧ store''.profiles.length = store'.profiles.length ∧
        summary'.addedCount = 0 ∧
        summary'.skippedCount = summary.skippedCount + summary.addedCount ∧
        ∀ index : ℕ,
          (outcomes parse content store.profiles (numbered uuids parsed))[index]? = some .added →
          (outcomes parse content store'.profiles (numbered uuids' parsed))[index]? =
            some .skipped := by
  obtain ⟨hgroups, hsummary, hstore⟩ := applyImport_eq_ok_iff.mp h
  obtain ⟨groups'', hgroups'⟩ := ensureImportGroup_again hgroups
  have hsame : List.Forall₂ (fun target target' => target.2 = target'.2) (numbered uuids parsed)
      (numbered uuids' parsed) := by
    refine List.forall₂_iff_get.mpr ⟨by simp [numbered], fun index hlt hlt' => ?_⟩
    simp [numbered]
  have hgroup : ∀ name item, existingInGroup (store.profiles ++
      newProfiles parse content store.profiles (numbered uuids parsed)) name = some item →
      ∃ item', existingInGroup store'.profiles name = some item' ∧ SameTarget item' item := by
    intro name item hitem
    rw [hstore]
    exact ⟨withJumpIds _ item, by rw [existingInGroup_resolve, hitem]; rfl, rfl, rfl, rfl⟩
  obtain ⟨houtcomes, hnew⟩ := outcomes_again hsame store.profiles store'.profiles hgroup
  have hagain : applyImport lowercase parse uuids' now' store' groups' content parsed =
      .ok (_, _, _) := applyImport_eq_ok_iff.mpr ⟨hgroups', rfl, rfl⟩
  refine ⟨keepsProfiles_applyImport h, ?_, _, _, _, hagain, keepsProfiles_applyImport hagain,
    ?_, ?_, ?_, fun index hindex => ?_⟩
  · rw [hsummary, foldl_count]
    simp only [Nat.zero_add]
    rw [count_outcomes, length_outcomes, numbered, List.length_mapIdx]
  · dsimp only
    rw [hnew, List.append_nil, resolveImportedProxyJumpIds, List.length_map]
  · rw [foldl_count, houtcomes, (count_again _).1]
  · rw [hsummary, foldl_count, foldl_count, houtcomes, (count_again _).2]
    simp only [Nat.zero_add]
  · rw [houtcomes, List.getElem?_map, hindex]
    rfl

end Twice

def sampleConfig : Text :=
  "Host build-server-01\n  HostName 10.0.0.9\nHost app\n  HostName 10.0.0.8\n".toList ++
    "  ProxyJump build-server-01\n".toList

def sampleParsed : ParsedOpensshConfig :=
  ⟨[⟨"build-server-01".toList⟩, ⟨"app".toList⟩], 0⟩

example : parseOpensshConfig sampleConfig = .ok sampleParsed := by rfl

/-- What is found in the sample. -/
def sampleParse (_ hostAlias : Text) : Except String ResolvedConfig :=
  .ok {
    host := if hostAlias = "app".toList then "10.0.0.8".toList else "10.0.0.9".toList
    port := 22
    user := none
    identityFile := none
    proxyCommand := none
    proxyJump := if hostAlias = "app".toList then some "build-server-01".toList else none
    addKeysToAgent := none
    userKnownHostsFile := none
    strictHostKeyChecking := none }

def sampleUuids (index : ℕ) : Text := 'p' :: (toString index).toList

theorem applyImport_twice_sample : ∃ summary store' groups',
    applyImport asciiLower sampleParse sampleUuids 1 ⟨1, 0, []⟩ [] sampleConfig sampleParsed =
      .ok (summary, store', groups') ∧
    KeepsProfiles ⟨1, 0, []⟩ store' ∧
    summary.addedCount + summary.skippedCount + summary.conflictCount + summary.errorCount = 2 := by
  have h : applyImport asciiLower sampleParse sampleUuids 1 ⟨1, 0, []⟩ [] sampleConfig
      sampleParsed = .ok (_, _, _) := applyImport_eq_ok_iff.mpr ⟨rfl, rfl, rfl⟩
  obtain ⟨hkeeps, hsum, -⟩ := applyImport_twice sampleUuids 2 h
  exact ⟨_, _, _, h, hkeeps, hsum⟩

end FluxTerm.Ssh.ConfigImport
