import FluxTerm.Lib.Register
import FluxTerm.Serial.Holdings

/-!
# FluxTerm — the maps of the serial manager

* **`nothingStale_of_reachable`** — what they hold belongs to calls that are not over.
-/

namespace FluxTerm.Serial

open FluxTerm.Engine FluxTerm.Lib

variable {m : SerialManager} {i : ℕ} {c c' : Call} {action : Action}

/-! ## The three maps -/

def Call.claim (c : Call) : Option Text := if c.holdsClaim then some c.portName else none

def Call.entry (c : Call) : Option Text := if c.listed then some c.operationId else none

namespace SerialManager

def claimOf (m : SerialManager) (i : ℕ) : Option Text := (m.calls[i]?).elim none Call.claim

def entryOf (m : SerialManager) (i : ℕ) : Option Text := (m.calls[i]?).elim none Call.entry

def sessionOf (m : SerialManager) (i : ℕ) : Bool :=
  (m.calls[i]?).elim false fun c => c.stage.inSessions

/-- The three maps hold what the calls have. -/
structure Consistent (m : SerialManager) : Prop where
  isLocal : ∀ (i : ℕ) (c : Call), m.calls[i]? = some c → c.Local
  claims : Registered m.claimOf fun portName => (m.claimedPorts portName).map (·.released)
  claimOp : ∀ (portName : Text) (owner : SerialPortOwner) (c : Call),
    m.claimedPorts portName = some owner →
    m.calls[owner.released]? = some c → owner.operationId = c.operationId
  entries : Registered m.entryOf m.pendingConnects
  sessions : m.sessions = m.sessionOf

end SerialManager

section Lists

variable {α β : Type*} {l : List α} {a a' : α} {d : β} {f : α → β}

theorem elim_getElem?_set (h : l[i]? = some a) :
    (fun j : ℕ => (l.set i a')[j]?.elim d f) =
      Function.update (fun j : ℕ => l[j]?.elim d f) i (f a') := by
  have hlt : i < l.length := (List.getElem?_eq_some_iff.mp h).1
  funext j
  by_cases hj : j = i
  · subst hj
    rw [Function.update_self, List.getElem?_set_self hlt]
    rfl
  · rw [Function.update_of_ne hj, List.getElem?_set_ne (Ne.symm hj)]

theorem elim_getElem?_set_same (h : l[i]? = some a) (hf : f a' = f a) :
    (fun j : ℕ => (l.set i a')[j]?.elim d f) = fun j : ℕ => l[j]?.elim d f := by
  have hself : f a' = (fun j : ℕ => l[j]?.elim d f) i := by
    show f a' = l[i]?.elim d f
    rw [h, hf]
    rfl
  rw [elim_getElem?_set h, hself, Function.update_eq_self]

theorem elim_getElem?_append :
    (fun j : ℕ => (l ++ [a])[j]?.elim d f) =
      Function.update (fun j : ℕ => l[j]?.elim d f) l.length (f a) := by
  funext j
  by_cases hj : j = l.length
  · subst hj
    rw [Function.update_self, List.getElem?_concat_length]
    rfl
  · rw [Function.update_of_ne hj]
    rcases Nat.lt_or_gt_of_ne hj with hlt | hgt
    · rw [List.getElem?_append_left hlt]
    · have hlong : (l ++ [a]).length ≤ j := by
        rw [List.length_append, List.length_singleton]
        omega
      rw [List.getElem?_eq_none hlong, List.getElem?_eq_none (by omega)]

theorem exists_of_elim_eq {o : Option α} {b : β} (h : o.elim d f = b) (hb : d ≠ b) :
    ∃ a, o = some a ∧ f a = b := by
  cases o with
  | none => exact absurd h hb
  | some a => exact ⟨a, rfl, h⟩

end Lists

/-! ## The maps and a call that moves -/

namespace SerialManager

def moved (m : SerialManager) (i : ℕ) (c' : Call) : SerialManager :=
  { m with calls := m.calls.set i c' }

variable (hi : m.calls[i]? = some c)
include hi

theorem claimOf_moved : (m.moved i c').claimOf = Function.update m.claimOf i c'.claim :=
  elim_getElem?_set hi

theorem claimOf_moved_same (h : c'.claim = c.claim) : (m.moved i c').claimOf = m.claimOf :=
  elim_getElem?_set_same hi h

theorem entryOf_moved : (m.moved i c').entryOf = Function.update m.entryOf i c'.entry :=
  elim_getElem?_set hi

theorem entryOf_moved_same (h : c'.entry = c.entry) : (m.moved i c').entryOf = m.entryOf :=
  elim_getElem?_set_same hi h

theorem sessionOf_moved :
    (m.moved i c').sessionOf = Function.update m.sessionOf i c'.stage.inSessions :=
  elim_getElem?_set hi

theorem sessionOf_moved_same (h : c'.stage.inSessions = c.stage.inSessions) :
    (m.moved i c').sessionOf = m.sessionOf :=
  elim_getElem?_set_same hi h

theorem claimOf_self : m.claimOf i = c.claim := by
  unfold claimOf
  rw [hi]
  rfl

theorem entryOf_self : m.entryOf i = c.entry := by
  unfold entryOf
  rw [hi]
  rfl

theorem calls_moved {j : ℕ} {d : Call} (h : (m.moved i c').calls[j]? = some d) :
    (j = i ∧ d = c') ∨ (j ≠ i ∧ m.calls[j]? = some d) := by
  have hlt : i < m.calls.length := (List.getElem?_eq_some_iff.mp hi).1
  change (m.calls.set i c')[j]? = some d at h
  by_cases hj : j = i
  · subst hj
    rw [List.getElem?_set_self hlt, Option.some.injEq] at h
    exact .inl ⟨rfl, h.symm⟩
  · rw [List.getElem?_set_ne (Ne.symm hj)] at h
    exact .inr ⟨hj, h⟩

end SerialManager

open SerialManager

section Moves

variable (h : m.Consistent) (hi : m.calls[i]? = some c)
include h hi

theorem SerialManager.Consistent.isLocal_moved (hlocal : c'.Local) :
    ∀ (j : ℕ) (d : Call), (m.moved i c').calls[j]? = some d → d.Local := by
  intro j d hd
  rcases calls_moved hi hd with ⟨-, rfl⟩ | ⟨-, hd⟩
  · exact hlocal
  · exact h.isLocal j d hd

theorem SerialManager.Consistent.claimOp_moved (hop : c'.operationId = c.operationId)
    {portName : Text} {owner : SerialPortOwner} {d : Call}
    (howner : m.claimedPorts portName = some owner)
    (hd : (m.moved i c').calls[owner.released]? = some d) : owner.operationId = d.operationId := by
  rcases calls_moved hi hd with ⟨hreleased, rfl⟩ | ⟨-, hd⟩
  · rw [hop]
    exact h.claimOp portName owner c howner (hreleased ▸ hi)
  · exact h.claimOp portName owner d howner hd

end Moves

theorem SerialManager.Consistent.settle (h : m.Consistent) (hi : m.calls[i]? = some c)
    (hlocal : c'.Local) (hop : c'.operationId = c.operationId) (hport : c'.portName = c.portName)
    (hhold : c'.holdings = c.holdings) : (m.moved i c').Consistent := by
  obtain ⟨hclaim, hentry, hsession⟩ := Holdings.mk.inj hhold
  have hclaim' : c'.claim = c.claim := by unfold Call.claim; rw [hclaim, hport]
  have hentry' : c'.entry = c.entry := by unfold Call.entry; rw [hentry, hop]
  refine ⟨h.isLocal_moved hi hlocal, ?_, fun _ _ _ => h.claimOp_moved hi hop, ?_, ?_⟩
  · rw [claimOf_moved_same hi hclaim']
    exact h.claims
  · rw [entryOf_moved_same hi hentry']
    exact h.entries
  · rw [sessionOf_moved_same hi hsession]
    exact h.sessions

theorem SerialManager.Consistent.modify (h : m.Consistent) (k : ℕ) (f : Call → Call)
    (hlocal : ∀ c : Call, c.Local → (f c).Local)
    (hop : ∀ c : Call, (f c).operationId = c.operationId)
    (hport : ∀ c : Call, (f c).portName = c.portName)
    (hhold : ∀ c : Call, (f c).holdings = c.holdings) :
    SerialManager.Consistent { m with calls := m.calls.modify k f } := by
  cases hk : m.calls[k]? with
  | none =>
    rw [List.modify_eq_self (List.getElem?_eq_none_iff.mp hk)]
    exact h
  | some c =>
    have hset : m.calls.modify k f = m.calls.set k (f c) := by
      rw [List.modify_eq_set_getElem?, hk]
      rfl
    rw [hset]
    exact h.settle hk (hlocal c (h.isLocal k c hk)) (hop c) (hport c) (hhold c)

theorem SerialManager.Consistent.notifyOne {owner : ℕ} {waiter : Option ℕ} {m' : SerialManager}
    (h : m.Consistent) (hnotify : m.notifyOne owner waiter = some m') : m'.Consistent := by
  unfold SerialManager.notifyOne at hnotify
  split at hnotify
  · rename_i k
    split at hnotify
    · rename_i c hk
      split at hnotify
      · rename_i hqueued
        cases hnotify
        -- the waiter is in `claim_port` before and after
        unfold isQueued at hqueued
        split at hqueued
        · rename_i hcaller
          have hlocal := h.isLocal k c hk
          have hstage := hlocal.spawned (by rw [hcaller]; rfl)
          refine h.settle hk ⟨fun _ => hstage, hlocal.onPlan⟩ rfl rfl ?_
          simp [Call.holdings, Call.holdsClaim, Call.listed, Caller.early, hcaller]
        · cases hqueued
      · cases hnotify
    · cases hnotify
  · split at hnotify
    · cases hnotify
    · cases hnotify
      exact h.modify owner _ (fun _ hlocal => ⟨hlocal.spawned, hlocal.onPlan⟩) (fun _ => rfl)
        (fun _ => rfl) (fun _ => rfl)

theorem SerialManager.Consistent.claimedPorts_eq (h : m.Consistent) (hi : m.calls[i]? = some c)
    (hclaim : c.holdsClaim = true) :
    m.claimedPorts c.portName = some ⟨c.operationId, i⟩ := by
  have hheld : m.claimOf i = some c.portName := by
    rw [claimOf_self hi]
    exact if_pos hclaim
  have hbook := (h.claims i c.portName).mp hheld
  obtain ⟨owner, howner, hreleased⟩ := Option.map_eq_some_iff.mp hbook
  subst hreleased
  rw [howner, ← h.claimOp c.portName owner c howner hi]

theorem SerialManager.Consistent.pendingConnects_eq (h : m.Consistent)
    (hi : m.calls[i]? = some c) (hlisted : c.listed = true) :
    m.pendingConnects c.operationId = some i := by
  refine (h.entries i c.operationId).mp ?_
  rw [entryOf_self hi]
  exact if_pos hlisted

section Actions

variable (h : m.Consistent) (hi : m.calls[i]? = some c) (hspec : StepOf m c c' action)
include h hi hspec

theorem SerialManager.Consistent.claims_moved (hclaim : c'.holdsClaim = c.holdsClaim) :
    Registered (m.moved i c').claimOf fun portName => (m.claimedPorts portName).map (·.released) := by
  rw [claimOf_moved_same hi (by unfold Call.claim; rw [hclaim, hspec.portName])]
  exact h.claims

theorem SerialManager.Consistent.entries_moved (hentry : c'.listed = c.listed) :
    Registered (m.moved i c').entryOf m.pendingConnects := by
  rw [entryOf_moved_same hi (by unfold Call.entry; rw [hentry, hspec.operationId])]
  exact h.entries

omit hspec in
theorem SerialManager.Consistent.sessions_moved (hsession : c'.stage.inSessions = c.stage.inSessions) :
    m.sessions = (m.moved i c').sessionOf := by
  rw [sessionOf_moved_same hi hsession]
  exact h.sessions

theorem SerialManager.Consistent.claimPort (haction : action = .claimPort) :
    SerialManager.Consistent { m.moved i c' with
      claimedPorts := Function.update m.claimedPorts c'.portName (some ⟨c'.operationId, i⟩) } := by
  subst haction
  obtain ⟨hnone, hhold⟩ := hspec.fits
  obtain ⟨hclaim, hentry, hsession⟩ := Holdings.mk.inj hhold
  have hbefore : m.claimOf i = none := by
    rw [claimOf_self hi]
    exact if_neg (ne_true_of_eq_false hnone)
  have hafter : c'.claim = some c'.portName := if_pos hclaim
  have hfree : m.claimedPorts c'.portName = none := by
    rw [hspec.portName]
    exact hspec.free rfl
  refine ⟨h.isLocal_moved hi hspec.isLocal, ?_, ?_, ?_, ?_⟩
  · show Registered (m.moved i c').claimOf (Option.map SerialPortOwner.released ∘ _)
    rw [claimOf_moved hi, hafter, Function.comp_update]
    refine h.claims.enter hbefore ?_
    rw [hfree]
    rfl
  · intro portName owner d howner hd
    change Function.update m.claimedPorts c'.portName _ portName = some owner at howner
    by_cases hport : portName = c'.portName
    · subst hport
      rw [Function.update_self, Option.some.injEq] at howner
      subst howner
      rcases calls_moved hi hd with ⟨-, rfl⟩ | ⟨hne, -⟩
      · rfl
      · exact absurd rfl hne
    · rw [Function.update_of_ne hport] at howner
      exact h.claimOp_moved hi hspec.operationId howner hd
  · exact h.entries_moved hi hspec hentry
  · exact h.sessions_moved hi hsession

theorem SerialManager.Consistent.releasePort {waiter : Option ℕ}
    (haction : action = .dropClaim waiter) :
    SerialManager.Consistent { m.moved i c' with
      claimedPorts := Function.update m.claimedPorts c'.portName none } := by
  subst haction
  obtain ⟨hsome, hhold⟩ := hspec.fits
  obtain ⟨hclaim, hentry, hsession⟩ := Holdings.mk.inj hhold
  have hbefore : m.claimOf i = some c'.portName := by
    rw [claimOf_self hi, hspec.portName]
    exact if_pos hsome
  have hafter : c'.claim = none := if_neg (ne_true_of_eq_false hclaim)
  refine ⟨h.isLocal_moved hi hspec.isLocal, ?_, ?_, ?_, ?_⟩
  · show Registered (m.moved i c').claimOf (Option.map SerialPortOwner.released ∘ _)
    rw [claimOf_moved hi, hafter, Function.comp_update]
    exact h.claims.leave hbefore
  · intro portName owner d howner hd
    change Function.update m.claimedPorts c'.portName none portName = some owner at howner
    by_cases hport : portName = c'.portName
    · rw [hport, Function.update_self] at howner
      cases howner
    · rw [Function.update_of_ne hport] at howner
      exact h.claimOp_moved hi hspec.operationId howner hd
  · exact h.entries_moved hi hspec hentry
  · exact h.sessions_moved hi hsession

theorem SerialManager.Consistent.removePending (haction : action = .removePending) :
    SerialManager.Consistent { m.moved i c' with
      pendingConnects := Function.update m.pendingConnects c'.operationId none } := by
  subst haction
  obtain ⟨hsome, hhold⟩ := hspec.fits
  obtain ⟨hclaim, hentry, hsession⟩ := Holdings.mk.inj hhold
  have hbefore : m.entryOf i = some c'.operationId := by
    rw [entryOf_self hi, hspec.operationId]
    exact if_pos hsome
  have hafter : c'.entry = none := if_neg (ne_true_of_eq_false hentry)
  refine ⟨h.isLocal_moved hi hspec.isLocal, ?_,
    fun _ _ _ => h.claimOp_moved hi hspec.operationId, ?_, ?_⟩
  · exact h.claims_moved hi hspec hclaim
  · show Registered (m.moved i c').entryOf _
    rw [entryOf_moved hi, hafter]
    exact h.entries.leave hbefore
  · exact h.sessions_moved hi hsession

theorem SerialManager.Consistent.setSession {live : Bool}
    (hhold : c'.holdings = { c.holdings with session := live }) :
    SerialManager.Consistent { m.moved i c' with
      sessions := Function.update m.sessions i live } := by
  obtain ⟨hclaim, hentry, hsession⟩ := Holdings.mk.inj hhold
  refine ⟨h.isLocal_moved hi hspec.isLocal, ?_,
    fun _ _ _ => h.claimOp_moved hi hspec.operationId, ?_, ?_⟩
  · exact h.claims_moved hi hspec hclaim
  · exact h.entries_moved hi hspec hentry
  · show Function.update m.sessions i live = (m.moved i c').sessionOf
    rw [sessionOf_moved hi, hsession, h.sessions]

theorem SerialManager.Consistent.apply_dropClaim {waiter : Option ℕ} {m' : SerialManager}
    (haction : action = .dropClaim waiter)
    (happly : (m.moved i c').apply i c' action = some m') :
    SerialManager.notifyOne { m.moved i c' with
      claimedPorts := Function.update m.claimedPorts c'.portName none } i waiter = some m' := by
  subst haction
  have howner : m.claimedPorts c'.portName = some ⟨c'.operationId, i⟩ := by
    rw [hspec.portName, hspec.operationId]
    exact h.claimedPorts_eq hi hspec.fits.1
  have hown : ((m.moved i c').claimedPorts c'.portName).any
      (fun owner => owner.operationId = c'.operationId) = true := by
    show (m.claimedPorts c'.portName).any _ = true
    rw [howner]
    simp
  change (m.moved i c').dropClaim i c' waiter = some m' at happly
  unfold SerialManager.dropClaim at happly
  rw [if_pos hown] at happly
  exact happly

theorem SerialManager.Consistent.apply_removePending {m' : SerialManager}
    (haction : action = .removePending)
    (happly : (m.moved i c').apply i c' action = some m') :
    m' = { m.moved i c' with
      pendingConnects := Function.update m.pendingConnects c'.operationId none } := by
  subst haction
  have howner : (m.moved i c').pendingConnects c'.operationId = some i := by
    show m.pendingConnects c'.operationId = some i
    rw [hspec.operationId]
    exact h.pendingConnects_eq hi hspec.fits.1
  change (if _ then _ else _) = some m' at happly
  rw [if_pos howner, Option.some.injEq] at happly
  exact happly.symm

theorem SerialManager.Consistent.apply {m' : SerialManager}
    (happly : (m.moved i c').apply i c' action = some m') : m'.Consistent := by
  have hsettled (hhold : c'.holdings = c.holdings) : (m.moved i c').Consistent :=
    h.settle hi hspec.isLocal hspec.operationId hspec.portName hhold
  cases action with
  | keep =>
    cases happly
    exact hsettled hspec.fits
  | emit event =>
    cases happly
    have hconsistent := hsettled hspec.fits
    exact ⟨hconsistent.isLocal, hconsistent.claims, hconsistent.claimOp, hconsistent.entries,
      hconsistent.sessions⟩
  | claimPort =>
    cases happly
    exact h.claimPort hi hspec rfl
  | dropClaim waiter =>
    exact (h.releasePort hi hspec rfl).notifyOne (h.apply_dropClaim hi hspec rfl happly)
  | removePending =>
    rw [h.apply_removePending hi hspec rfl happly]
    exact h.removePending hi hspec rfl
  | insertSession =>
    cases happly
    exact h.setSession hi hspec hspec.fits
  | removeSession =>
    cases happly
    exact h.setSession hi hspec hspec.fits
  | takePermit owner =>
    cases happly
    exact (hsettled hspec.fits).modify owner _
      (fun _ hlocal => ⟨hlocal.spawned, hlocal.onPlan⟩) (fun _ => rfl) (fun _ => rfl) fun _ => rfl
  | passOn owner waiter => exact (hsettled hspec.fits).notifyOne happly

end Actions

/-! ## Every run -/

theorem cancelNext_spec (hlocal : c.Local) (h : SerialManager.cancelNext c = some (c', action)) :
    StepOf m c c' action := by
  unfold SerialManager.cancelNext at h
  split at h
  · cases h
  · cases h
    exact ⟨rfl, rfl, ⟨hlocal.spawned, hlocal.onPlan⟩, rfl, nofun⟩

theorem perform_eq_some {next : Call → Option (Call × Action)} {m' : SerialManager}
    (h : m.perform i next = some m') :
    ∃ c c' action, m.calls[i]? = some c ∧ next c = some (c', action) ∧
      (m.moved i c').apply i c' action = some m' := by
  unfold SerialManager.perform at h
  cases hi : m.calls[i]? with
  | none =>
    rw [hi] at h
    cases h
  | some c =>
    rw [hi] at h
    dsimp only at h
    split at h
    · cases h
    · rename_i c' action hnext
      exact ⟨c, c', action, rfl, hnext, h⟩

theorem SerialManager.Consistent.perform {next : Call → Option (Call × Action)}
    {m' : SerialManager} (h : m.Consistent)
    (hnext : ∀ c c' action, c.Local → next c = some (c', action) → StepOf m c c' action)
    (hperform : m.perform i next = some m') : m'.Consistent := by
  obtain ⟨c, c', action, hi, hstep, happly⟩ := perform_eq_some hperform
  exact h.apply hi (hnext c c' action (h.isLocal i c hi) hstep) happly

theorem SerialManager.Consistent.append (h : m.Consistent) {pending : Text → Option ℕ}
    (hcaller : c.caller ≠ .spawning) (hstage : c.stage = .notSpawned)
    (hpending : Registered (Function.update m.entryOf m.calls.length c.entry) pending) :
    SerialManager.Consistent { m with calls := m.calls ++ [c], pendingConnects := pending } := by
  have hnew : m.calls[m.calls.length]? = none := List.getElem?_length _
  have hclaim : c.claim = m.claimOf m.calls.length := by
    have hholds : c.holdsClaim = false := by
      unfold Call.holdsClaim
      split
      · rename_i hspawning
        exact absurd hspawning hcaller
      · rw [hstage]; rfl
    unfold SerialManager.claimOf Call.claim
    rw [hnew, hholds]
    rfl
  refine ⟨?_, ?_, ?_, ?_, ?_⟩
  · intro j d hd
    change (m.calls ++ [c])[j]? = some d at hd
    rw [List.getElem?_append] at hd
    split at hd
    · exact h.isLocal j d hd
    · have hmem : d ∈ [c] := List.mem_of_getElem? hd
      rw [List.mem_singleton] at hmem
      subst hmem
      exact ⟨fun _ => hstage, by rw [hstage]; trivial⟩
  · show Registered (fun j => (m.calls ++ [c])[j]?.elim none Call.claim) _
    rw [elim_getElem?_append, hclaim]
    show Registered (Function.update m.claimOf _ _) _
    rw [Function.update_eq_self]
    exact h.claims
  · intro portName owner d howner hd
    -- the owner is an earlier call
    have hheld := (h.claims owner.released portName).mpr (by
      show (m.claimedPorts portName).map _ = _
      rw [show m.claimedPorts portName = some owner from howner]
      rfl)
    have hlt : owner.released < m.calls.length := by
      rw [← not_le]
      intro hle
      unfold SerialManager.claimOf at hheld
      rw [List.getElem?_eq_none hle] at hheld
      cases hheld
    change (m.calls ++ [c])[owner.released]? = some d at hd
    rw [List.getElem?_append_left hlt] at hd
    exact h.claimOp portName owner d howner hd
  · show Registered (fun j => (m.calls ++ [c])[j]?.elim none Call.entry) _
    rw [elim_getElem?_append]
    exact hpending
  · show m.sessions = fun j => (m.calls ++ [c])[j]?.elim false _
    rw [elim_getElem?_append, hstage]
    have hself : Stage.notSpawned.inSessions = m.sessionOf m.calls.length := by
      unfold SerialManager.sessionOf
      rw [hnew]
      rfl
    rw [hself]
    exact h.sessions.trans (Function.update_eq_self _ _).symm

theorem SerialManager.Consistent.connect (h : m.Consistent) (operationId : Text)
    (profile : SerialProfile) : (m.connect operationId profile).Consistent := by
  have hfresh : m.entryOf m.calls.length = none := by
    unfold SerialManager.entryOf
    rw [List.getElem?_length]
    rfl
  have hrefused (err : EngineError) : SerialManager.Consistent { m with calls := m.calls ++
      [{ operationId, portName := profile.portName, caller := .returned (.error err) }] } := by
    refine h.append nofun rfl ?_
    show Registered (Function.update m.entryOf m.calls.length none) _
    rw [← hfresh, Function.update_eq_self]
    exact h.entries
  unfold SerialManager.connect
  split
  · exact hrefused _
  · split
    · exact hrefused _
    · split
      · exact hrefused _
      · rename_i hfree
        rw [Option.not_isSome_iff_eq_none] at hfree
        exact h.append nofun rfl (h.entries.enter hfresh hfree)

theorem consistent_step {s : SerialStep} {m' : SerialManager} (h : m.Consistent)
    (hstep : m.step s = some m') : m'.Consistent := by
  cases s with
  | connect operationId profile =>
    cases hstep
    exact h.connect operationId profile
  | caller i event => exact h.perform (fun _ _ _ => callerNext_spec) hstep
  | task i event => exact h.perform (fun _ _ _ => taskNext_spec) hstep
  | cancelLookup operationId =>
    unfold SerialManager.step at hstep
    dsimp only at hstep
    split at hstep
    · cases hstep
      exact h
    · cases hstep
      exact h.modify _ _ (fun _ hlocal => ⟨hlocal.spawned, hlocal.onPlan⟩) (fun _ => rfl)
        (fun _ => rfl) fun _ => rfl
  | cancelMark i => exact h.perform (fun _ _ _ => cancelNext_spec) hstep

theorem consistent_newManager : newManager.Consistent where
  isLocal i c hi := by cases hi
  claims i k := ⟨fun h => (by cases h), fun h => (by cases h)⟩
  claimOp portName owner c h := by cases h
  entries i k := ⟨fun h => (by cases h), fun h => (by cases h)⟩
  sessions := rfl

theorem consistent_of_reachable (h : serialManager.Reachable m) : m.Consistent := by
  refine h.induct ?_ ?_
  · rintro _ rfl
    exact consistent_newManager
  · intro _ _ _ _ hconsistent hstep
    exact consistent_step hconsistent hstep

/-! ## Nothing stale -/

/-- The call has returned, and its task has ended or was never spawned. -/
def Call.isOver (c : Call) : Bool :=
  match c.caller, c.stage with
  | .returned _, .notSpawned | .returned _, .leaving _ [] => true
  | _, _ => false

theorem Call.holdings_of_isOver (h : c.isOver = true) : c.holdings = ⟨false, false, false⟩ := by
  obtain ⟨operationId, portName, cancelled, notified, released, caller, stage⟩ := c
  unfold isOver at h
  dsimp only at h
  split at h
  · rfl
  · rfl
  · cases h

/-- The maps speak of calls that are under way. -/
structure SerialManager.NothingStale (m : SerialManager) : Prop where
  claims : ∀ portName owner, m.claimedPorts portName = some owner →
    ∃ c, m.calls[owner.released]? = some c ∧ c.portName = portName ∧ c.isOver = false
  entries : ∀ operationId i, m.pendingConnects operationId = some i →
    ∃ c, m.calls[i]? = some c ∧ c.operationId = operationId ∧ c.isOver = false
  sessions : ∀ i, m.sessions i = true → ∃ c, m.calls[i]? = some c ∧ c.isOver = false

/-- What a call has keeps it from being over. -/
theorem Call.isOver_of_holds (held : Holdings → Bool) (hnone : held ⟨false, false, false⟩ = false)
    (h : held c.holdings = true) : c.isOver = false := by
  refine Bool.eq_false_iff.mpr fun hover => ?_
  rw [holdings_of_isOver hover, hnone] at h
  cases h

/-- **Nothing is left behind** by a call that is over, in any run of any calls. -/
theorem nothingStale_of_reachable (h : serialManager.Reachable m) : m.NothingStale := by
  have hconsistent := consistent_of_reachable h
  refine ⟨fun portName owner howner => ?_, fun operationId i hentry => ?_, fun i hsession => ?_⟩
  · have hheld := (hconsistent.claims owner.released portName).mpr
      (congrArg (Option.map (·.released)) howner)
    obtain ⟨c, hget, hclaim⟩ := exists_of_elim_eq hheld nofun
    obtain ⟨hholds, hport⟩ := Option.ite_none_right_eq_some.mp hclaim
    exact ⟨c, hget, Option.some.inj hport, Call.isOver_of_holds Holdings.claim rfl hholds⟩
  · obtain ⟨c, hget, hentry⟩ :=
      exists_of_elim_eq ((hconsistent.entries i operationId).mpr hentry) nofun
    obtain ⟨hlisted, hid⟩ := Option.ite_none_right_eq_some.mp hentry
    exact ⟨c, hget, Option.some.inj hid, Call.isOver_of_holds Holdings.entry rfl hlisted⟩
  · rw [hconsistent.sessions] at hsession
    obtain ⟨c, hget, hin⟩ := exists_of_elim_eq hsession Bool.false_ne_true
    exact ⟨c, hget, Call.isOver_of_holds Holdings.session rfl hin⟩

theorem nothingStale_of_reachable_connect : ∃ m : SerialManager, m.NothingStale ∧
    m.pendingConnects ['a'] = some 0 :=
  ⟨_, nothingStale_of_reachable ((Machine.Reachable.init rfl).step
    (a := .connect ['a'] ⟨['p'], 9600⟩) rfl), rfl⟩

end FluxTerm.Serial
