import FluxTerm.Lib.Machine

/-!
# FluxTerm — the gate of terminal creation

`createTerminalCreationGate` in `src/features/terminal/core/runtimeLifecycle.ts`. A request loads
the modules in a job of its own, and what it does later depends on whether it is still the pending
one of its session.

* **`Orderly`** — what a step may do; **`gate_orderly`** — every step of every run does no more.

How many calls a request has made of `load` and `create` is recorded with it, and whether it has
been cancelled. What `isLive` and `getContainer` return is up to the step; they only read.
-/

namespace FluxTerm.Terminal.CreationGate

open FluxTerm.Lib

/-- Where the promise of a request is. -/
inductive Phase where
  /-- The job that calls `load` is queued. -/
  | queued
  | loading
  /-- The job that may call `create` is queued. -/
  | loaded
  /-- The job of `finally` is queued, after a failure or not. -/
  | finishing
  | settled
deriving DecidableEq

structure Request (σ : Type) where
  session : σ
  phase : Phase
  cancelled : Bool
  loads : ℕ
  creates : ℕ

structure Gate (σ : Type) where
  pending : σ → Option ℕ
  requests : List (Request σ)

/-- What may happen next. A request is named by its position. -/
inductive Action (σ : Type) where
  | ensure (sessionId : σ)
  | cancel (sessionId : σ)
  | clear
  /-- The first job; `load` may throw. -/
  | load (request : ℕ) (throws : Bool)
  /-- The promise that `load` returned is fulfilled or rejected. -/
  | loaded (request : ℕ) (fulfilled : Bool)
  /-- The second job. Whether `create` throws makes no difference to the gate. -/
  | resume (request : ℕ) (isLive container : Bool)
  /-- The job of `finally`. -/
  | settle (request : ℕ)

variable {σ : Type}

namespace Gate

def start : Gate σ := ⟨fun _ => none, []⟩

def forget (gate : Gate σ) (hit : σ → Bool) : Gate σ where
  pending sessionId := if hit sessionId then none else gate.pending sessionId
  requests := gate.requests.mapIdx fun index request =>
    if hit request.session ∧ gate.pending request.session = some index then
      { request with cancelled := true }
    else request

def put (gate : Gate σ) (index : ℕ) (request : Request σ) : Gate σ :=
  { gate with requests := gate.requests.set index request }

/-- Whether the second job of a request calls `create`. -/
def creates (gate : Gate σ) (index : ℕ) (request : Request σ) (isLive container : Bool) : Bool :=
  if gate.pending request.session ≠ some index || !isLive then false else container

end Gate

/-- One call or one job. -/
def step [DecidableEq σ] (gate : Gate σ) : Action σ → Option (Gate σ)
  | .ensure sessionId =>
    match gate.pending sessionId with
    | some _ => some gate
    | none => some {
        pending := Function.update gate.pending sessionId (some gate.requests.length)
        requests := gate.requests ++ [⟨sessionId, .queued, false, 0, 0⟩] }
  | .cancel sessionId => some (gate.forget (· = sessionId))
  | .clear => some (gate.forget fun _ => true)
  | .load index throws =>
    match gate.requests[index]? with
    | some request =>
      if request.phase = .queued then some (gate.put index { request with
        phase := if throws then .finishing else .loading
        loads := request.loads + 1 })
      else none
    | none => none
  | .loaded index fulfilled =>
    match gate.requests[index]? with
    | some request =>
      if request.phase = .loading then
        some (gate.put index { request with phase := if fulfilled then .loaded else .finishing })
      else none
    | none => none
  | .resume index isLive container =>
    match gate.requests[index]? with
    | some request =>
      if request.phase = .loaded then some (gate.put index { request with
        phase := .finishing
        creates := request.creates +
          if gate.creates index request isLive container then 1 else 0 })
      else none
    | none => none
  | .settle index =>
    match gate.requests[index]? with
    | some request =>
      if request.phase = .finishing then some {
        pending := if gate.pending request.session = some index then
          Function.update gate.pending request.session none else gate.pending
        requests := gate.requests.set index { request with phase := .settled } }
      else none
    | none => none

def gateMachine (σ : Type) [DecidableEq σ] : Machine (Gate σ) (Action σ) := .ofStep .start step

/-! ## What is kept -/

/-- What holds in every run. -/
structure Kept (gate : Gate σ) : Prop where
  pending : ∀ sessionId index, gate.pending sessionId = some index ↔
    ∃ request, gate.requests[index]? = some request ∧ request.session = sessionId ∧
      request.cancelled = false ∧ request.phase ≠ .settled
  latest : ∀ sessionId index other request, gate.pending sessionId = some index →
    gate.requests[other]? = some request → request.session = sessionId → other ≤ index
  loads : ∀ request ∈ gate.requests, request.loads = if request.phase = .queued then 0 else 1
  creates : ∀ request ∈ gate.requests, request.creates ≤ 1 ∧
    (request.phase = .queued ∨ request.phase = .loading ∨ request.phase = .loaded →
      request.creates = 0)

variable {gate gate' : Gate σ}

theorem kept_start : Kept (Gate.start : Gate σ) where
  pending _ _ := ⟨nofun, fun ⟨_, h, _⟩ => nomatch h⟩
  latest _ _ _ _ := nofun
  loads _ h := absurd h List.not_mem_nil
  creates _ h := absurd h List.not_mem_nil

theorem Kept.put {index : ℕ} {request next : Request σ} (hkept : Kept gate)
    (hrequest : gate.requests[index]? = some request) (hsession : next.session = request.session)
    (hcancelled : next.cancelled = request.cancelled) (hphase : request.phase ≠ .settled)
    (hnext : next.phase ≠ .settled)
    (hloads : next.loads = if next.phase = .queued then 0 else 1)
    (hcreates : next.creates ≤ 1 ∧
      (next.phase = .queued ∨ next.phase = .loading ∨ next.phase = .loaded → next.creates = 0)) :
    Kept (gate.put index next) := by
  have hlt : index < gate.requests.length := (List.getElem?_eq_some_iff.mp hrequest).1
  have hget : (gate.requests.set index next)[index]? = some next := by
    rw [List.getElem?_set_self hlt]
  refine ⟨fun sessionId other => ?_, fun sessionId pending other seen hpending hseen hsame => ?_,
    fun seen hseen => ?_, fun seen hseen => ?_⟩
  · refine (hkept.pending sessionId other).trans ?_
    by_cases hother : index = other
    · subst hother
      constructor
      · rintro ⟨seen, hseen, hsame, hopen, -⟩
        obtain rfl := Option.some.inj (hrequest.symm.trans hseen)
        exact ⟨next, hget, hsession.trans hsame, hcancelled.trans hopen, hnext⟩
      · rintro ⟨seen, hseen, hsame, hopen, -⟩
        obtain rfl := Option.some.inj (hget.symm.trans hseen)
        exact ⟨request, hrequest, hsession.symm.trans hsame, hcancelled.symm.trans hopen, hphase⟩
    · rw [Gate.put, List.getElem?_set_ne hother]
  · by_cases hother : index = other
    · subst hother
      obtain rfl := Option.some.inj (hget.symm.trans hseen)
      exact hkept.latest sessionId pending index request hpending hrequest (hsession ▸ hsame)
    · rw [Gate.put, List.getElem?_set_ne hother] at hseen
      exact hkept.latest sessionId pending other seen hpending hseen hsame
  · rcases List.mem_or_eq_of_mem_set hseen with hseen | rfl
    · exact hkept.loads seen hseen
    · exact hloads
  · rcases List.mem_or_eq_of_mem_set hseen with hseen | rfl
    · exact hkept.creates seen hseen
    · exact hcreates

theorem getElem?_forget (gate : Gate σ) (hit : σ → Bool) (index : ℕ) :
    (gate.forget hit).requests[index]? = gate.requests[index]?.map fun request =>
      if hit request.session ∧ gate.pending request.session = some index then
        { request with cancelled := true } else request := List.getElem?_mapIdx

theorem mem_forget {hit : σ → Bool} {seen : Request σ} (h : seen ∈ (gate.forget hit).requests) :
    ∃ request ∈ gate.requests, seen.session = request.session ∧ seen.phase = request.phase ∧
      seen.loads = request.loads ∧ seen.creates = request.creates := by
  obtain ⟨index, hindex⟩ := List.getElem?_of_mem h
  rw [getElem?_forget] at hindex
  obtain ⟨request, hrequest, rfl⟩ := Option.map_eq_some_iff.mp hindex
  refine ⟨request, List.mem_of_getElem? hrequest, ?_⟩
  split <;> exact ⟨rfl, rfl, rfl, rfl⟩

theorem Kept.forget (hkept : Kept gate) (hit : σ → Bool) : Kept (gate.forget hit) where
  pending sessionId index := by
    rw [getElem?_forget]
    constructor
    · intro hpending
      unfold Gate.forget at hpending
      dsimp only at hpending
      split at hpending
      · cases hpending
      · rename_i hmiss
        obtain ⟨request, hrequest, rfl, hopen, hphase⟩ := (hkept.pending _ _).mp hpending
        refine ⟨request, ?_, rfl, hopen, hphase⟩
        rw [hrequest, Option.map_some, if_neg fun h => hmiss h.1]
    · rintro ⟨seen, hseen, rfl, hopen, hphase⟩
      obtain ⟨request, hrequest, rfl⟩ := Option.map_eq_some_iff.mp hseen
      split at hopen
      · cases hopen
      · rename_i hmiss
        rw [if_neg hmiss] at hphase ⊢
        have hpending := (hkept.pending _ _).mpr ⟨request, hrequest, rfl, hopen, hphase⟩
        unfold Gate.forget
        dsimp only
        rw [if_neg fun h => hmiss ⟨h, hpending⟩]
        exact hpending
  latest sessionId index other seen hpending hseen hsession := by
    unfold Gate.forget at hpending
    dsimp only at hpending
    split at hpending
    · cases hpending
    · rw [getElem?_forget] at hseen
      obtain ⟨request, hrequest, rfl⟩ := Option.map_eq_some_iff.mp hseen
      refine hkept.latest sessionId index other request hpending hrequest ?_
      split at hsession <;> exact hsession
  loads seen hseen := by
    obtain ⟨request, hrequest, -, hphase, hloads, -⟩ := mem_forget hseen
    rw [hloads, hphase]
    exact hkept.loads request hrequest
  creates seen hseen := by
    obtain ⟨request, hrequest, -, hphase, -, hcreates⟩ := mem_forget hseen
    rw [hcreates, hphase]
    exact hkept.creates request hrequest

theorem Kept.ensure [DecidableEq σ] (hkept : Kept gate) {sessionId : σ}
    (hnone : gate.pending sessionId = none) :
    Kept ⟨Function.update gate.pending sessionId (some gate.requests.length),
      gate.requests ++ [⟨sessionId, .queued, false, 0, 0⟩]⟩ where
  pending other index := by
    dsimp only
    by_cases hother : other = sessionId
    · subst hother
      rw [Function.update_self, Option.some.injEq]
      constructor
      · rintro rfl
        exact ⟨_, List.getElem?_concat_length, rfl, rfl, nofun⟩
      · rintro ⟨request, hrequest, hsession, hopen, hphase⟩
        by_contra hne
        -- an older request would be pending
        have hlt : index < gate.requests.length := by
          have := (List.getElem?_eq_some_iff.mp hrequest).1
          rw [List.length_append, List.length_singleton] at this
          omega
        rw [List.getElem?_append_left hlt] at hrequest
        have hpending := (hkept.pending _ _).mpr ⟨request, hrequest, hsession, hopen, hphase⟩
        rw [hnone] at hpending
        cases hpending
    · rw [Function.update_of_ne hother, hkept.pending]
      refine exists_congr fun request => ?_
      by_cases hlt : index < gate.requests.length
      · rw [List.getElem?_append_left hlt]
      · rw [List.getElem?_eq_none (Nat.le_of_not_lt hlt)]
        refine ⟨fun h => (nomatch h.1), fun ⟨hrequest, hsession, _⟩ => ?_⟩
        rw [List.getElem?_append_right (Nat.le_of_not_lt hlt), List.getElem?_singleton] at hrequest
        split at hrequest
        · cases hrequest
          exact absurd hsession.symm hother
        · cases hrequest
  latest other index seen request hpending hrequest hsession := by
    dsimp only at hpending hrequest
    have hbound := (List.getElem?_eq_some_iff.mp hrequest).1
    rw [List.length_append, List.length_singleton] at hbound
    by_cases hother : other = sessionId
    · subst hother
      rw [Function.update_self, Option.some.injEq] at hpending
      omega
    · rw [Function.update_of_ne hother] at hpending
      by_cases hlt : seen < gate.requests.length
      · rw [List.getElem?_append_left hlt] at hrequest
        exact hkept.latest other index seen request hpending hrequest hsession
      · rw [List.getElem?_append_right (Nat.le_of_not_lt hlt), List.getElem?_singleton] at hrequest
        split at hrequest
        · cases hrequest
          exact absurd hsession.symm hother
        · cases hrequest
  loads request hrequest := by
    rcases List.mem_append.mp hrequest with hrequest | hrequest
    · exact hkept.loads request hrequest
    · rw [List.mem_singleton.mp hrequest]
      rfl
  creates request hrequest := by
    rcases List.mem_append.mp hrequest with hrequest | hrequest
    · exact hkept.creates request hrequest
    · rw [List.mem_singleton.mp hrequest]
      exact ⟨Nat.zero_le _, fun _ => rfl⟩

section Settle

variable [DecidableEq σ] {index : ℕ} {request : Request σ}

def settledPending (gate : Gate σ) (index : ℕ) (request : Request σ) : σ → Option ℕ :=
  if gate.pending request.session = some index then
    Function.update gate.pending request.session none else gate.pending

theorem Kept.settledPending_eq (hkept : Kept gate) (hrequest : gate.requests[index]? = some request)
    (sessionId : σ) : settledPending gate index request sessionId =
      if gate.pending sessionId = some index then none else gate.pending sessionId := by
  have hsession : gate.pending sessionId = some index → sessionId = request.session := by
    intro hpending
    obtain ⟨seen, hseen, hsession, -⟩ := (hkept.pending _ _).mp hpending
    rw [hrequest] at hseen
    cases hseen
    exact hsession.symm
  unfold settledPending
  by_cases hown : gate.pending request.session = some index
  · rw [if_pos hown]
    by_cases hsame : sessionId = request.session
    · rw [hsame, Function.update_self, if_pos hown]
    · rw [Function.update_of_ne hsame, if_neg fun h => hsame (hsession h)]
  · rw [if_neg hown]
    by_cases hsame : gate.pending sessionId = some index
    · rw [hsession hsame] at hsame
      exact absurd hsame hown
    · rw [if_neg hsame]

theorem Kept.settle (hkept : Kept gate) (hrequest : gate.requests[index]? = some request)
    (hphase : request.phase = .finishing) :
    Kept ⟨settledPending gate index request,
      gate.requests.set index { request with phase := .settled }⟩ := by
  have hlt : index < gate.requests.length := (List.getElem?_eq_some_iff.mp hrequest).1
  have hmem : request ∈ gate.requests := List.mem_of_getElem? hrequest
  refine ⟨fun sessionId other => ?_, fun sessionId pending other seen hpending hseen hsame => ?_,
    fun seen hseen => ?_, fun seen hseen => ?_⟩
  · dsimp only
    rw [hkept.settledPending_eq hrequest]
    by_cases hother : index = other
    · subst hother
      rw [List.getElem?_set_self hlt]
      constructor
      · intro h
        split at h
        · cases h
        · rename_i hmiss
          exact absurd h hmiss
      · rintro ⟨seen, hseen, -, -, hopen⟩
        cases hseen
        exact absurd rfl hopen
    · rw [List.getElem?_set_ne hother, ← hkept.pending]
      split
      · rename_i hown
        rw [hown]
        exact ⟨nofun, fun h => absurd (Option.some.inj h) hother⟩
      · exact Iff.rfl
  · dsimp only at hpending hseen
    rw [hkept.settledPending_eq hrequest] at hpending
    split at hpending
    · cases hpending
    · by_cases hother : index = other
      · subst hother
        rw [List.getElem?_set_self hlt] at hseen
        cases hseen
        exact hkept.latest sessionId pending index request hpending hrequest hsame
      · rw [List.getElem?_set_ne hother] at hseen
        exact hkept.latest sessionId pending other seen hpending hseen hsame
  · rcases List.mem_or_eq_of_mem_set hseen with hseen | rfl
    · exact hkept.loads seen hseen
    · have hloads := hkept.loads request hmem
      rw [hphase] at hloads
      exact hloads
  · rcases List.mem_or_eq_of_mem_set hseen with hseen | rfl
    · exact hkept.creates seen hseen
    · exact ⟨(hkept.creates request hmem).1, nofun⟩

end Settle

/-! ## What a step may do -/

/-- A step calls `create` for the pending request of a live session only, it starts the load of a
request once, while another one is pending only if the request was made earlier and cancelled, and
it deletes no entry of another request. -/
structure Orderly (gate : Gate σ) (action : Action σ) (gate' : Gate σ) : Prop where
  create : ∀ (index : ℕ) (before after : Request σ), gate.requests[index]? = some before →
    gate'.requests[index]? = some after → after.creates ≠ before.creates →
    before.creates = 0 ∧ after.creates = 1 ∧ gate.pending before.session = some index ∧
      action = .resume index true true
  load : ∀ (index : ℕ) (before after : Request σ), gate.requests[index]? = some before →
    gate'.requests[index]? = some after → after.loads ≠ before.loads →
    before.loads = 0 ∧ after.loads = 1 ∧ ∀ pending, gate.pending before.session = some pending →
      pending = index ∨ index < pending ∧ before.cancelled = true
  ensure : ∀ (sessionId : σ) (pending : ℕ), action = .ensure sessionId →
    gate.pending sessionId = some pending → gate' = gate
  entry : ∀ (sessionId : σ) (pending : ℕ), gate.pending sessionId = some pending →
    gate'.pending sessionId = some pending ∨ action = .cancel sessionId ∨ action = .clear ∨
      action = .settle pending

theorem put_cases {index other : ℕ} {next before after : Request σ}
    (hbefore : gate.requests[other]? = some before)
    (hafter : (gate.requests.set index next)[other]? = some after) :
    (index = other ∧ after = next) ∨ after = before := by
  by_cases hother : index = other
  · subst hother
    rw [List.getElem?_set_self (List.getElem?_eq_some_iff.mp hbefore).1] at hafter
    exact .inl ⟨rfl, (Option.some.inj hafter).symm⟩
  · rw [List.getElem?_set_ne hother, hbefore] at hafter
    exact .inr (Option.some.inj hafter).symm

theorem orderly_forget {action : Action σ} {hit : σ → Bool} (hother : ∀ sessionId, hit sessionId = true →
      action = .cancel sessionId ∨ action = .clear)
    (hensure : ∀ sessionId, action ≠ .ensure sessionId) :
    Orderly gate action (gate.forget hit) := by
  have hcounts : ∀ (index : ℕ) (before after : Request σ), gate.requests[index]? = some before →
      (gate.forget hit).requests[index]? = some after →
      after.creates = before.creates ∧ after.loads = before.loads := by
    intro index before after hbefore hafter
    rw [getElem?_forget, hbefore, Option.map_some, Option.some.injEq] at hafter
    rw [← hafter]
    split <;> exact ⟨rfl, rfl⟩
  refine ⟨fun index before after hbefore hafter hne => ?_,
    fun index before after hbefore hafter hne => ?_,
    fun sessionId _ h _ => absurd h (hensure sessionId), fun sessionId pending hpending => ?_⟩
  · exact absurd (hcounts index before after hbefore hafter).1 hne
  · exact absurd (hcounts index before after hbefore hafter).2 hne
  · by_cases hhit : hit sessionId = true
    · exact .inr ((hother sessionId hhit).imp id .inl)
    · left
      unfold Gate.forget
      dsimp only
      rw [if_neg hhit, hpending]

/-! ## Steps -/

section Steps

variable [DecidableEq σ] {action : Action σ}

/-- What a step does. -/
inductive Stepped (gate : Gate σ) : Action σ → Gate σ → Prop
  | merged {sessionId : σ} {index : ℕ} (h : gate.pending sessionId = some index) :
      Stepped gate (.ensure sessionId) gate
  | made {sessionId : σ} (h : gate.pending sessionId = none) :
      Stepped gate (.ensure sessionId)
        ⟨Function.update gate.pending sessionId (some gate.requests.length),
          gate.requests ++ [⟨sessionId, .queued, false, 0, 0⟩]⟩
  | cancel (sessionId : σ) : Stepped gate (.cancel sessionId) (gate.forget (· = sessionId))
  | clear : Stepped gate .clear (gate.forget fun _ => true)
  | load {index : ℕ} {request : Request σ} (hrequest : gate.requests[index]? = some request)
      (hphase : request.phase = .queued) (throws : Bool) :
      Stepped gate (.load index throws) (gate.put index { request with
        phase := if throws then .finishing else .loading
        loads := request.loads + 1 })
  | loaded {index : ℕ} {request : Request σ} (hrequest : gate.requests[index]? = some request)
      (hphase : request.phase = .loading) (fulfilled : Bool) :
      Stepped gate (.loaded index fulfilled) (gate.put index { request with
        phase := if fulfilled then .loaded else .finishing })
  | resume {index : ℕ} {request : Request σ} (hrequest : gate.requests[index]? = some request)
      (hphase : request.phase = .loaded) (isLive container : Bool) :
      Stepped gate (.resume index isLive container) (gate.put index { request with
        phase := .finishing
        creates := request.creates +
          if gate.creates index request isLive container then 1 else 0 })
  | settle {index : ℕ} {request : Request σ} (hrequest : gate.requests[index]? = some request)
      (hphase : request.phase = .finishing) :
      Stepped gate (.settle index) ⟨settledPending gate index request,
        gate.requests.set index { request with phase := .settled }⟩

theorem stepped_of_step (h : step gate action = some gate') : Stepped gate action gate' := by
  cases action with
  | ensure sessionId =>
    unfold step at h
    dsimp only at h
    split at h
    · rename_i hpending
      cases h
      exact .merged hpending
    · rename_i hpending
      cases h
      exact .made hpending
  | cancel sessionId =>
    cases h
    exact .cancel sessionId
  | clear =>
    cases h
    exact .clear
  | load index throws =>
    unfold step at h
    dsimp only at h
    split at h
    · rename_i hrequest
      split at h
      · rename_i hphase
        cases h
        exact .load hrequest hphase throws
      · cases h
    · cases h
  | loaded index fulfilled =>
    unfold step at h
    dsimp only at h
    split at h
    · rename_i hrequest
      split at h
      · rename_i hphase
        cases h
        exact .loaded hrequest hphase fulfilled
      · cases h
    · cases h
  | resume index isLive container =>
    unfold step at h
    dsimp only at h
    split at h
    · rename_i hrequest
      split at h
      · rename_i hphase
        cases h
        exact .resume hrequest hphase isLive container
      · cases h
    · cases h
  | settle index =>
    unfold step at h
    dsimp only at h
    split at h
    · rename_i hrequest
      split at h
      · rename_i hphase
        cases h
        exact .settle hrequest hphase
      · cases h
    · cases h

theorem Kept.step (hkept : Kept gate) (h : Stepped gate action gate') : Kept gate' := by
  cases h with
  | merged => exact hkept
  | made hnone => exact hkept.ensure hnone
  | cancel sessionId => exact hkept.forget _
  | clear => exact hkept.forget _
  | @load index request hrequest hphase throws =>
    have hmem := List.mem_of_getElem? hrequest
    have hloads := hkept.loads request hmem
    have hcreates := (hkept.creates request hmem).2 (.inl hphase)
    rw [if_pos hphase] at hloads
    refine hkept.put hrequest rfl rfl (by rw [hphase]; nofun) ?_ ?_ ?_
    · cases throws <;> nofun
    · rw [hloads]
      cases throws <;> rfl
    · exact ⟨Nat.le_trans (Nat.le_of_eq hcreates) (Nat.zero_le _), fun _ => hcreates⟩
  | @loaded index request hrequest hphase fulfilled =>
    have hmem := List.mem_of_getElem? hrequest
    have hloads := hkept.loads request hmem
    have hcreates := (hkept.creates request hmem).2 (.inr (.inl hphase))
    rw [if_neg (by rw [hphase]; nofun)] at hloads
    refine hkept.put hrequest rfl rfl (by rw [hphase]; nofun) ?_ ?_ ?_
    · cases fulfilled <;> nofun
    · rw [hloads]
      cases fulfilled <;> rfl
    · exact ⟨Nat.le_trans (Nat.le_of_eq hcreates) (Nat.zero_le _), fun _ => hcreates⟩
  | @resume index request hrequest hphase isLive container =>
    have hmem := List.mem_of_getElem? hrequest
    have hloads := hkept.loads request hmem
    have hcreates := (hkept.creates request hmem).2 (.inr (.inr hphase))
    rw [if_neg (by rw [hphase]; nofun)] at hloads
    refine hkept.put hrequest rfl rfl (by rw [hphase]; nofun) nofun hloads ⟨?_, nofun⟩
    dsimp only
    rw [hcreates]
    split <;> decide
  | settle hrequest hphase => exact hkept.settle hrequest hphase

theorem kept_of_reachable (h : (gateMachine σ).Reachable gate) : Kept gate :=
  h.induct (I := Kept) (fun _ hinit => hinit ▸ kept_start)
    fun _ _ _ _ hkept hstep => hkept.step (stepped_of_step hstep)

theorem Kept.orderly (hkept : Kept gate) (h : Stepped gate action gate') :
    Orderly gate action gate' := by
  cases h with
  | @merged sessionId pending hpending =>
    refine ⟨fun index before after hbefore hafter hne => ?_,
      fun index before after hbefore hafter hne => ?_, fun _ _ _ _ => rfl, fun _ _ h => .inl h⟩
    · exact absurd (congrArg Request.creates (Option.some.inj (hafter.symm.trans hbefore))) hne
    · exact absurd (congrArg Request.loads (Option.some.inj (hafter.symm.trans hbefore))) hne
  | @made sessionId hnone =>
    have hold : ∀ (index : ℕ) (before after : Request σ), gate.requests[index]? = some before →
        (gate.requests ++ [⟨sessionId, .queued, false, 0, 0⟩])[index]? = some after →
        after = before := by
      intro index before after hbefore hafter
      rw [List.getElem?_append_left (List.getElem?_eq_some_iff.mp hbefore).1, hbefore] at hafter
      exact (Option.some.inj hafter).symm
    refine ⟨fun index before after hbefore hafter hne => ?_,
      fun index before after hbefore hafter hne => ?_, fun other pending heq hpending => ?_,
      fun other pending hpending => ?_⟩
    · exact absurd (congrArg Request.creates (hold index before after hbefore hafter)) hne
    · exact absurd (congrArg Request.loads (hold index before after hbefore hafter)) hne
    · cases heq
      rw [hnone] at hpending
      cases hpending
    · left
      dsimp only
      rw [Function.update_of_ne, hpending]
      rintro rfl
      rw [hnone] at hpending
      cases hpending
  | cancel sessionId =>
    exact orderly_forget (fun other hother => .inl (by rw [of_decide_eq_true hother])) nofun
  | clear => exact orderly_forget (fun _ _ => .inr rfl) nofun
  | @load index request hrequest hphase throws =>
    refine ⟨fun other before after hbefore hafter hne => ?_,
      fun other before after hbefore hafter hne => ?_, nofun, fun _ _ h => .inl h⟩
    · rcases put_cases hbefore hafter with ⟨rfl, rfl⟩ | rfl
      · rw [hrequest] at hbefore
        cases hbefore
        exact absurd rfl hne
      · exact absurd rfl hne
    · rcases put_cases hbefore hafter with ⟨rfl, rfl⟩ | rfl
      · rw [hrequest] at hbefore
        cases hbefore
        have hloads := hkept.loads request (List.mem_of_getElem? hrequest)
        rw [if_pos hphase] at hloads
        refine ⟨hloads, by rw [hloads], fun pending hpending => ?_⟩
        by_cases hown : pending = index
        · exact .inl hown
        · have hle := hkept.latest _ pending index request hpending hrequest rfl
          refine .inr ⟨Nat.lt_of_le_of_ne hle (Ne.symm hown), ?_⟩
          -- a request that is not cancelled would be the pending one
          cases hcancelled : request.cancelled with
          | true => rfl
          | false =>
            have hself := (hkept.pending _ _).mpr
              ⟨request, hrequest, rfl, hcancelled, by rw [hphase]; nofun⟩
            exact absurd (Option.some.inj (hpending.symm.trans hself)) hown
      · exact absurd rfl hne
  | @loaded index request hrequest hphase fulfilled =>
    refine ⟨fun other before after hbefore hafter hne => ?_,
      fun other before after hbefore hafter hne => ?_, nofun, fun _ _ h => .inl h⟩
    all_goals
      rcases put_cases hbefore hafter with ⟨rfl, rfl⟩ | rfl
      · rw [hrequest] at hbefore
        cases hbefore
        exact absurd rfl hne
      · exact absurd rfl hne
  | @resume index request hrequest hphase isLive container =>
    refine ⟨fun other before after hbefore hafter hne => ?_,
      fun other before after hbefore hafter hne => ?_, nofun, fun _ _ h => .inl h⟩
    · rcases put_cases hbefore hafter with ⟨rfl, rfl⟩ | rfl
      · rw [hrequest] at hbefore
        cases hbefore
        have hcreates := (hkept.creates request (List.mem_of_getElem? hrequest)).2
          (.inr (.inr hphase))
        dsimp only at hne ⊢
        cases hcall : gate.creates index request isLive container with
        | false =>
          rw [hcall] at hne
          exact absurd rfl hne
        | true =>
          unfold Gate.creates at hcall
          split at hcall
          · cases hcall
          · rename_i hallowed
            rw [Bool.or_eq_true, not_or, decide_eq_true_eq, not_not, Bool.not_eq_true',
              Bool.not_eq_false] at hallowed
            rw [hcreates, hallowed.2, hcall]
            exact ⟨rfl, rfl, hallowed.1, rfl⟩
      · exact absurd rfl hne
    · rcases put_cases hbefore hafter with ⟨rfl, rfl⟩ | rfl
      · rw [hrequest] at hbefore
        cases hbefore
        exact absurd rfl hne
      · exact absurd rfl hne
  | @settle index request hrequest hphase =>
    refine ⟨fun other before after hbefore hafter hne => ?_,
      fun other before after hbefore hafter hne => ?_, nofun, fun sessionId pending hpending => ?_⟩
    · rcases put_cases hbefore hafter with ⟨rfl, rfl⟩ | rfl
      · rw [hrequest] at hbefore
        cases hbefore
        exact absurd rfl hne
      · exact absurd rfl hne
    · rcases put_cases hbefore hafter with ⟨rfl, rfl⟩ | rfl
      · rw [hrequest] at hbefore
        cases hbefore
        exact absurd rfl hne
      · exact absurd rfl hne
    · by_cases hown : pending = index
      · exact .inr (.inr (.inr (by rw [hown])))
      · left
        dsimp only
        rw [hkept.settledPending_eq hrequest, if_neg, hpending]
        rw [hpending]
        exact fun h => hown (Option.some.inj h)

/-- **In every run** a request calls `load` and `create` at most once, and every step is orderly. -/
theorem gate_orderly (h : (gateMachine σ).Reachable gate) :
    (∀ request ∈ gate.requests, request.loads ≤ 1 ∧ request.creates ≤ 1) ∧
      ∀ (action : Action σ) (gate' : Gate σ), step gate action = some gate' →
        Orderly gate action gate' := by
  have hkept := kept_of_reachable h
  refine ⟨fun request hrequest => ⟨?_, (hkept.creates request hrequest).1⟩,
    fun action gate' hstep => hkept.orderly (stepped_of_step hstep)⟩
  rw [hkept.loads request hrequest]
  split <;> decide

end Steps

/-! ## A session that is closed and opened again -/

def reopened : List (Action ℕ) := [.ensure 7, .cancel 7, .ensure 7]

theorem gate_orderly_reopened : ∃ gate, Machine.exec step Gate.start reopened = some gate ∧
    ∀ (action : Action ℕ) (gate' : Gate ℕ), step gate action = some gate' →
      Orderly gate action gate' := by
  have hrun : Machine.exec step Gate.start reopened = some _ := rfl
  exact ⟨_, hrun, (gate_orderly (Machine.reachable_exec hrun)).2⟩

/-- **Two loads start** while the second request is pending: that of the cancelled one, whose job
is still queued, and its own. -/
theorem reopened_loads_twice : ∃ gate first both,
    Machine.exec step Gate.start reopened = some gate ∧ gate.pending 7 = some 1 ∧
    step gate (.load 0 false) = some first ∧ step first (.load 1 false) = some both ∧
    both.pending 7 = some 1 ∧ both.requests.map (·.loads) = [1, 1] :=
  ⟨_, _, _, rfl, rfl, rfl, rfl, rfl, rfl⟩

end FluxTerm.Terminal.CreationGate
