import FluxTerm.Lib.Workers
import FluxTerm.RemoteEdit.Index
import Mathlib.Logic.Equiv.List
import Mathlib.Tactic.DeriveEncodable

/-!
# FluxTerm — the index loses no entry when its writers keep apart

* **`entriesKept_of_writesAlone`** — then every entry is kept.
* **`sampleOverlap_lost`** — two calls that load the same index, and the entry of the first is lost.
-/

namespace FluxTerm.RemoteEdit

open FluxTerm.Lib

/-! ## The condition -/

namespace IndexStage

def writes : IndexStage → Bool
  | replace .create .. => false
  | replace .. => true
  | _ => false

def atGap : IndexStage → Bool
  | replace .renameAgain .. => true
  | _ => false

def begins : IndexStage → Bool
  | replace .create .. => true
  | _ => false

end IndexStage

namespace IndexRun

variable (s : IndexRun)

def MayWrite (call : IndexCall) : Prop :=
  call.seen = s.replaced ∧ ∀ other ∈ s.calls, other.stage.writes = false

instance (call : IndexCall) : Decidable (s.MayWrite call) := inferInstanceAs (Decidable (_ ∧ _))

end IndexRun

def WritesAlone (s : IndexRun) : IndexEvent → Prop
  | .goOn k => ∀ call ∈ s.calls[k]?, call.stage.begins = true → s.MayWrite call
  | _ => True

instance (s : IndexRun) (event : IndexEvent) : Decidable (WritesAlone s event) := by
  unfold WritesAlone
  split <;> infer_instance

/-! ## The invariant -/

/-- The index has what is owed. -/
def RemoteEditIndexStore.Keeps (store : RemoteEditIndexStore)
    (owed : Text → Option RemoteEditIndexEntry) : Prop :=
  ∀ instanceId entry, owed instanceId = some entry → store.entries.get? instanceId = some entry

theorem get?_foldl_without (instanceIds : List Text) (instanceId : Text) :
    ∀ m : OrdMap Text RemoteEditIndexEntry, (instanceIds.foldl .without m).get? instanceId =
      if instanceId ∈ instanceIds then none else m.get? instanceId := by
  induction instanceIds with
  | nil => intro m; simp
  | cons first rest ih =>
    intro m
    rw [List.foldl_cons, ih, OrdMap.get?_without]
    by_cases hfirst : instanceId = first
    · simp [hfirst]
    · simp [hfirst]

theorem RemoteEditIndexStore.Keeps.apply {store : RemoteEditIndexStore}
    {owed : Text → Option RemoteEditIndexEntry} (h : store.Keeps owed) (update : IndexUpdate) :
    (update.apply store).Keeps (update.owed owed) := by
  intro instanceId entry howed
  cases update with
  | upsert new =>
    show (store.entries.insert new.instanceId new).get? instanceId = some entry
    change Function.update owed new.instanceId (some new) instanceId = some entry at howed
    rw [OrdMap.get?_insert]
    by_cases hid : instanceId = new.instanceId
    · rw [if_pos hid]
      rw [hid, Function.update_self] at howed
      exact howed
    · rw [if_neg hid]
      rw [Function.update_of_ne hid] at howed
      exact h instanceId entry howed
  | remove instanceIds =>
    show (instanceIds.foldl .without store.entries).get? instanceId = some entry
    change (if instanceId ∈ instanceIds then none else owed instanceId) = some entry at howed
    rw [get?_foldl_without]
    split at howed
    · cases howed
    · rename_i hid
      rw [if_neg hid]
      exact h instanceId entry howed

namespace IndexRun

variable {codec : IndexCodec} {copyOf : RemoteEditIndexEntry → Option Text} {s t : IndexRun}
  {call call' : IndexCall} {k : ℕ}

def Failed (s : IndexRun) : Prop := ∃ call ∈ s.calls, call.stage = .returned false

def Gap (s : IndexRun) : Prop := ∃ call ∈ s.calls, call.stage.atGap = true

def IsAfter (stage : IndexStage) : Prop :=
  stage = .copy ∨ stage = .working ∨ stage = .returned true

/-- What a call can rely on at its stage. -/
def Holds (codec : IndexCodec) (s : IndexRun) (call : IndexCall) : Prop :=
  match call.stage with
  | .prune store _ _ => call.seen = s.replaced → s.Gap ∨ store.Keeps s.owed
  | .replace .create after update store =>
    IsAfter after ∧ (call.seen = s.replaced → s.Gap ∨ store.Keeps (update.owed s.owed))
  | .replace (.write file) after update store =>
    IsAfter after ∧ s.files.tmp = some file ∧ s.files.data file = [] ∧
      store.Keeps (update.owed s.owed)
  | .replace _ after update store =>
    IsAfter after ∧ ∃ file, s.files.tmp = some file ∧
      s.files.data file = codec.toVecPretty store ∧ store.Keeps (update.owed s.owed)
  | .returned _ => 0 < s.replaced
  | _ => True

/-- The index has what is owed, or is just being replaced, or was never needed. -/
def Stored (codec : IndexCodec) (s : IndexRun) : Prop :=
  (∃ raw store, s.files.read = some raw ∧ codec.fromSlice raw = .ok store ∧ store.Keeps s.owed) ∨
    s.Gap ∨ (s.replaced = 0 ∧ ∀ instanceId, s.owed instanceId = none)

structure Orderly (codec : IndexCodec) (s : IndexRun) : Prop where
  sound : s.files.Sound
  alone : s.calls.countP (·.stage.writes) ≤ 1
  seen : ∀ call ∈ s.calls, call.seen ≤ s.replaced
  holds : ∀ call ∈ s.calls, s.Holds codec call
  stored : s.Stored codec

theorem Orderly.entriesKept (h : s.Orderly codec) : s.EntriesKept codec := by
  intro ⟨hcalls, hreturned⟩
  obtain ⟨call, hcall⟩ := List.exists_mem_of_ne_nil _ hcalls
  have hreplaced : 0 < s.replaced := by
    have := h.holds call hcall
    rw [Holds, hreturned call hcall] at this
    exact this
  rcases h.stored with ⟨raw, store, hread, hparse, hkeeps⟩ | ⟨other, hother, hgap⟩ | ⟨hzero, -⟩
  · refine ⟨store, ?_, hkeeps⟩
    rw [hread]
    exact congrArg some hparse
  · rw [hreturned other hother] at hgap
    cases hgap
  · omega

/-! ## What a step does -/

/-- A call takes a step, and the index stays. -/
structure QuietMove (codec : IndexCodec) (s t : IndexRun) (k : ℕ) (call call' : IndexCall) :
    Prop where
  moved : t.calls = s.calls.set k call'
  files : t.files = s.files
  owed : t.owed = s.owed
  replaced : t.replaced = s.replaced
  gap : call.stage.atGap = false
  gap' : call'.stage.atGap = false
  writes : call.stage.writes = call'.stage.writes
  seen : s.Orderly codec → call'.seen ≤ s.replaced
  holds : s.Orderly codec → s.Holds codec call'

/-- The only writer takes a step, or a call becomes it. -/
structure WriterMove (codec : IndexCodec) (s t : IndexRun) (k : ℕ) (call call' : IndexCall) :
    Prop where
  moved : t.calls = s.calls.set k call'
  owed : t.owed = s.owed
  replaced : t.replaced = s.replaced
  alone : call.stage.writes = true ∨ ∀ other ∈ s.calls, other.stage.writes = false
  gap : call.stage.atGap = false
  seen : call'.seen = call.seen
  sound : s.Orderly codec → t.files.Sound
  holds : s.Orderly codec → t.Holds codec call'
  read : s.Orderly codec → t.files.read = s.files.read ∨ call'.stage.atGap = true

/-- The only writer has replaced the index. -/
structure ReplaceMove (codec : IndexCodec) (s t : IndexRun) (k : ℕ) (call call' : IndexCall) :
    Prop where
  moved : t.calls = s.calls.set k call'
  replaced : t.replaced = s.replaced + 1
  writer : call.stage.writes = true
  seen : call'.seen = call.seen
  after : s.Orderly codec → IsAfter call'.stage
  sound : s.Orderly codec → t.files.Sound
  stored : s.Orderly codec → ∃ raw store, t.files.read = some raw ∧
    codec.fromSlice raw = .ok store ∧ store.Keeps t.owed

inductive IndexEffect (codec : IndexCodec) (s t : IndexRun) : Prop where
  | enters (call : IndexCall) (hstep : t = { s with calls := s.calls ++ [call] })
      (hstage : call.stage = .cleanup ∨ call.stage = .working) (hseen : call.seen = 0)
  | copies (isFile : Text → Bool) (hstep : t = { s with isFile })
  | fails (hfailed : t.Failed)
  | quiet (k : ℕ) (call call' : IndexCall) (hcall : s.calls[k]? = some call)
      (hmove : QuietMove codec s t k call call')
  | writer (k : ℕ) (call call' : IndexCall) (hcall : s.calls[k]? = some call)
      (hmove : WriterMove codec s t k call call')
  | replaces (k : ℕ) (call call' : IndexCall) (hcall : s.calls[k]? = some call)
      (hmove : ReplaceMove codec s t k call call')

theorem failed_set (hcall : s.calls[k]? = some call) (hcalls : t.calls = s.calls.set k call')
    (hstage : call'.stage = .returned false) : t.Failed := by
  refine ⟨call', ?_, hstage⟩
  rw [hcalls]
  exact List.mem_set (List.getElem?_eq_some_iff.mp hcall).1 call'

theorem Orderly.keeps_of_parsed (h : s.Orderly codec) {raw : Bytes} {store : RemoteEditIndexStore}
    (hread : s.files.read = some raw) (hparse : codec.fromSlice raw = .ok store) :
    s.Gap ∨ store.Keeps s.owed := by
  rcases h.stored with ⟨raw', store', hread', hparse', hkeeps⟩ | hgap | ⟨-, howed⟩
  · rw [hread, Option.some.injEq] at hread'
    subst hread'
    rw [hparse, Except.ok.injEq] at hparse'
    exact .inr (hparse' ▸ hkeeps)
  · exact .inl hgap
  · refine .inr fun instanceId entry hentry => ?_
    rw [howed instanceId] at hentry
    cases hentry

theorem Orderly.keeps_initial (h : s.Orderly codec) (hdoc : s.files.doc = none) :
    s.Gap ∨ RemoteEditIndexStore.initial.Keeps s.owed := by
  rcases h.stored with ⟨raw, store, hread, -⟩ | hgap | ⟨-, howed⟩
  · rw [TwoNames.read, hdoc] at hread
    cases hread
  · exact .inl hgap
  · refine .inr fun instanceId entry hentry => ?_
    rw [howed instanceId] at hentry
    cases hentry

theorem loaded_spec (codec : IndexCodec) (s : IndexRun) (call : IndexCall) (task : IndexTask) (store : RemoteEditIndexStore)
    (seen : ℕ) :
    let stage := call.loaded task store
    stage = .returned false ∨ stage.writes = false ∧ stage.atGap = false ∧
      (s.Gap ∨ store.Keeps s.owed → s.Holds codec { call with stage, seen }) := by
  intro stage
  have hstage : stage = call.loaded task store := rfl
  unfold IndexCall.loaded at hstage
  dsimp only at hstage
  split at hstage
  · -- prune
    rw [hstage]
    exact .inr ⟨rfl, rfl, fun h _ => h⟩
  · split at hstage
    · rw [hstage]
      exact .inr ⟨rfl, rfl, fun _ => trivial⟩
    · exact .inl hstage
  · split at hstage
    all_goals
      rw [hstage]
      exact .inr ⟨rfl, rfl, fun _ => trivial⟩
  · split at hstage
    · rw [hstage]
      exact .inr ⟨rfl, rfl, fun h => ⟨.inr (.inl rfl), fun _ => h.imp id (·.apply _)⟩⟩
    · rw [hstage]
      exact .inr ⟨rfl, rfl, fun _ => trivial⟩
  · rw [hstage]
    exact .inr ⟨rfl, rfl, fun h => ⟨.inr (.inr rfl), fun _ => h.imp id (·.apply _)⟩⟩

theorem loaded_effect (hcall : s.calls[k]? = some call) (task : IndexTask)
    (store : RemoteEditIndexStore)
    (hstage : call.stage = .load task ∨ call.stage = .read task)
    (hkeeps : s.Orderly codec → s.Gap ∨ store.Keeps s.owed) :
    IndexEffect codec s (s.move k call ⟨s.files, call.loaded task store, none⟩) := by
  have hseen : (s.move k call ⟨s.files, call.loaded task store, none⟩).calls =
      s.calls.set k { call with stage := call.loaded task store, seen := s.replaced } := by
    unfold move
    rcases hstage with h | h <;> rw [h]
  have hplain : call.stage.writes = false ∧ call.stage.atGap = false := by
    rcases hstage with h | h <;> rw [h] <;> exact ⟨rfl, rfl⟩
  rcases loaded_spec codec s call task store s.replaced with
    hfailed | ⟨hwrites, hgap, hholds⟩
  · exact .fails (failed_set hcall hseen hfailed)
  · exact .quiet k _ _ hcall ⟨hseen, rfl, rfl, rfl, hplain.2, hgap, hplain.1.trans hwrites.symm,
      fun _ => Nat.le_refl _, fun h => hholds (hkeeps h)⟩

theorem rename_effect (hcall : s.calls[k]? = some call) {step : ReplaceStep}
    {after : IndexStage} {update : IndexUpdate} {store : RemoteEditIndexStore}
    (hstage : call.stage = .replace step after update store)
    (hstep : step = .rename ∨ step = .renameAgain) {files : IndexFiles}
    (hrename : s.files.rename = some files) :
    IndexEffect codec s (s.move k call ⟨files, after, some update⟩) := by
  have hmoved : (s.move k call ⟨files, after, some update⟩).calls =
      s.calls.set k { call with stage := after } := by
    unfold move
    rw [hstage]
  have hknown : s.Orderly codec → IsAfter after ∧ ∃ file, s.files.tmp = some file ∧
      s.files.data file = codec.toVecPretty store ∧ store.Keeps (update.owed s.owed) := by
    intro h
    have hholds := h.holds call (List.mem_of_getElem? hcall)
    unfold Holds at hholds
    rw [hstage] at hholds
    rcases hstep with rfl | rfl <;> exact hholds
  refine .replaces k call _ hcall ⟨hmoved, rfl, ?_, rfl, fun h => (hknown h).1, fun h => ?_,
    fun h => ?_⟩
  · rw [hstage]
    rcases hstep with rfl | rfl <;> rfl
  all_goals
    obtain ⟨-, file, htmp, hdata, hkeeps⟩ := hknown h
    obtain ⟨files', hrename', hsound, hread⟩ := TwoNames.rename_spec h.sound htmp
    rw [hrename, Option.some.injEq] at hrename'
    subst hrename'
  · exact hsound
  · rw [hdata] at hread
    exact ⟨_, store, hread, codec.fromSlice_toVecPretty store, hkeeps⟩

theorem replaceStep_effect (hcall : s.calls[k]? = some call) {step : ReplaceStep}
    {after : IndexStage} {update : IndexUpdate} {store : RemoteEditIndexStore}
    (hstage : call.stage = .replace step after update store)
    (hguard : call.stage.begins = true → s.MayWrite call) :
    IndexEffect codec s
      (s.move k call (IndexCall.replaceStep codec s.files after update store step)) := by
  have hmem : call ∈ s.calls := List.mem_of_getElem? hcall
  have hholds : s.Orderly codec → s.Holds codec call := fun h => h.holds call hmem
  have hmoved : ∀ m : IndexMove, (s.move k call m).calls =
      s.calls.set k { call with stage := m.stage } := by
    intro m
    unfold move
    rw [hstage]
  unfold Holds at hholds
  rw [hstage] at hholds hguard
  unfold IndexCall.replaceStep
  cases step with
  | create =>
    -- the store is that of the index, which nobody else writes
    obtain ⟨hseen, hnobody⟩ := hguard rfl
    refine .writer k call _ hcall ⟨hmoved _, rfl, rfl, .inr hnobody, by rw [hstage]; rfl, rfl,
      fun h => (TwoNames.create_spec h.sound).1, fun h => ?_,
      fun h => .inl (TwoNames.create_spec h.sound).2.2.2.2⟩
    obtain ⟨hafter, hkeeps⟩ := hholds h
    obtain ⟨-, htmp, hempty, -, -⟩ := TwoNames.create_spec h.sound
    refine ⟨hafter, htmp, hempty, (hkeeps hseen).resolve_left ?_⟩
    rintro ⟨other, hother, hgap⟩
    have hwrites := hnobody other hother
    cases hstep : other.stage with
    | replace step _ _ _ => 
      rw [hstep] at hgap hwrites
      cases step with
      | renameAgain => cases hwrites
      | _ => cases hgap
    | _ => rw [hstep] at hgap; cases hgap
  | write file =>
    refine .writer k call _ hcall ⟨hmoved _, rfl, rfl, .inl (by rw [hstage]; rfl),
      by rw [hstage]; rfl, rfl, fun h => ?_, fun h => ?_, fun h => .inl ?_⟩
    all_goals
      obtain ⟨hafter, htmp, hempty, hkeeps⟩ := hholds h
      obtain ⟨hsound, hdata, hread⟩ := TwoNames.write_spec
        (codec.toVecPretty store) h.sound htmp hempty
    · exact hsound
    · exact ⟨hafter, file, htmp, hdata, hkeeps⟩
    · exact hread
  | rename =>
    dsimp only
    split
    · rename_i files hrename
      exact rename_effect hcall hstage (.inl rfl) hrename
    · refine .quiet k call _ hcall ⟨hmoved _, rfl, rfl, rfl, by rw [hstage]; rfl, rfl,
        by rw [hstage]; rfl, fun h => h.seen call hmem, hholds⟩
  | check =>
    dsimp only
    split
    · exact .quiet k call _ hcall ⟨hmoved _, rfl, rfl, rfl, by rw [hstage]; rfl, rfl,
        by rw [hstage]; rfl, fun h => h.seen call hmem, hholds⟩
    · exact .fails (failed_set hcall (hmoved _) rfl)
  | removeOld =>
    dsimp only
    split
    · exact .writer k call _ hcall ⟨hmoved _, rfl, rfl, .inl (by rw [hstage]; rfl),
        by rw [hstage]; rfl, rfl, fun h => TwoNames.remove_sound h.sound, hholds, fun _ => .inr rfl⟩
    · exact .fails (failed_set hcall (hmoved _) rfl)
  | renameAgain =>
    dsimp only
    split
    · rename_i files hrename
      exact rename_effect hcall hstage (.inr rfl) hrename
    · exact .fails (failed_set hcall (hmoved _) rfl)

theorem quiet_effect (hcall : s.calls[k]? = some call) {stage : IndexStage}
    (hstage : call.stage = .copy ∨ ∃ store left stale, call.stage = .prune store left stale)
    (hgap : stage.atGap = false) (hwrites : stage.writes = false)
    (hholds : s.Orderly codec → s.Holds codec { call with stage }) :
    IndexEffect codec s (s.move k call ⟨s.files, stage, none⟩) := by
  have hmoved : (s.move k call ⟨s.files, stage, none⟩).calls =
      s.calls.set k { call with stage } := by
    unfold move
    rcases hstage with h | ⟨store, left, stale, h⟩ <;> rw [h]
  have hplain : call.stage.atGap = false ∧ call.stage.writes = false := by
    rcases hstage with h | ⟨store, left, stale, h⟩ <;> rw [h] <;> exact ⟨rfl, rfl⟩
  exact .quiet k call _ hcall ⟨hmoved, rfl, rfl, rfl, hplain.1, hgap, hplain.2.trans hwrites.symm,
    fun h => h.seen call (List.mem_of_getElem? hcall), hholds⟩

theorem goOn_effect (hcall : s.calls[k]? = some call) {m : IndexMove}
    (hgo : call.goOn codec copyOf s.files s.isFile = some m)
    (hguard : call.stage.begins = true → s.MayWrite call) :
    IndexEffect codec s (s.move k call m) := by
  have hmem : call ∈ s.calls := List.mem_of_getElem? hcall
  unfold IndexCall.goOn at hgo
  split at hgo
  · rename_i hstage
    cases hgo
    exact quiet_effect hcall (.inl hstage) rfl rfl fun _ => trivial
  · -- `path.is_file()`
    rename_i task hstage
    cases hgo
    split
    · refine .quiet k call { call with stage := .read task, seen := s.replaced } hcall ⟨?_, rfl,
        rfl, rfl, by rw [hstage]; rfl, rfl, by rw [hstage]; rfl, fun _ => Nat.le_refl _,
        fun _ => trivial⟩
      unfold move
      rw [hstage]
    · rename_i hdoc
      exact loaded_effect hcall task _ (.inl hstage) fun h =>
        h.keeps_initial (Option.not_isSome_iff_eq_none.mp hdoc)
  · rename_i task hstage
    cases hgo
    have hfails : ∀ stage, stage = .returned false →
        IndexEffect codec s (s.move k call ⟨s.files, stage, none⟩) := by
      intro stage hfalse
      have hmoved : (s.move k call ⟨s.files, stage, none⟩).calls =
          s.calls.set k { call with stage, seen := s.replaced } := by
        unfold move
        rw [hstage]
      exact .fails (failed_set hcall hmoved hfalse)
    cases hread : s.files.read with
    | none => exact hfails _ rfl
    | some raw =>
      show IndexEffect codec s (s.move k call ⟨s.files, call.parsed codec task raw, none⟩)
      cases hparse : codec.fromSlice raw with
      | error err =>
        refine hfails _ ?_
        unfold IndexCall.parsed
        rw [hparse]
      | ok store =>
        unfold IndexCall.parsed
        rw [hparse]
        apply loaded_effect hcall task _ (.inr hstage)
        -- the version does not matter
        exact fun h => (h.keeps_of_parsed hread hparse).imp id fun hkeeps => hkeeps
  · rename_i store instanceId entry left stale hstage
    cases hgo
    refine quiet_effect hcall (.inr ⟨_, _, _, hstage⟩) rfl rfl fun h => ?_
    have hholds := h.holds call hmem
    unfold Holds at hholds
    rw [hstage] at hholds
    exact hholds
  · rename_i store stale hstage
    split at hgo
    · cases hgo
      exact quiet_effect hcall (.inr ⟨_, _, _, hstage⟩) rfl rfl fun _ => trivial
    · cases hgo
      refine quiet_effect hcall (.inr ⟨_, _, _, hstage⟩) rfl rfl fun h => ?_
      have hholds := h.holds call hmem
      unfold Holds at hholds
      rw [hstage] at hholds
      exact ⟨.inl rfl, fun hseen => (hholds hseen).imp id (·.apply _)⟩
  · rename_i step after update store hstage
    cases hgo
    exact replaceStep_effect hcall hstage hguard
  · cases hgo
  · cases hgo
  · cases hgo

theorem next_effect {event : IndexEvent} (hnext : s.next codec copyOf event = some t)
    (hguard : WritesAlone s event) : IndexEffect codec s t := by
  -- a step that neither opens nor closes anything
  have hstay : ∀ k call stage, s.calls[k]? = some call → call.stage.atGap = false →
      stage.atGap = false → call.stage.writes = stage.writes →
      (s.Orderly codec → s.Holds codec { call with stage }) →
      IndexEffect codec s (s.setStage k call stage) := by
    intro k call stage hcall hgap hgap' hwrites hholds
    exact .quiet k call _ hcall ⟨rfl, rfl, rfl, rfl, hgap, hgap', hwrites,
      fun h => h.seen call (List.mem_of_getElem? hcall), hholds⟩
  cases event with
  | openFile instanceId localPath =>
    cases hnext
    exact .enters _ rfl (.inl rfl) rfl
  | confirmUpload instanceId localPath =>
    cases hnext
    exact .enters _ rfl (.inr rfl) rfl
  | copies isFile =>
    cases hnext
    exact .copies isFile rfl
  | goOn k =>
    obtain ⟨call, hcall, hmap⟩ := Option.bind_eq_some_iff.mp hnext
    obtain ⟨m, hgo, rfl⟩ := Option.map_eq_some_iff.mp hmap
    exact goOn_effect hcall hgo (hguard call hcall)
  | cleanup k isCurrent =>
    obtain ⟨call, hcall, hstep⟩ := Option.bind_eq_some_iff.mp hnext
    split at hstep
    · rename_i hstage
      cases hstep
      refine hstay k call _ hcall (by rw [hstage]; rfl) ?_ ?_ fun _ => ?_
      · cases isCurrent <;> rfl
      · rw [hstage]
        cases isCurrent <;> rfl
      · cases isCurrent <;> exact trivial
    · cases hstep
  | upsert k entry =>
    obtain ⟨call, hcall, hstep⟩ := Option.bind_eq_some_iff.mp hnext
    split at hstep
    · rename_i hstage
      split at hstep
      · cases hstep
        exact hstay k call _ hcall (by rw [hstage]; rfl) rfl (by rw [hstage]; rfl) fun _ => trivial
      · cases hstep
    · cases hstep
  | renameFails k =>
    obtain ⟨call, hcall, hstep⟩ := Option.bind_eq_some_iff.mp hnext
    split at hstep
    · rename_i hstage
      cases hstep
      refine hstay k call _ hcall (by rw [hstage]; rfl) rfl (by rw [hstage]; rfl) fun h => ?_
      have hholds := h.holds call (List.mem_of_getElem? hcall)
      unfold Holds at hholds
      rw [hstage] at hholds
      exact hholds
    · cases hstep
  | writeFails k length =>
    obtain ⟨call, hcall, hstep⟩ := Option.bind_eq_some_iff.mp hnext
    split at hstep
    · cases hstep
      exact .fails (failed_set hcall
        (show _ = s.calls.set k { call with stage := .returned false } from rfl) rfl)
    · cases hstep
  | fails k =>
    obtain ⟨call, hcall, hstep⟩ := Option.bind_eq_some_iff.mp hnext
    split at hstep
    · cases hstep
    · cases hstep
      exact .fails (failed_set hcall
        (show _ = s.calls.set k { call with stage := .returned false } from rfl) rfl)

/-! ## The invariant is kept -/

theorem failed_set_other (hfailed : s.Failed) (hcall : s.calls[k]? = some call)
    (hlive : call.stage ≠ .returned false) (hcalls : t.calls = s.calls.set k call') : t.Failed := by
  obtain ⟨other, hother, hstage⟩ := hfailed
  rcases mem_set_of_mem (b := call') hcall hother with rfl | hmem
  · exact absurd hstage hlive
  · exact ⟨other, hcalls ▸ hmem, hstage⟩

theorem failed_next {event : IndexEvent} (hnext : s.next codec copyOf event = some t)
    (hfailed : s.Failed) : t.Failed := by
  cases event with
  | openFile instanceId localPath | confirmUpload instanceId localPath =>
    cases hnext
    obtain ⟨other, hother, hstage⟩ := hfailed
    exact ⟨other, List.mem_append_left _ hother, hstage⟩
  | copies isFile =>
    cases hnext
    exact hfailed
  | goOn k =>
    obtain ⟨call, hcall, hmap⟩ := Option.bind_eq_some_iff.mp hnext
    obtain ⟨m, hgo, rfl⟩ := Option.map_eq_some_iff.mp hmap
    refine failed_set_other hfailed hcall (fun hstage => ?_) rfl
    unfold IndexCall.goOn at hgo
    rw [hstage] at hgo
    cases hgo
  | cleanup k isCurrent | upsert k entry | renameFails k | writeFails k length | fails k =>
    obtain ⟨call, hcall, hstep⟩ := Option.bind_eq_some_iff.mp hnext
    have hcalls : t.calls = s.calls.set k ((t.calls[k]?).getD call) := by
      have hlt : k < s.calls.length := (List.getElem?_eq_some_iff.mp hcall).1
      repeat' split at hstep
      all_goals
        cases hstep
        try simp [setStage, hlt]
    refine failed_set_other hfailed hcall (fun hstage => ?_) hcalls
    rw [hstage] at hstep
    cases hstep

theorem Holds.mono (hholds : s.Holds codec call) (hseen : call.seen ≤ s.replaced)
    (hfiles : call.stage.writes = true → t.files = s.files ∧ t.owed = s.owed)
    (hkeep : s.replaced < t.replaced ∨
      (t.replaced = s.replaced ∧ t.owed = s.owed ∧ (s.Gap → t.Gap))) : t.Holds codec call := by
  have hle : s.replaced ≤ t.replaced := by
    rcases hkeep with hlt | ⟨heq, -⟩ <;> omega
  have hloaded : ∀ keeps : (Text → Option RemoteEditIndexEntry) → Prop,
      (call.seen = s.replaced → s.Gap ∨ keeps s.owed) →
      call.seen = t.replaced → t.Gap ∨ keeps t.owed := by
    intro keeps hbefore hnow
    rcases hkeep with hlt | ⟨heq, howed, hgap⟩
    · omega
    · rw [howed]
      exact (hbefore (hnow.trans heq)).imp hgap id
  unfold Holds at hholds ⊢
  split at hholds
  · rename_i store _ _ _
    exact hloaded store.Keeps hholds
  · rename_i update store _
    exact ⟨hholds.1, hloaded (fun owed => store.Keeps (update.owed owed)) hholds.2⟩
  · rename_i hstage
    obtain ⟨hsame, howed⟩ := hfiles (by rw [hstage]; rfl)
    rw [hsame, howed]
    exact hholds
  · rename_i step _ _ _ hcreate _ hstage
    have hwrites : call.stage.writes = true := by
      rw [hstage]
      cases step with
      | create => exact (hcreate rfl).elim
      | _ => rfl
    obtain ⟨hsame, howed⟩ := hfiles hwrites
    rw [hsame, howed]
    exact hholds
  · omega
  · exact trivial

theorem gap_of_set (hcall : s.calls[k]? = some call) (hgap : call.stage.atGap = false)
    (hcalls : t.calls = s.calls.set k call') (h : s.Gap) : t.Gap := by
  obtain ⟨other, hother, hother'⟩ := h
  rcases mem_set_of_mem (b := call') hcall hother with rfl | hmem
  · rw [hgap] at hother'
    cases hother'
  · exact ⟨other, hcalls ▸ hmem, hother'⟩

theorem Orderly.quiet (h : s.Orderly codec) (hcall : s.calls[k]? = some call)
    (hmove : QuietMove codec s t k call call') : t.Orderly codec := by
  have hgap : s.Gap → t.Gap := gap_of_set hcall hmove.gap hmove.moved
  have hmem : ∀ c ∈ t.calls, c = call' ∨ c ∈ s.calls := by
    intro c hc
    rw [hmove.moved] at hc
    exact (List.mem_or_eq_of_mem_set hc).symm
  have hseen : ∀ c ∈ t.calls, c.seen ≤ s.replaced := by
    intro c hc
    rcases hmem c hc with rfl | hc
    · exact hmove.seen h
    · exact h.seen c hc
  refine ⟨hmove.files ▸ h.sound, ?_, fun c hc => hmove.replaced ▸ hseen c hc, fun c hc => ?_, ?_⟩
  · rw [hmove.moved, countP_set_of_eq hcall hmove.writes]
    exact h.alone
  · have hholds : s.Holds codec c := by
      rcases hmem c hc with rfl | hc
      · exact hmove.holds h
      · exact h.holds c hc
    exact hholds.mono (hseen c hc) (fun _ => ⟨hmove.files, hmove.owed⟩)
      (.inr ⟨hmove.replaced, hmove.owed, hgap⟩)
  · unfold Stored
    rw [hmove.files, hmove.owed, hmove.replaced]
    exact h.stored.imp id (.imp hgap id)

theorem others_of_writer (h : s.Orderly codec) (hcall : s.calls[k]? = some call)
    (halone : call.stage.writes = true ∨ ∀ other ∈ s.calls, other.stage.writes = false)
    (hcalls : t.calls = s.calls.set k call') :
    ∀ c ∈ t.calls, c = call' ∨ (c ∈ s.calls ∧ c.stage.writes = false) := by
  intro c hc
  rw [hcalls] at hc
  rcases List.mem_or_eq_of_mem_set hc with hold | hnew
  · rcases halone with hwrites | hnobody
    · have hother := mem_set_of_alone h.alone hcall hwrites c hc
      exact hother.imp id fun hwrites => ⟨hold, hwrites⟩
    · exact .inr ⟨hold, hnobody c hold⟩
  · exact .inl hnew

theorem countP_writes_le (h : s.Orderly codec) (hcall : s.calls[k]? = some call)
    (halone : call.stage.writes = true ∨ ∀ other ∈ s.calls, other.stage.writes = false)
    (hcalls : t.calls = s.calls.set k call') : t.calls.countP (·.stage.writes) ≤ 1 := by
  have hadd := countP_set_add hcall (·.stage.writes) call'
  have hsplit : (if call'.stage.writes = true then 1 else 0) ≤ 1 := by split <;> omega
  rw [hcalls]
  rcases halone with hwrites | hnobody
  · have hone := h.alone
    rw [if_pos hwrites] at hadd
    omega
  · have hzero : s.calls.countP (·.stage.writes) = 0 :=
      List.countP_eq_zero.mpr fun other hother => by simp [hnobody other hother]
    omega

theorem Orderly.writer (h : s.Orderly codec) (hcall : s.calls[k]? = some call)
    (hmove : WriterMove codec s t k call call') : t.Orderly codec := by
  have hgap : s.Gap → t.Gap := gap_of_set hcall hmove.gap hmove.moved
  have hothers := others_of_writer h hcall hmove.alone hmove.moved
  have hmem : call' ∈ t.calls := by
    rw [hmove.moved]
    exact List.mem_set (List.getElem?_eq_some_iff.mp hcall).1 call'
  refine ⟨hmove.sound h, countP_writes_le h hcall hmove.alone hmove.moved, fun c hc => ?_,
    fun c hc => ?_, ?_⟩
  · rw [hmove.replaced]
    rcases hothers c hc with rfl | ⟨hc, -⟩
    · rw [hmove.seen]
      exact h.seen call (List.mem_of_getElem? hcall)
    · exact h.seen c hc
  · rcases hothers c hc with rfl | ⟨hc, hwrites⟩
    · exact hmove.holds h
    · refine (h.holds c hc).mono (h.seen c hc) (fun hw => ?_)
        (.inr ⟨hmove.replaced, hmove.owed, hgap⟩)
      rw [hwrites] at hw
      cases hw
  · rcases hmove.read h with hread | hnow
    · unfold Stored
      rw [hread, hmove.owed, hmove.replaced]
      exact h.stored.imp id (.imp hgap id)
    · exact .inr (.inl ⟨call', hmem, hnow⟩)

theorem Orderly.replaces (h : s.Orderly codec) (hcall : s.calls[k]? = some call)
    (hmove : ReplaceMove codec s t k call call') : t.Orderly codec := by
  have hothers := others_of_writer h hcall (.inl hmove.writer) hmove.moved
  refine ⟨hmove.sound h, countP_writes_le h hcall (.inl hmove.writer) hmove.moved,
    fun c hc => ?_, fun c hc => ?_, .inl (hmove.stored h)⟩
  · rw [hmove.replaced]
    rcases hothers c hc with rfl | ⟨hc, -⟩
    · rw [hmove.seen]
      exact Nat.le_succ_of_le (h.seen call (List.mem_of_getElem? hcall))
    · exact Nat.le_succ_of_le (h.seen c hc)
  · rcases hothers c hc with rfl | ⟨hc, hwrites⟩
    · -- the call is behind its update
      have hpos : 0 < t.replaced := hmove.replaced ▸ Nat.succ_pos _
      unfold Holds
      rcases hmove.after h with hstage | hstage | hstage <;> rw [hstage]
      · exact trivial
      · exact trivial
      · exact hpos
    · refine (h.holds c hc).mono (h.seen c hc) (fun hw => ?_)
        (.inl (hmove.replaced ▸ Nat.lt_succ_self _))
      rw [hwrites] at hw
      cases hw

theorem Orderly.next {event : IndexEvent} (h : s.Failed ∨ s.Orderly codec)
    (hnext : s.next codec copyOf event = some t) (hguard : WritesAlone s event) :
    t.Failed ∨ t.Orderly codec := by
  rcases h with hfailed | h
  · exact .inl (failed_next hnext hfailed)
  cases next_effect hnext hguard with
  | enters call hstep hstage hseen =>
    right
    subst hstep
    have hgap : s.Gap → Gap { s with calls := s.calls ++ [call] } := fun ⟨other, hother, hgap⟩ =>
      ⟨other, List.mem_append_left _ hother, hgap⟩
    have hwrites : call.stage.writes = false := by rcases hstage with h | h <;> rw [h] <;> rfl
    refine ⟨h.sound, ?_, fun c hc => ?_, fun c hc => ?_, h.stored.imp id (.imp hgap id)⟩
    · show (s.calls ++ [call]).countP _ ≤ 1
      rw [List.countP_append, List.countP_singleton, if_neg (by rw [hwrites]; exact nofun)]
      exact h.alone
    · rcases List.mem_append.mp hc with hc | hc
      · exact h.seen c hc
      · rw [List.mem_singleton.mp hc, hseen]
        exact Nat.zero_le _
    · rcases List.mem_append.mp hc with hc | hc
      · exact (h.holds c hc).mono (h.seen c hc) (fun _ => ⟨rfl, rfl⟩) (.inr ⟨rfl, rfl, hgap⟩)
      · rw [List.mem_singleton.mp hc]
        unfold Holds
        rcases hstage with hstage | hstage <;> rw [hstage] <;> exact trivial
  | copies isFile hstep =>
    right
    subst hstep
    exact ⟨h.sound, h.alone, h.seen, fun c hc => (h.holds c hc).mono (h.seen c hc)
      (fun _ => ⟨rfl, rfl⟩) (.inr ⟨rfl, rfl, id⟩), h.stored⟩
  | fails hfailed => exact .inl hfailed
  | quiet k call call' hcall hmove => exact .inr (h.quiet hcall hmove)
  | writer k call call' hcall hmove => exact .inr (h.writer hcall hmove)
  | replaces k call call' hcall hmove => exact .inr (h.replaces hcall hmove)

theorem orderly_start {files : IndexFiles} (hfiles : files.Sound) (isFile : Text → Bool) :
    (start codec files isFile).Orderly codec := by
  refine ⟨hfiles, Nat.zero_le _, nofun, nofun, ?_⟩
  show (∃ raw store, files.read = some raw ∧ codec.fromSlice raw = .ok store ∧
    store.Keeps (indexed codec files)) ∨ _
  cases hparsed : files.read.map codec.fromSlice with
  | some result =>
    obtain ⟨raw, hread, hresult⟩ := Option.map_eq_some_iff.mp hparsed
    cases result with
    | ok store =>
      refine .inl ⟨raw, store, hread, hresult, fun instanceId entry hentry => ?_⟩
      rw [indexed, hparsed] at hentry
      exact hentry
    | error err =>
      refine .inr (.inr ⟨rfl, fun instanceId => ?_⟩)
      show indexed codec files instanceId = none
      rw [indexed, hparsed]
  | none =>
    refine .inr (.inr ⟨rfl, fun instanceId => ?_⟩)
    show indexed codec files instanceId = none
    rw [indexed, hparsed]

end IndexRun

/-! ## No entry is lost -/

/-- **Writers that keep apart.** In every run in which a call begins to write the index only when
nobody else writes it and it is still the one that the call has loaded, no entry is lost. -/
theorem entriesKept_of_writesAlone (codec : IndexCodec)
    (copyOf : RemoteEditIndexEntry → Option Text) (files : IndexFiles) (isFile : Text → Bool)
    (hfiles : files.Sound) (s : IndexRun)
    (h : ((indexMachine codec copyOf files isFile).restrict WritesAlone).Reachable s) :
    s.EntriesKept codec := by
  have horderly : s.Failed ∨ s.Orderly codec := by
    refine Machine.Reachable.induct (I := fun s => s.Failed ∨ s.Orderly codec) ?_ ?_ h
    · intro s hs
      change s = _ at hs
      subst hs
      exact .inr (IndexRun.orderly_start hfiles isFile)
    · rintro s event t - hs ⟨hguard, hnext⟩
      exact IndexRun.Orderly.next hs hnext hguard
  rcases horderly with ⟨call, hcall, hfailed⟩ | horderly
  · rintro ⟨-, hreturned⟩
    rw [hreturned call hcall] at hfailed
    cases hfailed
  · exact horderly.entriesKept

/-! ## Two calls -/

def prettyMember (depth : ℕ) (key : String) (value : Text) : Text :=
  List.replicate (2 * depth) ' ' ++ '"' :: key.toList ++ "\": ".toList ++ value

def prettyText (value : Text) : Text := '"' :: value ++ ['"']

def prettyObject (depth : ℕ) (members : List Text) : Text :=
  "\x7b\n".toList ++ ",\n".toList.intercalate members ++ '\n' :: List.replicate (2 * depth) ' ' ++
    "\x7d".toList

def prettyNumber (n : Option ℕ) : Text := n.elim "null".toList fun n => (toString n).toList

/-- The JSON text of an index, when no text in it needs an escape. -/
def samplePretty (store : RemoteEditIndexStore) : Bytes :=
  let entries := store.entries.entries.map fun (instanceId, e) =>
    prettyMember 2 (String.ofList instanceId) (prettyObject 2
      [prettyMember 3 "instanceId" (prettyText e.instanceId),
        prettyMember 3 "sessionId" (prettyText e.sessionId),
        prettyMember 3 "sessionHost" (prettyText e.target.sessionHost),
        prettyMember 3 "sessionUsername" (prettyText e.target.sessionUsername),
        prettyMember 3 "sessionPort" (prettyNumber e.target.sessionPort),
        prettyMember 3 "remotePath" (prettyText e.remotePath),
        prettyMember 3 "fileName" (prettyText e.fileName),
        prettyMember 3 "downloadedAt" (prettyNumber e.downloadedAt),
        prettyMember 3 "remoteMtime" (prettyNumber e.remote.mtime),
        prettyMember 3 "remoteSize" (prettyNumber e.remote.size),
        prettyMember 3 "trackChanges" (if e.trackChanges then "true" else "false").toList,
        prettyMember 3 "baseline" (prettyObject 3
          [prettyMember 4 "mtimeMs" (prettyNumber e.baseline.mtimeMs),
            prettyMember 4 "size" (prettyNumber e.baseline.size),
            prettyMember 4 "contentHash" (prettyText e.baseline.contentHash)])])
  (prettyObject 0 [prettyMember 1 "version" (prettyNumber store.version.toNat),
    prettyMember 1 "entries" (prettyObject 1 entries)]).map asciiByte

/-- An entry for the instance with this id. -/
def sampleEntry (instanceId : Text) : RemoteEditIndexEntry where
  instanceId
  sessionId := "s".toList
  target := ⟨"h".toList, "u".toList, 22⟩
  remotePath := '/' :: instanceId
  fileName := instanceId
  downloadedAt := 0
  remote := ⟨some 0, some 1⟩
  trackChanges := false
  baseline := ⟨0, 1, "61".toList⟩

def sampleStore (instanceIds : List Text) : RemoteEditIndexStore :=
  ⟨1, instanceIds.foldl (fun m instanceId => m.insert instanceId (sampleEntry instanceId)) .empty⟩

def sampleStores : List RemoteEditIndexStore :=
  [sampleStore [['i']], sampleStore [['j']], sampleStore [['i'], ['j']]]

instance : Encodable Text :=
  Encodable.ofLeftInverse (List.map Char.toNat) (List.map Char.ofNat) fun s => by
    rw [List.map_map]
    exact (List.map_congr_left fun c _ => Char.ofNat_toNat c).trans (List.map_id s)

deriving instance Encodable for RemoteEditTarget
deriving instance Encodable for RemoteVersion
deriving instance Encodable for RemoteFileSnapshot
deriving instance Encodable for RemoteEditIndexEntry

abbrev CodedStore := ℕ × {es : List (Text × RemoteEditIndexEntry) // es.Pairwise (·.1 < ·.1)}

instance : Encodable RemoteEditIndexStore :=
  Encodable.ofLeftInverse
    (fun store => (⟨store.version.toNat, store.entries.entries, store.entries.sorted⟩ : CodedStore))
    (fun coded => ⟨.ofNat coded.1, coded.2.1, coded.2.2⟩)
    fun store => by rw [UInt8.ofNat_toNat]

/-- The JSON text for the indices of two calls, and some code for any other. -/
def sampleCodec : IndexCodec where
  toVecPretty store :=
    if store ∈ sampleStores then samplePretty store
    else 0 :: List.replicate (Encodable.encode store) 0
  fromSlice raw :=
    match sampleStores.find? fun store => samplePretty store = raw with
    | some store => .ok store
    | none =>
      match Encodable.decode (raw.length - 1) with
      | some store => .ok store
      | none => .error "expected value at line 1 column 1"
  fromSlice_toVecPretty store := by
    by_cases hstore : store ∈ sampleStores
    · rw [if_pos hstore]
      have hfound : ∀ store ∈ sampleStores, sampleStores.find? (fun other =>
          samplePretty other = samplePretty store) = some store := by
        decide +kernel
      rw [hfound store hstore]
    · rw [if_neg hstore]
      have hnone : sampleStores.find? (fun other =>
          samplePretty other = 0 :: List.replicate (Encodable.encode store) 0) = none := by
        rw [List.find?_eq_none]
        intro other _ h
        -- a JSON text begins with a brace
        have hhead : (samplePretty other).head? = some 0 :=
          congrArg List.head? (of_decide_eq_true h)
        have hbrace : (samplePretty other).head? = some (asciiByte '\x7b') := rfl
        rw [hhead] at hbrace
        revert hbrace
        decide
      rw [hnone]
      simp [Encodable.encodek]

def sampleOpened : List IndexEvent :=
  [.openFile ['i'] "/c/i".toList, .openFile ['j'] "/c/j".toList, .cleanup 0 true, .cleanup 1 true,
    .goOn 0, .goOn 1, .goOn 0, .goOn 1,
    .upsert 0 (sampleEntry ['i']), .upsert 1 (sampleEntry ['j'])]

def sampleFiles : IndexFiles := ⟨none, none, fun _ => [], 0⟩

def sampleCopyOf (entry : RemoteEditIndexEntry) : Option Text :=
  some ("/c/".toList ++ entry.instanceId)

set_option maxRecDepth 20000 in
/-- The second call loads the index when the first has replaced it. -/
theorem sampleTurns_kept : ∃ s, IndexRun.EntriesKept sampleCodec s ∧ s.AllReturned ∧
    s.owed ['i'] = some (sampleEntry ['i']) ∧ s.owed ['j'] = some (sampleEntry ['j']) := by
  have hrun : ∃ s, Machine.exec (fun s event =>
        if WritesAlone s event then IndexRun.next sampleCodec sampleCopyOf s event else none)
        (.start sampleCodec sampleFiles fun _ => false) (sampleOpened ++
          [.goOn 0, .goOn 0, .goOn 0, .goOn 0, .goOn 1, .goOn 1, .goOn 1, .goOn 1, .goOn 1]) =
        some s ∧ s.AllReturned ∧
      s.owed ['i'] = some (sampleEntry ['i']) ∧ s.owed ['j'] = some (sampleEntry ['j']) :=
    ⟨_, rfl, ⟨by decide, by decide⟩, rfl, rfl⟩
  obtain ⟨s, hexec, hrest⟩ := hrun
  have hreach := Machine.reachable_restrict (Machine.reachable_exec hexec)
  exact ⟨s, entriesKept_of_writesAlone sampleCodec sampleCopyOf sampleFiles _ ⟨nofun, nofun⟩ s
    hreach, hrest⟩

set_option maxRecDepth 20000 in
/-- Both calls find no index, and each writes its own. -/
theorem sampleOverlap_lost : ¬∀ s,
    (indexMachine sampleCodec sampleCopyOf sampleFiles fun _ => false).Reachable s →
      s.EntriesKept sampleCodec := by
  intro h
  have hrun : ∃ s, Machine.exec (IndexRun.next sampleCodec sampleCopyOf)
        (.start sampleCodec sampleFiles fun _ => false) (sampleOpened ++
          [.goOn 0, .goOn 1, .goOn 0, .goOn 0, .goOn 0, .goOn 1, .goOn 1, .goOn 1]) = some s ∧
      s.AllReturned ∧ s.owed ['i'] = some (sampleEntry ['i']) ∧
      s.files.read = some (samplePretty (sampleStore [['j']])) :=
    ⟨_, rfl, ⟨by decide, by decide⟩, rfl, rfl⟩
  obtain ⟨s, hexec, hreturned, howed, hread⟩ := hrun
  obtain ⟨store, hparse, hkeeps⟩ := h s (Machine.reachable_exec hexec) hreturned
  have hstore : sampleCodec.fromSlice (samplePretty (sampleStore [['j']])) =
      .ok (sampleStore [['j']]) := sampleCodec.fromSlice_toVecPretty (sampleStore [['j']])
  rw [hread, Option.map_some, hstore, Option.some.injEq, Except.ok.injEq] at hparse
  subst hparse
  have hfound := hkeeps _ _ howed
  revert hfound
  decide

end FluxTerm.RemoteEdit
