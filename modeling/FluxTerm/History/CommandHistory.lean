import FluxTerm.Lib.Machine
import FluxTerm.Lib.Newest
import FluxTerm.Lib.Text
import Mathlib.Algebra.Order.Ring.Rat

/-!
# FluxTerm — the command history

`useCommandHistoryState` (`src/hooks/useCommandHistoryState.ts`) with `trimHistoryItems`
(`src/features/command-history/core/inputTracker.ts`): the commands of each session and of all
sessions, where the latter are loaded from a document and saved to it.

* **`historyKept_of_inOrder`** — the result on runs.
* **`sampleEarly_loses`** — a command is recorded before the history has been loaded.

An updater of the state is run when its call is made. Numbers are exact.
-/

namespace FluxTerm.History

open FluxTerm.Lib

/-! ## Buckets -/

inductive CommandHistorySource where
  | typed
  | quickbar
  | history
deriving DecidableEq

inductive CommandHistoryScopeType where
  | ssh
  | localShell
  | global
deriving DecidableEq

structure CommandHistoryItem where
  id : Text
  command : Text
  firstUsedAt : ℚ
  lastUsedAt : ℚ
  useCount : ℚ
  source : CommandHistorySource
deriving DecidableEq

structure CommandHistoryBucket where
  scopeKey : Text
  scopeType : CommandHistoryScopeType
  label : Text
  updatedAt : ℚ
  items : List CommandHistoryItem
deriving DecidableEq

def historyItemsLimit : ℕ := 300

def globalScopeKey : Text := "__global__".toList

def createCommandHistoryItemId (command : Text) (timestamp : ℤ) : Text :=
  (toString timestamp).toList ++ '-' :: command

/-- `trimHistoryItems`. The sort is stable. -/
def trimHistoryItems (items : List CommandHistoryItem) (limit : ℕ) : List CommandHistoryItem :=
  newest CommandHistoryItem.lastUsedAt (max limit 1) items

def CommandHistoryItem.usedAgain (source : CommandHistorySource) (now : ℤ)
    (existing : CommandHistoryItem) : CommandHistoryItem :=
  { existing with lastUsedAt := now, useCount := existing.useCount + 1, source }

def useExisting (command : Text) (source : CommandHistorySource) (now : ℤ) :
    List CommandHistoryItem → List CommandHistoryItem
  | [] => []
  | item :: items =>
    if item.command = command then item.usedAgain source now :: items
    else item :: useExisting command source now items

def newItem (command : Text) (source : CommandHistorySource) (now : ℤ) : CommandHistoryItem where
  id := createCommandHistoryItemId command now
  command
  firstUsedAt := now
  lastUsedAt := now
  useCount := 1
  source

def commandsOf (items : List CommandHistoryItem) : List Text := items.map (·.command)

def upsertItems (command : Text) (source : CommandHistorySource) (now : ℤ)
    (items : List CommandHistoryItem) : List CommandHistoryItem :=
  if command ∈ commandsOf items then useExisting command source now items
  else newItem command source now :: items

/-- `bucket?.items ?? []`. -/
def itemsOf (bucket : Option CommandHistoryBucket) : List CommandHistoryItem :=
  (bucket.map (·.items)).getD []

def upsertHistoryBucket (bucket : Option CommandHistoryBucket) (command : Text)
    (source : CommandHistorySource) (now : ℤ) : CommandHistoryBucket where
  scopeKey := (bucket.map (·.scopeKey)).getD globalScopeKey
  scopeType := .global
  label := (bucket.map (·.label)).getD "Global".toList
  updatedAt := now
  items := trimHistoryItems (upsertItems command source now (itemsOf bucket)) historyItemsLimit

/-! ## The hook -/

/-- `CommandHistoryStore`: the buckets by their key. -/
abbrev CommandHistoryStore := Text → Option CommandHistoryBucket

structure LastRecord where
  sessionId : Option Text
  command : Text

structure CommandHistory where
  store : CommandHistoryStore
  sessionBuckets : Text → Option CommandHistoryBucket
  /-- `loadedRef`. -/
  loaded : Bool
  /-- The store that the timer of `saveTimerRef` saves. -/
  saveTimer : Option CommandHistoryStore
  /-- The stores that have been handed to `saveCommandHistoryStore`. -/
  saves : List CommandHistoryStore
  uses : List (Text × ℚ)
  wanted : Text → Option ℚ
  last : Option LastRecord
  counted : Text → ℚ × ℕ

namespace CommandHistory

/-- At the start. -/
def start : CommandHistory where
  store _ := none
  sessionBuckets _ := none
  loaded := false
  saveTimer := none
  saves := []
  uses := []
  wanted _ := none
  last := none
  counted _ := (0, 0)

variable (s : CommandHistory)

def globalItems : List CommandHistoryItem := itemsOf (s.store globalScopeKey)

def recount : CommandHistory := { s with
  counted := fun command => if command ∈ commandsOf s.globalItems then s.counted command else (0, 0) }

def load (store : CommandHistoryStore) : CommandHistory := { s with
  store
  loaded := true
  uses := s.uses ++ (itemsOf (store globalScopeKey)).map fun item => (item.command, item.lastUsedAt)
  counted := fun command =>
    ((((itemsOf (store globalScopeKey)).find? (·.command = command)).map (·.useCount)).getD 0,
      (s.counted command).2) }

def trim (command : Text) : Text := trimBy isJsWhitespace command

/-- `setSessionBuckets` and `setStore` of `recordCommand`. Each updater reads the clock. -/
def record (sessionId : Option Text) (command : Text) (source : CommandHistorySource)
    (sessionNow now : ℤ) : CommandHistory := { s with
  sessionBuckets := match sessionId with
    | some id => Function.update s.sessionBuckets id
        (some (upsertHistoryBucket (s.sessionBuckets id) command source sessionNow))
    | none => s.sessionBuckets
  store := Function.update s.store globalScopeKey
    (some (upsertHistoryBucket (s.store globalScopeKey) command source now))
  uses := s.uses ++ [(command, (now : ℚ))]
  wanted := Function.update s.wanted command (some (now : ℚ))
  last := some ⟨sessionId, command⟩
  counted := Function.update s.counted command
    ((s.counted command).1, (s.counted command).2 + 1) }

/-- `recordCommand`. An empty id of a session counts as none. -/
def recordCommand (sessionId : Option Text) (command : Text) (source : CommandHistorySource)
    (sessionNow now : ℤ) : CommandHistory :=
  if trim command = [] then s
  else (s.record (truthy sessionId) (trim command) source sessionNow now).recount

/-- What the updater of `removeGlobalCommand` makes of the store. -/
def removed (command : Text) (now : ℤ) : CommandHistoryStore :=
  match s.store globalScopeKey with
  | none => s.store
  | some bucket =>
    let nextItems := bucket.items.filter (·.command ≠ command)
    if nextItems.length = bucket.items.length then s.store
    else Function.update s.store globalScopeKey
      (some { bucket with updatedAt := now, items := nextItems })

def remove (command : Text) (now : ℤ) : CommandHistory := { s with
  store := s.removed command now
  wanted := Function.update s.wanted command none }

def removeGlobalCommand (command : Text) (now : ℤ) : CommandHistory :=
  if trim command = [] then s else (s.remove (trim command) now).recount

def saveEffect : CommandHistory :=
  if s.loaded then { s with saveTimer := some s.store } else s

def expire : CommandHistory :=
  match s.saveTimer with
  | some store => { s with saveTimer := none, saves := s.saves ++ [store] }
  | none => s

end CommandHistory

inductive HistoryStep where
  | load (store : CommandHistoryStore)
  | recordCommand (sessionId : Option Text) (command : Text) (source : CommandHistorySource)
      (sessionNow now : ℤ)
  | removeGlobalCommand (command : Text) (now : ℤ)
  | saveEffect
  | expire

def CommandHistory.next (s : CommandHistory) : HistoryStep → Option CommandHistory
  | .load store => if s.loaded then none else some (s.load store).recount
  | .recordCommand sessionId command source sessionNow now =>
    some (s.recordCommand sessionId command source sessionNow now)
  | .removeGlobalCommand command now => some (s.removeGlobalCommand command now)
  | .saveEffect => some s.saveEffect
  | .expire => some s.expire

/-- `useCommandHistoryState` from its start on. -/
def commandHistory : Machine CommandHistory HistoryStep := .ofStep .start CommandHistory.next

/-! ## What is wanted -/

/-- Distinct commands, and not more than 300. -/
structure Tidy (items : List CommandHistoryItem) : Prop where
  nodup : (commandsOf items).Nodup
  limited : items.length ≤ historyItemsLimit

/-- At least 300 other commands were used no earlier. -/
def Outdated (uses : List (Text × ℚ)) (command : Text) (time : ℚ) : Prop :=
  ∃ others : List Text, others.Nodup ∧ others.length = historyItemsLimit ∧
    ∀ other ∈ others, other ≠ command ∧ ∃ use ∈ uses, use.1 = other ∧ time ≤ use.2

/-- No command is lost. -/
structure HistoryKept (s : CommandHistory) : Prop where
  kept : ∀ command time, s.wanted command = some time →
    command ∈ commandsOf s.globalItems ∨ Outdated s.uses command time
  tidy : (∀ key, Tidy (itemsOf (s.store key))) ∧ ∀ id, Tidy (itemsOf (s.sessionBuckets id))
  last : ∀ record, s.last = some record →
    (s.wanted record.command ≠ none → record.command ∈ commandsOf s.globalItems) ∧
      ∀ id, record.sessionId = some id → record.command ∈ commandsOf (itemsOf (s.sessionBuckets id))
  counts : ∀ item ∈ s.globalItems,
    item.useCount = (s.counted item.command).1 + (s.counted item.command).2

/-! ## The condition -/

def TimelyIn (items : List CommandHistoryItem) (command : Text) (now : ℤ) : Prop :=
  command ∈ commandsOf items ∨ items.countP ((now : ℚ) < ·.lastUsedAt) < historyItemsLimit

/-- **The condition.** The load finds the global bucket empty and brings tidy buckets, and a command
is recorded by a clock that is not behind its buckets. -/
def HistoryStep.InOrder (s : CommandHistory) : HistoryStep → Prop
  | .load store => s.globalItems = [] ∧ ∀ key, Tidy (itemsOf (store key))
  | .recordCommand sessionId command _ sessionNow now =>
    CommandHistory.trim command ≠ [] →
      TimelyIn s.globalItems (CommandHistory.trim command) now ∧
        ∀ id, truthy sessionId = some id →
          TimelyIn (itemsOf (s.sessionBuckets id)) (CommandHistory.trim command) sessionNow
  | _ => True

/-! ## Buckets after a use -/

section Buckets

variable {items : List CommandHistoryItem} {item : CommandHistoryItem} {command : Text}
  {source : CommandHistorySource} {now : ℤ} {uses : List (Text × ℚ)}

theorem mem_commandsOf : command ∈ commandsOf items ↔ ∃ item ∈ items, item.command = command :=
  List.mem_map

theorem commandsOf_useExisting :
    commandsOf (useExisting command source now items) = commandsOf items := by
  induction items with
  | nil => rfl
  | cons item items ih =>
    unfold useExisting
    split
    · rfl
    · exact congrArg (item.command :: ·) ih

theorem mem_useExisting_of_ne (hmem : item ∈ items) (hne : item.command ≠ command) :
    item ∈ useExisting command source now items := by
  induction items with
  | nil => exact absurd hmem List.not_mem_nil
  | cons first items ih =>
    unfold useExisting
    split
    · rename_i hfirst
      rcases List.mem_cons.mp hmem with rfl | hmem
      · exact absurd hfirst hne
      · exact List.mem_cons_of_mem _ hmem
    · rcases List.mem_cons.mp hmem with rfl | hmem
      · exact List.mem_cons_self
      · exact List.mem_cons_of_mem _ (ih hmem)

theorem of_mem_useExisting (hnodup : (commandsOf items).Nodup)
    (hmem : item ∈ useExisting command source now items) :
    (item.command ≠ command ∧ item ∈ items) ∨
      (item.command = command ∧ ∃ old ∈ items, old.command = command ∧
        item = old.usedAgain source now) := by
  induction items with
  | nil => exact absurd hmem List.not_mem_nil
  | cons first items ih =>
    obtain ⟨hnew, hrest⟩ := List.nodup_cons.mp hnodup
    unfold useExisting at hmem
    split at hmem
    · rename_i hfirst
      rcases List.mem_cons.mp hmem with rfl | hmem
      · exact .inr ⟨hfirst, first, List.mem_cons_self, hfirst, rfl⟩
      · refine .inl ⟨fun heq => hnew ?_, List.mem_cons_of_mem _ hmem⟩
        exact mem_commandsOf.mpr ⟨item, hmem, heq.trans hfirst.symm⟩
    · rename_i hfirst
      rcases List.mem_cons.mp hmem with rfl | hmem
      · exact .inl ⟨hfirst, List.mem_cons_self⟩
      · rcases ih hrest hmem with ⟨hne, hold⟩ | ⟨heq, old, hold, hused⟩
        · exact .inl ⟨hne, List.mem_cons_of_mem _ hold⟩
        · exact .inr ⟨heq, old, List.mem_cons_of_mem _ hold, hused⟩

/-- The item of the command that has been used. -/
structure Used (items : List CommandHistoryItem) (now : ℤ) (item : CommandHistoryItem) : Prop where
  time : item.lastUsedAt = now
  count : (∃ old ∈ items, old.command = item.command ∧ item.useCount = old.useCount + 1) ∨
    (item.command ∉ commandsOf items ∧ item.useCount = 1)

theorem of_mem_upsertItems (hnodup : (commandsOf items).Nodup)
    (hmem : item ∈ upsertItems command source now items) :
    (item.command ≠ command ∧ item ∈ items) ∨ (item.command = command ∧ Used items now item) := by
  unfold upsertItems at hmem
  split at hmem
  · refine (of_mem_useExisting hnodup hmem).imp_right ?_
    rintro ⟨heq, old, hold, hcommand, rfl⟩
    exact ⟨heq, rfl, .inl ⟨old, hold, rfl, rfl⟩⟩
  · rename_i habsent
    rcases List.mem_cons.mp hmem with rfl | hmem
    · exact .inr ⟨rfl, rfl, .inr ⟨habsent, rfl⟩⟩
    · refine .inl ⟨fun heq => habsent (mem_commandsOf.mpr ⟨item, hmem, heq⟩), hmem⟩

theorem mem_upsertItems_of_ne (hmem : item ∈ items) (hne : item.command ≠ command) :
    item ∈ upsertItems command source now items := by
  unfold upsertItems
  split
  · exact mem_useExisting_of_ne hmem hne
  · exact List.mem_cons_of_mem _ hmem

theorem mem_commandsOf_upsertItems :
    command ∈ commandsOf (upsertItems command source now items) := by
  unfold upsertItems
  split
  · rename_i hmem
    rw [commandsOf_useExisting]
    exact hmem
  · exact List.mem_cons_self

theorem nodup_upsertItems (hnodup : (commandsOf items).Nodup) :
    (commandsOf (upsertItems command source now items)).Nodup := by
  unfold upsertItems
  split
  · rw [commandsOf_useExisting]
    exact hnodup
  · rename_i hnew
    exact List.nodup_cons.mpr ⟨hnew, hnodup⟩

def usedItems (command : Text) (source : CommandHistorySource) (now : ℤ)
    (items : List CommandHistoryItem) : List CommandHistoryItem :=
  trimHistoryItems (upsertItems command source now items) historyItemsLimit

theorem tidy_usedItems (h : Tidy items) : Tidy (usedItems command source now items) :=
  ⟨nodup_map_newest (nodup_upsertItems h.nodup), length_newest_le⟩

theorem of_mem_usedItems (h : Tidy items) (hmem : item ∈ usedItems command source now items) :
    (item.command ≠ command ∧ item ∈ items) ∨ (item.command = command ∧ Used items now item) :=
  of_mem_upsertItems h.nodup (newest_subset hmem)

theorem mem_commandsOf_usedItems (h : Tidy items) (htimely : TimelyIn items command now) :
    command ∈ commandsOf (usedItems command source now items) := by
  by_cases hold : command ∈ commandsOf items
  · -- nothing is dropped
    have hused : command ∈ commandsOf (upsertItems command source now items) :=
      mem_commandsOf_upsertItems
    obtain ⟨item, hmem, hcommand⟩ := mem_commandsOf.mp hused
    refine mem_commandsOf.mpr ⟨item, mem_newest_of_length_le ?_ hmem, hcommand⟩
    have hlength : (upsertItems command source now items).length = items.length := by
      unfold upsertItems
      rw [if_pos hold]
      have hsame : commandsOf (useExisting command source now items) = commandsOf items :=
        commandsOf_useExisting
      have hcommands := congrArg List.length hsame
      rwa [commandsOf, commandsOf, List.length_map, List.length_map] at hcommands
    rw [hlength]
    exact h.limited
  · have hkept : newItem command source now ∈ newest CommandHistoryItem.lastUsedAt
        historyItemsLimit (newItem command source now :: items) :=
      mem_newest_cons (htimely.resolve_left hold)
    refine mem_commandsOf.mpr ⟨newItem command source now, ?_, rfl⟩
    unfold usedItems trimHistoryItems upsertItems
    rw [if_neg hold]
    exact hkept

theorem outdated_of_dropped (h : Tidy items)
    (hmem : item ∈ upsertItems command source now items)
    (hdropped : item ∉ usedItems command source now items)
    (huses : ∀ other ∈ usedItems command source now items,
      (other.command, other.lastUsedAt) ∈ uses) :
    Outdated uses item.command item.lastUsedAt := by
  obtain ⟨hfull, hlater⟩ := dropped_of_not_mem hmem hdropped
  refine ⟨commandsOf (usedItems command source now items), (tidy_usedItems h).nodup,
    (List.length_map _).trans hfull, ?_⟩
  intro other hother
  obtain ⟨kept, hkept, rfl⟩ := mem_commandsOf.mp hother
  refine ⟨fun heq => hdropped ?_, _, huses kept hkept, rfl, hlater kept hkept⟩
  have hsame := List.inj_on_of_nodup_map (nodup_upsertItems h.nodup) (newest_subset hkept) hmem heq
  exact hsame ▸ hkept

theorem Outdated.mono {uses uses' : List (Text × ℚ)} {time : ℚ} (h : Outdated uses command time)
    (huses : ∀ use ∈ uses, use ∈ uses') : Outdated uses' command time := by
  obtain ⟨others, hnodup, hlength, hothers⟩ := h
  refine ⟨others, hnodup, hlength, fun other hother => ?_⟩
  obtain ⟨hne, use, huse, heq, hle⟩ := hothers other hother
  exact ⟨hne, use, huses use huse, heq, hle⟩

end Buckets

/-! ## The invariant -/

namespace CommandHistory

variable {s : CommandHistory} {command : Text}

/-- **The invariant.** -/
structure Ledger (s : CommandHistory) : Prop where
  kept : ∀ command time, s.wanted command = some time →
    (∃ item ∈ s.globalItems, item.command = command ∧ item.lastUsedAt = time) ∨
      Outdated s.uses command time
  used : ∀ item ∈ s.globalItems, (item.command, item.lastUsedAt) ∈ s.uses
  tidy : (∀ key, Tidy (itemsOf (s.store key))) ∧ ∀ id, Tidy (itemsOf (s.sessionBuckets id))
  last : ∀ record, s.last = some record →
    (s.wanted record.command ≠ none → record.command ∈ commandsOf s.globalItems) ∧
      ∀ id, record.sessionId = some id → record.command ∈ commandsOf (itemsOf (s.sessionBuckets id))
  counts : ∀ item ∈ s.globalItems,
    item.useCount = (s.counted item.command).1 + (s.counted item.command).2
  absent : ∀ command, command ∉ commandsOf s.globalItems → s.counted command = (0, 0)

theorem Ledger.historyKept (h : s.Ledger) : HistoryKept s where
  kept command time hwanted := by
    refine (h.kept command time hwanted).imp_left ?_
    rintro ⟨item, hmem, hcommand, -⟩
    exact mem_commandsOf.mpr ⟨item, hmem, hcommand⟩
  tidy := h.tidy
  last := h.last
  counts := h.counts

theorem tidy_nil : Tidy [] := ⟨.nil, Nat.zero_le _⟩

theorem ledger_start : start.Ledger where
  kept _ _ h := by cases h
  used _ h := absurd h List.not_mem_nil
  tidy := ⟨fun _ => tidy_nil, fun _ => tidy_nil⟩
  last _ h := by cases h
  counts _ h := absurd h List.not_mem_nil
  absent _ _ := rfl

theorem Ledger.recount {items : List CommandHistoryItem} (hitems : s.globalItems = items)
    (kept : ∀ command time, s.wanted command = some time →
      (∃ item ∈ items, item.command = command ∧ item.lastUsedAt = time) ∨
        Outdated s.uses command time)
    (used : ∀ item ∈ items, (item.command, item.lastUsedAt) ∈ s.uses) (tidy : Tidy items)
    (others : ∀ key, key ≠ globalScopeKey → Tidy (itemsOf (s.store key)))
    (sessions : ∀ id, Tidy (itemsOf (s.sessionBuckets id)))
    (last : ∀ record, s.last = some record →
      (s.wanted record.command ≠ none → record.command ∈ commandsOf items) ∧
        ∀ id, record.sessionId = some id →
          record.command ∈ commandsOf (itemsOf (s.sessionBuckets id)))
    (counts : ∀ item ∈ items,
      item.useCount = (s.counted item.command).1 + (s.counted item.command).2) :
    s.recount.Ledger := by
  subst hitems
  refine ⟨kept, used, ⟨fun key => ?_, sessions⟩, last, fun item hitem => ?_,
    fun command habsent => if_neg habsent⟩
  · by_cases hkey : key = globalScopeKey
    · exact hkey ▸ tidy
    · exact others key hkey
  · have hmem : item.command ∈ commandsOf s.globalItems := mem_commandsOf.mpr ⟨item, hitem, rfl⟩
    unfold CommandHistory.recount
    dsimp only
    rw [if_pos hmem]
    exact counts item hitem

/-! ### The load -/

theorem find?_of_nodup {items : List CommandHistoryItem} {item : CommandHistoryItem}
    (hnodup : (commandsOf items).Nodup) (hmem : item ∈ items) :
    items.find? (·.command = item.command) = some item := by
  cases hfound : items.find? (·.command = item.command) with
  | none => exact absurd (decide_eq_true rfl) (List.find?_eq_none.mp hfound item hmem)
  | some other =>
    have hcommand := List.find?_some hfound
    exact congrArg some (List.inj_on_of_nodup_map hnodup (List.mem_of_find?_eq_some hfound) hmem
      (of_decide_eq_true hcommand))

theorem Ledger.load (h : s.Ledger) {store : CommandHistoryStore} (hempty : s.globalItems = [])
    (htidy : ∀ key, Tidy (itemsOf (store key))) : (s.load store).recount.Ledger := by
  have hnone : ∀ command, command ∉ commandsOf s.globalItems := by
    rw [hempty]
    exact fun _ => List.not_mem_nil
  refine Ledger.recount rfl ?_ ?_ (htidy globalScopeKey) (fun key _ => htidy key) h.tidy.2 ?_ ?_
  · intro command time hwanted
    rcases h.kept command time hwanted with ⟨item, hmem, hcommand, -⟩ | hold
    · exact absurd (mem_commandsOf.mpr ⟨item, hmem, hcommand⟩) (hnone command)
    · exact .inr (hold.mono fun _ => List.mem_append_left _)
  · exact fun item hmem => List.mem_append_right _ (List.mem_map_of_mem hmem)
  · intro record hrecord
    refine ⟨fun hwanted => ?_, (h.last record hrecord).2⟩
    exact absurd ((h.last record hrecord).1 hwanted) (hnone _)
  · intro item hmem
    unfold CommandHistory.load
    dsimp only
    rw [find?_of_nodup (htidy globalScopeKey).nodup hmem, h.absent _ (hnone _)]
    exact (add_zero _).symm

/-! ### A command is recorded -/

theorem globalItems_record (s : CommandHistory) (sessionId : Option Text) (command : Text)
    (source : CommandHistorySource) (sessionNow now : ℤ) :
    (s.record sessionId command source sessionNow now).globalItems
      = usedItems command source now s.globalItems := by
  unfold globalItems record
  dsimp only
  rw [Function.update_self]
  rfl

theorem sessionItems_record (s : CommandHistory) (sessionId : Option Text) (command : Text)
    (source : CommandHistorySource) (sessionNow now : ℤ) (id : Text) :
    itemsOf ((s.record sessionId command source sessionNow now).sessionBuckets id)
      = if sessionId = some id then
          usedItems command source sessionNow (itemsOf (s.sessionBuckets id))
        else itemsOf (s.sessionBuckets id) := by
  unfold record
  cases sessionId with
  | none => rfl
  | some other =>
    dsimp only
    by_cases heq : id = other
    · subst heq
      rw [Function.update_self, if_pos rfl]
      rfl
    · rw [Function.update_of_ne heq, if_neg fun h => heq (Option.some.inj h).symm]

theorem Ledger.record (h : s.Ledger) {sessionId : Option Text} {source : CommandHistorySource}
    {sessionNow now : ℤ} (htimely : TimelyIn s.globalItems command now)
    (hsession : ∀ id, sessionId = some id →
      TimelyIn (itemsOf (s.sessionBuckets id)) command sessionNow) :
    (s.record sessionId command source sessionNow now).recount.Ledger := by
  have hsessions := s.sessionItems_record sessionId command source sessionNow now
  have htidy : Tidy s.globalItems := h.tidy.1 globalScopeKey
  have huses : ∀ item ∈ usedItems command source now s.globalItems,
      (item.command, item.lastUsedAt) ∈ s.uses ++ [(command, (now : ℚ))] := by
    intro item hmem
    rcases of_mem_usedItems htidy hmem with ⟨-, hold⟩ | ⟨hcommand, hused⟩
    · exact List.mem_append_left _ (h.used item hold)
    · rw [hcommand, hused.time]
      exact List.mem_append_right _ (List.mem_singleton_self _)
  refine Ledger.recount (s.globalItems_record ..) ?_ huses (tidy_usedItems htidy) ?_ ?_ ?_ ?_
  · intro other time hwanted
    change Function.update s.wanted command (some (now : ℚ)) other = some time at hwanted
    by_cases hother : other = command
    · -- it is the command that has just been used
      subst hother
      rw [Function.update_self, Option.some.injEq] at hwanted
      have hmem : other ∈ commandsOf (usedItems other source now s.globalItems) :=
        mem_commandsOf_usedItems htidy htimely
      obtain ⟨item, hmem, hcommand⟩ := mem_commandsOf.mp hmem
      rcases of_mem_usedItems htidy hmem with ⟨hne, -⟩ | ⟨-, hused⟩
      · exact absurd hcommand hne
      · exact .inl ⟨item, hmem, hcommand, hused.time.trans hwanted⟩
    · rw [Function.update_of_ne hother] at hwanted
      rcases h.kept other time hwanted with ⟨item, hmem, rfl, rfl⟩ | hold
      · by_cases hkept : item ∈ usedItems command source now s.globalItems
        · exact .inl ⟨item, hkept, rfl, rfl⟩
        · exact .inr (outdated_of_dropped htidy (mem_upsertItems_of_ne hmem hother) hkept huses)
      · exact .inr (hold.mono fun _ => List.mem_append_left _)
  · intro key hkey
    unfold CommandHistory.record
    dsimp only
    rw [Function.update_of_ne hkey]
    exact h.tidy.1 key
  · intro id
    rw [hsessions]
    split
    · exact tidy_usedItems (h.tidy.2 id)
    · exact h.tidy.2 id
  · rintro _ ⟨⟩
    refine ⟨fun _ => mem_commandsOf_usedItems htidy htimely, fun id hid => ?_⟩
    rw [hsessions, if_pos hid]
    exact mem_commandsOf_usedItems (h.tidy.2 id) (hsession id hid)
  · intro item hmem
    unfold CommandHistory.record
    dsimp only
    rcases of_mem_usedItems htidy hmem with ⟨hne, hold⟩ | ⟨rfl, hused⟩
    · rw [Function.update_of_ne hne]
      exact h.counts item hold
    · rw [Function.update_self]
      dsimp only
      rw [Nat.cast_succ, ← add_assoc]
      rcases hused.count with ⟨old, hold, hcommand, hcount⟩ | ⟨hnew, hcount⟩
      · rw [hcount, h.counts old hold, hcommand]
      · rw [hcount, h.absent _ hnew, Nat.cast_zero, zero_add, zero_add]

/-! ### A command is removed -/

theorem globalItems_remove (s : CommandHistory) (command : Text) (now : ℤ) :
    (s.remove command now).globalItems = s.globalItems.filter (·.command ≠ command) := by
  unfold globalItems remove removed
  dsimp only
  cases hbucket : s.store globalScopeKey with
  | none =>
    dsimp only
    rw [hbucket]
    rfl
  | some bucket =>
    dsimp only
    split
    · rename_i hlength
      rw [hbucket]
      exact (List.filter_sublist.eq_of_length hlength).symm
    · rw [Function.update_self]
      rfl

theorem store_remove_of_ne {key : Text} (hkey : key ≠ globalScopeKey) (now : ℤ) :
    (s.remove command now).store key = s.store key := by
  unfold remove removed
  dsimp only
  cases s.store globalScopeKey with
  | none => rfl
  | some bucket =>
    dsimp only
    split
    · rfl
    · exact Function.update_of_ne hkey _ _

theorem Ledger.remove (h : s.Ledger) (command : Text) (now : ℤ) :
    (s.remove command now).recount.Ledger := by
  have hsub : ∀ item ∈ s.globalItems.filter (·.command ≠ command), item ∈ s.globalItems :=
    fun item => List.mem_of_mem_filter
  have hstay : ∀ item ∈ s.globalItems, item.command ≠ command →
      item ∈ s.globalItems.filter (·.command ≠ command) := fun item hmem hne =>
    List.mem_filter.mpr ⟨hmem, decide_eq_true hne⟩
  have hwanted : ∀ other time, (s.remove command now).wanted other = some time →
      other ≠ command ∧ s.wanted other = some time := by
    intro other time hother
    change Function.update s.wanted command none other = some time at hother
    by_cases heq : other = command
    · rw [heq, Function.update_self] at hother
      cases hother
    · rw [Function.update_of_ne heq] at hother
      exact ⟨heq, hother⟩
  have htidy : Tidy s.globalItems := h.tidy.1 globalScopeKey
  refine Ledger.recount (s.globalItems_remove command now) ?_ ?_ ⟨?_, ?_⟩ ?_ h.tidy.2 ?_ ?_
  · intro other time hother
    obtain ⟨hne, hold⟩ := hwanted other time hother
    refine (h.kept other time hold).imp_left ?_
    rintro ⟨item, hmem, rfl, htime⟩
    exact ⟨item, hstay item hmem hne, rfl, htime⟩
  · exact fun item hmem => h.used item (hsub item hmem)
  · exact htidy.nodup.sublist (List.filter_sublist.map _)
  · exact (List.length_filter_le _ _).trans htidy.limited
  · intro key hkey
    rw [store_remove_of_ne hkey]
    exact h.tidy.1 key
  · intro record hrecord
    refine ⟨fun hsome => ?_, (h.last record hrecord).2⟩
    obtain ⟨time, htime⟩ := Option.ne_none_iff_exists'.mp hsome
    obtain ⟨hne, hold⟩ := hwanted _ time htime
    have hmem := (h.last record hrecord).1 (by rw [hold]; exact Option.some_ne_none _)
    obtain ⟨item, hitem, hcommand⟩ := mem_commandsOf.mp hmem
    exact mem_commandsOf.mpr ⟨item, hstay item hitem (hcommand ▸ hne), hcommand⟩
  · exact fun item hmem => h.counts item (hsub item hmem)

/-! ### Runs -/

/-- **The step lemma.** -/
theorem Ledger.next {t : CommandHistory} {step : HistoryStep} (h : s.Ledger)
    (horder : step.InOrder s) (hstep : s.next step = some t) : t.Ledger := by
  cases step with
  | load store =>
    unfold CommandHistory.next at hstep
    dsimp only at hstep
    split at hstep
    · cases hstep
    · cases hstep
      exact h.load horder.1 horder.2
  | recordCommand sessionId command source sessionNow now =>
    cases hstep
    unfold recordCommand
    split
    · exact h
    · rename_i hne
      obtain ⟨htimely, hsession⟩ := horder hne
      exact h.record htimely hsession
  | removeGlobalCommand command now =>
    cases hstep
    unfold removeGlobalCommand
    split
    · exact h
    · exact h.remove _ now
  | saveEffect =>
    cases hstep
    unfold saveEffect
    split
    · exact ⟨h.kept, h.used, h.tidy, h.last, h.counts, h.absent⟩
    · exact h
  | expire =>
    cases hstep
    unfold expire
    split
    · exact ⟨h.kept, h.used, h.tidy, h.last, h.counts, h.absent⟩
    · exact h

end CommandHistory

/-- **No command is lost** in any run whose steps meet the condition. -/
theorem historyKept_of_inOrder (s : CommandHistory)
    (h : (commandHistory.restrict fun s step => step.InOrder s).Reachable s) : HistoryKept s := by
  refine CommandHistory.Ledger.historyKept (h.induct (I := CommandHistory.Ledger) ?_ ?_)
  · rintro s rfl
    exact CommandHistory.ledger_start
  · rintro s step t - hs ⟨horder, hstep⟩
    exact hs.next horder hstep

/-! ## Before and after the load -/

def sampleLoad : HistoryStep := .load fun _ => none

def sampleRecord : HistoryStep := .recordCommand (some ['s']) "ls".toList .typed 5 6

theorem historyKept_of_inOrder_sampleLoad : ∃ s : CommandHistory, HistoryKept s ∧
    (commandsOf s.globalItems = ["ls".toList] ∧ s.saves.length = 1) := by
  have hload : (commandHistory.restrict fun s step => step.InOrder s).Reachable
      ((CommandHistory.start.load fun _ => none).recount) :=
    .step (.init rfl) ⟨show sampleLoad.InOrder .start from ⟨rfl, fun _ => ⟨.nil, Nat.zero_le _⟩⟩, rfl⟩
  have hrecord : sampleRecord.InOrder ((CommandHistory.start.load fun _ => none).recount) :=
    fun _ => ⟨.inr (by decide), fun id _ => .inr (by decide : 0 < historyItemsLimit)⟩
  have hrecorded := hload.step ⟨hrecord, rfl⟩
  have hsaved := hrecorded.step ⟨show HistoryStep.saveEffect.InOrder _ from trivial, rfl⟩
  have hexpired := hsaved.step ⟨show HistoryStep.expire.InOrder _ from trivial, rfl⟩
  exact ⟨_, historyKept_of_inOrder _ hexpired, rfl, rfl⟩

/-- A command is recorded before the history has been loaded. -/
theorem sampleEarly_loses : ¬∀ s, commandHistory.Reachable s → HistoryKept s := by
  intro h
  have hrun : ∃ s, Machine.exec CommandHistory.next .start [sampleRecord, sampleLoad] = some s ∧
      s.last = some ⟨some ['s'], "ls".toList⟩ ∧ s.wanted "ls".toList = some 6 ∧
      s.globalItems = [] := ⟨_, rfl, rfl, rfl, rfl⟩
  obtain ⟨s, hexec, hlast, hwanted, hitems⟩ := hrun
  have hmem := ((h s (Machine.reachable_exec hexec)).last _ hlast).1 (by
    rw [hwanted]
    exact Option.some_ne_none _)
  rw [hitems] at hmem
  exact absurd hmem List.not_mem_nil

end FluxTerm.History
