import FluxTerm.Lib.ReplaceFile
import FluxTerm.RemoteEdit.Open
import Mathlib.Data.Char
import Mathlib.Data.List.Lex

/-!
# FluxTerm — the index of remote editing, written by several calls

The index functions of `src-tauri/src/remote_edit.rs` as `remote_edit_open` and
`remote_edit_confirm_upload` use them. Each call runs in a thread of its own. The index is loaded
and replaced in several file operations, and between any two of them every other call may take its
steps.
-/

namespace FluxTerm.RemoteEdit

open FluxTerm.Lib

/-! ## The index -/

/-- `RemoteEditIndexStore`. The entries are kept in the order of their ids. -/
structure RemoteEditIndexStore where
  version : UInt8
  entries : OrdMap Text RemoteEditIndexEntry
deriving DecidableEq

def RemoteEditIndexStore.initial : RemoteEditIndexStore := ⟨1, .empty⟩

/-- `serde_json::to_vec_pretty` and `serde_json::from_slice` for the index. -/
structure IndexCodec where
  toVecPretty : RemoteEditIndexStore → Bytes
  fromSlice : Bytes → Except String RemoteEditIndexStore
  fromSlice_toVecPretty : ∀ store, fromSlice (toVecPretty store) = .ok store

inductive IndexUpdate where
  | upsert (entry : RemoteEditIndexEntry)
  | remove (instanceIds : List Text)
deriving DecidableEq

namespace IndexUpdate

def apply (update : IndexUpdate) (store : RemoteEditIndexStore) : RemoteEditIndexStore :=
  match update with
  | .upsert entry => ⟨1, store.entries.insert entry.instanceId entry⟩
  | .remove instanceIds => { store with entries := instanceIds.foldl .without store.entries }

def owed (update : IndexUpdate) (before : Text → Option RemoteEditIndexEntry) :
    Text → Option RemoteEditIndexEntry :=
  match update with
  | .upsert entry => Function.update before entry.instanceId (some entry)
  | .remove instanceIds => fun instanceId =>
    if instanceId ∈ instanceIds then none else before instanceId

end IndexUpdate

/-! ## The calls -/

/-- What the index is loaded for. -/
inductive IndexTask where
  /-- `prune_stale_remote_edit_index_entries`. -/
  | prune
  /-- `remote_edit_prepare_open` looks for its entry. The flag is `local_exists`. -/
  | lookup (localExists : Bool)
  /-- `remove_remote_edit_index_entry`. -/
  | remove
  /-- `upsert_remote_edit_index_entry`. -/
  | upsert (entry : RemoteEditIndexEntry)
deriving DecidableEq

/-- The steps of `write_remote_edit_index`. -/
inductive ReplaceStep where
  | create
  | write (file : ℕ)
  | rename
  | check
  | removeOld
  | renameAgain
deriving DecidableEq

/-- Where a call is. -/
inductive IndexStage where
  /-- `ensure_remote_file_cache_cleanup` has not read its marker. -/
  | cleanup
  | copy
  | working
  /-- `path.is_file()` of `load_remote_edit_index`. -/
  | load (task : IndexTask)
  /-- Its `fs::read`. -/
  | read (task : IndexTask)
  /-- The entries are looked at that are `left`. -/
  | prune (store : RemoteEditIndexStore) (left : List (Text × RemoteEditIndexEntry))
      (stale : List Text)
  | replace (step : ReplaceStep) (after : IndexStage) (update : IndexUpdate)
      (store : RemoteEditIndexStore)
  | returned (ok : Bool)
deriving DecidableEq

structure IndexCall where
  instanceId : Text
  localPath : Text
  stage : IndexStage
  seen : ℕ
deriving DecidableEq

abbrev IndexFiles := TwoNames UInt8

structure IndexMove where
  files : IndexFiles
  stage : IndexStage
  done : Option IndexUpdate

namespace IndexCall

variable (codec : IndexCodec) (copyOf : RemoteEditIndexEntry → Option Text)
  (call : IndexCall) (files : IndexFiles) (isFile : Text → Bool)

/-- What a call does with the index that it has loaded. -/
def loaded (task : IndexTask) (store : RemoteEditIndexStore) : IndexStage :=
  let found := (store.entries.get? call.instanceId).isSome
  match task with
  | .prune => .prune store store.entries.entries []
  | .lookup true => if found then .working else .returned false
  | .lookup false => if found then .load .remove else .working
  | .remove =>
    if found then
      let update := .remove [call.instanceId]
      .replace .create .working update (update.apply store)
    else .working
  | .upsert entry =>
    let update := .upsert entry
    .replace .create (.returned true) update (update.apply store)

/-- `load_remote_edit_index` for the content of the file. -/
def parsed (task : IndexTask) (raw : Bytes) : IndexStage :=
  match codec.fromSlice raw with
  | .error _ => .returned false
  | .ok store =>
    call.loaded task { store with version := if store.version = 0 then 1 else store.version }

/-- One step of `write_remote_edit_index`. -/
def replaceStep (after : IndexStage) (update : IndexUpdate) (store : RemoteEditIndexStore) :
    ReplaceStep → IndexMove
  | .create => ⟨files.create.1, .replace (.write files.create.2) after update store, none⟩
  | .write file =>
    ⟨files.write file (codec.toVecPretty store), .replace .rename after update store, none⟩
  | .rename =>
    match files.rename with
    | some files => ⟨files, after, some update⟩
    | none => ⟨files, .replace .check after update store, none⟩
  | .check =>
    if files.doc.isSome then ⟨files, .replace .removeOld after update store, none⟩
    else ⟨files, .returned false, none⟩
  | .removeOld =>
    if files.doc.isSome then ⟨files.remove, .replace .renameAgain after update store, none⟩
    else ⟨files, .returned false, none⟩
  | .renameAgain =>
    match files.rename with
    | some files => ⟨files, after, some update⟩
    | none => ⟨files, .returned false, none⟩

/-- The next operation, when nothing else goes wrong. -/
def goOn : Option IndexMove :=
  match call.stage with
  | .copy => some ⟨files, .load (.lookup (isFile call.localPath)), none⟩
  | .load task =>
    some ⟨files, if files.doc.isSome then .read task else call.loaded task .initial, none⟩
  | .read task =>
    some ⟨files, (files.read.map (call.parsed codec task)).getD (.returned false), none⟩
  | .prune store ((instanceId, entry) :: left) stale =>
    let isStale := (copyOf entry).any fun path => !isFile path
    some ⟨files, .prune store left (if isStale then stale ++ [instanceId] else stale), none⟩
  | .prune store [] stale =>
    if stale = [] then some ⟨files, .copy, none⟩
    else
      let update := .remove stale
      some ⟨files, .replace .create .copy update (update.apply store), none⟩
  | .replace step after update store => some (replaceStep codec files after update store step)
  | .cleanup | .working | .returned _ => none

end IndexCall

/-! ## The machine -/

structure IndexRun where
  files : IndexFiles
  /-- `is_file` for the working copies. -/
  isFile : Text → Bool
  calls : List IndexCall
  owed : Text → Option RemoteEditIndexEntry
  replaced : ℕ

/-- What happens. -/
inductive IndexEvent where
  /-- `remote_edit_open` is called. -/
  | openFile (instanceId localPath : Text)
  /-- `remote_edit_confirm_upload` is called. -/
  | confirmUpload (instanceId localPath : Text)
  | cleanup (call : ℕ) (isCurrent : Bool)
  | upsert (call : ℕ) (entry : RemoteEditIndexEntry)
  | goOn (call : ℕ)
  | renameFails (call : ℕ)
  | writeFails (call length : ℕ)
  | fails (call : ℕ)
  | copies (isFile : Text → Bool)

namespace IndexRun

variable (codec : IndexCodec) (copyOf : RemoteEditIndexEntry → Option Text) (s : IndexRun)

def setStage (k : ℕ) (call : IndexCall) (stage : IndexStage) : IndexRun :=
  { s with calls := s.calls.set k { call with stage } }

/-- A call has made its move. -/
def move (k : ℕ) (call : IndexCall) (m : IndexMove) : IndexRun :=
  let seen := match call.stage with
    | .load _ | .read _ => s.replaced
    | _ => call.seen
  { s with
    files := m.files
    calls := s.calls.set k { call with stage := m.stage, seen }
    owed := m.done.elim s.owed (·.owed s.owed)
    replaced := if m.done.isSome then s.replaced + 1 else s.replaced }

/-- One step. -/
def next : IndexEvent → Option IndexRun
  | .openFile instanceId localPath =>
    some { s with calls := s.calls ++ [⟨instanceId, localPath, .cleanup, 0⟩] }
  | .confirmUpload instanceId localPath =>
    some { s with calls := s.calls ++ [⟨instanceId, localPath, .working, 0⟩] }
  | .cleanup k isCurrent => (s.calls[k]?).bind fun call =>
    match call.stage with
    | .cleanup => some (s.setStage k call (if isCurrent then .copy else .load .prune))
    | _ => none
  | .upsert k entry => (s.calls[k]?).bind fun call =>
    match call.stage with
    | .working =>
      if entry.instanceId = call.instanceId then some (s.setStage k call (.load (.upsert entry)))
      else none
    | _ => none
  | .goOn k => (s.calls[k]?).bind fun call =>
    (call.goOn codec copyOf s.files s.isFile).map (s.move k call)
  | .renameFails k => (s.calls[k]?).bind fun call =>
    match call.stage with
    | .replace .rename after update store =>
      some (s.setStage k call (.replace .check after update store))
    | _ => none
  | .writeFails k length => (s.calls[k]?).bind fun call =>
    match call.stage with
    | .replace (.write file) _ _ store =>
      some { s.setStage k call (.returned false) with
        files := s.files.write file ((codec.toVecPretty store).take length) }
    | _ => none
  | .fails k => (s.calls[k]?).bind fun call =>
    match call.stage with
    | .returned _ => none
    | _ => some (s.setStage k call (.returned false))
  | .copies isFile => some { s with isFile }

def indexed (codec : IndexCodec) (files : IndexFiles) (instanceId : Text) :
    Option RemoteEditIndexEntry :=
  match files.read.map codec.fromSlice with
  | some (.ok store) => store.entries.get? instanceId
  | _ => none

def start (files : IndexFiles) (isFile : Text → Bool) : IndexRun :=
  ⟨files, isFile, [], indexed codec files, 0⟩

/-- Every call has returned `Ok`. -/
def AllReturned : Prop := s.calls ≠ [] ∧ ∀ call ∈ s.calls, call.stage = .returned true

/-- When every call has returned `Ok`, the index parses and has for every id the entry that was
last upserted, unless that was removed because its working copy was missing. -/
def EntriesKept : Prop :=
  s.AllReturned → ∃ store, s.files.read.map codec.fromSlice = some (.ok store) ∧
    ∀ instanceId entry, s.owed instanceId = some entry →
      store.entries.get? instanceId = some entry

end IndexRun

def indexMachine (codec : IndexCodec) (copyOf : RemoteEditIndexEntry → Option Text)
    (files : IndexFiles) (isFile : Text → Bool) : Machine IndexRun IndexEvent :=
  .ofStep (IndexRun.start codec files isFile) (IndexRun.next codec copyOf)

end FluxTerm.RemoteEdit
