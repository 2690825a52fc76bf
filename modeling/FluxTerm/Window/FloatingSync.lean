import FluxTerm.Lib.Machine
import FluxTerm.Lib.MarkedJoin
import FluxTerm.Lib.Text
import Mathlib.Data.List.Count
import Mathlib.Data.List.Perm.Basic

/-!
# FluxTerm — snapshots for floating windows

`useFloatingWidgetSync.ts`, on one channel: the main window tells the floating windows its snapshot
when the signature of its dependencies is another one, and when it is asked; a floating window asks
when it is mounted, and posts actions. The effects of a commit run after it, and messages may come
in between. What the main window says arrives in order.

* **`floatingSync_kept`** — what holds in runs where the dependencies are clear.
-/

namespace FluxTerm.FloatingSync

open Lib

/-! ## The signature -/

/-- A number, as `String` writes it. -/
structure Numeral where
  text : Text
  alphabet : ∀ c ∈ text, c ∈ "0123456789+-.einfatyIN".toList
deriving DecidableEq

/-- A dependency. Objects and functions are what they are: `ref` says which one. -/
inductive DepValue where
  | undefined
  | null
  | boolean (value : Bool)
  | number (value : Numeral)
  | string (value : Text)
  | object (ref : ℕ)
  | function (ref : ℕ)
deriving DecidableEq

/-- What `typeof` says. -/
inductive TypeName where
  | undefined
  | object
  | boolean
  | number
  | string
  | function
deriving DecidableEq

def TypeName.text : TypeName → Text
  | .undefined => "undefined".toList
  | .object => "object".toList
  | .boolean => "boolean".toList
  | .number => "number".toList
  | .string => "string".toList
  | .function => "function".toList

def DepValue.typeof : DepValue → TypeName
  | .undefined => .undefined
  | .null | .object _ => .object
  | .boolean _ => .boolean
  | .number _ => .number
  | .string _ => .string
  | .function _ => .function

/-- What has an entry in `floatingSyncDepIds`. -/
def DepValue.ref? : DepValue → Option ℕ
  | .object ref | .function ref => some ref
  | _ => none

/-- `floatingSyncDepIds` and `nextFloatingSyncDepId`: what has been seen, in order; the first one
has number 1. -/
abbrev DepIds := List ℕ

def DepIds.register (ids : DepIds) (ref : ℕ) : DepIds := if ref ∈ ids then ids else ids ++ [ref]

/-- What stands behind the type: the number of a reference, and `String` of other values. -/
def DepValue.label (ids : DepIds) : DepValue → Text
  | .undefined => "undefined".toList
  | .null => "null".toList
  | .boolean value => (if value then "true" else "false").toList
  | .number value => value.text
  | .string value => value
  | .object ref | .function ref => (toString (ids.idxOf ref + 1)).toList

def DepValue.token (ids : DepIds) (value : DepValue) : Text :=
  value.typeof.text ++ ':' :: value.label ids

def getFloatingSyncDepToken (ids : DepIds) (value : DepValue) : Text × DepIds :=
  match value.ref? with
  | some ref => (value.token (ids.register ref), ids.register ref)
  | none => (value.token ids, ids)

/-- `deps.map(getFloatingSyncDepToken)`. -/
def depTokens : DepIds → List DepValue → List Text × DepIds
  | ids, [] => ([], ids)
  | ids, value :: deps =>
    let (token, ids) := getFloatingSyncDepToken ids value
    let (tokens, ids) := depTokens ids deps
    (token :: tokens, ids)

def depsSignature (ids : DepIds) (deps : List DepValue) : Text × DepIds :=
  let (tokens, ids) := depTokens ids deps
  (['|'].intercalate tokens, ids)

/-! ## The channel -/

/-- A commit of the main window. Its snapshot is that of `deps`. -/
structure Commit where
  deps : List DepValue
  signature : Text
deriving DecidableEq

inductive Post where
  | requestSnapshot
  | action (id : ℕ)
deriving DecidableEq

structure FloatingWindow where
  mounted : Bool
  inbox : List (List DepValue)
  received : Option (List DepValue)

def FloatingWindow.told (window : FloatingWindow) : List (List DepValue) :=
  window.received.toList ++ window.inbox

structure Handling where
  action : ℕ
  handlers : ℕ
  latest : ℕ
deriving DecidableEq

/-- The windows on a channel. -/
structure Channel (ι : Type*) where
  ids : DepIds
  pending : Option Commit
  done : List Commit
  windows : ι → FloatingWindow
  posts : List Post
  posted : ℕ
  handled : List Handling

/-- What can happen. -/
inductive ChannelEvent (ι : Type*) where
  | register (ref : ℕ)
  | commit (deps : List DepValue)
  | effects
  | mount (w : ι)
  | unmount (w : ι)
  | act (w : ι)
  /-- `onMainWindowMessage`, with the message at `i` of those on their way. -/
  | mainMessage (i : ℕ)
  /-- `onFloatingWindowMessage`. -/
  | floatingMessage (w : ι)

namespace Channel

variable {ι : Type*} (ch : Channel ι)

def commits : List Commit := ch.pending.toList ++ ch.done

def current : Option (List DepValue) := ch.commits.head?.map Commit.deps

def active : Option (List DepValue) := ch.done.head?.map Commit.deps

def tell (snapshot : List DepValue) : Channel ι :=
  { ch with
    windows := fun w =>
      if (ch.windows w).mounted then
        { ch.windows w with inbox := (ch.windows w).inbox ++ [snapshot] }
      else ch.windows w }

def post (message : Post) : Channel ι :=
  { ch with posts := if ch.done = [] then ch.posts else ch.posts ++ [message] }

def runEffects (commit : Commit) : Channel ι :=
  let ch' := { ch with pending := none, done := commit :: ch.done }
  if ch.done.head?.map Commit.signature = some commit.signature then ch' else ch'.tell commit.deps

def onMainWindowMessage : Post → Channel ι
  | .requestSnapshot =>
    match ch.active with
    | some snapshot => ch.tell snapshot
    | none => ch
  | .action id => { ch with handled := ⟨id, ch.done.length, ch.commits.length⟩ :: ch.handled }

variable [DecidableEq ι]

def put (w : ι) (window : FloatingWindow) : Channel ι :=
  { ch with windows := Function.update ch.windows w window }

/-- One step on the channel. -/
def step (ch : Channel ι) : ChannelEvent ι → Option (Channel ι)
  | .register ref => some { ch with ids := ch.ids.register ref }
  | .commit deps =>
    match ch.pending with
    | some _ => none
    | none =>
      let (signature, ids) := depsSignature ch.ids deps
      some { ch with ids, pending := some ⟨deps, signature⟩ }
  | .effects => ch.pending.map ch.runEffects
  | .mount w =>
    if (ch.windows w).mounted then none
    else some ((ch.put w ⟨true, [], none⟩).post .requestSnapshot)
  | .unmount w =>
    if (ch.windows w).mounted then some (ch.put w ⟨false, [], none⟩) else none
  | .act w =>
    if (ch.windows w).mounted then
      some { ch.post (.action ch.posted) with posted := ch.posted + 1 }
    else none
  | .mainMessage i =>
    (ch.posts[i]?).map fun message =>
      { ch with posts := ch.posts.eraseIdx i }.onMainWindowMessage message
  | .floatingMessage w =>
    match (ch.windows w).inbox with
    | [] => none
    | snapshot :: inbox => some (ch.put w { ch.windows w with inbox, received := some snapshot })

/-- No window is there yet. -/
def start : Channel ι where
  ids := []
  pending := none
  done := []
  windows _ := ⟨false, [], none⟩
  posts := []
  posted := 0
  handled := []

end Channel

def channelMachine (ι : Type*) [DecidableEq ι] : Machine (Channel ι) (ChannelEvent ι) :=
  .ofStep .start Channel.step

/-! ## Signatures -/

def TypeName.mark (name : TypeName) : Text := name.text ++ [':']

def typeMarks : List Text :=
  [TypeName.undefined.mark, TypeName.object.mark, TypeName.boolean.mark, TypeName.number.mark,
    TypeName.string.mark, TypeName.function.mark]

def DepValue.Clear : DepValue → Prop
  | .string value => Plain '|' typeMarks value
  | _ => True

def DepValue.Known (ids : DepIds) (value : DepValue) : Prop :=
  ∀ ref, value.ref? = some ref → ref ∈ ids

theorem DepIds.mem_register (ids : DepIds) (ref : ℕ) : ref ∈ ids.register ref := by
  unfold DepIds.register
  split
  · assumption
  · exact List.mem_append_right ids List.mem_cons_self

theorem DepIds.prefix_register (ids : DepIds) (ref : ℕ) : ids <+: ids.register ref := by
  unfold DepIds.register
  split
  · exact List.prefix_rfl
  · exact List.prefix_append ids [ref]

theorem DepValue.Known.mono {ids ids' : DepIds} {value : DepValue} (h : value.Known ids)
    (hle : ids <+: ids') : value.Known ids' := fun ref href => hle.subset (h ref href)

theorem DepValue.Known.token_eq {ids ids' : DepIds} {value : DepValue} (h : value.Known ids)
    (hle : ids <+: ids') : value.token ids' = value.token ids := by
  obtain ⟨more, rfl⟩ := hle
  refine congrArg (fun label => value.typeof.text ++ ':' :: label) ?_
  cases value with
  | object ref =>
    exact congrArg (fun i => (toString (i + 1)).toList) (List.idxOf_append_of_mem (h ref rfl))
  | function ref =>
    exact congrArg (fun i => (toString (i + 1)).toList) (List.idxOf_append_of_mem (h ref rfl))
  | _ => rfl

theorem getFloatingSyncDepToken_spec (ids : DepIds) (value : DepValue) :
    ids <+: (getFloatingSyncDepToken ids value).2 ∧
      value.Known (getFloatingSyncDepToken ids value).2 ∧
      (getFloatingSyncDepToken ids value).1 =
        value.token (getFloatingSyncDepToken ids value).2 := by
  unfold getFloatingSyncDepToken
  cases hcase : value.ref? with
  | some ref =>
    refine ⟨ids.prefix_register ref, fun other hother => ?_, rfl⟩
    rw [hcase] at hother
    cases hother
    exact ids.mem_register ref
  | none =>
    refine ⟨List.prefix_rfl, fun other hother => ?_, rfl⟩
    rw [hcase] at hother
    cases hother

theorem depTokens_spec : ∀ (deps : List DepValue) (ids : DepIds),
    ids <+: (depTokens ids deps).2 ∧ (∀ value ∈ deps, value.Known (depTokens ids deps).2) ∧
      (depTokens ids deps).1 = deps.map (DepValue.token (depTokens ids deps).2)
  | [], ids => ⟨List.prefix_rfl, fun _ h => absurd h List.not_mem_nil, rfl⟩
  | value :: deps, ids => by
    obtain ⟨hle, hknown, htoken⟩ := getFloatingSyncDepToken_spec ids value
    obtain ⟨hle', hknown', htokens⟩ := depTokens_spec deps (getFloatingSyncDepToken ids value).2
    refine ⟨hle.trans hle', List.forall_mem_cons.mpr ⟨hknown.mono hle', hknown'⟩, ?_⟩
    exact List.cons_eq_cons.mpr ⟨htoken.trans (hknown.token_eq hle').symm, htokens⟩

theorem TypeName.colon_not_mem (name : TypeName) : ':' ∉ name.text := by
  cases name with
  | _ => decide

theorem TypeName.bar_not_mem (name : TypeName) : '|' ∉ name.mark := by
  cases name with
  | _ => decide

theorem TypeName.text_injective {name name' : TypeName} (h : name.text = name'.text) :
    name = name' := by
  cases name with
  | _ =>
    cases name' with
    | _ => first | rfl | exact absurd h (by decide)

/-- **Tokens tell values apart.** -/
theorem DepValue.token_injective {ids : DepIds} {value value' : DepValue} (h : value.Known ids)
    (h' : value'.Known ids) (heq : value.token ids = value'.token ids) : value = value' := by
  have hparts : splitOnce ':' (value.token ids) = splitOnce ':' (value'.token ids) :=
    congrArg _ heq
  rw [DepValue.token, DepValue.token, splitOnce_append_cons value.typeof.colon_not_mem,
    splitOnce_append_cons value'.typeof.colon_not_mem] at hparts
  obtain ⟨hname, hlabel⟩ := Prod.mk.inj (Option.some.inj hparts)
  have htype := TypeName.text_injective hname
  have href {ref ref' : ℕ} (hmem : ref ∈ ids)
      (hwritten : (toString (ids.idxOf ref + 1)).toList = (toString (ids.idxOf ref' + 1)).toList) :
      ref = ref' :=
    (List.idxOf_inj hmem).mp (Nat.succ.inj (toString_toList_inj hwritten))
  have hnull {n : ℕ} : "null".toList ≠ (toString n).toList := by
    intro hwritten
    have hdigit := isDigit_of_mem_toString (hwritten ▸ (by decide : 'n' ∈ "null".toList))
    cases hdigit
  cases value with
  | undefined =>
    cases value' with
    | undefined => rfl
    | _ => cases htype
  | null =>
    cases value' with
    | null => rfl
    | object ref => exact absurd hlabel hnull
    | _ => cases htype
  | boolean b =>
    cases value' with
    | boolean b' =>
      cases b with
      | true =>
        cases b' with
        | true => rfl
        | false => cases hlabel
      | false =>
        cases b' with
        | true => cases hlabel
        | false => rfl
    | _ => cases htype
  | number n =>
    cases value' with
    | number n' =>
      obtain ⟨text, _⟩ := n
      obtain ⟨text', _⟩ := n'
      cases (hlabel : text = text')
      rfl
    | _ => cases htype
  | string s =>
    cases value' with
    | string s' => exact congrArg DepValue.string hlabel
    | _ => cases htype
  | object ref =>
    cases value' with
    | null => exact absurd hlabel.symm hnull
    | object ref' => exact congrArg DepValue.object (href (h ref rfl) hlabel)
    | _ => cases htype
  | function ref =>
    cases value' with
    | function ref' => exact congrArg DepValue.function (href (h ref rfl) hlabel)
    | _ => cases htype

theorem DepValue.token_marked (ids : DepIds) (value : DepValue) :
    Marked typeMarks (value.token ids) := by
  refine ⟨value.typeof.mark, ?_, value.label ids, by simp [DepValue.token, TypeName.mark]⟩
  cases value.typeof with
  | _ => decide

theorem DepValue.token_plain (ids : DepIds) {value : DepValue} (h : value.Clear) :
    Plain '|' typeMarks (value.token ids) := by
  have hdigits (n : ℕ) : '|' ∉ (toString n).toList := by
    intro hmem
    have hdigit := isDigit_of_mem_toString hmem
    cases hdigit
  have hlabel : Plain '|' typeMarks (value.label ids) := by
    cases value with
    | undefined => exact plain_of_not_mem (by decide : '|' ∉ "undefined".toList)
    | null => exact plain_of_not_mem (by decide : '|' ∉ "null".toList)
    | boolean b =>
      cases b with
      | true => exact plain_of_not_mem (by decide : '|' ∉ "true".toList)
      | false => exact plain_of_not_mem (by decide : '|' ∉ "false".toList)
    | number n => exact plain_of_not_mem fun hmem => absurd (n.alphabet _ hmem) (by decide)
    | string s => exact h
    | object ref => exact plain_of_not_mem (hdigits _)
    | function ref => exact plain_of_not_mem (hdigits _)
  have htoken := hlabel.append_left value.typeof.bar_not_mem
  rwa [TypeName.mark, List.append_assoc] at htoken

theorem map_inj_of_mem {α β : Type*} {f : α → β} : ∀ {xs ys : List α},
    (∀ x ∈ xs, ∀ y ∈ ys, f x = f y → x = y) → xs.map f = ys.map f → xs = ys
  | [], [], _, _ => rfl
  | x :: xs, y :: ys, hf, h => by
    obtain ⟨hhead, htail⟩ := List.cons.inj h
    rw [hf x List.mem_cons_self y List.mem_cons_self hhead, map_inj_of_mem (fun x' hx y' hy =>
      hf x' (List.mem_cons_of_mem x hx) y' (List.mem_cons_of_mem y hy)) htail]

/-- A commit has the signature of its dependencies, by a table that has all of them. -/
structure Commit.Signed (ids : DepIds) (commit : Commit) : Prop where
  known : ∀ value ∈ commit.deps, value.Known ids
  clear : ∀ value ∈ commit.deps, value.Clear
  signature_eq : commit.signature = ['|'].intercalate (commit.deps.map (DepValue.token ids))

theorem Commit.Signed.mono {ids ids' : DepIds} {commit : Commit} (h : commit.Signed ids)
    (hle : ids <+: ids') : commit.Signed ids' where
  known value hvalue := (h.known value hvalue).mono hle
  clear := h.clear
  signature_eq := by
    rw [h.signature_eq]
    refine congrArg _ (List.map_congr_left fun value hvalue => ?_)
    exact ((h.known value hvalue).token_eq hle).symm

/-- **Signatures tell clear dependencies apart.** -/
theorem Commit.Signed.deps_eq {ids : DepIds} {commit commit' : Commit} (h : commit.Signed ids)
    (h' : commit'.Signed ids) (heq : commit.signature = commit'.signature) :
    commit.deps = commit'.deps := by
  have htokens {c : Commit} (hc : c.Signed ids) :
      ∀ text ∈ c.deps.map (DepValue.token ids),
        Marked typeMarks text ∧ Plain '|' typeMarks text := by
    intro text htext
    obtain ⟨value, hvalue, rfl⟩ := List.mem_map.mp htext
    exact ⟨value.token_marked ids, DepValue.token_plain ids (hc.clear value hvalue)⟩
  rw [h.signature_eq, h'.signature_eq] at heq
  have hmap := intercalate_injective (by decide) (htokens h) (htokens h') heq
  exact map_inj_of_mem (fun value hvalue value' hvalue' =>
    DepValue.token_injective (h.known value hvalue) (h'.known value' hvalue')) hmap

/-! ## Runs -/

variable {ι : Type*} {ch ch' : Channel ι}

def Orderly (ch : Channel ι) : ChannelEvent ι → Prop
  | .commit deps => ∀ value ∈ deps, value.Clear
  | .act _ => ch.done ≠ []
  | .mainMessage i => ch.posts[i]? ≠ some .requestSnapshot → ch.pending = none
  | _ => True

def Channel.Informed (ch : Channel ι) (w : ι) : Prop :=
  .requestSnapshot ∈ ch.posts ∨ (ch.windows w).told.getLast? = ch.active

def Channel.handlings (ch : Channel ι) (id : ℕ) : ℕ :=
  ch.handled.countP (·.action = id) + ch.posts.count (.action id)

/-- What holds on the channel as long as nothing is confused. -/
structure Channel.Kept (ch : Channel ι) : Prop where
  signed : ∀ commit ∈ ch.commits, commit.Signed ch.ids
  idle : ch.done = [] → ch.posts = []
  informed : ∀ w, (ch.windows w).mounted = true → ch.Informed w
  once : ∀ id, ch.handlings id = if id < ch.posted then 1 else 0
  latest : ∀ handling ∈ ch.handled, handling.handlers = handling.latest

theorem Channel.told_tell (snapshot : List DepValue) {w : ι}
    (h : ((ch.tell snapshot).windows w).mounted = true) :
    ((ch.tell snapshot).windows w).told.getLast? = some snapshot := by
  unfold Channel.tell at h ⊢
  dsimp only at h ⊢
  split at h
  · rename_i hmounted
    rw [if_pos hmounted, FloatingWindow.told, ← List.append_assoc, List.getLast?_concat]
  · rename_i hmounted
    exact absurd h hmounted

theorem Channel.informed_tell {snapshot : List DepValue} (h : ch.active = some snapshot) {w : ι}
    (hmounted : ((ch.tell snapshot).windows w).mounted = true) :
    (ch.tell snapshot).Informed w :=
  .inr ((Channel.told_tell snapshot hmounted).trans h.symm)

theorem Channel.Kept.register (h : ch.Kept) (ref : ℕ) :
    { ch with ids := ch.ids.register ref }.Kept where
  signed commit hcommit := (h.signed commit hcommit).mono (ch.ids.prefix_register ref)
  idle := h.idle
  informed := h.informed
  once := h.once
  latest := h.latest

theorem Channel.Kept.commit (h : ch.Kept) (hpending : ch.pending = none) {deps : List DepValue}
    (hclear : ∀ value ∈ deps, value.Clear) :
    { ch with
      ids := (depsSignature ch.ids deps).2
      pending := some ⟨deps, (depsSignature ch.ids deps).1⟩ }.Kept where
  signed commit hcommit := by
    obtain ⟨hle, hknown, htokens⟩ := depTokens_spec deps ch.ids
    rcases List.mem_cons.mp hcommit with rfl | hbefore
    · exact ⟨hknown, hclear, congrArg ['|'].intercalate htokens⟩
    · refine (h.signed commit ?_).mono hle
      rw [Channel.commits, hpending]
      exact hbefore
  idle := h.idle
  informed := h.informed
  once := h.once
  latest := h.latest

theorem Channel.Kept.active_eq (h : ch.Kept) {commit : Commit} (hpending : ch.pending = some commit)
    (hsame : ch.done.head?.map Commit.signature = some commit.signature) :
    ch.active = some commit.deps := by
  obtain ⟨before, hbefore, hsignature⟩ := Option.map_eq_some_iff.mp hsame
  have hmem : before ∈ ch.commits := List.mem_append_right _ (List.mem_of_head? hbefore)
  have hmem' : commit ∈ ch.commits := by
    rw [Channel.commits, hpending]
    exact List.mem_cons_self
  rw [Channel.active, hbefore, Option.map_some,
    (h.signed before hmem).deps_eq (h.signed commit hmem') hsignature]

theorem Channel.Kept.effects (h : ch.Kept) {commit : Commit} (hpending : ch.pending = some commit) :
    (ch.runEffects commit).Kept := by
  have hcommits : ch.commits = commit :: ch.done := by
    rw [Channel.commits, hpending]
    rfl
  have hsigned : ∀ other ∈ commit :: ch.done, other.Signed ch.ids := hcommits ▸ h.signed
  unfold Channel.runEffects
  dsimp only
  split
  · rename_i hsame
    refine ⟨hsigned, nofun, fun w hmounted => ?_, h.once, h.latest⟩
    refine (h.informed w hmounted).imp_right fun htold => ?_
    exact htold.trans (h.active_eq hpending hsame)
  · exact ⟨hsigned, nofun, fun w hmounted => Channel.informed_tell rfl hmounted, h.once, h.latest⟩

theorem Channel.Kept.mainMessage (h : ch.Kept) {i : ℕ} {message : Post}
    (hmessage : ch.posts[i]? = some message)
    (hpending : message ≠ .requestSnapshot → ch.pending = none) :
    ({ ch with posts := ch.posts.eraseIdx i }.onMainWindowMessage message).Kept := by
  obtain ⟨hlt, hget⟩ := List.getElem?_eq_some_iff.mp hmessage
  have hperm := List.getElem_cons_eraseIdx_perm hlt
  rw [hget] at hperm
  have hdone : ch.done ≠ [] := by
    intro hnil
    rw [h.idle hnil] at hmessage
    cases hmessage
  cases message with
  | requestSnapshot =>
    obtain ⟨commit, before, hcommit⟩ := List.exists_cons_of_ne_nil hdone
    let asked := { ch with posts := ch.posts.eraseIdx i }
    have hactive : asked.active = some commit.deps := by
      show ch.done.head?.map Commit.deps = _
      rw [hcommit]
      rfl
    have hanswer : asked.onMainWindowMessage .requestSnapshot = asked.tell commit.deps := by
      unfold Channel.onMainWindowMessage
      rw [hactive]
    show (asked.onMainWindowMessage .requestSnapshot).Kept
    rw [hanswer]
    refine ⟨h.signed, fun hnil => absurd hnil hdone, fun w hmounted => ?_, fun id => ?_, h.latest⟩
    · exact Channel.informed_tell hactive hmounted
    · have hcount := hperm.count_eq (.action id)
      rw [List.count_cons_of_ne (by simp)] at hcount
      refine Eq.trans ?_ (h.once id)
      exact congrArg (ch.handled.countP _ + ·) hcount
  | action id =>
    refine ⟨h.signed, fun hnil => absurd hnil hdone, fun w hmounted => ?_, fun other => ?_, ?_⟩
    · refine (h.informed w hmounted).imp_left fun hrequest => ?_
      exact List.mem_of_ne_of_mem (by simp) (hperm.mem_iff.mpr hrequest)
    · have hcount := hperm.count_eq (.action other)
      refine Eq.trans ?_ (h.once other)
      show List.countP _ (_ :: ch.handled) + (ch.posts.eraseIdx i).count _ = _
      rw [Channel.handlings, ← hcount, List.countP_cons, List.count_cons]
      simp
      omega
    · refine List.forall_mem_cons.mpr ⟨?_, h.latest⟩
      show ch.done.length = (ch.pending.toList ++ ch.done).length
      rw [hpending (by simp)]
      rfl

theorem Channel.Kept.request (h : ch.Kept) : (ch.post .requestSnapshot).Kept := by
  unfold Channel.post
  split
  · exact h
  · rename_i hdone
    refine ⟨h.signed, fun hnil => absurd hnil hdone, fun w hmounted => ?_, fun id => ?_, h.latest⟩
    · exact (h.informed w hmounted).imp_left fun hrequest => List.mem_append_left _ hrequest
    · refine Eq.trans ?_ (h.once id)
      show _ + List.count _ (ch.posts ++ [.requestSnapshot]) = _
      rw [List.count_append, List.count_singleton, if_neg (by simp), Nat.add_zero]
      rfl

theorem Channel.Kept.act (h : ch.Kept) (hdone : ch.done ≠ []) :
    { ch.post (.action ch.posted) with posted := ch.posted + 1 }.Kept := by
  unfold Channel.post
  rw [if_neg hdone]
  refine ⟨h.signed, fun hnil => absurd hnil hdone, fun w hmounted => ?_, fun id => ?_, h.latest⟩
  · exact (h.informed w hmounted).imp_left fun hrequest => List.mem_append_left _ hrequest
  · show _ + List.count _ (ch.posts ++ [.action ch.posted]) = if id < ch.posted + 1 then 1 else 0
    have hbefore := h.once id
    rw [Channel.handlings] at hbefore
    have hnew : [Post.action ch.posted].count (.action id) = if id = ch.posted then 1 else 0 := by
      rw [List.count_singleton]
      exact if_congr (by rw [beq_iff_eq, Post.action.injEq, eq_comm]) rfl rfl
    rw [List.count_append, hnew, ← Nat.add_assoc, hbefore]
    split_ifs <;> omega

variable [DecidableEq ι]

theorem Channel.put_self (w : ι) (window : FloatingWindow) :
    (ch.put w window).windows w = window := Function.update_self ..

theorem Channel.put_of_ne {v w : ι} (h : v ≠ w) (window : FloatingWindow) :
    (ch.put w window).windows v = ch.windows v := Function.update_of_ne h ..

theorem Channel.Kept.put (h : ch.Kept) {w : ι} {window : FloatingWindow}
    (hwindow : window.mounted = true → .requestSnapshot ∈ ch.posts ∨
      window.told.getLast? = ch.active) : (ch.put w window).Kept where
  signed := h.signed
  idle := h.idle
  informed v hmounted := by
    by_cases hvw : v = w
    · subst hvw
      rw [Channel.put_self] at hmounted
      refine (hwindow hmounted).imp_right fun htold => ?_
      rw [Channel.put_self]
      exact htold
    · rw [Channel.put_of_ne hvw] at hmounted
      refine (h.informed v hmounted).imp_right fun htold => ?_
      rw [Channel.put_of_ne hvw]
      exact htold
  once := h.once
  latest := h.latest

/-- **One step keeps the channel in order.** -/
theorem Channel.Kept.step {event : ChannelEvent ι} (h : ch.Kept) (horderly : Orderly ch event)
    (hstep : ch.step event = some ch') : ch'.Kept := by
  cases event with
  | register ref =>
    cases hstep
    exact h.register ref
  | commit deps =>
    unfold Channel.step at hstep
    dsimp only at hstep
    split at hstep
    · cases hstep
    · rename_i hpending
      cases hstep
      exact h.commit hpending horderly
  | effects =>
    obtain ⟨commit, hpending, rfl⟩ := Option.map_eq_some_iff.mp hstep
    exact h.effects hpending
  | mount w =>
    unfold Channel.step at hstep
    dsimp only at hstep
    split at hstep
    · cases hstep
    · cases hstep
      show ((ch.post .requestSnapshot).put w ⟨true, [], none⟩).Kept
      refine h.request.put fun _ => ?_
      -- nothing is current before the first effects, and the request goes out after them
      unfold Channel.post
      split
      · rename_i hdone
        refine .inr ?_
        rw [Channel.active, hdone]
        rfl
      · exact .inl (List.mem_append_right _ List.mem_cons_self)
  | unmount w =>
    unfold Channel.step at hstep
    dsimp only at hstep
    split at hstep
    · cases hstep
      exact h.put nofun
    · cases hstep
  | act w =>
    unfold Channel.step at hstep
    dsimp only at hstep
    split at hstep
    · cases hstep
      exact h.act horderly
    · cases hstep
  | mainMessage i =>
    obtain ⟨message, hmessage, rfl⟩ := Option.map_eq_some_iff.mp hstep
    refine h.mainMessage hmessage fun hrequest => horderly ?_
    rw [hmessage]
    exact fun heq => hrequest (Option.some.inj heq)
  | floatingMessage w =>
    unfold Channel.step at hstep
    dsimp only at hstep
    split at hstep
    · cases hstep
    · rename_i snapshot inbox hinbox
      cases hstep
      refine h.put fun hmounted => (h.informed w hmounted).imp_right fun htold => ?_
      rw [← htold, FloatingWindow.told, FloatingWindow.told, hinbox]
      show (snapshot :: inbox).getLast? = _
      rw [List.getLast?_append_of_ne_nil _ (List.cons_ne_nil snapshot inbox)]

theorem kept_of_reachable (h : ((channelMachine ι).restrict Orderly).Reachable ch) : ch.Kept := by
  refine h.induct (I := Channel.Kept) ?_ ?_
  · rintro _ rfl
    exact ⟨nofun, fun _ => rfl, nofun, fun _ => rfl, nofun⟩
  · rintro _ _ _ - hkept ⟨horderly, hstep⟩
    exact hkept.step horderly hstep

/-- The effects of the latest commit have run, and there are no messages. -/
structure Channel.Quiet (ch : Channel ι) : Prop where
  pending : ch.pending = none
  posts : ch.posts = []
  inbox : ∀ w, (ch.windows w).inbox = []

/-- **Floating windows.** In every run where nothing is confused, two commits with different
dependencies have different signatures, in the end the last snapshot of every mounted window is
that of the main window, every action that has been posted is handled once and no other one is, and
those that have been handled were handled by the handlers of the latest commit. -/
theorem floatingSync_kept (h : ((channelMachine ι).restrict Orderly).Reachable ch) :
    (∀ commit ∈ ch.commits, ∀ commit' ∈ ch.commits, commit.deps ≠ commit'.deps →
      commit.signature ≠ commit'.signature) ∧
    (ch.Quiet → ∀ w, (ch.windows w).mounted = true → (ch.windows w).received = ch.current) ∧
    (∀ id, ch.handled.countP (·.action = id) + ch.posts.count (.action id) =
      if id < ch.posted then 1 else 0) ∧
    ∀ handling ∈ ch.handled, handling.handlers = handling.latest := by
  have hkept := kept_of_reachable h
  refine ⟨fun commit hcommit commit' hcommit' => mt fun heq => ?_, fun hquiet w hmounted => ?_,
    hkept.once, hkept.latest⟩
  · exact (hkept.signed commit hcommit).deps_eq (hkept.signed commit' hcommit') heq
  · have htold := (hkept.informed w hmounted).resolve_left fun hrequest => by
      rw [hquiet.posts] at hrequest
      cases hrequest
    rw [FloatingWindow.told, hquiet.inbox w, List.append_nil] at htold
    rw [Channel.current, Channel.commits, hquiet.pending]
    refine Eq.trans ?_ htold
    cases (ch.windows w).received with
    | none => rfl
    | some snapshot => rfl

def joined (deps : List DepValue) : List (ChannelEvent Unit) :=
  [.commit deps, .effects, .mount (), .mainMessage 0, .floatingMessage ()]

theorem joined_kept :
    ∃ ch, Machine.exec Channel.step .start (joined [.boolean true, .null]) = some ch ∧
      ch.Quiet ∧ (ch.windows ()).received = some [.boolean true, .null] ∧
      (ch.Quiet → ∀ w, (ch.windows w).mounted = true → (ch.windows w).received = ch.current) := by
  have hclear : ∀ value ∈ [DepValue.boolean true, .null], value.Clear := by
    simp [DepValue.Clear]
  have hnext (event : ChannelEvent Unit) {ch ch' : Channel Unit}
      (h : ((channelMachine Unit).restrict Orderly).Reachable ch) (horderly : Orderly ch event)
      (hstep : ch.step event = some ch') :
      ((channelMachine Unit).restrict Orderly).Reachable ch' := .step h ⟨horderly, hstep⟩
  have hcommit := hnext (.commit [.boolean true, .null]) (.init rfl) hclear rfl
  have hmounted := hnext (.mount ()) (hnext .effects hcommit trivial rfl) trivial rfl
  have hasked := hnext (.mainMessage 0) hmounted (fun h => absurd rfl h) rfl
  have htold := hnext (.floatingMessage ()) hasked trivial rfl
  exact ⟨_, rfl, ⟨rfl, rfl, fun _ => rfl⟩, rfl, (floatingSync_kept htold).2.1⟩

/-- The label of a session and its user are changed so that a part of one goes to the other: there
is no snapshot, and the window goes on to show what was there before. -/
theorem moved_not_told :
    ∃ ch, Machine.exec Channel.step .start
        (joined [.string "a|string:b".toList, .string "c".toList] ++
          [.commit [.string "a".toList, .string "b|string:c".toList], .effects]) = some ch ∧
      ch.Quiet ∧ (ch.windows ()).mounted = true ∧
      (ch.windows ()).received = some [.string "a|string:b".toList, .string "c".toList] ∧
      ch.current = some [.string "a".toList, .string "b|string:c".toList] ∧
      (ch.windows ()).received ≠ ch.current := by
  exact ⟨_, rfl, ⟨rfl, rfl, fun _ => rfl⟩, rfl, rfl, rfl, by decide⟩

end FluxTerm.FloatingSync
