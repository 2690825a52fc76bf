import FluxTerm.Lib.Bytes
import FluxTerm.Lib.Machine

/-!
# Programs on a byte stream

A program that reads and writes one connection is a `Script`: it reads an exact number of bytes,
writes bytes, asks its surroundings something (a connection elsewhere) and returns. Two scripts at
the two ends of a connection make a `Duplex`, in which every byte written at one end waits at the
other until it is read.
-/

namespace FluxTerm.Lib

inductive Script (Q A ε α : Type) where
  | ret (result : Except ε α)
  | read (count : ℕ) (next : Option Bytes → Script Q A ε α)
  | write (bytes : Bytes) (next : Script Q A ε α)
  | ask (query : Q) (next : A → Script Q A ε α)

variable {Q A ε α β : Type}

namespace Script

def andThen : Script Q A ε α → (α → Script Q A ε β) → Script Q A ε β
  | ret (.ok a), f => f a
  | ret (.error err), _ => ret (.error err)
  | read count next, f => read count fun bytes => (next bytes).andThen f
  | write bytes next, f => write bytes (next.andThen f)
  | ask query next, f => ask query fun answer => (next answer).andThen f

instance : Monad (Script Q A ε) where
  pure a := ret (.ok a)
  bind := andThen

def fail (err : ε) : Script Q A ε α := ret (.error err)

def send (bytes : Bytes) : Script Q A ε Unit := write bytes (pure ())

/-- Bytes that have to be there: the end of the stream before them is the error `err`. -/
def readExact (count : ℕ) (err : ε) : Script Q A ε Bytes :=
  read count fun
    | some bytes => pure bytes
    | none => fail err

theorem map_id (s : Script Q A ε α) : id <$> s = s := by
  induction s with
  | ret result => cases result <;> rfl
  | read count next ih => exact congrArg (read count) (funext ih)
  | write bytes next ih => exact congrArg (write bytes) ih
  | ask query next ih => exact congrArg (ask query) (funext ih)

theorem andThen_assoc {γ : Type} (s : Script Q A ε α) (f : α → Script Q A ε β)
    (g : β → Script Q A ε γ) : s >>= f >>= g = s >>= fun a => f a >>= g := by
  induction s with
  | ret result => cases result <;> rfl
  | read count next ih => exact congrArg (read count) (funext ih)
  | write bytes next ih => exact congrArg (write bytes) ih
  | ask query next ih => exact congrArg (ask query) (funext ih)

instance : LawfulMonad (Script Q A ε) :=
  LawfulMonad.mk' _ map_id (fun _ _ => rfl) andThen_assoc

@[simp] theorem ret_ok_bind (a : α) (f : α → Script Q A ε β) : (ret (.ok a) >>= f) = f a := rfl

@[simp] theorem fail_bind (err : ε) (f : α → Script Q A ε β) : (fail err >>= f) = fail err := rfl

@[simp] theorem read_bind (count : ℕ) (next : Option Bytes → Script Q A ε α)
    (f : α → Script Q A ε β) : (read count next >>= f) = read count fun bytes => next bytes >>= f :=
  rfl

@[simp] theorem write_bind (bytes : Bytes) (next : Script Q A ε α) (f : α → Script Q A ε β) :
    (write bytes next >>= f) = write bytes (next >>= f) := rfl

@[simp] theorem ask_bind (query : Q) (next : A → Script Q A ε α) (f : α → Script Q A ε β) :
    (ask query next >>= f) = ask query fun answer => next answer >>= f := rfl

@[simp] theorem send_bind (bytes : Bytes) (f : Unit → Script Q A ε β) :
    (send bytes >>= f) = write bytes (f ()) := rfl

/-! ## One end of a connection -/

inductive Deed (Q A : Type) where
  | sent (bytes : Bytes)
  | asked (query : Q) (answer : A)
deriving DecidableEq

structure Outcome (Q A ε α : Type) where
  deeds : List (Deed Q A)
  rest : Bytes
  result : Option (Except ε α)

/-- A script against bytes that are all there. -/
def exec (answer : Q → A) : Script Q A ε α → Bytes → Outcome Q A ε α
  | ret result, input => ⟨[], input, some result⟩
  | read count next, input =>
    if count ≤ input.length then exec answer (next (some (input.take count))) (input.drop count)
    else ⟨[], input, none⟩
  | write bytes next, input =>
    let outcome := exec answer next input
    { outcome with deeds := .sent bytes :: outcome.deeds }
  | ask query next, input =>
    let outcome := exec answer (next (answer query)) input
    { outcome with deeds := .asked query (answer query) :: outcome.deeds }

def sentBytes (deeds : List (Deed Q A)) : Bytes :=
  deeds.flatMap fun
    | .sent bytes => bytes
    | .asked .. => []

/-- Something that was asked was answered with `ok`. -/
def granted (ok : A → Bool) (deeds : List (Deed Q A)) : Bool :=
  deeds.any fun
    | .sent _ => false
    | .asked _ answer => ok answer

@[simp] theorem sentBytes_nil : sentBytes ([] : List (Deed Q A)) = [] := rfl

@[simp] theorem sentBytes_sent (bytes : Bytes) (deeds : List (Deed Q A)) :
    sentBytes (.sent bytes :: deeds) = bytes ++ sentBytes deeds := rfl

@[simp] theorem sentBytes_asked (query : Q) (answer : A) (deeds : List (Deed Q A)) :
    sentBytes (.asked query answer :: deeds) = sentBytes deeds := rfl

@[simp] theorem granted_nil (ok : A → Bool) : granted ok ([] : List (Deed Q A)) = false := rfl

@[simp] theorem granted_sent (ok : A → Bool) (bytes : Bytes) (deeds : List (Deed Q A)) :
    granted ok (.sent bytes :: deeds) = granted ok deeds := rfl

@[simp] theorem granted_asked (ok : A → Bool) (query : Q) (answer : A) (deeds : List (Deed Q A)) :
    granted ok (.asked query answer :: deeds) = (ok answer || granted ok deeds) := rfl

@[simp] theorem exec_ret (answer : Q → A) (result : Except ε α) (input : Bytes) :
    (ret result).exec answer input = (⟨[], input, some result⟩ : Outcome Q A ε α) := rfl

@[simp] theorem exec_fail (answer : Q → A) (err : ε) (input : Bytes) :
    (fail err).exec answer input = (⟨[], input, some (.error err)⟩ : Outcome Q A ε α) := rfl

@[simp] theorem exec_pure (answer : Q → A) (a : α) (input : Bytes) :
    (pure a : Script Q A ε α).exec answer input = ⟨[], input, some (.ok a)⟩ := rfl

@[simp] theorem exec_write (answer : Q → A) (bytes : Bytes) (next : Script Q A ε α)
    (input : Bytes) : ((write bytes next).exec answer input).deeds =
      .sent bytes :: (next.exec answer input).deeds := rfl

@[simp] theorem exec_ask (answer : Q → A) (query : Q) (next : A → Script Q A ε α) (input : Bytes) :
    ((ask query next).exec answer input).deeds =
      .asked query (answer query) :: ((next (answer query)).exec answer input).deeds := rfl

/-- `s` reads the whole of `message`, piece by piece, and goes on as `t`. -/
inductive Consumes : Script Q A ε α → Bytes → Script Q A ε α → Prop where
  | done (s : Script Q A ε α) : Consumes s [] s
  | read {next : Option Bytes → Script Q A ε α} {chunk message : Bytes} {t : Script Q A ε α}
      (h : Consumes (next (some chunk)) message t) :
      Consumes (read chunk.length next) (chunk ++ message) t

theorem readExact_consumes {count : ℕ} {err : ε} {k : Bytes → Script Q A ε α} (chunk : Bytes)
    {rest : Bytes} {t : Script Q A ε α} (hcount : count = chunk.length)
    (h : (k chunk).Consumes rest t) : (readExact count err >>= k).Consumes (chunk ++ rest) t := by
  rw [hcount]
  exact .read h

theorem readExact_consumes_all {count : ℕ} {err : ε} {k : Bytes → Script Q A ε α} (chunk : Bytes)
    {t : Script Q A ε α} (hcount : count = chunk.length) (h : k chunk = t) :
    (readExact count err >>= k).Consumes chunk t := by
  rw [← List.append_nil chunk]
  exact readExact_consumes chunk hcount (h ▸ .done _)

theorem Consumes.trans {s t u : Script Q A ε α} {m m' : Bytes} (h : Consumes s m t)
    (h' : Consumes t m' u) : Consumes s (m ++ m') u := by
  induction h with
  | done _ => exact h'
  | read _ ih =>
    rw [List.append_assoc]
    exact .read (ih h')

theorem Consumes.exec {s t : Script Q A ε α} {message : Bytes} (h : Consumes s message t)
    (answer : Q → A) (rest : Bytes) :
    s.exec answer (message ++ rest) = t.exec answer rest := by
  induction h with
  | done _ => rfl
  | @read next chunk message t _ ih =>
    have hlen : chunk.length ≤ (chunk ++ (message ++ rest)).length := by
      rw [List.length_append]
      omega
    rw [List.append_assoc, Script.exec, if_pos hlen, List.take_left, List.drop_left]
    exact ih

def Dropped : Script Q A ε α → Prop
  | ret (.error _) => True
  | _ => False

instance : DecidablePred (Dropped (Q := Q) (A := A) (ε := ε) (α := α)) := fun s =>
  match s with
  | ret (.error _) => isTrue trivial
  | ret (.ok _) => isFalse id
  | read _ _ => isFalse id
  | write _ _ => isFalse id
  | ask _ _ => isFalse id

end Script

/-! ## Two ends of a connection -/

structure Side (Q A ε α : Type) where
  script : Script Q A ε α
  inbox : Bytes := []
  asked : List Q := []

/-- The next step of an end, and what it changes at the other. A read waits until all its bytes
are there, or the other end has dropped the connection. -/
def Side.step (answer : Q → A) (me : Side Q A ε α) (other : Side Q A ε β) :
    Option (Side Q A ε α × Side Q A ε β) :=
  match me.script with
  | .ret _ => none
  | .read count next =>
    if count ≤ me.inbox.length then
      some ({ me with
        script := next (some (me.inbox.take count))
        inbox := me.inbox.drop count }, other)
    else if other.script.Dropped then some ({ me with script := next none, inbox := [] }, other)
    else none
  | .write bytes next =>
    some ({ me with script := next }, { other with inbox := other.inbox ++ bytes })
  | .ask query next =>
    some ({ me with script := next (answer query), asked := me.asked ++ [query] }, other)

structure Duplex (Q A ε α β : Type) where
  left : Side Q A ε α
  right : Side Q A ε β

inductive Turn where
  | left
  | right
deriving DecidableEq

def Duplex.step (answer : Q → A) (d : Duplex Q A ε α β) : Turn → Option (Duplex Q A ε α β)
  | .left => (Side.step answer d.left d.right).map fun sides => ⟨sides.1, sides.2⟩
  | .right => (Side.step answer d.right d.left).map fun sides => ⟨sides.2, sides.1⟩

def conversation (answer : Q → A) : Machine (Duplex Q A ε α β) Turn where
  init _ := True
  step d turn d' := d.step answer turn = some d'

variable {answer : Q → A}

theorem Side.step_comm {me me₁ me₂ : Side Q A ε α} {other other₁ other₂ : Side Q A ε β}
    (h : Side.step answer me other = some (me₁, other₁))
    (h' : Side.step answer other me = some (other₂, me₂)) :
    ∃ me₃ other₃, Side.step answer me₂ other₂ = some (me₃, other₃) ∧
      Side.step answer other₁ me₁ = some (other₃, me₃) := by
  obtain ⟨script, inbox, asked⟩ := me
  obtain ⟨script', inbox', asked'⟩ := other
  cases script with
  | ret _ => cases h
  | write bytes next =>
    cases h
    cases script' with
    | ret _ => cases h'
    | write bytes' next' =>
      cases h'
      exact ⟨_, _, rfl, rfl⟩
    | ask query' next' =>
      cases h'
      exact ⟨_, _, rfl, rfl⟩
    | read count' next' =>
      unfold Side.step at h'
      dsimp only at h'
      split at h'
      · rename_i hlen
        cases h'
        refine ⟨_, _, rfl, ?_⟩
        -- the bytes that were read are still the first ones
        have hlen' : count' ≤ (inbox' ++ bytes).length := by
          rw [List.length_append]
          omega
        unfold Side.step
        dsimp only
        rw [if_pos hlen', List.take_append_of_le_length hlen, List.drop_append_of_le_length hlen]
      · simp [Script.Dropped] at h'
  | ask query next =>
    cases h
    cases script' with
    | ret _ => cases h'
    | write bytes' next' =>
      cases h'
      exact ⟨_, _, rfl, rfl⟩
    | ask query' next' =>
      cases h'
      exact ⟨_, _, rfl, rfl⟩
    | read count' next' =>
      unfold Side.step at h'
      dsimp only at h'
      split at h'
      · rename_i hlen
        cases h'
        refine ⟨_, _, rfl, ?_⟩
        unfold Side.step
        dsimp only
        rw [if_pos hlen]
      · simp [Script.Dropped] at h'
  | read count next =>
    cases script' with
    | ret _ => cases h'
    | write bytes' next' =>
      cases h'
      unfold Side.step at h
      dsimp only at h
      split at h
      · rename_i hlen
        cases h
        refine ⟨_, _, ?_, rfl⟩
        have hlen' : count ≤ (inbox ++ bytes').length := by
          rw [List.length_append]
          omega
        unfold Side.step
        dsimp only
        rw [if_pos hlen', List.take_append_of_le_length hlen, List.drop_append_of_le_length hlen]
      · simp [Script.Dropped] at h
    | ask query' next' =>
      cases h'
      unfold Side.step at h
      dsimp only at h
      split at h
      · rename_i hlen
        cases h
        refine ⟨_, _, ?_, rfl⟩
        unfold Side.step
        dsimp only
        rw [if_pos hlen]
      · simp [Script.Dropped] at h
    | read count' next' =>
      unfold Side.step at h h'
      dsimp only at h h'
      split at h
      · rename_i hlen
        cases h
        split at h'
        · rename_i hlen'
          cases h'
          refine ⟨⟨next (some (inbox.take count)), inbox.drop count, asked⟩,
            ⟨next' (some (inbox'.take count')), inbox'.drop count', asked'⟩, ?_, ?_⟩
          · unfold Side.step
            dsimp only
            rw [if_pos hlen]
          · unfold Side.step
            dsimp only
            rw [if_pos hlen']
        · simp [Script.Dropped] at h'
      · simp [Script.Dropped] at h

/-- **The ends commute.** Turns of the two ends can be swapped. -/
theorem conversation_diamond : (conversation (ε := ε) (α := α) (β := β) answer).Diamond := by
  intro d a d₁ b d₂ h h'
  cases a with
  | left =>
    cases b with
    | left => exact .inl ⟨rfl, Option.some.inj (h.symm.trans h')⟩
    | right =>
      obtain ⟨⟨l, r⟩, hstep, rfl⟩ := Option.map_eq_some_iff.mp h
      obtain ⟨⟨r', l'⟩, hstep', rfl⟩ := Option.map_eq_some_iff.mp h'
      obtain ⟨me, other, hme, hother⟩ := Side.step_comm hstep hstep'
      exact .inr ⟨⟨me, other⟩, Option.map_eq_some_iff.mpr ⟨_, hother, rfl⟩,
        Option.map_eq_some_iff.mpr ⟨_, hme, rfl⟩⟩
  | right =>
    cases b with
    | right => exact .inl ⟨rfl, Option.some.inj (h.symm.trans h')⟩
    | left =>
      obtain ⟨⟨r, l⟩, hstep, rfl⟩ := Option.map_eq_some_iff.mp h
      obtain ⟨⟨l', r'⟩, hstep', rfl⟩ := Option.map_eq_some_iff.mp h'
      obtain ⟨other, me, hother, hme⟩ := Side.step_comm hstep hstep'
      exact .inr ⟨⟨me, other⟩, Option.map_eq_some_iff.mpr ⟨_, hme, rfl⟩,
        Option.map_eq_some_iff.mpr ⟨_, hother, rfl⟩⟩

/-! ## How a conversation goes on -/

/-- Some turns lead from `d` to `d'`. -/
def Talks (answer : Q → A) (d d' : Duplex Q A ε α β) : Prop :=
  ∃ turns, (conversation answer).Run d turns d'

namespace Talks

theorem refl (d : Duplex Q A ε α β) : Talks answer d d := ⟨[], .nil⟩

theorem trans {d d' d'' : Duplex Q A ε α β} (h : Talks answer d d') (h' : Talks answer d' d'') :
    Talks answer d d'' := by
  obtain ⟨as, has⟩ := h
  obtain ⟨bs, hbs⟩ := h'
  exact ⟨as ++ bs, has.append hbs⟩

theorem of_step {d d' d'' : Duplex Q A ε α β} (turn : Turn) (h : d.step answer turn = some d')
    (h' : Talks answer d' d'') : Talks answer d d'' := by
  obtain ⟨turns, hturns⟩ := h'
  exact ⟨turn :: turns, .cons h hturns⟩

theorem hear_right {s t : Script Q A ε β} {message : Bytes} (h : s.Consumes message t)
    (left : Side Q A ε α) (asked : List Q) :
    Talks answer ⟨left, ⟨s, message, asked⟩⟩ ⟨left, ⟨t, [], asked⟩⟩ := by
  induction h with
  | done _ => exact refl _
  | @read next chunk message t _ ih =>
    apply of_step .right _ ih
    show Option.map _ (Side.step answer _ left) = _
    unfold Side.step
    simp [List.length_append]

theorem hear_left {s t : Script Q A ε α} {message : Bytes} (h : s.Consumes message t)
    (right : Side Q A ε β) (asked : List Q) :
    Talks answer ⟨⟨s, message, asked⟩, right⟩ ⟨⟨t, [], asked⟩, right⟩ := by
  induction h with
  | done _ => exact refl _
  | @read next chunk message t _ ih =>
    apply of_step .left _ ih
    show Option.map _ (Side.step answer _ right) = _
    unfold Side.step
    simp [List.length_append]

theorem say_left {next : Script Q A ε α} {s t : Script Q A ε β} {message inbox : Bytes}
    {asked asked' : List Q} (h : s.Consumes message t) :
    Talks answer ⟨⟨.write message next, inbox, asked⟩, ⟨s, [], asked'⟩⟩
      ⟨⟨next, inbox, asked⟩, ⟨t, [], asked'⟩⟩ :=
  of_step .left rfl (hear_right h _ _)

theorem say_right {next : Script Q A ε β} {s t : Script Q A ε α} {message inbox : Bytes}
    {asked asked' : List Q} (h : s.Consumes message t) :
    Talks answer ⟨⟨s, [], asked⟩, ⟨.write message next, inbox, asked'⟩⟩
      ⟨⟨t, [], asked⟩, ⟨next, inbox, asked'⟩⟩ :=
  of_step .right rfl (hear_left h _ _)

theorem ask_right {next : A → Script Q A ε β} {query : Q} (left : Side Q A ε α) {inbox : Bytes}
    {asked : List Q} :
    Talks answer ⟨left, ⟨.ask query next, inbox, asked⟩⟩
      ⟨left, ⟨next (answer query), inbox, asked ++ [query]⟩⟩ :=
  of_step .right rfl (refl _)

theorem hangUp_left {count : ℕ} {next : Option Bytes → Script Q A ε α} {err : ε} {inbox : Bytes}
    {asked asked' : List Q} (hcount : 0 < count) :
    Talks answer ⟨⟨.read count next, [], asked⟩, (⟨.fail err, inbox, asked'⟩ : Side Q A ε β)⟩
      ⟨⟨next none, [], asked⟩, ⟨.fail err, inbox, asked'⟩⟩ := by
  apply of_step .left _ (refl _)
  show Option.map _ (Side.step answer _ _) = _
  unfold Side.step
  simp [Script.fail, Script.Dropped, Nat.not_le.mpr hcount]

end Talks

/-! ## What a conversation keeps -/

theorem stuck_of_ret {result : Except ε α} {result' : Except ε β} {inbox inbox' : Bytes}
    {asked asked' : List Q} :
    (conversation answer).Stuck
      (⟨⟨.ret result, inbox, asked⟩, ⟨.ret result', inbox', asked'⟩⟩ : Duplex Q A ε α β) := by
  intro turn d h
  cases turn with
  | left => cases h
  | right => cases h

theorem Side.step_asked {me me' : Side Q A ε α} {other other' : Side Q A ε β}
    (h : Side.step answer me other = some (me', other')) :
    me.asked <+: me'.asked ∧ other'.asked = other.asked := by
  unfold Side.step at h
  split at h
  · cases h
  · split at h
    · cases h
      exact ⟨List.prefix_rfl, rfl⟩
    · split at h
      · cases h
        exact ⟨List.prefix_rfl, rfl⟩
      · cases h
  · cases h
    exact ⟨List.prefix_rfl, rfl⟩
  · cases h
    exact ⟨List.prefix_append _ _, rfl⟩

theorem Talks.asked_right {d d' : Duplex Q A ε α β} (h : Talks answer d d') :
    d.right.asked <+: d'.right.asked := by
  obtain ⟨turns, hrun⟩ := h
  induction hrun with
  | nil => exact List.prefix_rfl
  | @snoc _ t u turn _ hstep ih =>
    apply ih.trans
    cases turn with
    | left =>
      obtain ⟨⟨l, r⟩, hside, rfl⟩ := Option.map_eq_some_iff.mp hstep
      exact (Side.step_asked hside).2.symm ▸ List.prefix_rfl
    | right =>
      obtain ⟨⟨r, l⟩, hside, rfl⟩ := Option.map_eq_some_iff.mp hstep
      exact (Side.step_asked hside).1

theorem Side.step_inbox {me me' : Side Q A ε α} {other other' : Side Q A ε β}
    (h : Side.step answer me other = some (me', other')) :
    me'.inbox <:+ me.inbox ∧ other'.script = other.script := by
  unfold Side.step at h
  split at h
  · cases h
  · split at h
    · cases h
      exact ⟨List.drop_suffix _ _, rfl⟩
    · split at h
      · cases h
        exact ⟨List.nil_suffix, rfl⟩
      · cases h
  · cases h
    exact ⟨List.suffix_rfl, rfl⟩
  · cases h
    exact ⟨List.suffix_rfl, rfl⟩

theorem Talks.inbox_right {d d' : Duplex Q A ε α β} {result : Except ε α}
    (h : Talks answer d d') (hret : d.left.script = .ret result) :
    d'.left.script = .ret result ∧ d'.right.inbox <:+ d.right.inbox := by
  obtain ⟨turns, hrun⟩ := h
  induction hrun with
  | nil => exact ⟨hret, List.suffix_rfl⟩
  | @snoc _ t u turn _ hstep ih =>
    obtain ⟨hleft, hinbox⟩ := ih
    cases turn with
    | left =>
      obtain ⟨⟨l, r⟩, hside, rfl⟩ := Option.map_eq_some_iff.mp hstep
      unfold Side.step at hside
      rw [hleft] at hside
      cases hside
    | right =>
      obtain ⟨⟨r, l⟩, hside, rfl⟩ := Option.map_eq_some_iff.mp hstep
      obtain ⟨hmine, hother⟩ := Side.step_inbox hside
      exact ⟨hother.trans hleft, hmine.trans hinbox⟩

theorem Talks.inbox_left {d d' : Duplex Q A ε α β} {result : Except ε β}
    (h : Talks answer d d') (hret : d.right.script = .ret result) :
    d'.right.script = .ret result ∧ d'.left.inbox <:+ d.left.inbox := by
  obtain ⟨turns, hrun⟩ := h
  induction hrun with
  | nil => exact ⟨hret, List.suffix_rfl⟩
  | @snoc _ t u turn _ hstep ih =>
    obtain ⟨hright, hinbox⟩ := ih
    cases turn with
    | right =>
      obtain ⟨⟨r, l⟩, hside, rfl⟩ := Option.map_eq_some_iff.mp hstep
      unfold Side.step at hside
      rw [hright] at hside
      cases hside
    | left =>
      obtain ⟨⟨l, r⟩, hside, rfl⟩ := Option.map_eq_some_iff.mp hstep
      obtain ⟨hmine, hother⟩ := Side.step_inbox hside
      exact ⟨hother.trans hright, hmine.trans hinbox⟩

end FluxTerm.Lib
