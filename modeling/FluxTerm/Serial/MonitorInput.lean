import FluxTerm.Lib.IpAddr
import FluxTerm.Lib.Pairs
import FluxTerm.Lib.Replace
import FluxTerm.Lib.Transducer

/-!
# FluxTerm — what is typed into the serial monitor

`SerialDebugPanel` (`src/widgets/terminal/components/SerialDebugPanel.tsx`) catches keys, pastes and
compositions in a hidden text area. In HEX mode the digits are sent two by two; the one that is over
waits in `hexSendBuffer`. A handler reads the buffer of the render it was made in, its updates are
queued for the next one.

* **`exact_iff`** — at every moment what was sent and what is pending are the digits entered, if
  and only if every event finds its buffer up to date and no prefix `0x` comes in two parts.
-/

namespace FluxTerm.Serial

open FluxTerm.Lib

/-! ## Keys -/

inductive SendMode
  | text
  | hex
  deriving DecidableEq

inductive SerialLineEnding
  | none
  | cr
  | lf
  | crlf
  deriving DecidableEq

def resolveEnterData : SerialLineEnding → Text
  | .lf => ['\n']
  | .crlf => ['\r', '\n']
  | _ => ['\r']

structure KeyPress where
  key : Text
  ctrlKey : Bool
  altKey : Bool
  metaKey : Bool
  isComposing : Bool
  selected : Bool

/-- `event.key.toLowerCase() === letter`. -/
def KeyPress.isLetter (press : KeyPress) (letter : Char) : Bool :=
  press.key == [letter] || press.key == [letter.toUpper]

/-- `event.key.length`. -/
def KeyPress.keyLength (press : KeyPress) : ℕ := (press.key.flatMap utf16Units).length

def keySequences (lineEnding : SerialLineEnding) : List (Text × Text) :=
  [("Enter".toList, resolveEnterData lineEnding), ("Tab".toList, ['\t']),
    ("Backspace".toList, ['\x7f']), ("Escape".toList, ['\x1b']),
    ("ArrowUp".toList, "\x1b[A".toList), ("ArrowDown".toList, "\x1b[B".toList),
    ("ArrowRight".toList, "\x1b[C".toList), ("ArrowLeft".toList, "\x1b[D".toList),
    ("Delete".toList, "\x1b[3~".toList), ("Home".toList, "\x1b[H".toList),
    ("End".toList, "\x1b[F".toList), ("PageUp".toList, "\x1b[5~".toList),
    ("PageDown".toList, "\x1b[6~".toList)]

/-- `resolveControlSequence`: what a key sends in text mode that enters no text by itself. -/
def resolveControlSequence (press : KeyPress) (lineEnding : SerialLineEnding) : Option Text :=
  match (keySequences lineEnding).find? (·.1 == press.key) with
  | some (_, sequence) => some sequence
  | none =>
    if press.ctrlKey && !press.altKey && !press.metaKey then
      match press.key with
      | [letter] =>
        if !letter.isAlpha || press.isLetter 'v' || (press.isLetter 'c' && press.selected) then none
        else some [Char.ofNat (letter.toUpper.toNat - 64)]
      | _ => none
    else none

/-! ## HEX input -/

/-- `/0x/i` at the front of a text. -/
def prefixAt : Text → Option ℕ
  | '0' :: c :: _ => if c == 'x' || c == 'X' then some 2 else none
  | _ => none

/-- `[\da-f]`, without regard to case. -/
def isHexDigit (c : Char) : Bool := isDigitIn 16 c

/-- `normalized` in `sendHexInput`. -/
def hexDigits (value : Text) : Text :=
  ((withoutMatches prefixAt value).filter isHexDigit).map Char.toUpper

/-- `Number.parseInt` of two digits. -/
def byteOf (high low : Char) : ℕ := digitValue high * 16 + digitValue low

structure SendState where
  sendMode : SendMode
  hexSendBuffer : Text
  captureValue : Text

structure Panel where
  state : SendState
  rendered : SendState
  /-- `composingRef`. -/
  composing : Bool

/-- What is handed to `onSendText` and `onSendBinary`. -/
inductive Sending
  | text (data : Text)
  | binary (bytes : List ℕ)

namespace Panel
variable (p : Panel)

def setHexSendBuffer (buffer : Text) : Panel :=
  { p with state := { p.state with hexSendBuffer := buffer } }

def setCaptureValue (value : Text) : Panel :=
  { p with state := { p.state with captureValue := value } }

def render : Panel := { p with rendered := p.state }

def selectSendMode (mode : SendMode) : Panel :=
  { p with state := { sendMode := mode, hexSendBuffer := [], captureValue := [] } }

def sendHexInput (value : Text) : Panel × List Sending :=
  let normalized := hexDigits value
  if normalized = [] then (p, [])
  else
    let combined := p.rendered.hexSendBuffer ++ normalized
    let completeLength := combined.length - combined.length % 2
    let complete := combined.take completeLength
    let next := p.setHexSendBuffer (combined.drop completeLength)
    if complete = [] then (next, []) else (next, [.binary (pairsWith byteOf complete)])

def send (value : Text) : Panel × List Sending :=
  if value = [] then (p, [])
  else if p.rendered.sendMode = .hex then p.sendHexInput value
  else (p, [.text value])

def onChange (value : Text) : Panel × List Sending :=
  if p.composing then (p.setCaptureValue value, []) else (p.setCaptureValue []).send value

def onCompositionStart : Panel × List Sending := ({ p with composing := true }, [])

def onCompositionEnd (value : Text) : Panel × List Sending :=
  ({ p with composing := false }.setCaptureValue []).send value

/-- `onKeyDown`; what it prevents enters no text, so that no change follows. -/
def onKeyDown (lineEnding : SerialLineEnding) (press : KeyPress) : Panel × List Sending :=
  if press.isComposing then (p, [])
  else if p.rendered.sendMode = .hex then
    if press.ctrlKey && press.isLetter 'v' then (p, [])
    else if press.key = "Backspace".toList then
      (p.setHexSendBuffer p.state.hexSendBuffer.dropLast, [])
    else (p, [])
  else
    match resolveControlSequence press lineEnding with
    | some sequence => (p, [.text sequence])
    | none => (p, [])

def onPaste (value : Text) : Panel × List Sending := p.send value
end Panel

inductive PanelEvent
  | change (value : Text)
  | compositionStart
  | compositionEnd (value : Text)
  | keyDown (press : KeyPress)
  | paste (value : Text)
  | render

def Panel.on (lineEnding : SerialLineEnding) (p : Panel) : PanelEvent → Panel × List Sending
  | .change value => p.onChange value
  | .compositionStart => p.onCompositionStart
  | .compositionEnd value => p.onCompositionEnd value
  | .keyDown press => p.onKeyDown lineEnding press
  | .paste value => p.onPaste value
  | .render => (p.render, [])

def Panel.run (lineEnding : SerialLineEnding) (p : Panel) (events : List PanelEvent) :
    Panel × List Sending :=
  feed (Panel.on lineEnding) p events

def bytesSent (sent : List Sending) : List ℕ :=
  sent.flatMap fun
    | .binary bytes => bytes
    | .text _ => []

/-! ## What is entered -/

inductive Entry
  | nothing
  | text (value : Text)
  | backspace

/-- A space is kept out of the text area, and separates all the same. -/
def entryOf (composing : Bool) : PanelEvent → Entry
  | .change value => if composing then .nothing else .text value
  | .compositionEnd value => .text value
  | .paste value => .text value
  | .keyDown press =>
    if press.isComposing || (press.ctrlKey && press.isLetter 'v') then .nothing
    else if press.key = "Backspace".toList then .backspace
    else if press.keyLength ≤ 1 && press.key.any isJsWhitespace then
      .text press.key
    else .nothing
  | .compositionStart => .nothing
  | .render => .nothing

def composingAfter (composing : Bool) : PanelEvent → Bool
  | .compositionStart => true
  | .compositionEnd _ => false
  | _ => composing

inductive Stroke
  | char (c : Char)
  | backspace
  deriving DecidableEq

def Entry.strokes : Entry → List Stroke
  | .nothing => []
  | .text value => value.map .char
  | .backspace => [.backspace]

def strokes (composing : Bool) : List PanelEvent → List Stroke
  | [] => []
  | event :: events =>
    (entryOf composing event).strokes ++ strokes (composingAfter composing event) events

/-- An `x` comes next. -/
def startsWithX : List Stroke → Bool
  | .char c :: _ => c == 'x' || c == 'X'
  | _ => false

/-- The digit of a character; that of a prefix `0x` does not count. -/
def digitOf (c : Char) (rest : List Stroke) : Text :=
  if c = '0' ∧ startsWithX rest then [] else if isHexDigit c then [c.toUpper] else []

def entered (digits : Text) : List Stroke → Text
  | [] => digits
  | .char c :: rest => entered (digits ++ digitOf c rest) rest
  | .backspace :: rest => entered (whole digits) rest

/-! ## Digits -/

def IsUpperHex (c : Char) : Prop := c.toNat ∈ List.range' 48 10 ∨ c.toNat ∈ List.range' 65 6

theorem range_of_isHexDigit {c : Char} (h : isHexDigit c = true) :
    48 ≤ c.toNat ∧ c.toNat ≤ 57 ∨ 65 ≤ c.toNat ∧ c.toNat ≤ 70 ∨ 97 ≤ c.toNat ∧ c.toNat ≤ 102 := by
  unfold isHexDigit isDigitIn digitValue at h
  grind

theorem isUpperHex_toUpper {c : Char} (h : isHexDigit c = true) : IsUpperHex c.toUpper := by
  have hall : ∀ n ∈ List.range' 48 10 ++ List.range' 65 6 ++ List.range' 97 6,
      (Char.ofNat n).toUpper.toNat ∈ List.range' 48 10 ++ List.range' 65 6 := by
    decide
  have hmem : c.toNat ∈ List.range' 48 10 ++ List.range' 65 6 ++ List.range' 97 6 := by
    have hrange := range_of_isHexDigit h
    simp only [List.mem_append, List.mem_range'_1]
    omega
  have hupper := hall _ hmem
  rw [Char.ofNat_toNat] at hupper
  exact List.mem_append.mp hupper

theorem byteOf_inj {a b c d : Char} (ha : IsUpperHex a) (hb : IsUpperHex b) (hc : IsUpperHex c)
    (hd : IsUpperHex d) (h : byteOf a b = byteOf c d) : a = c ∧ b = d := by
  unfold IsUpperHex at ha hb hc hd
  simp only [List.mem_range'_1] at ha hb hc hd
  unfold byteOf digitValue at h
  constructor
  · apply Char.toNat_inj.mp
    grind
  · apply Char.toNat_inj.mp
    grind

theorem isHexDigit_x {c : Char} (h : (c == 'x' || c == 'X') = true) : isHexDigit c = false := by
  rcases Bool.or_eq_true _ _ ▸ h with h | h
  · rw [eq_of_beq h]; rfl
  · rw [eq_of_beq h]; rfl

theorem prefixAt_eq {c : Char} (value : Text) :
    prefixAt (c :: value) = if c = '0' ∧ startsWithX (value.map .char) then some 2 else none := by
  cases value with
  | nil =>
    rw [if_neg (by rintro ⟨-, h⟩; cases h)]
    unfold prefixAt
    split
    · rename_i h; cases h
    · rfl
  | cons d value =>
    by_cases hc : c = '0'
    · subst hc
      simp [prefixAt, startsWithX]
    · rw [if_neg (fun h => hc h.1)]
      unfold prefixAt
      split
      · rename_i h
        exact absurd (List.cons.inj h).1 hc
      · rfl

theorem hexDigits_cons (c : Char) (value : Text) :
    hexDigits (c :: value) = digitOf c (value.map .char) ++ hexDigits value := by
  by_cases hpre : c = '0' ∧ startsWithX (value.map .char) = true
  · obtain ⟨rfl, hx⟩ := hpre
    cases value with
    | nil => cases hx
    | cons x value =>
      have hnone : prefixAt (x :: value) = none := by
        rw [prefixAt_eq, if_neg]
        rintro ⟨rfl, -⟩
        cases hx
      have hfound :
          withoutMatches prefixAt ('0' :: x :: value) = withoutMatches prefixAt value := by
        have hmatch : prefixAt ('0' :: [x] ++ value) = some 2 := by
          rw [List.cons_append, prefixAt_eq, if_pos ⟨rfl, hx⟩]
        exact withoutMatches_match hmatch
      have hskip : (x :: withoutMatches prefixAt value).filter isHexDigit
          = (withoutMatches prefixAt value).filter isHexDigit :=
        List.filter_cons_of_neg (Bool.eq_false_iff.mp (isHexDigit_x hx))
      unfold hexDigits digitOf
      rw [hfound, withoutMatches_cons hnone, hskip, if_pos ⟨rfl, hx⟩, List.nil_append]
  · have hnone : prefixAt (c :: value) = none := by rw [prefixAt_eq, if_neg hpre]
    unfold hexDigits digitOf
    rw [withoutMatches_cons hnone, if_neg hpre]
    cases hc : isHexDigit c with
    | true => rw [List.filter_cons_of_pos hc]; rfl
    | false => rw [List.filter_cons_of_neg (Bool.eq_false_iff.mp hc)]; rfl

theorem isUpperHex_of_mem_hexDigits {c : Char} {value : Text} (h : c ∈ hexDigits value) :
    IsUpperHex c := by
  obtain ⟨d, hd, rfl⟩ := List.mem_map.mp h
  exact isUpperHex_toUpper (List.mem_filter.mp hd).2

/-! ## What is entered, part by part -/

theorem entered_text (digits value : Text) :
    entered digits (value.map .char) = digits ++ hexDigits value := by
  induction value generalizing digits with
  | nil => exact (List.append_nil digits).symm
  | cons c value ih =>
    show entered (digits ++ digitOf c (value.map .char)) (value.map .char) = _
    rw [ih, hexDigits_cons, List.append_assoc]

/-- A prefix `0x` comes in two parts. -/
def CutsPrefix (before after : List Stroke) : Prop :=
  before.getLast? = some (.char '0') ∧ startsWithX after = true

instance (before after : List Stroke) : Decidable (CutsPrefix before after) :=
  inferInstanceAs (Decidable (_ ∧ _))

theorem startsWithX_append {before after : List Stroke} (h : before ≠ []) :
    startsWithX (before ++ after) = startsWithX before := by
  cases before with
  | nil => exact absurd rfl h
  | cons stroke before => cases stroke <;> rfl

theorem digitOf_append (c : Char) {before after : List Stroke}
    (h : ¬CutsPrefix (.char c :: before) after) :
    digitOf c (before ++ after) = digitOf c before := by
  cases before with
  | nil =>
    have hx : ¬(c = '0' ∧ startsWithX after = true) := by
      rintro ⟨rfl, hx⟩
      exact h ⟨rfl, hx⟩
    have hnil : ¬(c = '0' ∧ startsWithX [] = true) := fun h => nomatch h.2
    unfold digitOf
    rw [List.nil_append, if_neg hx, if_neg hnil]
  | cons stroke before =>
    unfold digitOf
    rw [startsWithX_append (List.cons_ne_nil stroke before)]

theorem CutsPrefix.tail {stroke : Stroke} {before after : List Stroke}
    (h : CutsPrefix before after) : CutsPrefix (stroke :: before) after := by
  refine ⟨?_, h.2⟩
  rw [List.getLast?_cons, h.1]
  rfl

theorem entered_append {before after : List Stroke} (h : ¬CutsPrefix before after) (digits : Text) :
    entered digits (before ++ after) = entered (entered digits before) after := by
  induction before generalizing digits with
  | nil => rfl
  | cons stroke before ih =>
    have hrest : ¬CutsPrefix before after := fun hcut => h hcut.tail
    cases stroke with
    | char c =>
      show entered (digits ++ digitOf c (before ++ after)) (before ++ after) = _
      rw [digitOf_append c h]
      exact ih hrest _
    | backspace => exact ih hrest _

theorem entered_append_cut {before after : List Stroke} (h : CutsPrefix before after)
    (digits : Text) :
    ∃ rest, entered digits before = rest ++ ['0']
      ∧ entered digits (before ++ after) = entered rest after := by
  obtain ⟨init, rfl⟩ := List.getLast?_eq_some_iff.mp h.1
  have hzero : ¬CutsPrefix init [.char '0'] := fun hcut => nomatch hcut.2
  have hpart : ¬CutsPrefix init (.char '0' :: after) := fun hcut => nomatch hcut.2
  refine ⟨entered digits init, ?_, ?_⟩
  · rw [entered_append hzero]
    rfl
  · rw [List.append_assoc]
    show entered digits (init ++ .char '0' :: after) = _
    rw [entered_append hpart]
    show entered (entered digits init ++ digitOf '0' after) after = _
    rw [digitOf, if_pos ⟨rfl, h.2⟩, List.append_nil]

theorem isUpperHex_of_mem_digitOf {c d : Char} {rest : List Stroke} (h : d ∈ digitOf c rest) :
    IsUpperHex d := by
  unfold digitOf at h
  split at h
  · cases h
  · split at h
    · rename_i hdigit
      rw [List.mem_singleton.mp h]
      exact isUpperHex_toUpper hdigit
    · cases h

theorem isUpperHex_of_mem_entered {digits : Text} (hdigits : ∀ c ∈ digits, IsUpperHex c)
    (s : List Stroke) : ∀ c ∈ entered digits s, IsUpperHex c := by
  induction s generalizing digits with
  | nil => exact hdigits
  | cons stroke s ih =>
    cases stroke with
    | char c =>
      apply ih
      intro d hd
      rcases List.mem_append.mp hd with hd | hd
      · exact hdigits d hd
      · exact isUpperHex_of_mem_digitOf hd
    | backspace =>
      apply ih
      intro d hd
      exact hdigits d ((whole_append_unpaired digits) ▸ List.mem_append_left _ hd)

/-! ## A step in HEX mode -/

/-- The panel is in HEX mode, and rendered so. -/
structure Panel.InHex (p : Panel) : Prop where
  mode : p.state.sendMode = .hex
  renderedMode : p.rendered.sendMode = .hex
  digits : ∀ c ∈ p.state.hexSendBuffer, IsUpperHex c
  renderedDigits : ∀ c ∈ p.rendered.hexSendBuffer, IsUpperHex c

def Entry.effect (p : Panel) : Entry → Text × List ℕ
  | .nothing => (p.state.hexSendBuffer, [])
  | .backspace => (p.state.hexSendBuffer.dropLast, [])
  | .text value =>
    if hexDigits value = [] then (p.state.hexSendBuffer, [])
    else (unpaired (p.rendered.hexSendBuffer ++ hexDigits value),
      pairsWith byteOf (p.rendered.hexSendBuffer ++ hexDigits value))

section
variable {p : Panel}

theorem sendHexInput_effect (value : Text) :
    ((p.sendHexInput value).1.state.hexSendBuffer, bytesSent (p.sendHexInput value).2)
      = (Entry.text value).effect p := by
  unfold Panel.sendHexInput Entry.effect
  by_cases hdigits : hexDigits value = []
  · simp only [hdigits, if_true]
    rfl
  · simp only [hdigits, if_false, take_eq_whole, drop_eq_unpaired, pairsWith_whole]
    split
    · rename_i hwhole
      have hnone := pairsWith_whole byteOf (p.rendered.hexSendBuffer ++ hexDigits value)
      rw [hwhole] at hnone
      rw [← hnone]
      rfl
    · exact congrArg (Prod.mk _) (List.append_nil _)

theorem send_effect (hmode : p.rendered.sendMode = .hex) (value : Text) :
    ((p.send value).1.state.hexSendBuffer, bytesSent (p.send value).2)
      = (Entry.text value).effect p := by
  by_cases hvalue : value = []
  · subst hvalue
    rfl
  · rw [Panel.send, if_neg hvalue, if_pos hmode]
    exact sendHexInput_effect value

theorem hexDigits_space {key : Text} (hlength : (key.flatMap utf16Units).length ≤ 1)
    (hspace : key.any isJsWhitespace = true) : hexDigits key = [] := by
  cases key with
  | nil => rfl
  | cons c key =>
    have hunits : ∀ d : Char, 1 ≤ (utf16Units d).length := by
      intro d
      unfold utf16Units
      split <;> simp
    cases key with
    | nil =>
      have hc : isJsWhitespace c = true := by simpa using hspace
      have hdigit : isHexDigit c = false := by
        apply Bool.eq_false_iff.mpr
        intro hdigit
        have hrange := range_of_isHexDigit hdigit
        unfold isJsWhitespace isWhitespace at hc
        simp only [Bool.or_eq_true, Bool.and_eq_true, beq_iff_eq, decide_eq_true_eq] at hc
        omega
      rw [hexDigits_cons, digitOf, if_neg (fun h => nomatch h.2), hdigit]
      rfl
    | cons d key =>
      have h₁ := hunits c
      have h₂ := hunits d
      simp only [List.flatMap_cons, List.length_append] at hlength
      omega

theorem onKeyDown_effect (hmode : p.rendered.sendMode = .hex) (lineEnding : SerialLineEnding)
    (press : KeyPress) :
    ((p.onKeyDown lineEnding press).1.state.hexSendBuffer,
        bytesSent (p.onKeyDown lineEnding press).2)
      = (entryOf p.composing (.keyDown press)).effect p := by
  by_cases hcomposing : press.isComposing = true
  · rw [Panel.onKeyDown, entryOf, if_pos hcomposing, hcomposing, Bool.true_or, if_pos rfl]
    rfl
  · rw [Panel.onKeyDown, entryOf, if_neg hcomposing, if_pos hmode, Bool.eq_false_iff.mpr hcomposing,
      Bool.false_or]
    by_cases hpaste : (press.ctrlKey && press.isLetter 'v') = true
    · rw [if_pos hpaste, if_pos hpaste]
      rfl
    · rw [if_neg hpaste, if_neg hpaste]
      by_cases hback : press.key = "Backspace".toList
      · rw [if_pos hback, if_pos hback]
        rfl
      · rw [if_neg hback, if_neg hback]
        by_cases hspace : (press.keyLength ≤ 1 && press.key.any isJsWhitespace) = true
        · have hdigits : hexDigits press.key = [] := by
            obtain ⟨hlength, hany⟩ := (Bool.and_eq_true _ _).mp hspace
            exact hexDigits_space (of_decide_eq_true hlength) hany
          rw [if_pos hspace, Entry.effect, if_pos hdigits]
          rfl
        · rw [if_neg hspace]
          rfl

theorem on_effect (hmode : p.rendered.sendMode = .hex) (lineEnding : SerialLineEnding)
    (event : PanelEvent) :
    ((p.on lineEnding event).1.state.hexSendBuffer, bytesSent (p.on lineEnding event).2)
      = (entryOf p.composing event).effect p := by
  cases event with
  | change value =>
    show ((p.onChange value).1.state.hexSendBuffer, bytesSent (p.onChange value).2) = _
    unfold Panel.onChange entryOf
    split
    · rfl
    · exact send_effect (p := p.setCaptureValue []) hmode value
  | compositionStart => rfl
  | compositionEnd value =>
    exact send_effect (p := { p with composing := false }.setCaptureValue []) hmode value
  | keyDown press => exact onKeyDown_effect hmode lineEnding press
  | paste value => exact send_effect hmode value
  | render => rfl

/-! ## Frames -/

/-- What no handler changes: the mode, what is rendered, and the composition. -/
structure SameBut (p q : Panel) : Prop where
  mode : q.state.sendMode = p.state.sendMode
  rendered : q.rendered = p.rendered
  composing : q.composing = p.composing

theorem sendHexInput_same (value : Text) : SameBut p (p.sendHexInput value).1 := by
  unfold Panel.sendHexInput
  dsimp only
  split
  · exact ⟨rfl, rfl, rfl⟩
  · split <;> exact ⟨rfl, rfl, rfl⟩

theorem send_same (value : Text) : SameBut p (p.send value).1 := by
  unfold Panel.send
  split
  · exact ⟨rfl, rfl, rfl⟩
  · split
    · exact sendHexInput_same value
    · exact ⟨rfl, rfl, rfl⟩

theorem onKeyDown_same (lineEnding : SerialLineEnding) (press : KeyPress) :
    SameBut p (p.onKeyDown lineEnding press).1 := by
  unfold Panel.onKeyDown
  repeat' split
  all_goals exact ⟨rfl, rfl, rfl⟩

theorem on_frame (lineEnding : SerialLineEnding) (event : PanelEvent) :
    (p.on lineEnding event).1.state.sendMode = p.state.sendMode
      ∧ (p.on lineEnding event).1.composing = composingAfter p.composing event
      ∧ ((p.on lineEnding event).1.rendered = p.rendered
        ∨ (p.on lineEnding event).1.rendered = p.state) := by
  cases event with
  | change value =>
    show (p.onChange value).1.state.sendMode = _ ∧ (p.onChange value).1.composing = _
      ∧ ((p.onChange value).1.rendered = _ ∨ (p.onChange value).1.rendered = _)
    unfold Panel.onChange
    split
    · exact ⟨rfl, rfl, .inl rfl⟩
    · have hsame := send_same (p := p.setCaptureValue []) value
      exact ⟨hsame.mode, hsame.composing, .inl hsame.rendered⟩
  | compositionStart => exact ⟨rfl, rfl, .inl rfl⟩
  | compositionEnd value =>
    have hsame := send_same (p := { p with composing := false }.setCaptureValue []) value
    exact ⟨hsame.mode, hsame.composing, .inl hsame.rendered⟩
  | keyDown press =>
    have hsame := onKeyDown_same (p := p) lineEnding press
    exact ⟨hsame.mode, hsame.composing, .inl hsame.rendered⟩
  | paste value =>
    have hsame := send_same (p := p) value
    exact ⟨hsame.mode, hsame.composing, .inl hsame.rendered⟩
  | render => exact ⟨rfl, rfl, .inr rfl⟩

theorem isUpperHex_of_mem_unpaired {digits : Text} (h : ∀ c ∈ digits, IsUpperHex c) :
    ∀ c ∈ unpaired digits, IsUpperHex c := by
  intro c hc
  apply h
  rw [← whole_append_unpaired digits]
  exact List.mem_append_right _ hc

theorem Panel.InHex.effect (hp : p.InHex) (entry : Entry) :
    ∀ c ∈ (entry.effect p).1, IsUpperHex c := by
  cases entry with
  | nothing => exact hp.digits
  | backspace => exact fun c hc => hp.digits c (List.dropLast_subset _ hc)
  | text value =>
    rw [Entry.effect]
    split
    · exact hp.digits
    · apply isUpperHex_of_mem_unpaired
      intro c hc
      rcases List.mem_append.mp hc with hc | hc
      · exact hp.renderedDigits c hc
      · exact isUpperHex_of_mem_hexDigits hc

theorem Panel.InHex.on (hp : p.InHex) (lineEnding : SerialLineEnding) (event : PanelEvent) :
    (p.on lineEnding event).1.InHex := by
  obtain ⟨hmode, -, hrendered⟩ := on_frame (p := p) lineEnding event
  have hbuffer := congrArg Prod.fst (on_effect hp.renderedMode lineEnding event)
  refine ⟨hmode.trans hp.mode, ?_, ?_, ?_⟩
  · rcases hrendered with h | h
    · exact h ▸ hp.renderedMode
    · exact h ▸ hp.mode
  · intro c hc
    apply hp.effect (entryOf p.composing event) c
    rw [← hbuffer]
    exact hc
  · rcases hrendered with h | h
    · exact h ▸ hp.renderedDigits
    · exact h ▸ hp.digits

/-! ## Runs -/

theorem Panel.InHex.run (hp : p.InHex) (lineEnding : SerialLineEnding) (events : List PanelEvent) :
    (p.run lineEnding events).1.InHex := by
  have hstep : ∀ (q : Panel) event, q.InHex → (q.on lineEnding event).1.InHex :=
    fun _ event hq => hq.on lineEnding event
  exact feed_invariant hstep hp events

theorem strokes_snoc (lineEnding : SerialLineEnding) (before : List PanelEvent)
    (event : PanelEvent) :
    strokes p.composing (before ++ [event])
      = strokes p.composing before
        ++ (entryOf (p.run lineEnding before).1.composing event).strokes := by
  induction before generalizing p with
  | nil => exact List.append_nil _
  | cons first before ih =>
    have hfirst := (on_frame (p := p) lineEnding first).2.1
    show (entryOf p.composing first).strokes
      ++ strokes (composingAfter p.composing first) (before ++ [event]) = _
    rw [← hfirst, ih, ← List.append_assoc, strokes, hfirst]
    rfl

end

/-! ## Exactness -/

/-- What was sent, and what is pending, are the digits entered, two by two. -/
def Exact (lineEnding : SerialLineEnding) (p : Panel) (events : List PanelEvent) : Prop :=
  bytesSent (p.run lineEnding events).2
      = pairsWith byteOf (entered [] (strokes p.composing events))
    ∧ (p.run lineEnding events).1.state.hexSendBuffer
      = unpaired (entered [] (strokes p.composing events))

/-- An event behind what was entered finds the pending digit in its render, if it has digits itself
and no prefix is cut. Where one is cut, the `0` is made up for if it is pending and the render has
not seen it. -/
def Met (p : Panel) (before : List Stroke) (event : PanelEvent) : Prop :=
  match entryOf p.composing event with
  | .text value =>
    if CutsPrefix before (value.map .char) then
      hexDigits value ≠ [] ∧ p.rendered.hexSendBuffer = [] ∧ p.state.hexSendBuffer = ['0']
    else hexDigits value = [] ∨ p.rendered.hexSendBuffer = p.state.hexSendBuffer
  | _ => True

/-- The digits that a panel has sent or keeps behind an entry, where those before were `digits`. -/
def Entry.kept (p : Panel) (digits : Text) : Entry → Text
  | .nothing => digits
  | .backspace => whole digits
  | .text value =>
    if hexDigits value = [] then digits
    else whole digits ++ (p.rendered.hexSendBuffer ++ hexDigits value)

section
variable {p : Panel} {digits : Text}

theorem effect_kept (hbuffer : p.state.hexSendBuffer = unpaired digits) (entry : Entry) :
    (entry.effect p).1 = unpaired (entry.kept p digits)
      ∧ pairsWith byteOf digits ++ (entry.effect p).2
        = pairsWith byteOf (entry.kept p digits) := by
  cases entry with
  | nothing => exact ⟨hbuffer, List.append_nil _⟩
  | backspace =>
    constructor
    · show p.state.hexSendBuffer.dropLast = unpaired (whole digits)
      rw [hbuffer, unpaired_whole]
      rcases unpaired_eq digits with h | ⟨c, h⟩ <;> rw [h] <;> rfl
    · show pairsWith byteOf digits ++ [] = pairsWith byteOf (whole digits)
      rw [List.append_nil, pairsWith_whole]
  | text value =>
    rw [Entry.effect, Entry.kept]
    split
    · exact ⟨hbuffer, List.append_nil _⟩
    · exact ⟨(unpaired_whole_append _ _).symm, (pairsWith_whole_append _ _ _).symm⟩

theorem pairs_iff {s t : Text} (hs : ∀ c ∈ s, IsUpperHex c) (ht : ∀ c ∈ t, IsUpperHex c) :
    (pairsWith byteOf s = pairsWith byteOf t ∧ unpaired s = unpaired t) ↔ s = t := by
  constructor
  · rintro ⟨hpairs, hrest⟩
    exact eq_of_pairs byteOf_inj hs ht hpairs hrest
  · rintro rfl
    exact ⟨rfl, rfl⟩

theorem kept_eq_append_iff (hbuffer : p.state.hexSendBuffer = unpaired digits) (value : Text) :
    (Entry.text value).kept p digits = digits ++ hexDigits value
      ↔ hexDigits value = [] ∨ p.rendered.hexSendBuffer = p.state.hexSendBuffer := by
  rw [Entry.kept]
  by_cases hnone : hexDigits value = []
  · rw [if_pos hnone, hnone, List.append_nil]
    exact iff_of_true rfl (.inl rfl)
  · rw [if_neg hnone, ← List.append_assoc, List.append_left_inj, or_iff_right hnone, hbuffer]
    constructor
    · intro h
      exact List.append_cancel_left (h.trans (whole_append_unpaired digits).symm)
    · intro h
      rw [h, whole_append_unpaired]

theorem kept_eq_cut_iff {rest : Text} (hrest : digits = rest ++ ['0'])
    (hbuffer : p.state.hexSendBuffer = unpaired digits) (value : Text) :
    (Entry.text value).kept p digits = rest ++ hexDigits value
      ↔ hexDigits value ≠ [] ∧ p.rendered.hexSendBuffer = [] ∧ p.state.hexSendBuffer = ['0'] := by
  rw [Entry.kept]
  by_cases hnone : hexDigits value = []
  · rw [if_pos hnone, hnone, List.append_nil, hrest]
    constructor
    · intro h
      exact absurd h (by simp)
    · rintro ⟨h, -⟩
      exact absurd rfl h
  · rw [if_neg hnone, ← List.append_assoc, List.append_left_inj, hbuffer]
    constructor
    · intro h
      have hpending : p.rendered.hexSendBuffer ++ ['0'] = unpaired digits := by
        refine @List.append_cancel_left _ (whole digits) _ _ ?_
        rw [whole_append_unpaired, ← List.append_assoc, h, hrest]
      -- at most one digit is pending
      rcases unpaired_eq digits with hunpaired | ⟨c, hunpaired⟩
      · rw [hunpaired] at hpending
        simp at hpending
      · rw [hunpaired] at hpending ⊢
        have hempty : p.rendered.hexSendBuffer = [] := by
          have hlength := congrArg List.length hpending
          simpa using hlength
        rw [hempty] at hpending
        exact ⟨hnone, hempty, hpending.symm⟩
    · rintro ⟨-, hempty, hzero⟩
      have hsplit : whole digits ++ ['0'] = rest ++ ['0'] := by
        calc whole digits ++ ['0'] = whole digits ++ unpaired digits := by rw [hzero]
          _ = digits := whole_append_unpaired digits
          _ = rest ++ ['0'] := hrest
      rw [hempty, List.append_nil]
      exact List.append_cancel_right hsplit

theorem kept_eq_iff {before : List Stroke} {event : PanelEvent}
    (hdigits : digits = entered [] before) (hbuffer : p.state.hexSendBuffer = unpaired digits) :
    (entryOf p.composing event).kept p digits
        = entered [] (before ++ (entryOf p.composing event).strokes)
      ↔ Met p before event := by
  unfold Met
  cases entryOf p.composing event with
  | nothing =>
    show digits = entered [] (before ++ []) ↔ True
    rw [List.append_nil]
    exact iff_true_intro hdigits
  | backspace =>
    have hcut : ¬CutsPrefix before (Entry.strokes .backspace) := fun h => nomatch h.2
    rw [entered_append hcut, ← hdigits]
    exact iff_true_intro rfl
  | text value =>
    show _ = entered [] (before ++ value.map .char) ↔ if _ then _ else _
    by_cases hcut : CutsPrefix before (value.map .char)
    · obtain ⟨rest, hrest, hentered⟩ := entered_append_cut hcut []
      rw [if_pos hcut, hentered, entered_text]
      exact kept_eq_cut_iff (hdigits.trans hrest) hbuffer value
    · rw [if_neg hcut, entered_append hcut, entered_text, ← hdigits]
      exact kept_eq_append_iff hbuffer value

theorem isUpperHex_of_mem_kept (hp : p.InHex) (hdigits : ∀ c ∈ digits, IsUpperHex c)
    (entry : Entry) : ∀ c ∈ entry.kept p digits, IsUpperHex c := by
  have hwhole : ∀ c ∈ whole digits, IsUpperHex c := by
    intro c hc
    exact hdigits c ((whole_append_unpaired digits) ▸ List.mem_append_left _ hc)
  cases entry with
  | nothing => exact hdigits
  | backspace => exact hwhole
  | text value =>
    rw [Entry.kept]
    split
    · exact hdigits
    · intro c hc
      rcases List.mem_append.mp hc with hc | hc
      · exact hwhole c hc
      · rcases List.mem_append.mp hc with hc | hc
        · exact hp.renderedDigits c hc
        · exact isUpperHex_of_mem_hexDigits hc

theorem exact_snoc_iff {lineEnding : SerialLineEnding} {before : List PanelEvent}
    (hp : p.InHex) (hexact : Exact lineEnding p before) (event : PanelEvent) :
    Exact lineEnding p (before ++ [event])
      ↔ Met (p.run lineEnding before).1 (strokes p.composing before) event := by
  obtain ⟨hbytes, hbuffer⟩ := hexact
  have hq := hp.run lineEnding before
  have heffect := on_effect hq.renderedMode lineEnding event
  obtain ⟨hkept, hsent⟩ :=
    effect_kept hbuffer (entryOf (p.run lineEnding before).1.composing event)
  have hupper := @isUpperHex_of_mem_entered [] (fun _ h => nomatch h)
  have hlast := congrArg Prod.fst heffect
  have hmore := congrArg Prod.snd heffect
  rw [← kept_eq_iff rfl hbuffer, ← pairs_iff (isUpperHex_of_mem_kept hq (hupper _) _) (hupper _)]
  unfold Exact
  rw [Panel.run, feed_snoc, strokes_snoc lineEnding, ← Panel.run]
  have hflat : bytesSent ((p.run lineEnding before).2
        ++ ((p.run lineEnding before).1.on lineEnding event).2)
      = bytesSent (p.run lineEnding before).2
        ++ bytesSent ((p.run lineEnding before).1.on lineEnding event).2 := List.flatMap_append
  dsimp only at hlast hmore ⊢
  rw [hflat, hbytes, hmore, hsent, hlast, hkept]

end

def Panel.hexSession (p : Panel) : Panel := (p.selectSendMode .hex).render

theorem inHex_hexSession (p : Panel) : p.hexSession.InHex :=
  ⟨rfl, rfl, (fun _ h => nomatch h), (fun _ h => nomatch h)⟩

/-- **HEX sending is exact at every moment of a session if and only if every event of it meets the
condition**: it finds the pending digit in its render, and no prefix `0x` comes in two parts. -/
theorem exact_iff (lineEnding : SerialLineEnding) (p : Panel) (events : List PanelEvent) :
    (∀ before, before <+: events → Exact lineEnding p.hexSession before)
      ↔ ∀ before event, before ++ [event] <+: events →
        Met (p.hexSession.run lineEnding before).1 (strokes p.composing before) event := by
  have hp := inHex_hexSession p
  have hsnoc : ∀ before event, Exact lineEnding p.hexSession before →
      (Exact lineEnding p.hexSession (before ++ [event])
        ↔ Met (p.hexSession.run lineEnding before).1 (strokes p.composing before) event) :=
    fun _ event hexact => exact_snoc_iff hp hexact event
  exact forall_prefix_iff ⟨rfl, rfl⟩ hsnoc events

def typed (c : Char) : List PanelEvent := [.change [c], .render]

/-- `0x12` key by key sends `01` and leaves `2`; `1` and `2` pasted within one render leave `2`. -/
theorem typed_prefix_sent :
    ∃ p : Panel,
      ¬Exact .crlf p.hexSession (typed '0' ++ typed 'x' ++ typed '1' ++ typed '2')
        ∧ ¬Exact .crlf p.hexSession [.paste ['1'], .paste ['2'], .render] := by
  refine ⟨⟨⟨.text, [], []⟩, ⟨.text, [], []⟩, false⟩, ?_, ?_⟩
  · rintro ⟨h, -⟩
    revert h
    decide
  · rintro ⟨h, -⟩
    revert h
    decide

end FluxTerm.Serial
