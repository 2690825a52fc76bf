import FluxTerm.History.CommandHistory
import FluxTerm.Lib.JsString
import FluxTerm.Lib.Replace

/-!
# FluxTerm — the input buffer

`updateCommandInputBuffer` (`src/features/command-history/core/inputTracker.ts`): what is typed into
a terminal is followed in a buffer. The control sequences of an event are removed by two patterns,
one after the other; what is left is gone through by characters, while Backspace takes the last
*unit* off the buffer.

* **`trackInput_spec`** — the cutting into events does not matter; a character is taken back by
  Backspace exactly when it is one unit long.
-/

namespace FluxTerm.History

open FluxTerm.Lib

/-! ## Control sequences -/

def unitIn (low high unit : UInt16) : Bool := low ≤ unit && unit ≤ high

/-- `TERMINAL_X10_MOUSE_SEQUENCE_PATTERN`: `\u001b\[M[\u0020-\u00ff]{3}`. -/
def x10MouseLength : JsString → Option ℕ
  | esc :: bracket :: m :: button :: column :: row :: _ =>
    if esc = 0x1b ∧ bracket = 0x5b ∧ m = 0x4d ∧ unitIn 0x20 0xff button ∧ unitIn 0x20 0xff column ∧
      unitIn 0x20 0xff row
    then some 6 else none
  | _ => none

/-- `\[[0-?]*[\x20-\x2f]*[@-~]`. -/
def csiLength : JsString → Option ℕ
  | [] => none
  | bracket :: s =>
    if bracket = 0x5b then
      (runsLength (unitIn 0x30 0x3f) (unitIn 0x20 0x2f) (unitIn 0x40 0x7e) s).map (· + 1)
    else none

/-- `O[ -~]`. -/
def ss3Length : JsString → Option ℕ
  | o :: final :: _ => if o = 0x4f ∧ unitIn 0x20 0x7e final then some 2 else none
  | _ => none

/-- `[^\u001b]`. -/
def notEscapeLength : JsString → Option ℕ
  | [] => none
  | unit :: _ => if unit = 0x1b then none else some 1

/-- `TERMINAL_ESCAPE_SEQUENCE_PATTERN`. -/
def escapeLength : JsString → Option ℕ
  | [] => none
  | esc :: s =>
    if esc = 0x1b then
      (csiLength s <|> ss3Length s <|> notEscapeLength s).map (· + 1)
    else none

def stripTerminalControlSequences (data : JsString) : JsString :=
  withoutMatches escapeLength (withoutMatches x10MouseLength data)

/-! ## The buffer -/

structure TrackedCommandCommit where
  command : JsString
  source : CommandHistorySource
deriving DecidableEq

structure InputBufferUpdateResult where
  buffer : JsString
  commits : List TrackedCommandCommit
deriving DecidableEq

/-- `char >= " "`. -/
def notBelowSpace : JsString → Bool
  | [] => false
  | unit :: _ => 0x20 ≤ unit

/-- One round of the loop of `updateCommandInputBuffer`. -/
def typeChar (state : InputBufferUpdateResult) (char : JsString) : InputBufferUpdateResult :=
  if char = js "\r" ∨ char = js "\n" then
    let command := jsTrim state.buffer
    { buffer := []
      commits :=
        if command = [] then state.commits else state.commits ++ [{ command, source := .typed }] }
  else if char = js "\x7f" ∨ char = js "\x08" then
    { state with buffer := state.buffer.dropLast }
  else if notBelowSpace char then { state with buffer := state.buffer ++ char }
  else state

def updateCommandInputBuffer (buffer data : JsString) : InputBufferUpdateResult :=
  (jsChars (stripTerminalControlSequences data)).foldl typeChar { buffer, commits := [] }

def trackInput (buffer : JsString) (events : List JsString) : InputBufferUpdateResult :=
  events.foldl
    (fun state data =>
      let updated := updateCommandInputBuffer state.buffer data
      { buffer := updated.buffer, commits := state.commits ++ updated.commits })
    { buffer, commits := [] }

/-! ## Units -/

abbrev UnitIn (low high : UInt16) : Type := { unit : UInt16 // unitIn low high unit = true }

abbrev PrintableChar : Type := { c : Char // 0x20 ≤ c.toNat ∧ c.toNat ≠ 0x7f }

/-- What a terminal sends as one. -/
inductive InputUnit where
  | printable (char : PrintableChar)
  | backspace
  | delete
  | carriageReturn
  | lineFeed
  /-- Any but the bare `CSI M`. -/
  | csi (parameters : List (UnitIn 0x30 0x3f)) (intermediates : List (UnitIn 0x20 0x2f))
      (final : UnitIn 0x40 0x7e)
      (notMouse : ¬(parameters = [] ∧ intermediates = [] ∧ final.val = 0x4d))
  | ss3 (final : UnitIn 0x20 0x7e)
  | x10Mouse (button column row : UnitIn 0x20 0xff)

/-- The characters that stay of a unit. -/
def InputUnit.text : InputUnit → Text
  | .printable char => [char.val]
  | .backspace => ['\x08']
  | .delete => ['\x7f']
  | .carriageReturn => ['\r']
  | .lineFeed => ['\n']
  | .csi _ _ _ _ => []
  | .ss3 _ => []
  | .x10Mouse _ _ _ => []

def InputUnit.data : InputUnit → JsString
  | .csi parameters intermediates final _ =>
    0x1b :: 0x5b :: (parameters.map Subtype.val ++ (intermediates.map Subtype.val ++ [final.val]))
  | .ss3 final => [0x1b, 0x4f, final.val]
  | .x10Mouse button column row => [0x1b, 0x5b, 0x4d, button.val, column.val, row.val]
  | unit => jsText unit.text

def eventData (units : List InputUnit) : JsString := units.flatMap InputUnit.data

def InputUnit.withoutMouse : InputUnit → JsString
  | .x10Mouse _ _ _ => []
  | unit => unit.data

/-! ## What the patterns match -/

theorem ne_escape_of_unitIn {low high unit : UInt16} (h : unitIn low high unit = true)
    (hlow : 0x1b < low) : unit ≠ 0x1b := by
  rintro rfl
  have hle : low ≤ 0x1b := by
    have h' := (Bool.and_eq_true _ _).mp h
    exact of_decide_eq_true h'.1
  exact absurd hle (UInt16.not_le.mpr hlow)

theorem x10MouseLength_of_ne {unit : UInt16} (h : unit ≠ 0x1b) (s : JsString) :
    x10MouseLength (unit :: s) = none := by
  unfold x10MouseLength
  split
  · rename_i heq
    obtain ⟨rfl, -⟩ := List.cons.inj heq
    exact if_neg fun hmatch => h hmatch.1
  · rfl

theorem escapeLength_of_ne {unit : UInt16} (h : unit ≠ 0x1b) (s : JsString) :
    escapeLength (unit :: s) = none := if_neg h

theorem x10MouseLength_of_third {esc next unit : UInt16} (h : ¬(next = 0x5b ∧ unit = 0x4d))
    (s : JsString) : x10MouseLength (esc :: next :: unit :: s) = none := by
  unfold x10MouseLength
  split
  · rename_i heq
    simp only [List.cons.injEq] at heq
    obtain ⟨rfl, rfl, rfl, -⟩ := heq
    exact if_neg fun hmatch => h ⟨hmatch.2.1, hmatch.2.2.1⟩
  · rfl

theorem ne_escape_of_mem_jsText {c : Char} (h : c.toNat ≠ 0x1b) :
    ∀ unit ∈ jsText [c], unit ≠ 0x1b := by
  intro unit hunit
  by_cases hc : c.toNat < 0x10000
  · rw [jsText_cons_of_lt hc] at hunit
    obtain rfl := List.mem_singleton.mp hunit
    intro heq
    have hnat : (UInt16.ofNat c.toNat).toNat = c.toNat := UInt16.toNat_ofNat_of_lt' hc
    rw [heq] at hnat
    exact h hnat.symm
  · obtain ⟨high, low, hunits, hhigh, hlow, -⟩ := exists_surrogates hc []
    rw [hunits] at hunit
    rintro rfl
    rcases List.mem_cons.mp hunit with rfl | hunit
    · exact absurd hhigh (by decide)
    · obtain rfl := List.mem_singleton.mp hunit
      exact absurd hlow (by decide)

/-! ## Complete units -/

theorem PrintableChar.ne_escape (c : PrintableChar) : c.val.toNat ≠ 0x1b := by
  have hc := c.property.1
  omega

theorem ne_escape_of_mem_csi {parameters : List (UnitIn 0x30 0x3f)}
    {intermediates : List (UnitIn 0x20 0x2f)} {final : UnitIn 0x40 0x7e} :
    ∀ unit ∈ 0x5b ::
      (parameters.map Subtype.val ++ (intermediates.map Subtype.val ++ [final.val])),
      unit ≠ 0x1b := by
  intro unit hunit
  simp only [List.mem_cons, List.mem_append, List.mem_map, List.not_mem_nil, or_false] at hunit
  obtain rfl | ⟨parameter, -, rfl⟩ | ⟨intermediate, -, rfl⟩ | rfl := hunit
  · decide
  · exact ne_escape_of_unitIn parameter.property (by decide)
  · exact ne_escape_of_unitIn intermediate.property (by decide)
  · exact ne_escape_of_unitIn final.property (by decide)

theorem x10MouseLength_csi {parameters : List (UnitIn 0x30 0x3f)}
    {intermediates : List (UnitIn 0x20 0x2f)} {final : UnitIn 0x40 0x7e}
    (h : ¬(parameters = [] ∧ intermediates = [] ∧ final.val = 0x4d)) (t : JsString) :
    x10MouseLength (0x1b :: 0x5b ::
      (parameters.map Subtype.val ++ (intermediates.map Subtype.val ++ [final.val])) ++ t)
      = none := by
  cases parameters with
  | cons parameter parameters =>
    refine x10MouseLength_of_third (fun hm => ?_) _
    have hparameter := parameter.property
    rw [hm.2] at hparameter
    exact absurd hparameter (by decide)
  | nil =>
    cases intermediates with
    | cons intermediate intermediates =>
      refine x10MouseLength_of_third (fun hm => ?_) _
      have hintermediate := intermediate.property
      rw [hm.2] at hintermediate
      exact absurd hintermediate (by decide)
    | nil => exact x10MouseLength_of_third (fun hm => h ⟨rfl, rfl, hm.2⟩) _

/-- **The first pattern** takes the mouse reports. -/
theorem withoutMatches_x10Mouse (unit : InputUnit) (t : JsString) :
    withoutMatches x10MouseLength (unit.data ++ t)
      = unit.withoutMouse ++ withoutMatches x10MouseLength t := by
  have hplain : ∀ c : Char, c.toNat ≠ 0x1b → withoutMatches x10MouseLength (jsText [c] ++ t)
      = jsText [c] ++ withoutMatches x10MouseLength t := fun c hc =>
    withoutMatches_kept t fun u hu => x10MouseLength_of_ne (ne_escape_of_mem_jsText hc u hu)
  cases unit with
  | printable char => exact hplain char.val char.ne_escape
  | backspace => exact hplain '\x08' (by decide)
  | delete => exact hplain '\x7f' (by decide)
  | carriageReturn => exact hplain '\r' (by decide)
  | lineFeed => exact hplain '\n' (by decide)
  | csi parameters intermediates final notMouse =>
    exact withoutMatches_cons_kept (x10MouseLength_csi notMouse t) fun u hu =>
      x10MouseLength_of_ne (ne_escape_of_mem_csi u hu)
  | ss3 final =>
    have hne : x10MouseLength (0x1b :: 0x4f :: final.val :: t) = none :=
      x10MouseLength_of_third (fun hm => absurd hm.1 (by decide)) t
    have hrest : ∀ u ∈ [0x4f, final.val], ∀ rest, x10MouseLength (u :: rest) = none := by
      intro u hu rest
      rcases List.mem_cons.mp hu with rfl | hu
      · exact x10MouseLength_of_ne (by decide) rest
      · obtain rfl := List.mem_singleton.mp hu
        exact x10MouseLength_of_ne (ne_escape_of_unitIn final.property (by decide)) rest
    exact withoutMatches_cons_kept hne hrest
  | x10Mouse button column row =>
    exact withoutMatches_match (s := [0x5b, 0x4d, button.val, column.val, row.val])
      (if_pos ⟨rfl, rfl, rfl, button.property, column.property, row.property⟩)

theorem csiLength_csi (parameters : List (UnitIn 0x30 0x3f))
    (intermediates : List (UnitIn 0x20 0x2f)) (final : UnitIn 0x40 0x7e) (t : JsString) :
    csiLength (0x5b ::
      (parameters.map Subtype.val ++ (intermediates.map Subtype.val ++ final.val :: t)))
      = some (parameters.length + intermediates.length + 2) := by
  have hdisjoint : ∀ {low high low' high' unit : UInt16}, unitIn low high unit = true →
      high < low' ∨ high' < low → unitIn low' high' unit = false := by
    intro low high low' high' unit h hcut
    simp only [unitIn, Bool.and_eq_true, Bool.and_eq_false_iff, decide_eq_true_eq,
      decide_eq_false_iff_not, UInt16.le_iff_toNat_le, UInt16.lt_iff_toNat_lt] at h hcut ⊢
    omega
  have hmem : ∀ {low high : UInt16} {l : List (UnitIn low high)},
      ∀ u ∈ l.map Subtype.val, unitIn low high u = true := by
    intro low high l u hu
    obtain ⟨v, -, rfl⟩ := List.mem_map.mp hu
    exact v.property
  rw [csiLength, if_pos rfl, runsLength_runs (fun u hu => hdisjoint hu (.inl (by decide)))
    (fun u hu => ⟨hdisjoint hu (.inr (by decide)), hdisjoint hu (.inr (by decide))⟩)
    hmem hmem final.property t, List.length_map, List.length_map]
  rfl

/-- **The second pattern** takes the other sequences. -/
theorem withoutMatches_escape (unit : InputUnit) (t : JsString) :
    withoutMatches escapeLength (unit.withoutMouse ++ t)
      = jsText unit.text ++ withoutMatches escapeLength t := by
  have hplain : ∀ c : Char, c.toNat ≠ 0x1b → withoutMatches escapeLength (jsText [c] ++ t)
      = jsText [c] ++ withoutMatches escapeLength t := fun c hc =>
    withoutMatches_kept t fun u hu => escapeLength_of_ne (ne_escape_of_mem_jsText hc u hu)
  cases unit with
  | printable char => exact hplain char.val char.ne_escape
  | backspace => exact hplain '\x08' (by decide)
  | delete => exact hplain '\x7f' (by decide)
  | carriageReturn => exact hplain '\r' (by decide)
  | lineFeed => exact hplain '\n' (by decide)
  | csi parameters intermediates final notMouse =>
    refine withoutMatches_match (s := 0x5b ::
      (parameters.map Subtype.val ++ (intermediates.map Subtype.val ++ [final.val]))) ?_
    have hcsi := csiLength_csi parameters intermediates final t
    have hlength : (0x1b :: 0x5b :: (parameters.map Subtype.val ++
        (intermediates.map Subtype.val ++ [final.val]))).length
        = parameters.length + intermediates.length + 2 + 1 := by
      simp only [List.length_cons, List.length_append, List.length_map, List.length_nil]
      omega
    rw [hlength, List.cons_append, List.cons_append, List.append_assoc, List.append_assoc,
      List.singleton_append, escapeLength, if_pos rfl, hcsi]
    rfl
  | ss3 final =>
    refine withoutMatches_match (s := [0x4f, final.val]) ?_
    have hss3 : ss3Length (0x4f :: final.val :: t) = some 2 := if_pos ⟨rfl, final.property⟩
    show escapeLength (0x1b :: 0x4f :: final.val :: t) = some 3
    rw [escapeLength, if_pos rfl, hss3]
    rfl
  | x10Mouse button column row => rfl

/-- **Complete units.** The sequences go, and no unit touches its neighbours. -/
theorem strip_units (units : List InputUnit) :
    stripTerminalControlSequences (eventData units) = jsText (units.flatMap InputUnit.text) := by
  rw [stripTerminalControlSequences, eventData, withoutMatches_flatMap withoutMatches_x10Mouse,
    withoutMatches_flatMap withoutMatches_escape]
  induction units with
  | nil => rfl
  | cons unit units ih => rw [List.flatMap_cons, List.flatMap_cons, jsText_append, ih]

/-! ## The cutting -/

def typeText (state : InputBufferUpdateResult) (s : Text) : InputBufferUpdateResult :=
  s.foldl (fun state c => typeChar state (jsText [c])) state

theorem update_units (buffer : JsString) (units : List InputUnit) :
    updateCommandInputBuffer buffer (eventData units)
      = typeText { buffer, commits := [] } (units.flatMap InputUnit.text) := by
  rw [updateCommandInputBuffer, strip_units, jsChars_jsText, List.foldl_map]
  rfl

theorem typeChar_commits (buffer : JsString) (commits : List TrackedCommandCommit)
    (char : JsString) :
    typeChar { buffer, commits } char =
      { buffer := (typeChar { buffer, commits := [] } char).buffer
        commits := commits ++ (typeChar { buffer, commits := [] } char).commits } := by
  unfold typeChar
  dsimp only
  split_ifs
  · rw [List.append_nil]
  · rfl
  · rw [List.append_nil]
  · rw [List.append_nil]
  · rw [List.append_nil]

theorem typeText_commits (buffer : JsString) (commits : List TrackedCommandCommit) (s : Text) :
    typeText { buffer, commits } s =
      { buffer := (typeText { buffer, commits := [] } s).buffer
        commits := commits ++ (typeText { buffer, commits := [] } s).commits } := by
  induction s generalizing buffer commits with
  | nil => rw [typeText, List.foldl_nil, typeText, List.foldl_nil, List.append_nil]
  | cons c s ih =>
    have hstep (state : InputBufferUpdateResult) :
        typeText state (c :: s) = typeText (typeChar state (jsText [c])) s := rfl
    rw [hstep, typeChar_commits, ih, hstep]
    conv_rhs => rw [ih]
    rw [List.append_assoc]

/-- **The cutting** into events is not seen. -/
theorem trackInput_units (buffer : JsString) (events : List (List InputUnit)) :
    trackInput buffer (events.map eventData)
      = typeText { buffer, commits := [] } (events.flatten.flatMap InputUnit.text) := by
  have hrun (state : InputBufferUpdateResult) :
      (events.map eventData).foldl (fun state data =>
          let updated := updateCommandInputBuffer state.buffer data
          { buffer := updated.buffer, commits := state.commits ++ updated.commits }) state
        = typeText state (events.flatten.flatMap InputUnit.text) := by
    induction events generalizing state with
    | nil => rfl
    | cons units events ih =>
      rw [List.map_cons, List.foldl_cons, ih, List.flatten_cons, List.flatMap_append, typeText,
        typeText, List.foldl_append]
      dsimp only
      rw [update_units, ← typeText_commits]
      rfl
  exact hrun _

/-! ## Taking back -/

theorem toNat_eq_of_jsText {c d : Char} (h : jsText [c] = jsText [d]) : c.toNat = d.toNat := by
  have hc := codePoints_jsText_append [c] []
  rw [List.append_nil, h, ← List.append_nil (jsText [d]), codePoints_jsText_append] at hc
  exact (List.cons.inj hc).1.symm

theorem notBelowSpace_jsText {c : Char} (h : 0x20 ≤ c.toNat) :
    notBelowSpace (jsText [c]) = true := by
  by_cases hc : c.toNat < 0x10000
  · have hnat : (UInt16.ofNat c.toNat).toNat = c.toNat := UInt16.toNat_ofNat_of_lt' hc
    rw [jsText_cons_of_lt hc]
    refine decide_eq_true (UInt16.le_iff_toNat_le.mpr ?_)
    rw [hnat]
    exact h
  · obtain ⟨high, low, hunits, hhigh, -⟩ := exists_surrogates hc []
    rw [isHighSurrogate, Bool.and_eq_true, decide_eq_true_eq] at hhigh
    rw [hunits]
    refine decide_eq_true (UInt16.le_iff_toNat_le.mpr ?_)
    exact Nat.le_trans (by decide) hhigh.1

theorem typeChar_printable (state : InputBufferUpdateResult) (c : PrintableChar) :
    typeChar state (jsText [c.val]) = { state with buffer := state.buffer ++ jsText [c.val] } := by
  have hne (d : Char) (hd : d.toNat < 0x20 ∨ d.toNat = 0x7f) : jsText [c.val] ≠ jsText [d] := by
    intro h
    have hnat := toNat_eq_of_jsText h
    have hc := c.property
    omega
  have hline : ¬(jsText [c.val] = js "\r" ∨ jsText [c.val] = js "\n") :=
    not_or.mpr ⟨hne '\r' (by decide), hne '\n' (by decide)⟩
  have hkey : ¬(jsText [c.val] = js "\x7f" ∨ jsText [c.val] = js "\x08") :=
    not_or.mpr ⟨hne '\x7f' (by decide), hne '\x08' (by decide)⟩
  rw [typeChar, if_neg hline, if_neg hkey, if_pos (notBelowSpace_jsText c.property.1)]

theorem typeText_taken_back (buffer : JsString) (c : PrintableChar) {key : InputUnit}
    (hkey : key = .backspace ∨ key = .delete) :
    (typeText { buffer, commits := [] } (c.val :: key.text)).buffer
      = (buffer ++ jsText [c.val]).dropLast := by
  have hlast (state : InputBufferUpdateResult) :
      typeText state key.text = { state with buffer := state.buffer.dropLast } := by
    rcases hkey with rfl | rfl
    · rfl
    · rfl
  have hstep : typeText { buffer, commits := [] } (c.val :: key.text)
      = typeText (typeChar { buffer, commits := [] } (jsText [c.val])) key.text := rfl
  rw [hstep, typeChar_printable, hlast]

theorem dropLast_append_jsText_iff (buffer : JsString) (c : Char) :
    (buffer ++ jsText [c]).dropLast = buffer ↔ c.toNat < 0x10000 := by
  constructor
  · intro h
    by_contra hc
    obtain ⟨high, low, hunits, -⟩ := exists_surrogates hc []
    have hlength := congrArg List.length h
    rw [hunits, List.length_dropLast, List.length_append] at hlength
    simp only [List.length_cons] at hlength
    omega
  · intro hc
    rw [jsText_cons_of_lt hc]
    exact List.dropLast_concat

/-- **The input buffer.** However the units are cut into events, the buffer and the commits are the
same, and a character is taken back by one Backspace exactly when it is one unit long. -/
theorem trackInput_spec (buffer : JsString) :
    (∀ events events' : List (List InputUnit), events.flatten = events'.flatten →
      trackInput buffer (events.map eventData) = trackInput buffer (events'.map eventData)) ∧
    ∀ (c : PrintableChar) (key : InputUnit) (events : List (List InputUnit)),
      key = .backspace ∨ key = .delete → events.flatten = [.printable c, key] →
        ((trackInput buffer (events.map eventData)).buffer = buffer ↔ c.val.toNat < 0x10000) := by
  refine ⟨fun events events' h => ?_, fun c key events hkey h => ?_⟩
  · rw [trackInput_units, trackInput_units, h]
  · have htext : [InputUnit.printable c, key].flatMap InputUnit.text = c.val :: key.text := by
      rw [List.flatMap_cons, List.flatMap_cons, List.flatMap_nil, List.append_nil]
      rfl
    rw [trackInput_units, h, htext, typeText_taken_back buffer c hkey]
    exact dropLast_append_jsText_iff buffer c.val

/-- `U+1F600` and Backspace: half of the pair stays in the buffer. -/
theorem trackInput_leaves_half :
    ¬∀ (buffer : JsString) (c : PrintableChar),
      (trackInput buffer [eventData [.printable c, .backspace]]).buffer = buffer := by
  intro h
  have hsample := h [] ⟨'😀', by decide, by decide⟩
  exact absurd hsample (by decide)

end FluxTerm.History
