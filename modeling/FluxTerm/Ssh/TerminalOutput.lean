import FluxTerm.Lib.Utf8Validation
import FluxTerm.Ssh.Session

/-!
# FluxTerm — decoding terminal output

`decode_terminal_output` of `crates/engine/src/util.rs`. It takes what is valid from the buffer, and
leaves a character that the next read may complete.

* **`Util.decodePieces`** — one call after each read; **`Util.decodePieces_spec`** — together they
  decode as one call does, however the bytes are cut.
-/

namespace FluxTerm.Ssh

open FluxTerm.Lib

/-! ## Byte by byte -/

theorem decodeFrom_opens (endOfStream : Bool) {bs : Bytes} {p : Pending} (h : Opens bs p)
    (held bytes : Bytes) :
    decodeFrom endOfStream none held (bs ++ bytes) = decodeFrom endOfStream (some p) bs bytes := by
  induction h generalizing bytes with
  | @lead b p hlead =>
    rw [List.singleton_append, decodeFrom]
    simp only [lossyStep, hlead]
    rfl
  | @next bs p b h hlo hhi hleft ih =>
    rw [List.append_assoc, ih, List.singleton_append, decodeFrom]
    simp only [lossyStep, if_pos (And.intro hlo hhi), if_neg hleft]
    rfl

theorem decodeFrom_completes (endOfStream : Bool) {bs : Bytes} {c : Char} (h : Completes bs c)
    (held bytes : Bytes) : decodeFrom endOfStream none held (bs ++ bytes) =
      (c :: (decodeFrom endOfStream none [] bytes).1, (decodeFrom endOfStream none [] bytes).2) := by
  cases h with
  | @ascii b h =>
    have hlead : leadByte b.toNat = ([Char.ofNat b.toNat], none) := by rw [leadByte, if_pos h]
    rw [List.singleton_append, decodeFrom]
    simp only [lossyStep, hlead]
    rfl
  | @last bs p b h hlo hhi hleft =>
    rw [List.append_assoc, decodeFrom_opens endOfStream h, List.singleton_append, decodeFrom]
    simp only [lossyStep, if_pos (And.intro hlo hhi), if_pos hleft]
    rfl

theorem decodeFrom_reads (endOfStream : Bool) {front : Bytes} {s : Text} (h : Reads front s)
    (bytes : Bytes) : decodeFrom endOfStream none [] (front ++ bytes) =
      (s ++ (decodeFrom endOfStream none [] bytes).1, (decodeFrom endOfStream none [] bytes).2) := by
  induction h with
  | nil => rfl
  | cons h _ ih =>
    rw [List.append_assoc, decodeFrom_completes endOfStream h, ih]
    rfl

theorem decodeFrom_stops (endOfStream : Bool) {bad rest : Bytes} (h : Stops bad rest) :
    decodeFrom endOfStream none [] (bad ++ rest) =
      (replacement :: (decodeFrom endOfStream none [] rest).1,
        (decodeFrom endOfStream none [] rest).2) := by
  cases h with
  | @lead b rest hlead =>
    rw [List.singleton_append, decodeFrom]
    simp only [lossyStep, hlead]
    rfl
  | @next bs rest p b h hout =>
    -- the byte that does not go on with the character is read as the first one of another
    rw [decodeFrom_opens endOfStream h, decodeFrom, decodeFrom]
    simp only [lossyStep, if_neg hout]
    simp

theorem decodeFrom_true (pending : Option Pending) (held bytes : Bytes) :
    decodeFrom true pending held bytes = (lossyFrom pending bytes, []) := by
  induction bytes generalizing pending held with
  | nil => cases pending <;> rfl
  | cons b bytes ih =>
    rw [decodeFrom, lossyFrom_cons]
    simp only [ih]

namespace Util

/-! ## The loop -/

def validText (bytes : Bytes) : Text := (decodeUtf8 bytes).getD []

theorem errorLen_pos {bytes : Bytes} {validUpTo errorLen : ℕ}
    (h : runUtf8Validation 0 bytes = .error ⟨validUpTo, some errorLen⟩) : 0 < errorLen := by
  obtain ⟨s, front, rest, -, -, hresult⟩ := runUtf8Validation_spec 0 bytes
  rw [h] at hresult
  cases hresult with
  | invalid hstops => exact List.length_pos_of_ne_nil hstops.ne_nil

/-- `decode_terminal_output`: the text, and what stays in the buffer. -/
def decodeTerminalOutput (buffer : Bytes) (endOfStream : Bool) : Text × Bytes :=
  if buffer = [] then ([], [])
  else
    match _result : runUtf8Validation 0 buffer with
    | .ok () => (validText buffer, [])
    | .error ⟨validUpTo, some errorLen⟩ =>
      let (output, left) := decodeTerminalOutput (buffer.drop (validUpTo + errorLen)) endOfStream
      (validText (buffer.take validUpTo) ++ replacement :: output, left)
    | .error ⟨validUpTo, none⟩ =>
      if endOfStream then (validText (buffer.take validUpTo) ++ [replacement], [])
      else (validText (buffer.take validUpTo), buffer.drop validUpTo)
termination_by buffer.length
decreasing_by
  have hpos := errorLen_pos _result
  have hlen := List.length_pos_of_ne_nil ‹_›
  rw [List.length_drop]
  omega

theorem validText_reads {bytes : Bytes} {s : Text} (h : Reads bytes s) : validText bytes = s := by
  rw [validText, h.eq_utf8, decodeUtf8_utf8]
  rfl

/-- **The loop decodes** as the decoder that goes byte by byte does. -/
theorem decodeTerminalOutput_eq (buffer : Bytes) (endOfStream : Bool) :
    decodeTerminalOutput buffer endOfStream = Ssh.decodeTerminalOutput buffer endOfStream := by
  unfold Ssh.decodeTerminalOutput
  fun_induction decodeTerminalOutput buffer endOfStream with
  | case1 => rfl
  | case2 buffer _ hresult =>
    obtain ⟨s, front, rest, rfl, hreads, hvalid⟩ := runUtf8Validation_spec 0 buffer
    rw [hresult] at hvalid
    cases hvalid
    rw [decodeFrom_reads endOfStream hreads, List.append_nil, validText_reads hreads]
    simp [decodeFrom]
  | case3 buffer _ validUpTo errorLen hresult output left hrest ih =>
    obtain ⟨s, front, rest, rfl, hreads, hvalid⟩ := runUtf8Validation_spec 0 buffer
    rw [hresult] at hvalid
    cases hvalid with
    | @invalid bad rest hstops =>
      rw [Nat.zero_add, ← List.append_assoc, ← List.length_append, List.drop_left] at hrest ih
      rw [hrest] at ih
      rw [decodeFrom_reads endOfStream hreads, decodeFrom_stops endOfStream hstops, ← ih,
        Nat.zero_add, List.take_left, validText_reads hreads]
  | case4 buffer _ validUpTo hresult hend =>
    obtain ⟨s, front, rest, rfl, hreads, hvalid⟩ := runUtf8Validation_spec 0 buffer
    rw [hresult] at hvalid
    cases hvalid with
    | @incomplete left p hopens =>
      have hleft := decodeFrom_opens endOfStream hopens [] []
      rw [List.append_nil] at hleft
      rw [decodeFrom_reads endOfStream hreads, hleft, Nat.zero_add, List.take_left,
        validText_reads hreads, decodeFrom, if_pos hend]
  | case5 buffer _ validUpTo hresult hend =>
    obtain ⟨s, front, rest, rfl, hreads, hvalid⟩ := runUtf8Validation_spec 0 buffer
    rw [hresult] at hvalid
    cases hvalid with
    | @incomplete left p hopens =>
      have hleft := decodeFrom_opens endOfStream hopens [] []
      rw [List.append_nil] at hleft
      rw [decodeFrom_reads endOfStream hreads, hleft, Nat.zero_add, List.take_left, List.drop_left,
        validText_reads hreads, decodeFrom, if_neg hend, List.append_nil]

/-- **What stays in the buffer** is nothing or begins a character, and nothing at the end. -/
theorem decodeTerminalOutput_left (buffer : Bytes) (endOfStream : Bool) :
    (decodeTerminalOutput buffer endOfStream).2 = [] ∨
      endOfStream = false ∧ ∃ p, Opens (decodeTerminalOutput buffer endOfStream).2 p := by
  fun_induction decodeTerminalOutput buffer endOfStream with
  | case1 => exact .inl rfl
  | case2 => exact .inl rfl
  | case3 buffer _ validUpTo errorLen hresult output left hrest ih => rwa [hrest] at ih
  | case4 => exact .inl rfl
  | case5 buffer _ validUpTo hresult hend =>
    obtain ⟨s, front, rest, rfl, hreads, hvalid⟩ := runUtf8Validation_spec 0 buffer
    rw [hresult] at hvalid
    cases hvalid with
    | @incomplete left p hopens =>
      rw [Nat.zero_add, List.drop_left]
      exact .inr ⟨Bool.eq_false_iff.mpr hend, p, hopens⟩

/-! ## Reads -/

/-- **A call and the next one** decode what one call decodes. -/
theorem decodeTerminalOutput_append (buffer more : Bytes) (endOfStream : Bool) :
    decodeTerminalOutput (buffer ++ more) endOfStream =
      ((decodeTerminalOutput buffer false).1 ++ (decodeTerminalOutput
          ((decodeTerminalOutput buffer false).2 ++ more) endOfStream).1,
        (decodeTerminalOutput ((decodeTerminalOutput buffer false).2 ++ more) endOfStream).2) := by
  rw [decodeTerminalOutput_eq, decodeTerminalOutput_eq _ endOfStream]
  unfold Ssh.decodeTerminalOutput
  generalize hmode : false = mode
  fun_induction decodeTerminalOutput buffer mode with
  | case1 => rfl
  | case2 buffer _ hresult =>
    obtain ⟨s, front, rest, rfl, hreads, hvalid⟩ := runUtf8Validation_spec 0 buffer
    rw [hresult] at hvalid
    cases hvalid
    rw [List.append_nil, decodeFrom_reads endOfStream hreads, validText_reads hreads]
    rfl
  | case3 buffer _ validUpTo errorLen hresult output left hrest ih =>
    obtain ⟨s, front, rest, rfl, hreads, hvalid⟩ := runUtf8Validation_spec 0 buffer
    rw [hresult] at hvalid
    cases hvalid with
    | @invalid bad rest hstops =>
      rw [Nat.zero_add, ← List.append_assoc, ← List.length_append, List.drop_left] at hrest ih
      rw [hrest] at ih
      rw [List.append_assoc, List.append_assoc, decodeFrom_reads endOfStream hreads,
        decodeFrom_stops endOfStream (hstops.append more), ih, Nat.zero_add, List.take_left,
        validText_reads hreads]
      simp
  | case4 buffer _ validUpTo hresult hend => cases hmode.trans hend
  | case5 buffer _ validUpTo hresult hend =>
    obtain ⟨s, front, rest, rfl, hreads, hvalid⟩ := runUtf8Validation_spec 0 buffer
    rw [hresult] at hvalid
    cases hvalid with
    | @incomplete left p hopens =>
      rw [Nat.zero_add, List.take_left, List.drop_left, List.append_assoc,
        decodeFrom_reads endOfStream hreads, validText_reads hreads]

def decodePieces (buffer piece : Bytes) : List Bytes → List (Text × Bytes)
  | [] => [decodeTerminalOutput (buffer ++ piece) true]
  | next :: pieces =>
    decodeTerminalOutput (buffer ++ piece) false ::
      decodePieces (decodeTerminalOutput (buffer ++ piece) false).2 next pieces

/-- What a reading has read. -/
structure DecodesAs (bytes : Bytes) (calls : List (Text × Bytes)) : Prop where
  text : calls.flatMap Prod.fst = lossy bytes
  held : ∀ call ∈ calls.dropLast, call.2.length ≤ 3 ∧
    ∃ c more, more ≠ [] ∧ String.utf8EncodeChar c = call.2 ++ more
  emptied : ∀ call ∈ calls.getLast?, call.2 = []

theorem decodeTerminalOutput_true (buffer : Bytes) :
    decodeTerminalOutput buffer true = (lossy buffer, []) := by
  rw [decodeTerminalOutput_eq]
  exact decodeFrom_true none [] buffer

theorem decodeTerminalOutput_held (buffer : Bytes) :
    (decodeTerminalOutput buffer false).2.length ≤ 3 ∧ ∃ c more, more ≠ [] ∧
      String.utf8EncodeChar c = (decodeTerminalOutput buffer false).2 ++ more := by
  rcases decodeTerminalOutput_left buffer false with hnil | ⟨-, p, hopens⟩
  · rw [hnil]
    exact ⟨Nat.zero_le 3, 'a', String.utf8EncodeChar 'a', String.utf8EncodeChar_ne_nil, rfl⟩
  · exact ⟨hopens.length_le, hopens.exists_char⟩

/-- **Where the bytes are cut does not matter.** -/
theorem decodePieces_spec (piece : Bytes) (pieces : List Bytes) :
    DecodesAs (piece ++ pieces.flatten) (decodePieces [] piece pieces) := by
  suffices hfrom : ∀ buffer,
      DecodesAs (buffer ++ piece ++ pieces.flatten) (decodePieces buffer piece pieces) from hfrom []
  induction pieces generalizing piece with
  | nil =>
    intro buffer
    refine ⟨?_, List.forall_mem_nil _, fun call hcall => ?_⟩
    · simp [decodePieces, decodeTerminalOutput_true]
    · obtain rfl : decodeTerminalOutput (buffer ++ piece) true = call := Option.some.inj hcall
      rw [decodeTerminalOutput_true]
  | cons next pieces ih =>
    intro buffer
    obtain ⟨htext, hheld, hemptied⟩ := ih next (decodeTerminalOutput (buffer ++ piece) false).2
    have hne : decodePieces (decodeTerminalOutput (buffer ++ piece) false).2 next pieces ≠ [] := by
      cases pieces <;> exact List.cons_ne_nil _ _
    refine ⟨?_, fun call hcall => ?_, fun call hcall => ?_⟩
    · have happend := decodeTerminalOutput_append (buffer ++ piece) (next ++ pieces.flatten) true
      rw [decodeTerminalOutput_true, decodeTerminalOutput_true] at happend
      rw [decodePieces, List.flatMap_cons, htext, List.flatten_cons, List.append_assoc _ next,
        ← (Prod.mk.inj happend).1]
    · rw [decodePieces, List.dropLast_cons_of_ne_nil hne] at hcall
      rcases List.mem_cons.mp hcall with rfl | hcall
      · exact decodeTerminalOutput_held _
      · exact hheld call hcall
    · rw [decodePieces, List.getLast?_cons_of_ne_nil hne] at hcall
      exact hemptied call hcall

end Util

end FluxTerm.Ssh
