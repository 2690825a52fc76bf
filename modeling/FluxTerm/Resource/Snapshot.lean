import FluxTerm.Engine.Error
import FluxTerm.Lib.LineStore
import Mathlib.Tactic.Linarith
import Mathlib.Tactic.Positivity
import Mathlib.Tactic.Ring

/-!
# FluxTerm — what the monitor of a remote host reads

`monitor.rs`: the counters of `/proc/stat` and the sizes of `/proc/meminfo` in the output of a
remote command, and the percentages and bytes that are shown. An operation of `u64` that leaves the
range is a fault of its own; percentages are exact rationals.

* **`snapshot_sound_iff`** — all of it.
-/

namespace FluxTerm.Resource

open Lib Engine

/-! ## Arithmetic of `u64` -/

/-- `a + b`, if it is in the range of `u64`. -/
def checkedAdd (a b : ℕ) : Option ℕ := if a + b < 2 ^ 64 then some (a + b) else none

/-- `a * b`, if it is in the range of `u64`. -/
def checkedMul (a b : ℕ) : Option ℕ := if a * b < 2 ^ 64 then some (a * b) else none

/-! ## Processor counters -/

structure CpuCounters where
  user : ℕ
  nice : ℕ
  system : ℕ
  idle : ℕ
  iowait : ℕ
  irq : ℕ
  softirq : ℕ
  steal : ℕ
deriving DecidableEq

namespace CpuCounters

/-- `CpuCounters::total`, if no addition leaves the range. -/
def total (c : CpuCounters) : Option ℕ := do
  let sum ← checkedAdd c.user c.nice
  let sum ← checkedAdd sum c.system
  let sum ← checkedAdd sum c.idle
  let sum ← checkedAdd sum c.iowait
  let sum ← checkedAdd sum c.irq
  let sum ← checkedAdd sum c.softirq
  checkedAdd sum c.steal

def sum (c : CpuCounters) : ℕ :=
  c.user + c.nice + c.system + c.idle + c.iowait + c.irq + c.softirq + c.steal

/-- How far the counters have gone forward since `previous`. -/
def gain (previous current : CpuCounters) : ℕ :=
  (current.user - previous.user) + (current.nice - previous.nice)
    + (current.system - previous.system) + (current.idle - previous.idle)
    + (current.iowait - previous.iowait) + (current.irq - previous.irq)
    + (current.softirq - previous.softirq) + (current.steal - previous.steal)

/-- No counter has gone back since `previous`. -/
structure Monotone (previous current : CpuCounters) : Prop where
  user : previous.user ≤ current.user
  nice : previous.nice ≤ current.nice
  system : previous.system ≤ current.system
  idle : previous.idle ≤ current.idle
  iowait : previous.iowait ≤ current.iowait
  irq : previous.irq ≤ current.irq
  softirq : previous.softirq ≤ current.softirq
  steal : previous.steal ≤ current.steal

end CpuCounters

def parseNumbers : List Text → Except EngineError (List ℕ)
  | [] => .ok []
  | part :: parts =>
    match parseU64 part with
    | .error detail =>
      .error (.withDetail "resource_monitor_parse_failed" "Failed to parse CPU information" detail)
    | .ok number => (parseNumbers parts).map (number :: ·)

def unsupported : EngineError :=
  .new "resource_monitor_unsupported" "Remote system does not support resource monitoring"

def parseCpuCounters (output : Text) : Except EngineError CpuCounters :=
  match (textLines output).find? ("cpu ".toList.isPrefixOf ·) with
  | none => .error unsupported
  | some line =>
    match parseNumbers (splitWhitespace line).tail with
    | .error error => .error error
    | .ok (user :: nice :: system :: idle :: iowait :: irq :: softirq :: steal :: _) =>
      .ok ⟨user, nice, system, idle, iowait, irq, softirq, steal⟩
    | .ok _ => .error unsupported

structure ResourceCpuSnapshot where
  totalPercent : ℚ
  userPercent : ℚ
  systemPercent : ℚ
  idlePercent : ℚ
  iowaitPercent : ℚ
  logicalCpuCount : Option ℕ

/-- `calculate_cpu_snapshot`, if no total leaves the range. The differences are those of
`saturating_sub`. -/
def calculateCpuSnapshot (previous current : CpuCounters) (logicalCpuCount : ℕ) :
    Option ResourceCpuSnapshot := do
  let currentTotal ← current.total
  let previousTotal ← previous.total
  let totalDiff : ℚ := (max (currentTotal - previousTotal) 1 : ℕ)
  let userDiff : ℚ := (current.user - previous.user : ℕ)
  let niceDiff : ℚ := (current.nice - previous.nice : ℕ)
  let systemDiff : ℚ := (current.system - previous.system : ℕ)
  let idleDiff : ℚ := (current.idle - previous.idle : ℕ)
  let iowaitDiff : ℚ := (current.iowait - previous.iowait : ℕ)
  let irqDiff : ℚ := (current.irq - previous.irq : ℕ)
  let softirqDiff : ℚ := (current.softirq - previous.softirq : ℕ)
  let stealDiff : ℚ := (current.steal - previous.steal : ℕ)
  let busyTotal :=
    userDiff + niceDiff + systemDiff + iowaitDiff + irqDiff + softirqDiff + stealDiff
  return {
    totalPercent := busyTotal / totalDiff * 100
    userPercent := (userDiff + niceDiff) / totalDiff * 100
    systemPercent := (systemDiff + irqDiff + softirqDiff + stealDiff) / totalDiff * 100
    idlePercent := idleDiff / totalDiff * 100
    iowaitPercent := iowaitDiff / totalDiff * 100
    logicalCpuCount := some logicalCpuCount }

def IsPercentage (p : ℚ) : Prop := 0 ≤ p ∧ p ≤ 100

/-- **Percentages that are percentages.** -/
structure Percentages (s : ResourceCpuSnapshot) : Prop where
  total : IsPercentage s.totalPercent
  user : IsPercentage s.userPercent
  system : IsPercentage s.systemPercent
  idle : IsPercentage s.idlePercent
  iowait : IsPercentage s.iowaitPercent
  parts : s.userPercent + s.systemPercent + s.iowaitPercent = s.totalPercent
  whole : s.totalPercent + s.idlePercent ≤ 100

/-! ## Sizes -/

/-- The keys of `/proc/meminfo` that count. -/
inductive MemoryKey where
  | memTotal
  | memFree
  | memAvailable
  | cached
deriving DecidableEq

/-- `match &captures["key"]`. -/
def memoryKey (name : Text) : Option MemoryKey :=
  if name = "MemTotal".toList then some .memTotal
  else if name = "MemFree".toList then some .memFree
  else if name = "MemAvailable".toList then some .memAvailable
  else if name = "Cached".toList then some .cached
  else none

structure MemoryKb where
  totalKb : Option ℕ
  freeKb : Option ℕ
  availableKb : Option ℕ
  cacheKb : Option ℕ

namespace MemoryKb

def get (info : MemoryKb) : MemoryKey → Option ℕ
  | .memTotal => info.totalKb
  | .memFree => info.freeKb
  | .memAvailable => info.availableKb
  | .cached => info.cacheKb

def set (info : MemoryKb) (value : ℕ) : MemoryKey → MemoryKb
  | .memTotal => { info with totalKb := some value }
  | .memFree => { info with freeKb := some value }
  | .memAvailable => { info with availableKb := some value }
  | .cached => { info with cacheKb := some value }

theorem get_set (info : MemoryKb) (value : ℕ) (key other : MemoryKey) :
    (info.set value key).get other = if key = other then some value else info.get other := by
  cases key <;> cases other <;> rfl

end MemoryKb

/-- A character of `[A-Za-z_]`. -/
def isKeyChar (c : Char) : Bool := c.isAlpha || c == '_'

/-- The captures of `^(?P<key>[A-Za-z_]+):\s+(?P<value>\d+)\s+kB$`; `digit` says which characters
`\d` takes. -/
def memoryLine (digit : Char → Bool) (line : Text) : Option (Text × Text) :=
  match line.dropWhile isKeyChar with
  | ':' :: rest =>
    let key := line.takeWhile isKeyChar
    let behind := rest.dropWhile isWhitespace
    let value := behind.takeWhile digit
    let unit := behind.dropWhile digit
    if key ≠ [] ∧ rest.takeWhile isWhitespace ≠ [] ∧ value ≠ [] ∧ unit.takeWhile isWhitespace ≠ [] ∧
        unit.dropWhile isWhitespace = "kB".toList then
      some (key, value)
    else none
  | _ => none

/-- The loop of `parse_memory_snapshot`. -/
def scanMemory (digit : Char → Bool) : MemoryKb → List Text → Except EngineError MemoryKb
  | info, [] => .ok info
  | info, line :: lines =>
    match memoryLine digit line with
    | none => scanMemory digit info lines
    | some (name, digits) =>
      match parseU64 digits with
      | .error detail =>
        .error (.withDetail "resource_monitor_parse_failed" "Failed to parse memory information"
          detail)
      | .ok value =>
        match memoryKey name with
        | some key => scanMemory digit (info.set value key) lines
        | none => scanMemory digit info lines

structure ResourceMemorySnapshot where
  totalBytes : ℕ
  usedBytes : ℕ
  freeBytes : ℕ
  availableBytes : ℕ
  cacheBytes : ℕ

inductive Fault where
  | error (error : EngineError)
  /-- An operation leaves the range of `u64`. -/
  | overflow

def toBytes (totalKb usedKb freeKb availableKb cacheKb : ℕ) : Option ResourceMemorySnapshot := do
  let totalBytes ← checkedMul totalKb 1024
  let usedBytes ← checkedMul usedKb 1024
  let freeBytes ← checkedMul freeKb 1024
  let availableBytes ← checkedMul availableKb 1024
  let cacheBytes ← checkedMul cacheKb 1024
  return ⟨totalBytes, usedBytes, freeBytes, availableBytes, cacheBytes⟩

def parseMemorySnapshot (digit : Char → Bool) (output : Text) :
    Except Fault ResourceMemorySnapshot :=
  match scanMemory digit ⟨none, none, none, none⟩ (textLines output) with
  | .error error => .error (.error error)
  | .ok info =>
    match info.totalKb with
    | none => .error (.error unsupported)
    | some totalKb =>
      let freeKb := info.freeKb.getD 0
      let availableKb := info.availableKb.getD freeKb
      let cacheKb := info.cacheKb.getD 0
      match toBytes totalKb (totalKb - availableKb) freeKb availableKb cacheKb with
      | some snapshot => .ok snapshot
      | none => .error .overflow

/-! ## When the percentages are percentages -/

namespace CpuCounters

variable {previous current c : CpuCounters}

theorem bind_checkedAdd {a b : ℕ} (f : ℕ → Option ℕ) :
    (checkedAdd a b >>= f) = if a + b < 2 ^ 64 then f (a + b) else none := by
  rw [checkedAdd]
  split <;> rfl

theorem total_eq (c : CpuCounters) : c.total = if c.sum < 2 ^ 64 then some c.sum else none := by
  simp only [total, bind_checkedAdd]
  rw [checkedAdd, sum]
  split_ifs <;> first | rfl | omega

def loss (previous current : CpuCounters) : ℕ := gain current previous

theorem sum_add_gain (previous current : CpuCounters) :
    previous.sum + gain previous current = current.sum + loss previous current := by
  have hfield : ∀ p c : ℕ, p + (c - p) = c + (p - c) := fun p c => by omega
  have huser := hfield previous.user current.user
  have hnice := hfield previous.nice current.nice
  have hsystem := hfield previous.system current.system
  have hidle := hfield previous.idle current.idle
  have hiowait := hfield previous.iowait current.iowait
  have hirq := hfield previous.irq current.irq
  have hsoftirq := hfield previous.softirq current.softirq
  have hsteal := hfield previous.steal current.steal
  simp only [sum, gain, loss]
  linarith

theorem loss_eq_zero_iff : loss previous current = 0 ↔ Monotone previous current := by
  simp only [loss, gain, Nat.add_eq_zero_iff, Nat.sub_eq_zero_iff_le]
  constructor
  · rintro ⟨⟨⟨⟨⟨⟨⟨huser, hnice⟩, hsystem⟩, hidle⟩, hiowait⟩, hirq⟩, hsoftirq⟩, hsteal⟩
    exact ⟨huser, hnice, hsystem, hidle, hiowait, hirq, hsoftirq, hsteal⟩
  · intro h
    exact ⟨⟨⟨⟨⟨⟨⟨h.user, h.nice⟩, h.system⟩, h.idle⟩, h.iowait⟩, h.irq⟩, h.softirq⟩, h.steal⟩

theorem gain_le_iff : gain previous current ≤ max (current.sum - previous.sum) 1 ↔
    Monotone previous current ∨ gain previous current ≤ 1 := by
  have hsums := sum_add_gain previous current
  rw [← loss_eq_zero_iff]
  generalize gain previous current = g at *
  generalize loss previous current = l at *
  omega

end CpuCounters

theorem isPercentage_of_le {part whole : ℕ} (hpos : 0 < whole) (h : part ≤ whole) :
    IsPercentage ((part : ℚ) / whole * 100) := by
  have hwhole : (0 : ℚ) < whole := by exact_mod_cast hpos
  have hpart : (part : ℚ) ≤ whole := by exact_mod_cast h
  constructor
  · positivity
  · have hle : (part : ℚ) / whole ≤ 1 := (div_le_one hwhole).mpr hpart
    linarith

section Percent

variable {previous current : CpuCounters} {logicalCpuCount : ℕ}

theorem calculateCpuSnapshot_isSome (hprevious : previous.sum < 2 ^ 64)
    (hcurrent : current.sum < 2 ^ 64) :
    (calculateCpuSnapshot previous current logicalCpuCount).isSome = true := by
  rw [calculateCpuSnapshot, current.total_eq, previous.total_eq, if_pos hprevious, if_pos hcurrent]
  rfl

/-- **When the percentages are percentages.** -/
theorem percentages_iff {s : ResourceCpuSnapshot}
    (h : calculateCpuSnapshot previous current logicalCpuCount = some s) :
    Percentages s ↔
      CpuCounters.Monotone previous current ∨ CpuCounters.gain previous current ≤ 1 := by
  rw [← CpuCounters.gain_le_iff]
  rw [calculateCpuSnapshot, current.total_eq, previous.total_eq] at h
  split at h
  · split at h
    · cases h
      generalize hwhole : max (current.sum - previous.sum) 1 = whole
      have hpos : 0 < whole := by omega
      have hpos' : (0 : ℚ) < whole := by exact_mod_cast hpos
      rw [CpuCounters.gain]
      generalize current.user - previous.user = user
      generalize current.nice - previous.nice = nice
      generalize current.system - previous.system = system
      generalize current.idle - previous.idle = idle
      generalize current.iowait - previous.iowait = iowait
      generalize current.irq - previous.irq = irq
      generalize current.softirq - previous.softirq = softirq
      generalize current.steal - previous.steal = steal
      constructor
      · intro hpercentages
        -- busy and idle time together are the whole gain
        have hsum : ((user + nice + system + idle + iowait + irq + softirq + steal : ℕ) : ℚ) / whole
            ≤ 1 := by
          have hwhole := hpercentages.whole
          simp only at hwhole
          push_cast
          rw [← add_mul, ← add_div] at hwhole
          have hle := (le_div_iff₀ (by norm_num : (0 : ℚ) < 100)).mpr hwhole
          rw [div_self (by norm_num)] at hle
          refine le_of_eq_of_le ?_ hle
          ring
        exact_mod_cast (div_le_one hpos').mp hsum
      · intro hle
        have hbusy := isPercentage_of_le hpos
          (show user + nice + system + iowait + irq + softirq + steal ≤ whole by omega)
        have huser := isPercentage_of_le hpos (show user + nice ≤ whole by omega)
        have hsystem := isPercentage_of_le hpos (show system + irq + softirq + steal ≤ whole by omega)
        have hidle := isPercentage_of_le hpos (show idle ≤ whole by omega)
        have hiowait := isPercentage_of_le hpos (show iowait ≤ whole by omega)
        have hall := isPercentage_of_le hpos hle
        push_cast at hbusy huser hsystem hidle hiowait hall
        refine ⟨hbusy, huser, hsystem, hidle, hiowait, by ring, ?_⟩
        refine le_of_eq_of_le ?_ hall.2
        ring
    · cases h
  · cases h

end Percent

/-! ## When the sizes stay in the range -/

section Memory

variable {digit : Char → Bool}

def memoryValue (digit : Char → Bool) (line : Text) : Option (MemoryKey × ℕ) :=
  match memoryLine digit line with
  | none => none
  | some (name, digits) =>
    match parseU64 digits, memoryKey name with
    | .ok value, some key => some (key, value)
    | _, _ => none

def lastValue (digit : Char → Bool) (key : MemoryKey) : List Text → Option ℕ
  | [] => none
  | line :: lines =>
    (lastValue digit key lines).or
      ((memoryValue digit line).bind fun found => if found.1 = key then some found.2 else none)

/-- Every number of the right form is one of `u64`. -/
def NumbersFit (digit : Char → Bool) (lines : List Text) : Prop :=
  ∀ line ∈ lines, ∀ name digits, memoryLine digit line = some (name, digits) →
    ∃ value, parseU64 digits = .ok value

/-- **The loop finds the last sizes**, unless a number is too large. -/
theorem scanMemory_ok {lines : List Text} {info result : MemoryKb}
    (h : scanMemory digit info lines = .ok result) :
    NumbersFit digit lines ∧
      ∀ key, result.get key = (lastValue digit key lines).or (info.get key) := by
  induction lines generalizing info with
  | nil =>
    cases h
    exact ⟨fun _ hline => absurd hline List.not_mem_nil, fun key => rfl⟩
  | cons line lines ih =>
    rw [scanMemory] at h
    cases hline : memoryLine digit line with
    | none =>
      rw [hline] at h
      obtain ⟨hfit, hget⟩ := ih h
      refine ⟨fun other hother name digits hparsed => ?_, fun key => ?_⟩
      · rcases List.mem_cons.mp hother with rfl | hother
        · rw [hline] at hparsed
          cases hparsed
        · exact hfit other hother name digits hparsed
      · rw [hget key, lastValue, memoryValue, hline]
        simp
    | some capture =>
      obtain ⟨name, digits⟩ := capture
      simp only [hline] at h
      cases hvalue : parseU64 digits with
      | error detail => simp [hvalue] at h
      | ok value =>
        simp only [hvalue] at h
        have hfitCons : NumbersFit digit lines → NumbersFit digit (line :: lines) := by
          intro hfit other hother name' digits' hparsed
          rcases List.mem_cons.mp hother with rfl | hother
          · rw [hline] at hparsed
            cases hparsed
            exact ⟨value, hvalue⟩
          · exact hfit other hother name' digits' hparsed
        cases hkey : memoryKey name with
        | none =>
          simp only [hkey] at h
          obtain ⟨hfit, hget⟩ := ih h
          refine ⟨hfitCons hfit, fun key => ?_⟩
          rw [hget key, lastValue, memoryValue, hline]
          simp [hvalue, hkey]
        | some found =>
          simp only [hkey] at h
          obtain ⟨hfit, hget⟩ := ih h
          refine ⟨hfitCons hfit, fun key => ?_⟩
          rw [hget key, lastValue, memoryValue, hline, MemoryKb.get_set]
          simp only [hvalue, hkey, Option.bind_some, Option.or_assoc]
          by_cases hfound : found = key
          · simp [hfound]
          · simp [hfound]

theorem scanMemory_error {lines : List Text} {info : MemoryKb} {error : EngineError}
    (h : scanMemory digit info lines = .error error) : ¬NumbersFit digit lines := by
  intro hfit
  induction lines generalizing info with
  | nil => cases h
  | cons line lines ih =>
    have hrest : NumbersFit digit lines :=
      fun other hother => hfit other (List.mem_cons_of_mem line hother)
    rw [scanMemory] at h
    cases hline : memoryLine digit line with
    | none =>
      rw [hline] at h
      exact ih h hrest
    | some capture =>
      obtain ⟨name, digits⟩ := capture
      obtain ⟨value, hvalue⟩ := hfit line List.mem_cons_self name digits hline
      simp only [hline, hvalue] at h
      cases hkey : memoryKey name with
      | none => exact ih (by simpa only [hkey] using h) hrest
      | some key => exact ih (by simpa only [hkey] using h) hrest

/-- The sizes of the lines stay below `2 ^ 54` kB, or there is an error before they are used. -/
def MemoryFits (digit : Char → Bool) (lines : List Text) : Prop :=
  NumbersFit digit lines → (lastValue digit .memTotal lines).isSome = true →
    ∀ key value, lastValue digit key lines = some value → value < 2 ^ 54

theorem toBytes_eq_none {totalKb usedKb freeKb availableKb cacheKb : ℕ} :
    toBytes totalKb usedKb freeKb availableKb cacheKb = none ↔
      2 ^ 54 ≤ totalKb ∨ 2 ^ 54 ≤ usedKb ∨ 2 ^ 54 ≤ freeKb ∨ 2 ^ 54 ≤ availableKb ∨
        2 ^ 54 ≤ cacheKb := by
  have hmul : ∀ kb : ℕ, checkedMul kb 1024 = if kb < 2 ^ 54 then some (kb * 1024) else none := by
    intro kb
    rw [checkedMul]
    split_ifs <;> first | rfl | omega
  simp only [toBytes, hmul]
  split_ifs <;> simp <;> omega

/-- **When a size leaves the range.** -/
theorem parseMemorySnapshot_overflow_iff {output : Text} :
    parseMemorySnapshot digit output = .error .overflow ↔
      ¬MemoryFits digit (textLines output) := by
  rw [parseMemorySnapshot, MemoryFits]
  cases hscan : scanMemory digit ⟨none, none, none, none⟩ (textLines output) with
  | error error => simp [scanMemory_error hscan]
  | ok info =>
    obtain ⟨hfit, hget⟩ := scanMemory_ok hscan
    have hlast : ∀ key, lastValue digit key (textLines output) = info.get key := by
      intro key
      rw [hget key]
      cases key <;> simp [MemoryKb.get]
    cases htotal : info.totalKb with
    | none =>
      have hnone : lastValue digit .memTotal (textLines output) = none := (hlast _).trans htotal
      simp [htotal, hnone]
    | some totalKb =>
      have hbytes : ∀ {result : Option ResourceMemorySnapshot},
          ((match result with
            | some snapshot => .ok snapshot
            | none => .error .overflow) : Except Fault ResourceMemorySnapshot)
              = .error .overflow ↔ result = none := by
        intro result
        cases result <;> simp
      simp only [htotal, hbytes, toBytes_eq_none, hlast]
      constructor
      · intro hlarge hfits
        have hbound := hfits hfit (by simp [MemoryKb.get, htotal])
        have htotalKb : totalKb < 2 ^ 54 := hbound .memTotal totalKb htotal
        -- a size that is not there counts as the one it stands for
        have hfree : info.freeKb.getD 0 < 2 ^ 54 := by
          cases hfree : info.freeKb with
          | none => exact Nat.two_pow_pos 54
          | some freeKb => exact hbound .memFree freeKb hfree
        have havailable : info.availableKb.getD (info.freeKb.getD 0) < 2 ^ 54 := by
          cases havailable : info.availableKb with
          | none => exact hfree
          | some availableKb => exact hbound .memAvailable availableKb havailable
        have hcache : info.cacheKb.getD 0 < 2 ^ 54 := by
          cases hcache : info.cacheKb with
          | none => exact Nat.two_pow_pos 54
          | some cacheKb => exact hbound .cached cacheKb hcache
        omega
      · intro hlarge
        by_contra hsmall
        refine hlarge fun _ _ key value hvalue => ?_
        cases key with
        | memTotal =>
          rw [MemoryKb.get, htotal] at hvalue
          cases hvalue
          omega
        | memFree =>
          rw [MemoryKb.get] at hvalue
          rw [hvalue, Option.getD_some] at hsmall
          omega
        | memAvailable =>
          rw [MemoryKb.get] at hvalue
          rw [hvalue, Option.getD_some] at hsmall
          omega
        | cached =>
          rw [MemoryKb.get] at hvalue
          rw [hvalue, Option.getD_some] at hsmall
          omega

end Memory

/-! ## The result -/

/-- **What is shown of a remote host.** For any two samples whose sums are in the range, the
percentages are percentages exactly when no counter has gone back, or the counters have gained one
tick at most. The sizes stay in the range exactly when those that are used are below `2 ^ 54` kB,
and the total of the counters exactly when their sum does. -/
theorem snapshot_sound_iff (previous current : CpuCounters) (logicalCpuCount : ℕ)
    (digit : Char → Bool) (output : Text) :
    (previous.sum < 2 ^ 64 → current.sum < 2 ^ 64 →
      ∃ s, calculateCpuSnapshot previous current logicalCpuCount = some s ∧
        (Percentages s ↔
          CpuCounters.Monotone previous current ∨ CpuCounters.gain previous current ≤ 1)) ∧
    (parseMemorySnapshot digit output ≠ .error .overflow ↔ MemoryFits digit (textLines output)) ∧
    ∀ counters, parseCpuCounters output = .ok counters →
      (counters.total ≠ none ↔ counters.sum < 2 ^ 64) := by
  refine ⟨fun hprevious hcurrent => ?_, ?_, fun counters _ => ?_⟩
  · have hsome : (calculateCpuSnapshot previous current logicalCpuCount).isSome = true :=
      calculateCpuSnapshot_isSome hprevious hcurrent
    obtain ⟨s, hs⟩ := Option.isSome_iff_exists.mp hsome
    exact ⟨s, hs, percentages_iff hs⟩
  · rw [ne_eq, parseMemorySnapshot_overflow_iff, not_not]
  · rw [counters.total_eq]
    by_cases hfits : counters.sum < 2 ^ 64
    · rw [if_pos hfits]
      exact iff_of_true (Option.some_ne_none _) hfits
    · rw [if_neg hfits]
      exact iff_of_false (fun h => h rfl) hfits

def samplePrevious : CpuCounters := ⟨0, 0, 0, 0, 100, 0, 0, 0⟩

def sampleCurrent : CpuCounters := ⟨150, 0, 0, 0, 0, 0, 0, 0⟩

/-- The programs are shown with 300 percent. -/
theorem sampleCurrent_over : ∃ s, calculateCpuSnapshot samplePrevious sampleCurrent 4 = some s ∧
    s.userPercent = 300 ∧ ¬Percentages s := by
  have hsome : (calculateCpuSnapshot samplePrevious sampleCurrent 4).isSome = true :=
    calculateCpuSnapshot_isSome (by decide) (by decide)
  obtain ⟨s, hs⟩ := Option.isSome_iff_exists.mp hsome
  have huser : s.userPercent = 300 := by
    rw [calculateCpuSnapshot, CpuCounters.total_eq, CpuCounters.total_eq] at hs
    cases hs
    norm_num [samplePrevious, sampleCurrent, CpuCounters.sum]
  refine ⟨s, hs, huser, fun hpercentages => ?_⟩
  have hle := hpercentages.user.2
  rw [huser] at hle
  norm_num at hle

end FluxTerm.Resource
