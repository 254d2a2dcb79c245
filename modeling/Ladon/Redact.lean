import Mathlib.Data.List.Sort
import Ladon.Error
import Ladon.Lib.Find
import Ladon.Lib.Utf8
import Ladon.Lib.Digits
import Ladon.Lib.Base64
import Ladon.Lib.Json
import Ladon.Lib.Word

/-!
The streaming redactor.

A redactor is made from the managed values of a run. Every form in which a value is looked for
is a pattern; output arrives in chunks, every occurrence of a pattern is replaced by a marker,
the result is made printable and kept within the output limit by a head and a tail. As a last
resort the whole text is blanked when what is left still spells a pattern.
-/

namespace Ladon.Redact

open Ladon.Error Ladon.Lib.Find Ladon.Lib.Utf8 Ladon.Lib.Digits Ladon.Lib.Word

def defaultOutputLimitBytes : ℕ := 512 * 1024
def maxOutputLimitBytes : ℕ := 2 * 1024 * 1024
def minOutputLimitBytes : ℕ := 128

def redactionMarker : Bytes := ofString "[REDACTED]"

structure RedactionSecret where
  value : Bytes

/-- A form that is looked for; it is never empty. -/
structure Pattern where
  needle : Bytes
  ne_nil : needle ≠ []
  deriving DecidableEq

structure RedactedOutput where
  text : Bytes
  redactionCount : ℕ
  truncated : Bool
  omittedBytes : ℕ
  suppressed : Bool
  deriving DecidableEq

/-! ### The patterns of a value -/

/-- A new form behind the ones there are, unless it is empty or already there. -/
def addPattern (patterns : List Pattern) (bytes : Bytes) : List Pattern :=
  if h : bytes = [] then patterns
  else if patterns.any (fun p => p.needle = bytes) then patterns
  else patterns ++ [⟨bytes, h⟩]

def encodeHex (value : Bytes) (uppercase : Bool) : Bytes := value.flatMap (hexByte uppercase)

def isAsciiAlphanumeric (b : UInt8) : Bool :=
  (0x30 ≤ b && b ≤ 0x39) || (0x41 ≤ b && b ≤ 0x5A) || (0x61 ≤ b && b ≤ 0x7A)

/-- A byte that stands for itself in a percent-encoded text: also `-`, `.`, `_` and `~`. -/
def isUnreserved (b : UInt8) : Bool :=
  isAsciiAlphanumeric b || b == 0x2D || b == 0x2E || b == 0x5F || b == 0x7E

def percentEncode (value : Bytes) (lowercase : Bool) : Bytes :=
  value.flatMap fun b => if isUnreserved b then [b] else 0x25 :: hexByte (!lowercase) b

/-- The contents of the JSON string of a text, between its quotes. -/
def jsonEscaped (value : Bytes) : Bytes := ((Lib.Json.quoted value).drop 1).dropLast

/-- The forms a value is looked for in, in the order they are added. -/
def forms (value : Bytes) : List Bytes :=
  [value, encodeHex value false, encodeHex value true,
    Lib.Base64.encode false true value, Lib.Base64.encode false false value,
    Lib.Base64.encode true true value, Lib.Base64.encode true false value] ++
  if fromUtf8 value = .ok then
    [jsonEscaped value, percentEncode value false, percentEncode value true]
  else []

def addSecret (patterns : List Pattern) (secret : RedactionSecret) : List Pattern :=
  if secret.value = [] then patterns else (forms secret.value).foldl addPattern patterns

/-- The patterns of all values, sorted stably with the longest first. -/
def patternsOf (secrets : List RedactionSecret) : List Pattern :=
  (secrets.foldl addSecret []).insertionSort fun a b => b.needle.length ≤ a.needle.length

/-- A value too short to be looked for blanks the output instead. -/
def tooShort (secret : RedactionSecret) : Bool := secret.value ≠ [] ∧ secret.value.length < 4

def containsPattern (haystack : Bytes) (patterns : List Pattern) : Bool :=
  patterns.any fun p => (find p.needle haystack).isSome

def markerOf (patterns : List Pattern) : Bytes :=
  if containsPattern redactionMarker patterns then [] else redactionMarker

/-- The best match so far against that of one more pattern: the leftmost, and of those that
begin there the first of the longest. -/
def betterMatch (buffer : Bytes) (position safeEnd : ℕ) (best : Option (ℕ × Pattern))
    (pattern : Pattern) : Option (ℕ × Pattern) :=
  match find pattern.needle (buffer.drop position) with
  | none => best
  | some found =>
    if safeEnd ≤ position + found then best
    else match best with
      | none => some (position + found, pattern)
      | some (bestStart, bestPattern) =>
        if position + found < bestStart ∨ position + found = bestStart ∧
            bestPattern.needle.length < pattern.needle.length then
          some (position + found, pattern)
        else best

/-- The next match that begins in `position..safeEnd`. -/
def findNext (buffer : Bytes) (position safeEnd : ℕ) (patterns : List Pattern) :
    Option (ℕ × Pattern) :=
  patterns.foldl (betterMatch buffer position safeEnd) none

/-- What the next match is, among the patterns `ps`. -/
def IsNext (buffer : Bytes) (position safeEnd : ℕ) (ps : List Pattern) :
    Option (ℕ × Pattern) → Prop
  | none => ∀ p ∈ ps, ∀ i, position ≤ i → i < safeEnd → ¬ p.needle <+: buffer.drop i
  | some (start, p) => p ∈ ps ∧ position ≤ start ∧ start < safeEnd ∧
      p.needle <+: buffer.drop start ∧
      (∀ q ∈ ps, ∀ i, position ≤ i → i < start → ¬ q.needle <+: buffer.drop i) ∧
      ∀ q ∈ ps, q.needle <+: buffer.drop start → q.needle.length ≤ p.needle.length

section FindNext

variable {buffer : Bytes} {position safeEnd : ℕ}

lemma find_position {needle : Bytes} {found : ℕ}
    (h : find needle (buffer.drop position) = some found) :
    needle <+: buffer.drop (position + found) ∧
      ∀ i, position ≤ i → i < position + found → ¬ needle <+: buffer.drop i := by
  obtain ⟨h1, h2⟩ := find_eq_some h
  refine ⟨by rwa [List.drop_drop] at h1, fun i hi hlt => ?_⟩
  have := h2 (i - position) (by omega)
  rwa [List.drop_drop, Nat.add_sub_cancel' hi] at this

lemma find_position_none {needle : Bytes} (h : find needle (buffer.drop position) = none) (i : ℕ)
    (hi : position ≤ i) : ¬ needle <+: buffer.drop i := by
  have := find_eq_none h (i - position)
  rwa [List.drop_drop, Nat.add_sub_cancel' hi] at this

lemma IsNext.keep_none {ps : List Pattern} (h : IsNext buffer position safeEnd ps none)
    {pattern : Pattern}
    (hno : ∀ i, position ≤ i → i < safeEnd → ¬ pattern.needle <+: buffer.drop i) :
    IsNext buffer position safeEnd (ps ++ [pattern]) none := by
  intro p hp i hi hlt
  rcases List.mem_append.mp hp with hp | hp
  · exact h p hp i hi hlt
  · rw [List.mem_singleton.mp hp]; exact hno i hi hlt

lemma IsNext.keep_some {ps : List Pattern} {start : ℕ} {p pattern : Pattern}
    (h : IsNext buffer position safeEnd ps (some (start, p)))
    (hno : ∀ i, position ≤ i → i < start → ¬ pattern.needle <+: buffer.drop i)
    (hle : pattern.needle <+: buffer.drop start → pattern.needle.length ≤ p.needle.length) :
    IsNext buffer position safeEnd (ps ++ [pattern]) (some (start, p)) := by
  obtain ⟨h1, h2, h3, h4, h5, h6⟩ := h
  refine ⟨List.mem_append_left _ h1, h2, h3, h4, fun q hq i hi hlt => ?_, fun q hq hb => ?_⟩
  · rcases List.mem_append.mp hq with hq | hq
    · exact h5 q hq i hi hlt
    · rw [List.mem_singleton.mp hq]; exact hno i hi hlt
  · rcases List.mem_append.mp hq with hq | hq
    · exact h6 q hq hb
    · rw [List.mem_singleton.mp hq] at hb ⊢; exact hle hb

lemma isNext_new {ps : List Pattern} {start : ℕ} {pattern : Pattern} (hpos : position ≤ start)
    (hend : start < safeEnd) (hat : pattern.needle <+: buffer.drop start)
    (hno : ∀ q ∈ pattern :: ps, ∀ i, position ≤ i → i < start → ¬ q.needle <+: buffer.drop i)
    (hle : ∀ q ∈ ps, q.needle <+: buffer.drop start → q.needle.length ≤ pattern.needle.length) :
    IsNext buffer position safeEnd (ps ++ [pattern]) (some (start, pattern)) := by
  refine ⟨by simp, hpos, hend, hat, fun q hq => hno q ?_, fun q hq hb => ?_⟩
  · simpa [or_comm] using hq
  · rcases List.mem_append.mp hq with hq | hq
    · exact hle q hq hb
    · rw [List.mem_singleton.mp hq]

lemma isNext_betterMatch {ps : List Pattern} {best : Option (ℕ × Pattern)}
    (h : IsNext buffer position safeEnd ps best) (pattern : Pattern) :
    IsNext buffer position safeEnd (ps ++ [pattern])
      (betterMatch buffer position safeEnd best pattern) := by
  unfold betterMatch
  split
  · next hf =>
    have hno := find_position_none hf
    rcases best with _ | ⟨bestStart, bestPattern⟩
    · exact h.keep_none fun i hi _ => hno i hi
    · exact h.keep_some (fun i hi _ => hno i hi) fun hb => absurd hb (hno _ h.2.1)
  · next found hf =>
    obtain ⟨hat, hbefore⟩ := find_position hf
    split
    · next hpast =>
      -- The match begins behind the safe end, so it is nothing to the positions before it.
      rcases best with _ | ⟨bestStart, bestPattern⟩
      · exact h.keep_none fun i hi hlt => hbefore i hi (by omega)
      · have hend := h.2.2.1
        exact h.keep_some (fun i hi hlt => hbefore i hi (by omega))
          fun hb => absurd hb (hbefore _ h.2.1 (by omega))
    · next hin =>
      rcases best with _ | ⟨bestStart, bestPattern⟩
      · refine isNext_new (by omega) (by omega) hat (fun q hq i hi hlt => ?_) fun q hq hb => ?_
        · rcases List.mem_cons.mp hq with rfl | hq
          · exact hbefore i hi hlt
          · exact h q hq i hi (by omega)
        · exact absurd hb (h q hq _ (by omega) (by omega))
      · obtain ⟨h1, h2, h3, h4, h5, h6⟩ := h
        dsimp only
        split
        · next hlt =>
          refine isNext_new (by omega) (by omega) hat (fun q hq i hi hi' => ?_) fun q hq hb => ?_
          · rcases List.mem_cons.mp hq with rfl | hq
            · exact hbefore i hi hi'
            · exact h5 q hq i hi (by omega)
          · rcases hlt with hlt | ⟨heq, hlen⟩
            · exact absurd hb (h5 q hq _ (by omega) hlt)
            · have := h6 q hq (by rwa [heq] at hb); omega
        · next hge =>
          rw [not_or, not_and] at hge
          refine IsNext.keep_some ⟨h1, h2, h3, h4, h5, h6⟩
            (fun i hi hlt => hbefore i hi (by omega)) fun hb => ?_
          by_cases heq : position + found = bestStart
          · have := hge.2 heq; omega
          · exact absurd hb (hbefore _ h2 (by omega))

/-- `findNext` finds the next match. -/
lemma isNext_findNext (buffer : Bytes) (position safeEnd : ℕ) (patterns : List Pattern) :
    IsNext buffer position safeEnd patterns (findNext buffer position safeEnd patterns) := by
  suffices h : ∀ (rest ps : List Pattern) (best : Option (ℕ × Pattern)),
      IsNext buffer position safeEnd ps best →
      IsNext buffer position safeEnd (ps ++ rest)
        (rest.foldl (betterMatch buffer position safeEnd) best) from
    h patterns [] none (by simp [IsNext])
  intro rest
  induction rest with
  | nil => intro ps best h; simpa using h
  | cons p t ih =>
    intro ps best h
    have := ih (ps ++ [p]) _ (isNext_betterMatch h p)
    rwa [List.append_assoc, List.singleton_append] at this

end FindNext

/-! ### The bounded capture -/

/-- The number of bytes of a character, by its first byte. -/
def characterWidth (first : UInt8) : ℕ :=
  if first ≤ 0x7F then 1
  else if 0xC0 ≤ first ∧ first ≤ 0xDF then 2
  else if 0xE0 ≤ first ∧ first ≤ 0xEF then 3
  else 4

def popFrontCharacter : Bytes → Bytes
  | [] => []
  | first :: rest => (first :: rest).drop (characterWidth first)

lemma popFrontCharacter_length {bytes : Bytes} (h : bytes ≠ []) :
    (popFrontCharacter bytes).length < bytes.length := by
  rcases bytes with _ | ⟨first, rest⟩
  · exact absurd rfl h
  · have : 1 ≤ characterWidth first := by unfold characterWidth; split_ifs <;> omega
    simp only [popFrontCharacter, List.length_drop, List.length_cons]
    omega

/-- Characters leave the tail until it fits. -/
def evict (capacity : ℕ) (tail : Bytes) : Bytes :=
  if _h : capacity < tail.length then evict capacity (popFrontCharacter tail) else tail
termination_by tail.length
decreasing_by exact popFrontCharacter_length (by rintro rfl; simp at _h)

/-- The head and the tail of a text. -/
structure BoundedCapture where
  limit : ℕ
  headCapacity : ℕ
  tailCapacity : ℕ
  head : Bytes
  tail : Bytes
  tailStarted : Bool
  totalBytes : ℕ
  limit_min : minOutputLimitBytes ≤ limit
  headCapacity_eq : headCapacity = limit / 2
  tailCapacity_eq : tailCapacity = limit - headCapacity
  head_le : head.length ≤ headCapacity
  tail_le : tail.length ≤ tailCapacity
  totalBytes_le : totalBytes ≤ u64Max

lemma evict_length_le (capacity : ℕ) (tail : Bytes) : (evict capacity tail).length ≤ capacity := by
  fun_induction evict capacity tail with
  | case1 tail h ih => exact ih
  | case2 tail h => omega

namespace BoundedCapture

def new (limit : ℕ) (h : minOutputLimitBytes ≤ limit) : BoundedCapture where
  limit := limit
  headCapacity := limit / 2
  tailCapacity := limit - limit / 2
  head := []
  tail := []
  tailStarted := false
  totalBytes := 0
  limit_min := h
  headCapacity_eq := rfl
  tailCapacity_eq := rfl
  head_le := Nat.zero_le _
  tail_le := Nat.zero_le _
  totalBytes_le := Nat.zero_le _

/-- One character, as its bytes. -/
def pushChar (c : BoundedCapture) (bytes : Bytes) : BoundedCapture :=
  if h : c.tailStarted = false ∧ c.head.length + bytes.length ≤ c.headCapacity then
    { c with
      head := c.head ++ bytes
      totalBytes := saturatingAdd c.totalBytes bytes.length
      head_le := by simpa using h.2
      totalBytes_le := saturatingAdd_le _ _ }
  else
    { c with
      tail := evict c.tailCapacity (c.tail ++ bytes)
      tailStarted := true
      totalBytes := saturatingAdd c.totalBytes bytes.length
      tail_le := evict_length_le _ _
      totalBytes_le := saturatingAdd_le _ _ }

def pushStr (c : BoundedCapture) (value : Bytes) : BoundedCapture :=
  (chars value).foldl pushChar c

/-- What stands between the head and the tail, with the number of bytes left out. -/
def omissionMarker (omitted : ℕ) : Bytes :=
  ofString "\n...[" ++ decimal omitted ++ ofString " bytes omitted]...\n"

lemma omissionMarker_length_le {omitted : ℕ} (h : omitted ≤ u64Max) :
    (omissionMarker omitted).length ≤ 44 := by
  have hd : (decimal omitted).length ≤ 20 :=
    decimal_length_le (by norm_num) (h.trans_lt (by norm_num [u64Max]))
  have h1 : (ofString "\n...[").length = 5 := by decide
  have h2 : (ofString " bytes omitted]...\n").length = 19 := by decide
  simp only [omissionMarker, List.length_append]
  omega

/-- The head, the marker and as much of the tail as the limit leaves room for. The limit is
large enough that the marker always fits beside the head alone. -/
def assemble (c : BoundedCapture) (tail : Bytes) : Bytes × ℕ :=
  let omitted := c.totalBytes - (c.head.length + tail.length)
  if _h : c.head.length + (omissionMarker omitted).length + tail.length ≤ c.limit then
    (c.head ++ omissionMarker omitted ++ tail, omitted)
  else assemble c (popFrontCharacter tail)
termination_by tail.length
decreasing_by
  refine popFrontCharacter_length ?_
  rintro rfl
  have ha : (omissionMarker omitted).length ≤ 44 :=
    omissionMarker_length_le ((Nat.sub_le _ _).trans c.totalBytes_le)
  have h1 := c.limit_min
  have h2 := c.head_le
  have h3 := c.headCapacity_eq
  simp only [minOutputLimitBytes] at h1
  simp only [omitted, List.length_nil, Nat.add_zero] at _h ha
  omega

def finish (c : BoundedCapture) : Bytes × Bool × ℕ :=
  if c.totalBytes ≤ c.limit ∧ c.head.length + c.tail.length = c.totalBytes then
    (fromUtf8Lossy (c.head ++ c.tail), false, 0)
  else
    (fromUtf8Lossy (c.assemble c.tail).1, true, (c.assemble c.tail).2)

end BoundedCapture

/-! ### The escaper -/

/-- A byte written as `\xNN`. -/
def escapedByte (b : UInt8) : Bytes := 0x5C :: 0x78 :: hexByte false b

def pushEscaped (capture : BoundedCapture) (bytes : Bytes) : BoundedCapture :=
  bytes.foldl (fun c b => c.pushStr (escapedByte b)) capture

/-- The escaper holds back a sequence that the end of its input cuts short. -/
structure Utf8Escaper where
  pending : Bytes := []

namespace Utf8Escaper

/-- The buffer from the current position on: what is left pending, and the capture. -/
def drain (buffer : Bytes) (capture : BoundedCapture) : Bytes × BoundedCapture :=
  match _h : fromUtf8 buffer with
  | .ok => ([], capture.pushStr buffer)
  | .error validUpTo none => (buffer.drop validUpTo, capture.pushStr (buffer.take validUpTo))
  | .error validUpTo (some invalidBytes) =>
    drain (buffer.drop (validUpTo + invalidBytes))
      (pushEscaped (capture.pushStr (buffer.take validUpTo))
        ((buffer.drop validUpTo).take invalidBytes))
termination_by buffer.length
decreasing_by
  obtain ⟨-, -, -, h⟩ := fromUtf8_error _h
  have := step_bad (h _ rfl)
  simp only [List.length_drop] at this ⊢
  omega

def push (e : Utf8Escaper) (bytes : Bytes) (capture : BoundedCapture) :
    Utf8Escaper × BoundedCapture :=
  (⟨(drain (e.pending ++ bytes) capture).1⟩, (drain (e.pending ++ bytes) capture).2)

def finish (e : Utf8Escaper) (capture : BoundedCapture) : BoundedCapture :=
  pushEscaped capture e.pending

end Utf8Escaper

/-! ### The redactor -/

structure StreamingRedactor where
  patterns : List Pattern
  maximumPatternBytes : ℕ
  pending : Bytes
  marker : Bytes
  utf8 : Utf8Escaper
  capture : BoundedCapture
  redactionCount : ℕ
  suppressed : Bool

namespace StreamingRedactor

def new (secrets : List RedactionSecret) (outputLimitBytes : ℕ) :
    Except LadonError StreamingRedactor :=
  if h : minOutputLimitBytes ≤ outputLimitBytes ∧ outputLimitBytes ≤ maxOutputLimitBytes then
    let patterns := patternsOf secrets
    .ok
      { patterns := patterns
        maximumPatternBytes := ((patterns.map fun p => p.needle.length).max?).getD 1
        pending := []
        marker := markerOf patterns
        utf8 := {}
        capture := BoundedCapture.new outputLimitBytes h.1
        redactionCount := 0
        suppressed := secrets.any tooShort }
  else .error .invalidOutputLimit

/-- Bytes that leave the redactor for the escaper. -/
def emit (r : StreamingRedactor) (bytes : Bytes) : StreamingRedactor :=
  { r with
    utf8 := (r.utf8.push bytes r.capture).1
    capture := (r.utf8.push bytes r.capture).2 }

/-- The scan of the buffer from a position up to the safe end; a match may run past it. -/
def processLoop (buffer : Bytes) (safeEnd : ℕ) (r : StreamingRedactor) (position : ℕ) :
    StreamingRedactor × ℕ :=
  if position < safeEnd then
    match _h : findNext buffer position safeEnd r.patterns with
    | none => (r.emit ((buffer.take safeEnd).drop position), safeEnd)
    | some (start, pattern) =>
      processLoop buffer safeEnd
        { (r.emit ((buffer.take start).drop position)).emit r.marker with
          redactionCount := saturatingAdd r.redactionCount 1 }
        (start + pattern.needle.length)
  else (r, position)
termination_by safeEnd - position
decreasing_by
  have h1 := isNext_findNext buffer position safeEnd r.patterns
  rw [_h] at h1
  have h2 := List.length_pos_iff.mpr pattern.ne_nil
  have h3 := h1.2.1
  omega

/-- How far the scan may look for the beginning of a match. -/
def safeEnd (r : StreamingRedactor) (finishing : Bool) : ℕ :=
  if finishing then r.pending.length
  else r.pending.length - (r.maximumPatternBytes - 1)

def process (r : StreamingRedactor) (finishing : Bool) : StreamingRedactor :=
  let (r', position) := processLoop r.pending (r.safeEnd finishing) { r with pending := [] } 0
  { r' with pending := r.pending.drop position }

def push (r : StreamingRedactor) (bytes : Bytes) : StreamingRedactor :=
  if r.suppressed then r else { r with pending := r.pending ++ bytes }.process false

def finish (r : StreamingRedactor) : RedactedOutput :=
  if r.suppressed then
    { text := [], redactionCount := 0, truncated := false, omittedBytes := 0, suppressed := true }
  else
    let r' := r.process true
    let (text, truncated, omittedBytes) := (r'.utf8.finish r'.capture).finish
    if containsPattern text r'.patterns then
      { text := [], redactionCount := r'.redactionCount, truncated := truncated,
        omittedBytes := omittedBytes, suppressed := true }
    else
      { text := text, redactionCount := r'.redactionCount, truncated := truncated,
        omittedBytes := omittedBytes, suppressed := false }

end StreamingRedactor

end Ladon.Redact
