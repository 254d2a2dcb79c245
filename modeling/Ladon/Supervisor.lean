import Ladon.RedactStream
import Ladon.Runner

/-!
The supervisor: one run of a child process, from its prepared bindings to the result an agent
sees.

What the operating system does around a run is a parameter: whether the files and the process
can be made, what each read of the two output pipes returns, and how the process ends. Two
redactors, one for each pipe, stand between the child and the result.
-/

namespace Ladon.Supervisor

open Ladon.Error Ladon.Redact Ladon.RedactStream Ladon.Runner Ladon.Lib.Find Ladon.Lib.Utf8
  Ladon.Lib.Digits Ladon.Lib.Word

inductive RunTermination
  | exited
  | timedOut
  | cancelled
  deriving DecidableEq, Repr

/-- The result of a run; texts are their UTF-8 bytes, the duration is in nanoseconds. -/
structure RunResult where
  exitCode : Option ℤ
  termination : RunTermination
  stdout : Bytes
  stderr : Bytes
  duration : ℕ
  redactionCount : ℕ
  outputTruncated : Bool
  omittedBytes : ℕ
  outputSuppressed : Bool
  tempCleanupWarning : Bool
  deriving DecidableEq

/-! ### Injection -/

/-- What a child is given: environment variables, the files some of them name, and what is
written to its standard input. -/
structure Injection where
  environment : List (String × Bytes) := []
  files : List (Bytes × Bytes) := []
  standardInput : Option Bytes := none

/-- How the write to the standard input of the child ended. -/
inductive StdinResult
  | written
  | brokenPipe
  | failed
  deriving DecidableEq

/-- What the operating system does around one run. A read is the bytes it returned, none of them
at the end of the output, or a failure. -/
structure System where
  /-- The path of the file that holds the value of a binding. -/
  temporaryFile : PreparedBinding → Except LadonError Bytes
  launch : Injection → Except LadonError Unit
  attach : Except LadonError Unit
  stdoutReads : List (Option Bytes)
  stderrReads : List (Option Bytes)
  wait : Except LadonError (Option ℤ × RunTermination)
  stdinResult : StdinResult
  cleanupFailed : Bool
  elapsed : ℕ

/-- One binding delivered to its target. -/
def injectBinding (os : System) (injection : Injection) (binding : PreparedBinding) :
    Except LadonError Injection :=
  match binding.target with
  | .environment name =>
    if environmentSafe binding.value then
      .ok { injection with environment := injection.environment ++ [(name, binding.value)] }
    else .error .invalidBinding
  | .standardInput => .ok { injection with standardInput := some binding.value }
  | .temporaryFileEnvironment name _ => do
    let path ← os.temporaryFile binding
    return { injection with
      environment := injection.environment ++ [(name, path)]
      files := injection.files ++ [(path, binding.value)] }

def inject (os : System) (bindings : List PreparedBinding) : Except LadonError Injection :=
  bindings.foldlM (injectBinding os) {}

/-! ### Output -/

def makeRedactor (bindings : List PreparedBinding) (limit : ℕ) :
    Except LadonError StreamingRedactor :=
  StreamingRedactor.new (bindings.map fun b => ⟨b.value⟩) limit

def redactReader : List (Option Bytes) → StreamingRedactor → Except LadonError RedactedOutput
  | [], r => .ok r.finish
  | none :: _, _ => .error .processFailure
  | some [] :: _, r => .ok r.finish
  | some (b :: chunk) :: rest, r => redactReader rest (r.push (b :: chunk))

def isContinuation (b : UInt8) : Bool := 0x80 ≤ b && b ≤ 0xBF

/-- A position at which no character is cut. -/
def isCharBoundary (w : Bytes) (i : ℕ) : Bool :=
  i = 0 || i = w.length || (w[i]?).any (!isContinuation ·)

/-- The last boundary at or before a position. -/
def floorBoundary (w : Bytes) : ℕ → ℕ
  | 0 => 0
  | n + 1 => if isCharBoundary w (n + 1) then n + 1 else floorBoundary w n

lemma floorBoundary_le (w : Bytes) (n : ℕ) : floorBoundary w n ≤ n := by
  induction n with
  | zero => exact Nat.le_refl _
  | succ n ih => rw [floorBoundary]; split <;> omega

def truncateUtf8 (value : Bytes) (limit : ℕ) : Bytes :=
  if value.length ≤ limit then value else value.take (floorBoundary value limit)

/-- The text without its last character. -/
def popCharacter (w : Bytes) : Bytes := w.take (floorBoundary w (w.length - 1))

lemma popCharacter_length {w : Bytes} (h : w ≠ []) : (popCharacter w).length < w.length := by
  have h1 := floorBoundary_le w (w.length - 1)
  have h2 := List.length_pos_iff.mpr h
  rw [popCharacter, List.length_take]
  omega

/-- Characters leave the longer text until both fit together. -/
def shrink (limit : ℕ) (stdout stderr : Bytes) : Bytes × Bytes :=
  if stdout.length + stderr.length ≤ limit then (stdout, stderr)
  else if _h : stderr.length ≤ stdout.length ∧ stdout ≠ [] then
    shrink limit (popCharacter stdout) stderr
  else if _h : stderr ≠ [] then shrink limit stdout (popCharacter stderr)
  else (stdout, stderr)
termination_by stdout.length + stderr.length
decreasing_by
  · have := popCharacter_length _h.2; omega
  · have := popCharacter_length _h; omega

def enforceCombinedLimit (stdout stderr : Bytes) (limit : ℕ) : Bytes × Bytes × Bool × ℕ :=
  if stdout.length + stderr.length ≤ limit then (stdout, stderr, false, 0)
  else
    let stdoutBudget := limit / 2
    let stderrBudget := limit - stdoutBudget
    let (out, err) := shrink limit
      (truncateUtf8 stdout (max stdoutBudget (minOutputLimitBytes / 2)))
      (truncateUtf8 stderr (max stderrBudget (minOutputLimitBytes / 2)))
    (out, err, true, stdout.length + stderr.length - (out.length + err.length))

/-- One run. -/
def execute (os : System) (run : PreparedRun) : Except LadonError RunResult := do
  let stdoutRedactor ← makeRedactor run.bindings run.outputLimitBytes
  let stderrRedactor ← makeRedactor run.bindings run.outputLimitBytes
  let injection ← inject os run.bindings
  os.launch injection
  os.attach
  let (exitCode, termination) ← os.wait
  let stdout ← redactReader os.stdoutReads stdoutRedactor
  let stderr ← redactReader os.stderrReads stderrRedactor
  if injection.standardInput.isSome ∧ os.stdinResult = .failed then .error .processFailure
  let (stdoutText, stderrText, combinedTruncated, combinedOmitted) :=
    enforceCombinedLimit stdout.text stderr.text run.outputLimitBytes
  return {
    exitCode := exitCode
    termination := termination
    stdout := stdoutText
    stderr := stderrText
    duration := os.elapsed
    redactionCount := saturatingAdd stdout.redactionCount stderr.redactionCount
    outputTruncated := stdout.truncated || stderr.truncated || combinedTruncated
    omittedBytes :=
      saturatingAdd (saturatingAdd stdout.omittedBytes stderr.omittedBytes) combinedOmitted
    outputSuppressed := stdout.suppressed || stderr.suppressed
    tempCleanupWarning := !injection.files.isEmpty && os.cleanupFailed }

/-! ### No managed value in the output -/

def hexAlphabet (uppercase : Bool) : Bytes :=
  ofString (if uppercase then "0123456789ABCDEF" else "0123456789abcdef")

/-- The text is two digits of the alphabet for each byte of the value. -/
inductive Hex (alphabet : Bytes) : Bytes → Bytes → Prop
  | nil : Hex alphabet [] []
  | byte {b high low : UInt8} {value text : Bytes} (high_eq : alphabet[b.toNat / 16]? = some high)
      (low_eq : alphabet[b.toNat % 16]? = some low) (rest : Hex alphabet value text) :
      Hex alphabet (b :: value) (high :: low :: text)

/-- The bytes that stand for themselves in a percent-encoded text. -/
def unreserved : Bytes :=
  ofString "ABCDEFGHIJKLMNOPQRSTUVWXYZabcdefghijklmnopqrstuvwxyz0123456789-._~"

/-- The text is those bytes of the value as they are, and `%` with two digits for each other one. -/
inductive Percent (alphabet : Bytes) : Bytes → Bytes → Prop
  | nil : Percent alphabet [] []
  | kept {b : UInt8} {value text : Bytes} (h : b ∈ unreserved) (rest : Percent alphabet value text) :
      Percent alphabet (b :: value) (b :: text)
  | escaped {b high low : UInt8} {value text : Bytes} (h : b ∉ unreserved)
      (high_eq : alphabet[b.toNat / 16]? = some high) (low_eq : alphabet[b.toNat % 16]? = some low)
      (rest : Percent alphabet value text) :
      Percent alphabet (b :: value) (0x25 :: high :: low :: text)

/-- The forms in which a value must not be seen. -/
inductive ManagedForm (value : Bytes) : Bytes → Prop
  | raw : ManagedForm value value
  | hex {form : Bytes} (uppercase : Bool) (h : Hex (hexAlphabet uppercase) value form) :
      ManagedForm value form
  | base64 (urlSafe pad : Bool) : ManagedForm value (Lib.Base64.encode urlSafe pad value)
  | json (h : fromUtf8 value = .ok) : ManagedForm value (Lib.Json.escape value)
  | percent {form : Bytes} (h : fromUtf8 value = .ok) (uppercase : Bool)
      (hp : Percent (hexAlphabet uppercase) value form) : ManagedForm value form

lemma hexAlphabet_get (uppercase : Bool) {n : ℕ} (h : n < 16) :
    (hexAlphabet uppercase)[n]? = some (hexDigit uppercase n) := by
  revert n
  cases uppercase <;> decide +kernel

/-- The digits of a byte in the alphabet. -/
lemma digits_eq {uppercase : Bool} {b high low : UInt8}
    (hhigh : (hexAlphabet uppercase)[b.toNat / 16]? = some high)
    (hlow : (hexAlphabet uppercase)[b.toNat % 16]? = some low) : [high, low] = hexByte uppercase b := by
  have hb := b.toNat_lt
  rw [hexAlphabet_get uppercase (by omega)] at hhigh hlow
  cases hhigh
  cases hlow
  rfl

lemma isUnreserved_iff (b : UInt8) : isUnreserved b ↔ b ∈ unreserved := by
  revert b
  decide +kernel

/-- `encode_hex` writes just this form. -/
lemma hex_iff {uppercase : Bool} {value text : Bytes} :
    Hex (hexAlphabet uppercase) value text ↔ text = encodeHex value uppercase := by
  constructor
  · intro h
    induction h with
    | nil => rfl
    | byte hhigh hlow _ ih =>
      rw [encodeHex, List.flatMap_cons, ← digits_eq hhigh hlow, ih]
      rfl
  · rintro rfl
    induction value with
    | nil => exact .nil
    | cons b value ih =>
      have hb := b.toNat_lt
      exact .byte (hexAlphabet_get _ (by omega)) (hexAlphabet_get _ (by omega)) ih

/-- `percent_encode` writes just this form. -/
lemma percent_iff {uppercase : Bool} {value text : Bytes} :
    Percent (hexAlphabet uppercase) value text ↔ text = percentEncode value (!uppercase) := by
  constructor
  · intro h
    induction h with
    | nil => rfl
    | kept hb _ ih =>
      rw [percentEncode, List.flatMap_cons, if_pos ((isUnreserved_iff _).mpr hb), ih]
      rfl
    | escaped hb hhigh hlow _ ih =>
      rw [percentEncode, List.flatMap_cons, if_neg (mt (isUnreserved_iff _).mp hb), Bool.not_not,
        ← digits_eq hhigh hlow, ih]
      simp only [percentEncode, Bool.not_not, List.cons_append, List.nil_append]
  · rintro rfl
    induction value with
    | nil => exact .nil
    | cons b value ih =>
      have hb := b.toNat_lt
      simp only [percentEncode, Bool.not_not, List.flatMap_cons] at ih ⊢
      by_cases hkept : b ∈ unreserved
      · rw [if_pos ((isUnreserved_iff b).mpr hkept)]
        exact .kept hkept ih
      · rw [if_neg (mt (isUnreserved_iff b).mp hkept)]
        exact .escaped hkept (hexAlphabet_get _ (by omega)) (hexAlphabet_get _ (by omega)) ih

lemma jsonEscaped_eq (value : Bytes) : jsonEscaped value = Lib.Json.escape value := by
  simp [jsonEscaped, Lib.Json.quoted]

lemma mem_forms {value form : Bytes} (h : ManagedForm value form) : form ∈ forms value := by
  cases h with
  | raw => simp [forms]
  | hex uppercase h =>
    rw [hex_iff.mp h]
    cases uppercase <;> simp [forms]
  | base64 urlSafe pad => cases urlSafe <;> cases pad <;> simp [forms]
  | json h => simp [forms, h, jsonEscaped_eq]
  | percent h uppercase hp =>
    rw [percent_iff.mp hp]
    cases uppercase <;> simp [forms, h]

lemma flatMap_ne_nil {value : Bytes} {f : UInt8 → Bytes} (h : value ≠ []) (hf : ∀ b, f b ≠ []) :
    value.flatMap f ≠ [] := by
  obtain ⟨b, t, rfl⟩ := List.exists_cons_of_ne_nil h
  simp [hf b]

lemma ManagedForm.ne_nil {value form : Bytes} (h : ManagedForm value form) (hv : value ≠ []) :
    form ≠ [] := by
  cases h with
  | raw => exact hv
  | hex uppercase h =>
    rw [hex_iff.mp h]
    exact flatMap_ne_nil hv fun b => by simp [hexByte]
  | base64 urlSafe pad => exact Lib.Base64.encode_ne_nil urlSafe pad hv
  | json h => exact Lib.Json.escape_ne_nil hv
  | percent h uppercase hp =>
    rw [percent_iff.mp hp]
    exact flatMap_ne_nil hv fun b => by split <;> simp

lemma mem_addPattern_of_mem {patterns : List Pattern} {p : Pattern} (h : p ∈ patterns)
    (bytes : Bytes) : p ∈ addPattern patterns bytes := by
  unfold addPattern
  split_ifs <;> simp [h]

lemma exists_mem_addPattern (patterns : List Pattern) {bytes : Bytes} (h : bytes ≠ []) :
    ∃ p ∈ addPattern patterns bytes, p.needle = bytes := by
  unfold addPattern
  rw [dif_neg h]
  split
  · next hany => simpa using hany
  · exact ⟨⟨bytes, h⟩, by simp, rfl⟩

lemma mem_foldl_addPattern {l : List Bytes} {patterns : List Pattern} {p : Pattern}
    (h : p ∈ patterns) : p ∈ l.foldl addPattern patterns := by
  induction l generalizing patterns with
  | nil => exact h
  | cons b t ih => exact ih (mem_addPattern_of_mem h b)

lemma exists_mem_foldl_addPattern {l : List Bytes} {form : Bytes} (hl : form ∈ l)
    (h : form ≠ []) (patterns : List Pattern) :
    ∃ p ∈ l.foldl addPattern patterns, p.needle = form := by
  induction l generalizing patterns with
  | nil => cases hl
  | cons b t ih =>
    rcases List.mem_cons.mp hl with rfl | hl
    · obtain ⟨p, hp, hn⟩ := exists_mem_addPattern patterns h
      rw [List.foldl_cons]
      exact ⟨p, mem_foldl_addPattern hp, hn⟩
    · exact ih hl _

lemma mem_addSecret_of_mem {patterns : List Pattern} {p : Pattern} (h : p ∈ patterns)
    (secret : RedactionSecret) : p ∈ addSecret patterns secret := by
  unfold addSecret
  split
  · exact h
  · exact mem_foldl_addPattern h

lemma mem_foldl_addSecret {l : List RedactionSecret} {patterns : List Pattern} {p : Pattern}
    (h : p ∈ patterns) : p ∈ l.foldl addSecret patterns := by
  induction l generalizing patterns with
  | nil => exact h
  | cons s t ih => exact ih (mem_addSecret_of_mem h s)

/-- Every form of every value is a pattern. -/
lemma exists_pattern {secrets : List RedactionSecret} {secret : RedactionSecret} {form : Bytes}
    (hs : secret ∈ secrets) (hv : secret.value ≠ []) (hf : ManagedForm secret.value form) :
    ∃ p ∈ patternsOf secrets, p.needle = form := by
  simp only [patternsOf, List.mem_insertionSort]
  suffices h : ∀ patterns, ∃ p ∈ secrets.foldl addSecret patterns, p.needle = form from h []
  induction secrets with
  | nil => cases hs
  | cons s t ih =>
    intro patterns
    rcases List.mem_cons.mp hs with rfl | hs
    · obtain ⟨p, hp, hn⟩ := exists_mem_foldl_addPattern (mem_forms hf) (hf.ne_nil hv) patterns
      rw [List.foldl_cons, addSecret, if_neg hv]
      exact ⟨p, mem_foldl_addSecret hp, hn⟩
    · exact ih hs _

/-- A text free of every form of the values, and empty where one of them is too short. -/
def Clean (secrets : List RedactionSecret) (text : Bytes) : Prop :=
  ∀ s ∈ secrets, s.value ≠ [] →
    (∀ form, ManagedForm s.value form → ¬ form <:+: text) ∧ (s.value.length < 4 → text = [])

lemma clean_nil (secrets : List RedactionSecret) : Clean secrets [] := fun _ _ hv =>
  ⟨fun _ hf hin => hf.ne_nil hv (List.eq_nil_of_infix_nil hin), fun _ => rfl⟩

/-- Nothing appears in a beginning of a clean text. -/
lemma Clean.of_isPrefix {secrets : List RedactionSecret} {text start : Bytes}
    (h : Clean secrets text) (hp : start <+: text) : Clean secrets start := by
  intro s hs hv
  obtain ⟨h1, h2⟩ := h s hs hv
  refine ⟨fun form hf hin => h1 form hf (hin.trans hp.isInfix), fun hlt => ?_⟩
  have := hp
  rw [h2 hlt] at this
  exact List.prefix_nil.mp this

lemma containsPattern_eq_false {text : Bytes} {patterns : List Pattern}
    (h : ¬ containsPattern text patterns) {p : Pattern} (hp : p ∈ patterns) :
    ¬ p.needle <:+: text := by
  intro hin
  refine h (List.any_eq_true.mpr ⟨p, hp, ?_⟩)
  exact find_isSome_iff.mpr hin

/-- Whatever a redactor has been fed, the text it ends with is clean. -/
lemma clean_finish {secrets : List RedactionSecret} {r : StreamingRedactor}
    (hp : r.patterns = patternsOf secrets) (hs : r.suppressed = secrets.any tooShort) :
    Clean secrets r.finish.text := by
  unfold StreamingRedactor.finish
  split
  · exact clean_nil secrets
  · next hsup =>
    dsimp only
    split
    · exact clean_nil secrets
    · next hno =>
      have hpat : (r.process true).patterns = patternsOf secrets := (process_setup r true).1.trans hp
      intro s hmem hv
      refine ⟨fun form hf hin => ?_, fun hlt => ?_⟩
      · obtain ⟨p, hpm, rfl⟩ := exists_pattern hmem hv hf
        exact containsPattern_eq_false hno (hpat ▸ hpm) hin
      · refine absurd ?_ hsup
        rw [hs, List.any_eq_true]
        exact ⟨s, hmem, by simp [tooShort, hv, hlt]⟩

lemma clean_redactReader {secrets : List RedactionSecret} {reads : List (Option Bytes)}
    {r : StreamingRedactor} {output : RedactedOutput} (h : redactReader reads r = .ok output)
    (hp : r.patterns = patternsOf secrets) (hs : r.suppressed = secrets.any tooShort) :
    Clean secrets output.text := by
  fun_induction redactReader reads r with
  | case1 r => cases h; exact clean_finish hp hs
  | case2 => cases h
  | case3 rest r => cases h; exact clean_finish hp hs
  | case4 b chunk rest r ih =>
    obtain ⟨h1, -, -, h4⟩ := push_setup r (b :: chunk)
    exact ih h (h1.trans hp) (h4.trans hs)

lemma makeRedactor_setup {bindings : List PreparedBinding} {limit : ℕ} {r : StreamingRedactor}
    (h : makeRedactor bindings limit = .ok r) :
    r.patterns = patternsOf (bindings.map fun b => ⟨b.value⟩) ∧
      r.suppressed = (bindings.map fun b => (⟨b.value⟩ : RedactionSecret)).any tooShort := by
  unfold makeRedactor StreamingRedactor.new at h
  split at h
  · cases h; exact ⟨rfl, rfl⟩
  · cases h

lemma truncateUtf8_isPrefix (value : Bytes) (limit : ℕ) : truncateUtf8 value limit <+: value := by
  unfold truncateUtf8
  split
  · exact List.prefix_rfl
  · exact List.take_prefix _ _

lemma shrink_isPrefix (limit : ℕ) (stdout stderr : Bytes) :
    (shrink limit stdout stderr).1 <+: stdout ∧ (shrink limit stdout stderr).2 <+: stderr := by
  fun_induction shrink limit stdout stderr with
  | case1 => exact ⟨List.prefix_rfl, List.prefix_rfl⟩
  | case2 stdout stderr _ _ ih => exact ⟨ih.1.trans (List.take_prefix _ _), ih.2⟩
  | case3 stdout stderr _ _ _ ih => exact ⟨ih.1, ih.2.trans (List.take_prefix _ _)⟩
  | case4 => exact ⟨List.prefix_rfl, List.prefix_rfl⟩

/-- The combined limit only takes from the ends. -/
lemma enforceCombinedLimit_isPrefix (stdout stderr : Bytes) (limit : ℕ) :
    (enforceCombinedLimit stdout stderr limit).1 <+: stdout ∧
      (enforceCombinedLimit stdout stderr limit).2.1 <+: stderr := by
  unfold enforceCombinedLimit
  split
  · exact ⟨List.prefix_rfl, List.prefix_rfl⟩
  · obtain ⟨h1, h2⟩ := shrink_isPrefix limit
      (truncateUtf8 stdout (max (limit / 2) (minOutputLimitBytes / 2)))
      (truncateUtf8 stderr (max (limit - limit / 2) (minOutputLimitBytes / 2)))
    exact ⟨h1.trans (truncateUtf8_isPrefix _ _), h2.trans (truncateUtf8_isPrefix _ _)⟩

/-- The texts of a result come from the two redactors, cut to the combined limit; what was left out
before and in the cut is added up. -/
lemma execute_eq_ok {os : System} {run : PreparedRun} {result : RunResult}
    (h : execute os run = .ok result) :
    ∃ (rout rerr : StreamingRedactor) (out err : RedactedOutput),
      makeRedactor run.bindings run.outputLimitBytes = .ok rout ∧
      makeRedactor run.bindings run.outputLimitBytes = .ok rerr ∧
      redactReader os.stdoutReads rout = .ok out ∧ redactReader os.stderrReads rerr = .ok err ∧
      result.stdout = (enforceCombinedLimit out.text err.text run.outputLimitBytes).1 ∧
      result.stderr = (enforceCombinedLimit out.text err.text run.outputLimitBytes).2.1 ∧
      result.outputTruncated = (out.truncated || err.truncated ||
        (enforceCombinedLimit out.text err.text run.outputLimitBytes).2.2.1) ∧
      result.omittedBytes = saturatingAdd (saturatingAdd out.omittedBytes err.omittedBytes)
        (enforceCombinedLimit out.text err.text run.outputLimitBytes).2.2.2 ∧
      result.outputSuppressed = (out.suppressed || err.suppressed) := by
  simp only [execute, bind_eq_ok] at h
  obtain ⟨rout, ho, rerr, he, injection, -, -, -, -, -, ⟨exitCode, termination⟩, -, out, hout, err,
    herr, h⟩ := h
  refine ⟨rout, rerr, out, err, ho, he, hout, herr, ?_⟩
  split at h
  · cases h
  · cases h; exact ⟨rfl, rfl, rfl, rfl, rfl⟩

/-- **No agent-visible output contains a managed value**, in any of the forms it is looked for,
whatever the child writes and however the reads cut it; and a value too short to be looked for
leaves no output at all. -/
theorem execute_clean (os : System) (run : PreparedRun) (result : RunResult)
    (h : execute os run = .ok result) (binding : PreparedBinding) (hb : binding ∈ run.bindings)
    (hv : binding.value ≠ []) :
    (∀ form, ManagedForm binding.value form →
      ¬ form <:+: result.stdout ∧ ¬ form <:+: result.stderr) ∧
    (binding.value.length < 4 → result.stdout = [] ∧ result.stderr = []) := by
  obtain ⟨rout, rerr, out, err, ho, he, hout, herr, h1, h2, -⟩ := execute_eq_ok h
  obtain ⟨p1, p2⟩ := enforceCombinedLimit_isPrefix out.text err.text run.outputLimitBytes
  have hmem : (⟨binding.value⟩ : RedactionSecret) ∈ run.bindings.map fun b => ⟨b.value⟩ :=
    List.mem_map_of_mem (f := fun b : PreparedBinding => (⟨b.value⟩ : RedactionSecret)) hb
  obtain ⟨so, so'⟩ := makeRedactor_setup ho
  obtain ⟨se, se'⟩ := makeRedactor_setup he
  obtain ⟨co, co'⟩ := ((clean_redactReader hout so so').of_isPrefix p1) _ hmem hv
  obtain ⟨ce, ce'⟩ := ((clean_redactReader herr se se').of_isPrefix p2) _ hmem hv
  rw [h1, h2]
  exact ⟨fun form hf => ⟨co form hf, ce form hf⟩, fun hlt => ⟨co' hlt, ce' hlt⟩⟩

/-- A run with one value in its environment. -/
def tokenRun : PreparedRun where
  executable := "/usr/bin/env"
  arguments := []
  workingDirectory := "/"
  bindings := [⟨⟨.filled 7⟩, .value, .environment "TOKEN",
    ofString "s3cret!"⟩]
  timeout := 1000
  outputLimitBytes := 128

/-- The child prints its value, in two reads. -/
def tokenSystem : System where
  temporaryFile := fun _ => .error .processFailure
  launch := fun _ => .ok ()
  attach := .ok ()
  stdoutReads := [some (ofString "TOKEN=s3c"), some (ofString "ret!"), some []]
  stderrReads := []
  wait := .ok (some 0, .exited)
  stdinResult := .written
  cleanupFailed := false
  elapsed := 5

def tokenResult : RunResult where
  exitCode := some 0
  termination := .exited
  stdout := ofString "TOKEN=[REDACTED]"
  stderr := []
  duration := 5
  redactionCount := 1
  outputTruncated := false
  omittedBytes := 0
  outputSuppressed := false
  tempCleanupWarning := false

theorem execute_clean_token :
    execute tokenSystem tokenRun = .ok tokenResult ∧
      ¬ encodeHex (ofString "s3cret!") true <:+: tokenResult.stdout :=
  ⟨by decide +kernel,
    ((execute_clean tokenSystem tokenRun tokenResult (by decide +kernel) _
      (List.mem_singleton.mpr rfl) (by decide)).1 _ (.hex true (hex_iff.mpr rfl))).1⟩

end Ladon.Supervisor
