import Ladon.Supervisor

/-!
What the checks of a run come to.

A request is checked before its values are known, and once more when they are. Both checks walk
through the bindings with what they have seen so far. Here they are stated as conditions on the
whole request and on the whole list of values, and what follows from all of them together: every
value reaches its own target and no other, and none stands on the command line.
-/

namespace Ladon.Runner

open Ladon.Error Ladon.Model Ladon.Redact Ladon.Supervisor Ladon.Lib.Find Ladon.Lib.Utf8
  Ladon.Lib.Word

/-! ### Targets -/

/-- The variable that a target sets. -/
def BindingTarget.envName : BindingTarget → Option String
  | .environment name => some name
  | .standardInput => none
  | .temporaryFileEnvironment name _ => some name

def ValidatedBindingTarget.envName : ValidatedBindingTarget → Option String
  | .environment name => some name
  | .standardInput => none
  | .temporaryFileEnvironment name _ => some name

/-- A name that the environment takes. -/
structure EnvName (name : String) : Prop where
  ne_empty : name ≠ ""
  length_le : (ofString name).length ≤ 256
  noNul : 0 ∉ ofString name
  noEquals : 0x3D ∉ ofString name

lemma validateEnvironmentName_eq_ok {name : String} {names names' : List String} :
    validateEnvironmentName name names = .ok names' ↔
      EnvName name ∧ name ∉ names ∧ names' = name :: names := by
  unfold validateEnvironmentName
  constructor
  · intro h
    split_ifs at h with hbad hused
    cases h
    simp only [not_or, Nat.not_lt, hasNul, List.contains_eq_mem, decide_eq_true_eq] at hbad
    exact ⟨⟨hbad.1, hbad.2.1, hbad.2.2.1, hbad.2.2.2⟩, hused, rfl⟩
  · rintro ⟨⟨h1, h2, h3, h4⟩, hfresh, rfl⟩
    rw [if_neg (by simp [h1, h2, h3, h4, hasNul]), if_neg hfresh]

/-- A file name that an extension may be taken from. -/
structure GoodFilename (filename : Bytes) (extension : Bytes) : Prop where
  ne_nil : filename ≠ []
  length_le : filename.length ≤ 128
  notHidden : filename.head? ≠ some 0x2E
  noDot : filename.getLast? ≠ some 0x2E
  noSpace : filename.getLast? ≠ some 0x20
  bytes : filename.all isFilenameByte = true
  extension_eq : fileExtension filename = some extension
  extension_ne : extension ≠ []
  extension_le : extension.length ≤ 16
  alphanumeric : extension.all isAsciiAlphanumeric = true

lemma validateSuggestedFilename_eq_ok {filename : String} {suffix : Bytes} :
    validateSuggestedFilename filename = .ok suffix ↔
      ∃ extension, GoodFilename (ofString filename) extension ∧ suffix = 0x2E :: extension := by
  unfold validateSuggestedFilename
  dsimp only
  constructor
  · intro h
    split_ifs at h with hbad
    simp only [not_or, Nat.not_lt, not_not] at hbad
    split at h
    · cases h
    · next extension hext =>
      split_ifs at h with hbad'
      simp only [not_or, Nat.not_lt, not_not] at hbad'
      cases h
      exact ⟨extension, ⟨hbad.1, hbad.2.1, hbad.2.2.1, hbad.2.2.2.1, hbad.2.2.2.2.1,
        hbad.2.2.2.2.2, hext, hbad'.1, hbad'.2.1, hbad'.2.2⟩, rfl⟩
  · rintro ⟨extension, ⟨h1, h2, h3, h4, h5, h6, h7, h8, h9, h10⟩, rfl⟩
    rw [if_neg (by simp [h1, h2, h3, h4, h5]; simpa using h6), h7]
    dsimp only
    rw [if_neg (by simp [h8, h9]; simpa using h10)]

/-- A target as it was asked for and as it is checked. -/
inductive Carried : BindingTarget → ValidatedBindingTarget → Prop
  | environment {name : String} (h : EnvName name) : Carried (.environment name) (.environment name)
  | standardInput : Carried .standardInput .standardInput
  | temporaryFile {name : String} (h : EnvName name) :
      Carried (.temporaryFileEnvironment name none) (.temporaryFileEnvironment name none)
  | temporaryFileAs {name filename : String} {extension : Bytes} (h : EnvName name)
      (hfile : GoodFilename (ofString filename) extension) :
      Carried (.temporaryFileEnvironment name (some filename))
        (.temporaryFileEnvironment name (some (0x2E :: extension)))

lemma Carried.envName {asked : BindingTarget} {target : ValidatedBindingTarget}
    (h : Carried asked target) :
    target.envName = asked.envName ∧ ∀ name, target.envName = some name → EnvName name := by
  cases h with
  | standardInput => exact ⟨rfl, fun _ h => by cases h⟩
  | environment h => exact ⟨rfl, fun _ he => by cases he; exact h⟩
  | temporaryFile h => exact ⟨rfl, fun _ he => by cases he; exact h⟩
  | temporaryFileAs h hfile => exact ⟨rfl, fun _ he => by cases he; exact h⟩

lemma Carried.standardInput_iff {asked : BindingTarget} {target : ValidatedBindingTarget}
    (h : Carried asked target) : target = .standardInput ↔ asked = .standardInput := by
  cases h <;> simp

def envNames (bindings : List SecretBindingRequest) : List String :=
  bindings.filterMap fun b => b.target.envName

def standardInputs (bindings : List SecretBindingRequest) : ℕ :=
  bindings.countP fun b => b.target = .standardInput

section Cons

variable {asked : SecretBindingRequest} {bindings : List SecretBindingRequest}

lemma envName_eq_none_iff : asked.target.envName = none ↔ asked.target = .standardInput := by
  cases asked.target <;> simp [BindingTarget.envName]

lemma envNames_cons_some {name : String} (h : asked.target.envName = some name) :
    envNames (asked :: bindings) = name :: envNames bindings := by
  simp [envNames, h]

lemma envNames_cons_none (h : asked.target.envName = none) :
    envNames (asked :: bindings) = envNames bindings := by
  simp [envNames, h]

lemma standardInputs_cons_some {name : String} (h : asked.target.envName = some name) :
    standardInputs (asked :: bindings) = standardInputs bindings := by
  have hno : ¬ asked.target = .standardInput := by
    rw [← envName_eq_none_iff, h]
    simp
  simp [standardInputs, hno]

lemma standardInputs_cons_none (h : asked.target.envName = none) :
    standardInputs (asked :: bindings) = standardInputs bindings + 1 := by
  simp [standardInputs, envName_eq_none_iff.mp h]

end Cons

/-- The bytes of arguments that were counted without overflow. -/
lemma sum_of_argumentBytes {arguments : List String} {total n : ℕ}
    (h : arguments.foldlM (fun total a => checkedAdd total (ofString a).length) total = some n) :
    total + (arguments.map fun a => (ofString a).length).sum = n := by
  induction arguments generalizing total with
  | nil => simpa using h
  | cons a arguments ih =>
    rw [List.foldlM_cons, Option.bind_eq_bind, Option.bind_eq_some_iff] at h
    obtain ⟨next, hnext, h⟩ := h
    rw [(checkedAdd_eq_some.mp hnext).1] at h
    have := ih h
    rw [List.map_cons, List.sum_cons]
    omega

lemma argumentBytes_of_sum {arguments : List String} {total : ℕ}
    (h : total + (arguments.map fun a => (ofString a).length).sum ≤ u64Max) :
    arguments.foldlM (fun total a => checkedAdd total (ofString a).length) total =
      some (total + (arguments.map fun a => (ofString a).length).sum) := by
  induction arguments generalizing total with
  | nil => simp
  | cons a arguments ih =>
    rw [List.map_cons, List.sum_cons] at h ⊢
    have hnext : checkedAdd total (ofString a).length = some (total + (ofString a).length) :=
      checkedAdd_eq_some.mpr ⟨rfl, by omega⟩
    rw [List.foldlM_cons, hnext, Option.bind_eq_bind, Option.bind_some, ih (by omega),
      Nat.add_assoc]

lemma argumentBytes_le_iff {arguments : List String} :
    (∃ bytes, argumentBytes arguments = some bytes ∧ bytes ≤ maxArgumentBytes) ↔
      (arguments.map fun a => (ofString a).length).sum ≤ maxArgumentBytes := by
  constructor
  · rintro ⟨bytes, h, hle⟩
    have := sum_of_argumentBytes h
    omega
  · intro hle
    refine ⟨_, argumentBytes_of_sum ?_, by rwa [Nat.zero_add]⟩
    rw [Nat.zero_add]
    exact hle.trans (by decide)

lemma exists_carried {target : BindingTarget}
    (hname : ∀ name, target.envName = some name → EnvName name)
    (hfile : ∀ name filename, target = .temporaryFileEnvironment name (some filename) →
      ∃ extension, GoodFilename (ofString filename) extension) :
    ∃ checked, Carried target checked := by
  cases target with
  | environment name => exact ⟨_, .environment (hname name rfl)⟩
  | standardInput => exact ⟨_, .standardInput⟩
  | temporaryFileEnvironment name filename =>
    cases filename with
    | none => exact ⟨_, .temporaryFile (hname name rfl)⟩
    | some filename =>
      obtain ⟨extension, hgood⟩ := hfile name filename rfl
      exact ⟨_, .temporaryFileAs (hname name rfl) hgood⟩

/-- Every element has a partner exactly when the whole list has a list of partners. -/
lemma exists_forall₂_iff {α β : Type*} {R : α → β → Prop} {l : List α} :
    (∃ m, List.Forall₂ R l m) ↔ ∀ a ∈ l, ∃ b, R a b := by
  induction l with
  | nil => simp
  | cons a l ih =>
    rw [List.forall_mem_cons, ← ih]
    constructor
    · rintro ⟨m, hm⟩
      cases hm with
      | cons hb hm => exact ⟨⟨_, hb⟩, _, hm⟩
    · rintro ⟨⟨b, hb⟩, m, hm⟩
      exact ⟨b :: m, .cons hb hm⟩

lemma contains_iff {text : String} {value : Bytes} :
    contains text value = true ↔ value ≠ [] ∧ value <:+: ofString text := by
  rw [contains, decide_eq_true_iff, find_isSome_iff]

section Requests

variable [UnicodeNormalization]

/-- A binding as it was asked for and as it is checked. -/
structure Validates (asked : SecretBindingRequest) (binding : ValidatedSecretBinding) : Prop where
  secretRef : SecretRef.parse asked.secretRef = .ok binding.secretRef
  field : FieldName.parse asked.field = .ok binding.field
  target : Carried asked.target binding.target

/-- One binding: it takes a name that is free, or the standard input. -/
lemma validateBindings_cons {names : List String} {taken : Bool} {asked : SecretBindingRequest}
    {bindings : List SecretBindingRequest} {out : List ValidatedSecretBinding} :
    validateBindings names taken (asked :: bindings) = .ok out ↔
      ∃ binding rest, out = binding :: rest ∧ Validates asked binding ∧
        ((∃ name, asked.target.envName = some name ∧ name ∉ names ∧
            validateBindings (name :: names) taken bindings = .ok rest) ∨
          (asked.target = .standardInput ∧ taken = false ∧
            validateBindings names true bindings = .ok rest)) := by
  obtain ⟨secretRef, field, target⟩ := asked
  cases target with
  | environment name =>
    simp only [validateBindings, bind_eq_ok, validateEnvironmentName_eq_ok, pure, Except.pure,
      Except.ok.injEq]
    constructor
    · rintro ⟨ref, href, f, hf, names', ⟨hname, hfresh, rfl⟩, rest, hrest, rfl⟩
      exact ⟨_, rest, rfl, ⟨href, hf, .environment hname⟩, Or.inl ⟨name, rfl, hfresh, hrest⟩⟩
    · rintro ⟨binding, rest, rfl, ⟨href, hf, htarget⟩, ⟨n, hn, hfresh, hrest⟩ | ⟨h, -⟩⟩
      · obtain ⟨ref, f, target⟩ := binding
        cases hn
        cases htarget with
        | environment hname => exact ⟨ref, href, f, hf, _, ⟨hname, hfresh, rfl⟩, rest, hrest, rfl⟩
      · cases h
  | standardInput =>
    simp only [validateBindings, bind_eq_ok]
    constructor
    · rintro ⟨ref, href, f, hf, h⟩
      split at h
      · cases h
      · next hfree =>
        obtain ⟨rest, hrest, h⟩ := bind_eq_ok.mp h
        cases h
        exact ⟨_, rest, rfl, ⟨href, hf, .standardInput⟩,
          Or.inr ⟨trivial, by simpa using hfree, hrest⟩⟩
    · rintro ⟨binding, rest, rfl, ⟨href, hf, htarget⟩, ⟨n, hn, -⟩ | ⟨-, hfree, hrest⟩⟩
      · cases hn
      · obtain ⟨ref, f, target⟩ := binding
        cases htarget
        refine ⟨ref, href, f, hf, ?_⟩
        rw [if_neg (by simp [hfree])]
        exact bind_eq_ok.mpr ⟨rest, hrest, rfl⟩
  | temporaryFileEnvironment name filename =>
    simp only [validateBindings, bind_eq_ok, validateEnvironmentName_eq_ok, pure, Except.pure,
      Except.ok.injEq]
    constructor
    · rintro ⟨ref, href, f, hf, names', ⟨hname, hfresh, rfl⟩, ext, hext, rest, hrest, rfl⟩
      have htarget : Carried (.temporaryFileEnvironment name filename)
          (.temporaryFileEnvironment name ext) := by
        cases filename with
        | none => cases hext; exact .temporaryFile hname
        | some filename =>
          obtain ⟨suffix, hsuffix, hext⟩ := bind_eq_ok.mp hext
          cases hext
          obtain ⟨extension, hgood, rfl⟩ := validateSuggestedFilename_eq_ok.mp hsuffix
          exact .temporaryFileAs hname hgood
      exact ⟨_, rest, rfl, ⟨href, hf, htarget⟩, Or.inl ⟨name, rfl, hfresh, hrest⟩⟩
    · rintro ⟨binding, rest, rfl, ⟨href, hf, htarget⟩, ⟨n, hn, hfresh, hrest⟩ | ⟨h, -⟩⟩
      · obtain ⟨ref, f, target⟩ := binding
        cases hn
        cases htarget with
        | temporaryFile hname =>
          exact ⟨ref, href, f, hf, _, ⟨hname, hfresh, rfl⟩, none, rfl, rest, hrest, rfl⟩
        | temporaryFileAs hname hgood =>
          refine ⟨ref, href, f, hf, _, ⟨hname, hfresh, rfl⟩, _, ?_, rest, hrest, rfl⟩
          exact bind_eq_ok.mpr ⟨_, validateSuggestedFilename_eq_ok.mpr ⟨_, hgood, rfl⟩, rfl⟩
      · cases h

/-- The walk through the bindings, from any names taken and with the standard input taken or
not. -/
lemma validateBindings_eq_ok {names : List String} {taken : Bool}
    {bindings : List SecretBindingRequest} {out : List ValidatedSecretBinding} :
    validateBindings names taken bindings = .ok out ↔
      List.Forall₂ Validates bindings out ∧ (envNames bindings).Nodup ∧
        (∀ name ∈ envNames bindings, name ∉ names) ∧
        standardInputs bindings + taken.toNat ≤ 1 := by
  induction bindings generalizing names taken out with
  | nil =>
    cases taken <;> simp [validateBindings, envNames, standardInputs, eq_comm]
  | cons asked bindings ih =>
    rw [validateBindings_cons, List.forall₂_cons_left_iff]
    constructor
    · rintro ⟨binding, rest, rfl, hone, ⟨name, hname, hfresh, hrest⟩ | ⟨htarget, rfl, hrest⟩⟩
      · obtain ⟨hall, hnodup, hfree, hcount⟩ := ih.mp hrest
        rw [envNames_cons_some hname, standardInputs_cons_some hname, List.nodup_cons]
        refine ⟨⟨binding, rest, hone, hall, rfl⟩, ⟨fun hmem => hfree name hmem (by simp), hnodup⟩,
          fun n hn => ?_, hcount⟩
        rcases List.mem_cons.mp hn with rfl | hn
        · exact hfresh
        · exact fun hmem => hfree n hn (List.mem_cons_of_mem _ hmem)
      · obtain ⟨hall, hnodup, hfree, hcount⟩ := ih.mp hrest
        have hname := envName_eq_none_iff.mpr htarget
        rw [envNames_cons_none hname, standardInputs_cons_none hname]
        exact ⟨⟨binding, rest, hone, hall, rfl⟩, hnodup, hfree, hcount⟩
    · rintro ⟨⟨binding, rest, hone, hall, rfl⟩, hnodup, hfree, hcount⟩
      refine ⟨binding, rest, rfl, hone, ?_⟩
      cases hname : asked.target.envName with
      | some name =>
        rw [envNames_cons_some hname] at hnodup hfree
        rw [standardInputs_cons_some hname] at hcount
        rw [List.nodup_cons] at hnodup
        refine Or.inl ⟨name, rfl, hfree name (by simp), ih.mpr ⟨hall, hnodup.2, ?_, hcount⟩⟩
        intro n hn hmem
        rcases List.mem_cons.mp hmem with rfl | hmem
        · exact hnodup.1 hn
        · exact hfree n (List.mem_cons_of_mem _ hn) hmem
      | none =>
        rw [envNames_cons_none hname] at hnodup hfree
        rw [standardInputs_cons_none hname] at hcount
        have hfirst : taken = false := by
          cases taken
          · rfl
          · simp at hcount
        subst hfirst
        exact Or.inr ⟨envName_eq_none_iff.mp hname, rfl, ih.mpr ⟨hall, hnodup, hfree, hcount⟩⟩

/-! ### The checks of a request -/

/-- A run that passed the checks. -/
structure Checked (r : RunRequest) (caller : RunCaller) : Prop where
  executable : validPath r.executable
  workingDirectory : validPath r.workingDirectory
  arguments : ∃ bytes, argumentBytes r.arguments = some bytes ∧ bytes ≤ maxArgumentBytes
  arguments_le : r.arguments.length ≤ maxArguments
  noNul : r.arguments.any hasNul = false
  bindings_le : r.bindings.length ≤ maxBindings
  timeout_ne : r.timeoutMs ≠ 0
  timeout_le : r.timeoutMs ≤ caller.maximumTimeout
  limit : minOutputLimitBytes ≤ r.outputLimitBytes ∧ r.outputLimitBytes ≤ maxOutputLimitBytes
  bindings : ∃ bs, validateBindings [] false r.bindings = .ok bs

lemma validateRunRequest_ok_iff {r : RunRequest} {caller : RunCaller} :
    (∃ v, validateRunRequest r caller = .ok v) ↔ Checked r caller := by
  unfold validateRunRequest
  constructor
  · rintro ⟨v, h⟩
    cases hbytes : argumentBytes r.arguments with
    | none =>
      simp only [hbytes] at h
      split_ifs at h
    | some bytes =>
      simp only [hbytes] at h
      split_ifs at h with h1 h2 h3 h4 h5 h6
      obtain ⟨bs, hbs, -⟩ := bind_eq_ok.mp h
      simp only [not_or, Nat.not_lt, Bool.not_eq_true] at h3 h4 h5
      exact ⟨h1, h2, ⟨bytes, hbytes, h3.2.1⟩, h3.1, h3.2.2, h4, h5.1, h5.2, h6, bs, hbs⟩
  · rintro ⟨h1, h2, ⟨bytes, hbytes, hle⟩, hlen, hnul, hb, ht, htle, hl, bs, hbs⟩
    rw [if_neg (by simpa using h1), if_neg (by simpa using h2), hbytes]
    dsimp only
    rw [if_neg (by simp [hlen, hle, hnul]), if_neg (Nat.not_lt.mpr hb),
      if_neg (by simp [ht, htle]), if_neg (by simpa using hl), hbs]
    exact ⟨_, rfl⟩

/-- The server allows a run all the time that any client may ask for. -/
lemma Checked.cli {r : RunRequest} {caller : RunCaller} (h : Checked r caller) : Checked r .cli := by
  have hle : caller.maximumTimeout ≤ RunCaller.maximumTimeout .cli := by cases caller <;> decide
  exact { h with timeout_le := h.timeout_le.trans hle }

/-- The conditions of a request, one by one. -/
structure Listed (r : RunRequest) (caller : RunCaller) : Prop where
  executable : validPath r.executable
  workingDirectory : validPath r.workingDirectory
  arguments_le : r.arguments.length ≤ maxArguments
  argumentBytes_le : (r.arguments.map fun a => (ofString a).length).sum ≤ maxArgumentBytes
  arguments_noNul : ∀ a ∈ r.arguments, 0 ∉ ofString a
  bindings_le : r.bindings.length ≤ maxBindings
  timeout_ne : r.timeoutMs ≠ 0
  timeout_le : r.timeoutMs ≤ caller.maximumTimeout
  limit : minOutputLimitBytes ≤ r.outputLimitBytes ∧ r.outputLimitBytes ≤ maxOutputLimitBytes
  parsed : ∀ b ∈ r.bindings, (∃ x, SecretRef.parse b.secretRef = .ok x) ∧
    ∃ x, FieldName.parse b.field = .ok x
  names : ∀ b ∈ r.bindings, ∀ name, b.target.envName = some name → EnvName name
  names_nodup : (envNames r.bindings).Nodup
  standardInputs_le : standardInputs r.bindings ≤ 1
  filenames : ∀ b ∈ r.bindings, ∀ name filename,
    b.target = .temporaryFileEnvironment name (some filename) →
      ∃ extension, GoodFilename (ofString filename) extension

/-- The conditions of the bindings are those of the walk through them. -/
lemma validateBindings_ok_iff {bindings : List SecretBindingRequest} :
    (∃ out, validateBindings [] false bindings = .ok out) ↔
      (∀ b ∈ bindings, (∃ x, SecretRef.parse b.secretRef = .ok x) ∧
        ∃ x, FieldName.parse b.field = .ok x) ∧
      (∀ b ∈ bindings, ∀ name, b.target.envName = some name → EnvName name) ∧
      (envNames bindings).Nodup ∧ standardInputs bindings ≤ 1 ∧
      ∀ b ∈ bindings, ∀ name filename,
        b.target = .temporaryFileEnvironment name (some filename) →
          ∃ extension, GoodFilename (ofString filename) extension := by
  constructor
  · rintro ⟨out, h⟩
    obtain ⟨hall, hnodup, -, hcount⟩ := validateBindings_eq_ok.mp h
    have hone := exists_forall₂_iff.mp ⟨out, hall⟩
    refine ⟨fun b hb => ?_, fun b hb name hname => ?_, hnodup, hcount, fun b hb name f ht => ?_⟩
    · obtain ⟨v, hv⟩ := hone b hb
      exact ⟨⟨_, hv.secretRef⟩, _, hv.field⟩
    · obtain ⟨v, hv⟩ := hone b hb
      obtain ⟨h1, h2⟩ := hv.target.envName
      exact h2 name (h1.trans hname)
    · obtain ⟨v, hv⟩ := hone b hb
      have htarget := hv.target
      rw [ht] at htarget
      generalize v.target = checked at htarget
      cases htarget with
      | temporaryFileAs _ hgood => exact ⟨_, hgood⟩
  · rintro ⟨hparsed, hnames, hnodup, hcount, hfiles⟩
    have hone : ∀ b ∈ bindings, ∃ v, Validates b v := by
      intro b hb
      obtain ⟨⟨ref, href⟩, field, hfield⟩ := hparsed b hb
      obtain ⟨target, htarget⟩ := exists_carried (hnames b hb) (hfiles b hb)
      exact ⟨⟨ref, field, target⟩, href, hfield, htarget⟩
    obtain ⟨out, hout⟩ := exists_forall₂_iff.mpr hone
    exact ⟨out, validateBindings_eq_ok.mpr ⟨hout, hnodup, by simp, by simpa using hcount⟩⟩

lemma checked_iff_listed {r : RunRequest} {caller : RunCaller} :
    Checked r caller ↔ Listed r caller := by
  constructor
  · rintro ⟨h1, h2, h3, h4, h5, h6, h7, h8, h9, h10⟩
    obtain ⟨b1, b2, b3, b4, b5⟩ := validateBindings_ok_iff.mp h10
    refine ⟨h1, h2, h4, argumentBytes_le_iff.mp h3, fun a ha => ?_, h6, h7, h8, h9, b1, b2, b3, b4,
      b5⟩
    have := List.any_eq_false.mp h5 a ha
    simpa [hasNul] using this
  · rintro ⟨h1, h2, h3, h4, h5, h6, h7, h8, h9, b1, b2, b3, b4, b5⟩
    refine ⟨h1, h2, argumentBytes_le_iff.mpr h4, h3, List.any_eq_false.mpr fun a ha => ?_, h6, h7,
      h8, h9, validateBindings_ok_iff.mpr ⟨b1, b2, b3, b4, b5⟩⟩
    simpa [hasNul] using h5 a ha

/-! ### The checks of the values -/

/-- A value that may go where a binding wants it. -/
structure Suits (r : RunRequest) (asked : SecretBindingRequest) (resolved : ResolvedSecretBinding) :
    Prop where
  field : FieldName.parse asked.field = .ok resolved.field
  secretId : ∀ id, SecretRef.parse asked.secretRef = .ok (.id id) → id = resolved.secretId
  environment : ∀ name, asked.target = .environment name →
    fromUtf8 resolved.value = .ok ∧ 0 ∉ resolved.value
  apart : resolved.value ≠ [] → ∀ text ∈ r.executable :: r.workingDirectory :: r.arguments,
    ¬ resolved.value <:+: ofString text

def injectedBytes (resolved : List ResolvedSecretBinding) : ℕ :=
  (resolved.map fun x => x.value.length).sum

/-- The same of a binding that has been checked. -/
structure Agrees (run : ValidatedRunRequest) (binding : ValidatedSecretBinding)
    (resolved : ResolvedSecretBinding) : Prop where
  field : binding.field = resolved.field
  secretId : refersTo binding.secretRef resolved.secretId = true
  environment : isEnvironment binding.target = true → environmentSafe resolved.value = true
  apart : ¬ (contains run.executable resolved.value ∨ contains run.workingDirectory resolved.value ∨
    run.arguments.any (contains · resolved.value))

def prepared (binding : ValidatedSecretBinding) (resolved : ResolvedSecretBinding) :
    PreparedBinding :=
  ⟨resolved.secretId, resolved.field, binding.target, resolved.value⟩

/-- The walk through bindings and values, from any number of bytes injected. -/
lemma prepareBindings_eq_ok {run : ValidatedRunRequest} {injected : ℕ}
    {bindings : List ValidatedSecretBinding} {resolved : List ResolvedSecretBinding}
    {out : List PreparedBinding} (hlen : resolved.length = bindings.length)
    (hinjected : injected ≤ maxInjectedBytes) :
    prepareBindings run injected (bindings.zip resolved) = .ok out ↔
      List.Forall₂ (Agrees run) bindings resolved ∧
        injected + injectedBytes resolved ≤ maxInjectedBytes ∧
        out = List.zipWith prepared bindings resolved := by
  induction bindings generalizing injected resolved out with
  | nil =>
    obtain rfl := List.length_eq_zero_iff.mp hlen
    simp [prepareBindings, injectedBytes, hinjected, eq_comm]
  | cons binding bindings ih =>
    obtain ⟨value, resolved, rfl⟩ := List.exists_cons_of_length_eq_add_one hlen
    rw [List.zip_cons_cons, prepareBindings, List.forall₂_cons]
    have hsum : injectedBytes (value :: resolved) = value.value.length + injectedBytes resolved := by
      simp [injectedBytes]
    rw [hsum]
    constructor
    · intro h
      cases hnext : checkedAdd injected value.value.length with
      | none =>
        simp only [hnext] at h
        split_ifs at h
      | some next =>
        obtain ⟨rfl, -⟩ := checkedAdd_eq_some.mp hnext
        simp only [hnext] at h
        split_ifs at h with hfield href hover hunsafe hseen
        obtain ⟨rest, hrest, h⟩ := bind_eq_ok.mp h
        cases h
        obtain ⟨hall, hbytes, rfl⟩ := (ih (by simpa using hlen) (by omega)).mp hrest
        refine ⟨⟨⟨by simpa using hfield, href, ?_, hseen⟩, hall⟩, by omega, rfl⟩
        intro henv
        simpa [henv] using hunsafe
    · rintro ⟨⟨⟨hfield, href, hsafe, hseen⟩, hall⟩, hbytes, rfl⟩
      have hmax : maxInjectedBytes ≤ u64Max := by decide
      have hnext : checkedAdd injected value.value.length = some (injected + value.value.length) :=
        checkedAdd_eq_some.mpr ⟨rfl, by omega⟩
      have hrest : prepareBindings run (injected + value.value.length) (bindings.zip resolved) =
          .ok (List.zipWith prepared bindings resolved) :=
        (ih (by simpa using hlen) (by omega)).mpr ⟨hall, by omega, rfl⟩
      rw [if_neg (by simpa using hfield), if_neg (by simpa using href), hnext]
      dsimp only
      rw [if_neg (by omega), if_neg (fun h => h.2 (hsafe h.1)), if_neg hseen, hrest]
      rfl

/-- What suits a binding as it was asked for agrees with it as it was checked. -/
lemma suits_iff_agrees {r : RunRequest} {run : ValidatedRunRequest}
    {asked : SecretBindingRequest} {binding : ValidatedSecretBinding}
    {resolved : ResolvedSecretBinding} (hexecutable : run.executable = r.executable)
    (hdirectory : run.workingDirectory = r.workingDirectory)
    (harguments : run.arguments = r.arguments) (h : Validates asked binding) :
    Agrees run binding resolved ↔ Suits r asked resolved := by
  obtain ⟨href, hfield, htarget⟩ := h
  have hapart : ¬ (contains run.executable resolved.value ∨
      contains run.workingDirectory resolved.value ∨
      run.arguments.any (contains · resolved.value)) ↔
      (resolved.value ≠ [] → ∀ text ∈ r.executable :: r.workingDirectory :: r.arguments,
        ¬ resolved.value <:+: ofString text) := by
    rw [hexecutable, hdirectory, harguments, List.any_eq_true]
    simp only [contains_iff, List.mem_cons, forall_eq_or_imp, not_or, not_and, not_exists]
    constructor
    · rintro ⟨h1, h2, h3⟩ hne
      exact ⟨h1 hne, h2 hne, fun a ha => h3 a ha hne⟩
    · intro h
      exact ⟨fun hne => (h hne).1, fun hne => (h hne).2.1, fun a ha hne => (h hne).2.2 a ha⟩
  have hsecret : refersTo binding.secretRef resolved.secretId = true ↔
      ∀ id, SecretRef.parse asked.secretRef = .ok (.id id) → id = resolved.secretId := by
    rw [href]
    cases binding.secretRef with
    | name n => simp [refersTo]
    | id i => simp [refersTo]
  have henvironment : (isEnvironment binding.target = true → environmentSafe resolved.value = true) ↔
      ∀ name, asked.target = .environment name →
        fromUtf8 resolved.value = .ok ∧ 0 ∉ resolved.value := by
    generalize asked.target = target, binding.target = checked at htarget
    cases htarget <;> simp [isEnvironment, environmentSafe]
  constructor
  · rintro ⟨h1, h2, h3, h4⟩
    exact ⟨by rw [hfield, h1], hsecret.mp h2, henvironment.mp h3, hapart.mp h4⟩
  · rintro ⟨h1, h2, h3, h4⟩
    rw [hfield] at h1
    exact ⟨Except.ok.inj h1, hsecret.mpr h2, henvironment.mpr h3, hapart.mpr h4⟩

lemma validateRunRequest_fields {r : RunRequest} {caller : RunCaller} {v : ValidatedRunRequest}
    (h : validateRunRequest r caller = .ok v) :
    Listed r caller ∧ validateBindings [] false r.bindings = .ok v.bindings ∧
      v = ⟨r.executable, r.arguments, r.workingDirectory, v.bindings, r.timeoutMs,
        r.outputLimitBytes⟩ := by
  refine ⟨checked_iff_listed.mp (validateRunRequest_ok_iff.mp ⟨v, h⟩), ?_⟩
  unfold validateRunRequest at h
  cases hbytes : argumentBytes r.arguments with
  | none =>
    simp only [hbytes] at h
    split_ifs at h
  | some bytes =>
    simp only [hbytes] at h
    split_ifs at h
    obtain ⟨bs, hbs, h⟩ := bind_eq_ok.mp h
    cases h
    exact ⟨hbs, rfl⟩

lemma forall₂_agrees_iff {r : RunRequest} {run : ValidatedRunRequest}
    {asked : List SecretBindingRequest} {bindings : List ValidatedSecretBinding}
    {resolved : List ResolvedSecretBinding} (hexecutable : run.executable = r.executable)
    (hdirectory : run.workingDirectory = r.workingDirectory)
    (harguments : run.arguments = r.arguments) (h : List.Forall₂ Validates asked bindings) :
    List.Forall₂ (Agrees run) bindings resolved ↔ List.Forall₂ (Suits r) asked resolved := by
  induction h generalizing resolved with
  | nil => rw [List.forall₂_nil_left_iff, List.forall₂_nil_left_iff]
  | cons hone _ ih =>
    rw [List.forall₂_cons_left_iff, List.forall₂_cons_left_iff]
    simp only [ih, suits_iff_agrees hexecutable hdirectory harguments hone]

/-- Both checks together. -/
lemma resolve_eq_ok {r : RunRequest} {caller : RunCaller} {v : ValidatedRunRequest}
    {resolved : List ResolvedSecretBinding} {run : PreparedRun}
    (h : validateRunRequest r caller = .ok v) :
    v.resolve resolved = .ok run ↔
      List.Forall₂ (Suits r) r.bindings resolved ∧ injectedBytes resolved ≤ maxInjectedBytes ∧
        run = ⟨r.executable, r.arguments, r.workingDirectory,
          List.zipWith prepared v.bindings resolved, r.timeoutMs, r.outputLimitBytes⟩ := by
  obtain ⟨-, hbindings, hv⟩ := validateRunRequest_fields h
  obtain ⟨hvalid, -⟩ := validateBindings_eq_ok.mp hbindings
  have hsame : run = ⟨v.executable, v.arguments, v.workingDirectory,
      List.zipWith prepared v.bindings resolved, v.timeout, v.outputLimitBytes⟩ ↔
      run = ⟨r.executable, r.arguments, r.workingDirectory,
        List.zipWith prepared v.bindings resolved, r.timeoutMs, r.outputLimitBytes⟩ := by
    conv_lhs => rw [hv]
  have hagree : List.Forall₂ (Agrees v) v.bindings resolved ↔
      List.Forall₂ (Suits r) r.bindings resolved :=
    forall₂_agrees_iff (by rw [hv]) (by rw [hv]) (by rw [hv]) hvalid
  rw [← hsame, ← hagree]
  unfold ValidatedRunRequest.resolve
  by_cases hlen : resolved.length = v.bindings.length
  · rw [if_neg (by simpa using hlen), bind_eq_ok]
    simp only [prepareBindings_eq_ok hlen (Nat.zero_le _), Nat.zero_add]
    constructor
    · rintro ⟨out, ⟨hall, hbytes, rfl⟩, hrun⟩
      exact ⟨hall, hbytes, (Except.ok.inj hrun).symm⟩
    · rintro ⟨hall, hbytes, rfl⟩
      exact ⟨_, ⟨hall, hbytes, rfl⟩, rfl⟩
  · rw [if_pos hlen]
    constructor
    · intro h
      cases h
    · rintro ⟨hall, -⟩
      exact absurd hall.length_eq.symm hlen

end Requests

/-! ### The environment of the child -/

/-- A binding whose variable is set to its value, or to the file that holds it. -/
structure Arrives (os : System) (injection : Injection) (b : PreparedBinding) : Prop where
  environment : ∀ name, b.target = .environment name → (name, b.value) ∈ injection.environment
  temporaryFile : ∀ name extension, b.target = .temporaryFileEnvironment name extension →
    ∃ path, os.temporaryFile b = .ok path ∧ (name, path) ∈ injection.environment ∧
      (path, b.value) ∈ injection.files

/-- The variables that are set. -/
def setNames (injection : Injection) : List String := injection.environment.map Prod.fst

/-- Nothing that was there is taken away. -/
def Grows (before after : Injection) : Prop :=
  before.environment <+: after.environment ∧ before.files <+: after.files

lemma Grows.refl (injection : Injection) : Grows injection injection :=
  ⟨List.prefix_rfl, List.prefix_rfl⟩

lemma Grows.trans {a b c : Injection} (h : Grows a b) (h' : Grows b c) : Grows a c :=
  ⟨h.1.trans h'.1, h.2.trans h'.2⟩

lemma Arrives.mono {os : System} {before after : Injection} {b : PreparedBinding}
    (h : Arrives os before b) (hgrows : Grows before after) : Arrives os after b := by
  refine ⟨fun name ht => hgrows.1.subset (h.environment name ht), fun name ext ht => ?_⟩
  obtain ⟨path, hpath, h1, h2⟩ := h.temporaryFile name ext ht
  exact ⟨path, hpath, hgrows.1.subset h1, hgrows.2.subset h2⟩

/-- One binding is delivered. -/
lemma injectBinding_eq_ok {os : System} {before after : Injection} {b : PreparedBinding}
    (h : injectBinding os before b = .ok after) :
    Grows before after ∧ Arrives os after b ∧
      setNames after = setNames before ++ b.target.envName.toList ∧
      after.standardInput =
        if b.target = .standardInput then some b.value else before.standardInput := by
  unfold injectBinding at h
  cases ht : b.target with
  | environment name =>
    simp only [ht] at h
    split_ifs at h
    cases h
    refine ⟨⟨List.prefix_append _ _, List.prefix_rfl⟩, ⟨fun n hn => ?_, fun n ext hn => ?_⟩, ?_, ?_⟩
    · rw [ht] at hn
      cases hn
      simp
    · rw [ht] at hn
      cases hn
    · simp [setNames, ValidatedBindingTarget.envName]
    · simp
  | standardInput =>
    simp only [ht] at h
    cases h
    refine ⟨⟨List.prefix_rfl, List.prefix_rfl⟩, ⟨fun n hn => ?_, fun n ext hn => ?_⟩, ?_, ?_⟩
    · rw [ht] at hn
      cases hn
    · rw [ht] at hn
      cases hn
    · simp [setNames, ValidatedBindingTarget.envName]
    · simp
  | temporaryFileEnvironment name extension =>
    simp only [ht] at h
    obtain ⟨path, hpath, h⟩ := bind_eq_ok.mp h
    cases h
    refine ⟨⟨List.prefix_append _ _, List.prefix_append _ _⟩, ⟨fun n hn => ?_, fun n ext hn => ?_⟩,
      ?_, ?_⟩
    · rw [ht] at hn
      cases hn
    · rw [ht] at hn
      cases hn
      exact ⟨path, hpath, by simp, by simp⟩
    · simp [setNames, ValidatedBindingTarget.envName]
    · simp

/-- All bindings are delivered, and the standard input is that of the last that wants it. -/
lemma foldlM_injectBinding {os : System} {before after : Injection} {bindings : List PreparedBinding}
    (h : bindings.foldlM (injectBinding os) before = .ok after) :
    Grows before after ∧ (∀ b ∈ bindings, Arrives os after b) ∧
      setNames after = setNames before ++ bindings.filterMap (fun b => b.target.envName) ∧
      after.standardInput = ((bindings.reverse.find? fun b => b.target = .standardInput).map
        PreparedBinding.value).or before.standardInput := by
  induction bindings generalizing before with
  | nil =>
    cases h
    exact ⟨Grows.refl _, by simp, by simp, by simp⟩
  | cons b bindings ih =>
    rw [List.foldlM_cons] at h
    obtain ⟨next, hnext, h⟩ := bind_eq_ok.mp h
    obtain ⟨hgrows, harrives, hnames, hinput⟩ := injectBinding_eq_ok hnext
    obtain ⟨hgrows', harrives', hnames', hinput'⟩ := ih h
    refine ⟨hgrows.trans hgrows', ?_, ?_, ?_⟩
    · intro c hc
      rcases List.mem_cons.mp hc with rfl | hc
      · exact harrives.mono hgrows'
      · exact harrives' c hc
    · rw [hnames', hnames, List.append_assoc]
      cases hname : b.target.envName <;> simp [hname]
    · rw [hinput', hinput, List.reverse_cons, List.find?_append]
      cases hfind : bindings.reverse.find? fun b => b.target = .standardInput with
      | some c => simp
      | none => by_cases hb : b.target = .standardInput <;> simp [hb]

/-- A value that goes into a file of its own gets one. -/
def FileMade (os : System) (b : PreparedBinding) : Prop :=
  ∀ name extension, b.target = .temporaryFileEnvironment name extension →
    ∃ path, os.temporaryFile b = .ok path

lemma injectBinding_ok_iff {os : System} {before : Injection} {b : PreparedBinding}
    (hsafe : ∀ name, b.target = .environment name → environmentSafe b.value = true) :
    (∃ after, injectBinding os before b = .ok after) ↔ FileMade os b := by
  unfold injectBinding FileMade
  cases ht : b.target with
  | environment name =>
    simp only [hsafe name ht, if_true]
    exact iff_of_true ⟨_, rfl⟩ fun _ _ h => (nomatch h)
  | standardInput => exact iff_of_true ⟨_, rfl⟩ fun _ _ h => (nomatch h)
  | temporaryFileEnvironment name extension =>
    simp only [bind_eq_ok]
    constructor
    · rintro ⟨_, path, hpath, -⟩ _ _ -
      exact ⟨path, hpath⟩
    · intro h
      obtain ⟨path, hpath⟩ := h name extension rfl
      exact ⟨_, path, hpath, rfl⟩

/-- Only a file that cannot be made keeps values that are safe from being delivered. -/
lemma inject_ok_iff {os : System} {bindings : List PreparedBinding}
    (hsafe : ∀ b ∈ bindings, ∀ name, b.target = .environment name →
      environmentSafe b.value = true) :
    (∃ injection, inject os bindings = .ok injection) ↔ ∀ b ∈ bindings, FileMade os b := by
  unfold inject
  generalize ({} : Injection) = before
  induction bindings generalizing before with
  | nil => exact iff_of_true ⟨before, rfl⟩ fun b hb => (nomatch hb)
  | cons b bindings ih =>
    rw [List.forall_mem_cons, ← injectBinding_ok_iff (hsafe b List.mem_cons_self)]
    simp only [List.foldlM_cons, bind_eq_ok]
    have hrest := fun next => ih (fun c hc => hsafe c (List.mem_cons_of_mem _ hc)) next
    constructor
    · rintro ⟨injection, next, hnext, h⟩
      exact ⟨⟨next, hnext⟩, (hrest next).mp ⟨injection, h⟩⟩
    · rintro ⟨⟨next, hnext⟩, hfiles⟩
      obtain ⟨injection, h⟩ := (hrest next).mpr hfiles
      exact ⟨injection, next, hnext, h⟩

lemma eq_of_countP_le_one {α : Type*} {p : α → Bool} {l : List α} (h : l.countP p ≤ 1) {a b : α}
    (ha : a ∈ l) (hb : b ∈ l) (hpa : p a = true) (hpb : p b = true) : a = b := by
  rw [List.countP_eq_length_filter] at h
  have ha' := List.mem_filter.mpr ⟨ha, hpa⟩
  have hb' := List.mem_filter.mpr ⟨hb, hpb⟩
  generalize l.filter p = found at h ha' hb'
  rcases found with _ | ⟨c, _ | ⟨d, rest⟩⟩
  · cases ha'
  · rw [List.mem_singleton.mp ha', List.mem_singleton.mp hb']
  · simp at h

/-- Each binding reaches its own place: no variable is set twice, every one holds what its binding
brought, and the standard input is the value of the one binding that wants it. -/
structure Injects (os : System) (bindings : List PreparedBinding) (injection : Injection) : Prop where
  names_nodup : (setNames injection).Nodup
  names_eq : setNames injection = bindings.filterMap fun b => b.target.envName
  arrives : ∀ b ∈ bindings, Arrives os injection b
  standardInput : ∀ b ∈ bindings, b.target = .standardInput →
    injection.standardInput = some b.value
  noStandardInput : (∀ b ∈ bindings, b.target ≠ .standardInput) → injection.standardInput = none

lemma injects_of_apart {os : System} {bindings : List PreparedBinding} {injection : Injection}
    (h : inject os bindings = .ok injection)
    (hnodup : (bindings.filterMap fun b => b.target.envName).Nodup)
    (hone : (bindings.countP fun b => b.target = .standardInput) ≤ 1) :
    Injects os bindings injection := by
  obtain ⟨-, harrives, hnames, hinput⟩ := foldlM_injectBinding h
  have hvars : setNames injection = bindings.filterMap fun b => b.target.envName := by
    simpa [setNames] using hnames
  refine ⟨hvars ▸ hnodup, hvars, harrives, fun b hb ht => ?_, fun hnone => ?_⟩
  · have hfound : ∃ c, bindings.reverse.find? (fun b => b.target = .standardInput) = some c := by
      rw [← Option.isSome_iff_exists, List.find?_isSome]
      exact ⟨b, List.mem_reverse.mpr hb, by simpa using ht⟩
    obtain ⟨c, hc⟩ := hfound
    have hct : c.target = .standardInput := by simpa using List.find?_some hc
    have hcb : c = b := eq_of_countP_le_one hone (List.mem_reverse.mp (List.mem_of_find?_eq_some hc))
      hb (by simpa using hct) (by simpa using ht)
    rw [hinput, hc, hcb]
    rfl
  · have : bindings.reverse.find? (fun b => b.target = .standardInput) = none := by
      rw [List.find?_eq_none]
      intro b hb
      simpa using hnone b (List.mem_reverse.mp hb)
    rw [hinput, this]
    rfl

/-! ### Both together -/

lemma forall₂_mem_right {α β : Type*} {R : α → β → Prop} {l : List α} {m : List β}
    (h : List.Forall₂ R l m) {b : β} (hb : b ∈ m) : ∃ a ∈ l, R a b := by
  induction h with
  | nil => cases hb
  | cons hone _ ih =>
    rcases List.mem_cons.mp hb with rfl | hb
    · exact ⟨_, by simp, hone⟩
    · obtain ⟨a, ha, hab⟩ := ih hb
      exact ⟨a, List.mem_cons_of_mem _ ha, hab⟩

lemma names_of_carried {asked : List SecretBindingRequest} {bindings : List PreparedBinding}
    (h : List.Forall₂ (fun a b => Carried a.target b.target) asked bindings) :
    bindings.filterMap (fun b => b.target.envName) = envNames asked ∧
      bindings.countP (fun b => b.target = .standardInput) = standardInputs asked := by
  induction h with
  | nil => exact ⟨rfl, rfl⟩
  | cons hone _ ih =>
    simp only [envNames, standardInputs, List.filterMap_cons, List.countP_cons, hone.envName.1,
      hone.standardInput_iff] at ih ⊢
    rw [ih.1, ih.2]
    exact ⟨rfl, rfl⟩

section Delivery

variable [UnicodeNormalization]

/-- A prepared run carries what was asked for, and nothing of it stands in another's way. -/
structure Prepares (r : RunRequest) (resolved : List ResolvedSecretBinding) (run : PreparedRun) :
    Prop where
  command : run.executable = r.executable ∧ run.workingDirectory = r.workingDirectory ∧
    run.arguments = r.arguments
  targets : List.Forall₂ (fun asked b => Carried asked.target b.target) r.bindings run.bindings
  values : run.bindings.map (fun b => (b.secretId, b.field, b.value)) =
    resolved.map fun x => (x.secretId, x.field, x.value)
  bindings_le : run.bindings.length ≤ maxBindings
  names : ∀ b ∈ run.bindings, ∀ name, b.target.envName = some name → EnvName name
  names_nodup : (run.bindings.filterMap fun b => b.target.envName).Nodup
  standardInputs_le : (run.bindings.countP fun b => b.target = .standardInput) ≤ 1
  injected_le : (run.bindings.map fun b => b.value.length).sum ≤ maxInjectedBytes
  environment : ∀ b ∈ run.bindings, ∀ name, b.target = .environment name →
    fromUtf8 b.value = .ok ∧ 0 ∉ b.value
  fields : List.Forall₂ (fun asked b => FieldName.parse asked.field = .ok b.field ∧
    ∀ id, SecretRef.parse asked.secretRef = .ok (.id id) → id = b.secretId) r.bindings run.bindings
  extensions : ∀ b ∈ run.bindings, ∀ name suffix,
    b.target = .temporaryFileEnvironment name (some suffix) → ∃ extension,
      suffix = 0x2E :: extension ∧ 1 ≤ extension.length ∧ extension.length ≤ 16 ∧
        ∀ c ∈ extension, isAsciiAlphanumeric c = true
  apart : ∀ b ∈ run.bindings, b.value ≠ [] →
    ∀ text ∈ run.executable :: run.workingDirectory :: run.arguments, ¬ b.value <:+: ofString text

/-- The three lists side by side. -/
lemma forall₂_zipWith {r : RunRequest} {asked : List SecretBindingRequest}
    {bindings : List ValidatedSecretBinding} {resolved : List ResolvedSecretBinding}
    (hvalid : List.Forall₂ Validates asked bindings) (hsuits : List.Forall₂ (Suits r) asked resolved) :
    List.Forall₂ (fun a b => ∃ x, Suits r a x ∧ Carried a.target b.target ∧ x.secretId = b.secretId ∧
      x.field = b.field ∧ x.value = b.value) asked (List.zipWith prepared bindings resolved) := by
  induction hvalid generalizing resolved with
  | nil =>
    rw [List.forall₂_nil_left_iff.mp hsuits]
    exact .nil
  | cons hone _ ih =>
    cases hsuits with
    | cons hsuit hsuits =>
      exact .cons ⟨_, hsuit, hone.target, rfl, rfl, rfl⟩ (ih hsuits)

lemma map_zipWith_prepared {bindings : List ValidatedSecretBinding}
    {resolved : List ResolvedSecretBinding} (h : resolved.length = bindings.length) :
    (List.zipWith prepared bindings resolved).map (fun b => (b.secretId, b.field, b.value)) =
      resolved.map fun x => (x.secretId, x.field, x.value) := by
  induction bindings generalizing resolved with
  | nil => rw [List.length_eq_zero_iff.mp h]; rfl
  | cons binding bindings ih =>
    obtain ⟨value, resolved, rfl⟩ := List.exists_cons_of_length_eq_add_one h
    rw [List.zipWith_cons_cons, List.map_cons, List.map_cons, ih (by simpa using h)]
    rfl

lemma prepares {r : RunRequest} {caller : RunCaller} {v : ValidatedRunRequest}
    {resolved : List ResolvedSecretBinding} {run : PreparedRun}
    (hv : validateRunRequest r caller = .ok v) (hrun : v.resolve resolved = .ok run) :
    Prepares r resolved run := by
  obtain ⟨hlisted, hbindings, -⟩ := validateRunRequest_fields hv
  obtain ⟨hvalid, -⟩ := validateBindings_eq_ok.mp hbindings
  obtain ⟨hsuits, hbytes, rfl⟩ := (resolve_eq_ok hv).mp hrun
  have hall := forall₂_zipWith hvalid hsuits
  have hcarried : List.Forall₂ (fun a b => Carried a.target b.target) r.bindings
      (List.zipWith prepared v.bindings resolved) :=
    hall.imp fun _ _ ⟨_, _, h, _⟩ => h
  have hvalues := map_zipWith_prepared (hsuits.length_eq.symm.trans hvalid.length_eq)
  obtain ⟨hnames, hinputs⟩ := names_of_carried hcarried
  refine ⟨⟨rfl, rfl, rfl⟩, hcarried, hvalues, ?_, ?_, ?_, ?_, ?_, ?_, ?_, ?_, ?_⟩
  · rw [← hcarried.length_eq]
    exact hlisted.bindings_le
  · intro b hb name hname
    obtain ⟨a, -, hab⟩ := forall₂_mem_right hcarried hb
    exact hab.envName.2 name hname
  · dsimp only
    rw [hnames]
    exact hlisted.names_nodup
  · dsimp only
    rw [hinputs]
    exact hlisted.standardInputs_le
  · have hlengths := congrArg (List.map fun x => x.2.2.length) hvalues
    rw [List.map_map, List.map_map] at hlengths
    have hsum := congrArg List.sum hlengths
    exact hsum.trans_le hbytes
  · intro b hb name hname
    obtain ⟨a, -, x, hx, hab, -, -, hvalue⟩ := forall₂_mem_right hall hb
    rw [← hvalue]
    rw [hname] at hab
    refine hx.environment name ?_
    generalize a.target = target at hab
    cases hab
    rfl
  · exact hall.imp fun a b ⟨x, hx, _, hid, hfield, _⟩ => ⟨hfield ▸ hx.field, hid ▸ hx.secretId⟩
  · intro b hb name suffix htarget
    obtain ⟨a, -, hab⟩ := forall₂_mem_right hcarried hb
    rw [htarget] at hab
    generalize a.target = target at hab
    cases hab with
    | temporaryFileAs _ hgood =>
      exact ⟨_, rfl, List.length_pos_iff.mpr hgood.extension_ne, hgood.extension_le,
        List.all_eq_true.mp hgood.alphanumeric⟩
  · intro b hb hne
    obtain ⟨a, -, x, hx, -, -, -, hvalue⟩ := forall₂_mem_right hall hb
    rw [← hvalue] at hne ⊢
    exact hx.apart hne

/-- **A run delivers each value to its own target.** A request and values for it are accepted
exactly when the request meets its conditions, each value suits its binding and all values
together are within the limit; the run that is prepared then carries the bindings in their order,
and in the environment and the standard input that are built from it, as long as the files for its
values can be made, no binding is in another's place. -/
theorem run_delivers (r : RunRequest) (caller : RunCaller) (resolved : List ResolvedSecretBinding) :
    ((∃ v run, validateRunRequest r caller = .ok v ∧ v.resolve resolved = .ok run) ↔
      Listed r caller ∧ List.Forall₂ (Suits r) r.bindings resolved ∧
        injectedBytes resolved ≤ maxInjectedBytes) ∧
    ∀ v run, validateRunRequest r caller = .ok v → v.resolve resolved = .ok run →
      Prepares r resolved run ∧
        ∀ os, ((∃ injection, inject os run.bindings = .ok injection) ↔
            ∀ b ∈ run.bindings, FileMade os b) ∧
          ∀ injection, inject os run.bindings = .ok injection →
            Injects os run.bindings injection := by
  constructor
  · constructor
    · rintro ⟨v, run, hv, hrun⟩
      obtain ⟨hsuits, hbytes, -⟩ := (resolve_eq_ok hv).mp hrun
      exact ⟨(validateRunRequest_fields hv).1, hsuits, hbytes⟩
    · rintro ⟨hlisted, hsuits, hbytes⟩
      obtain ⟨v, hv⟩ := validateRunRequest_ok_iff.mpr (checked_iff_listed.mpr hlisted)
      exact ⟨v, _, hv, (resolve_eq_ok hv).mpr ⟨hsuits, hbytes, rfl⟩⟩
  · intro v run hv hrun
    have hprepares := prepares hv hrun
    refine ⟨hprepares, fun os => ⟨inject_ok_iff fun b hb name ht => ?_, fun injection hinject =>
      injects_of_apart hinject hprepares.names_nodup hprepares.standardInputs_le⟩⟩
    obtain ⟨hutf8, hzero⟩ := hprepares.environment b hb name ht
    simp [environmentSafe, hutf8, hzero]

end Delivery

/-! ### A value for each kind of target -/

section Deploy

local instance deployText : UnicodeNormalization := asciiNormalization

def deployRequest : RunRequest :=
  ⟨"/usr/bin/deploy", ["--all"], "/srv",
    [⟨"token", "value", .environment "TOKEN"⟩, ⟨"phrase", "value", .standardInput⟩,
      ⟨"key", "value", .temporaryFileEnvironment "KEY_FILE" (some "deploy.pem")⟩], 60000, 65536⟩

def deployValues : List ResolvedSecretBinding :=
  [⟨⟨.filled 1⟩, .value, ofString "s3cret"⟩, ⟨⟨.filled 2⟩, .value, ofString "swordfish"⟩,
    ⟨⟨.filled 3⟩, .value, [0xFF, 0x00]⟩]

def deployBindings : List PreparedBinding :=
  [⟨⟨.filled 1⟩, .value, .environment "TOKEN", ofString "s3cret"⟩,
    ⟨⟨.filled 2⟩, .value, .standardInput, ofString "swordfish"⟩,
    ⟨⟨.filled 3⟩, .value, .temporaryFileEnvironment "KEY_FILE" (some (ofString ".pem")),
      [0xFF, 0x00]⟩]

def deploySystem : System where
  temporaryFile _ := .ok (ofString "/tmp/deploy.pem")
  launch _ := .ok ()
  attach := .ok ()
  stdoutReads := []
  stderrReads := []
  wait := .ok (some 0, .exited)
  stdinResult := .written
  cleanupFailed := false
  elapsed := 0

lemma prepared_deploy : (do
    let v ← validateRunRequest deployRequest .mcp
    let run ← v.resolve deployValues
    return run.bindings) = .ok deployBindings := by
  decide +kernel

theorem run_delivers_deploy :
    ∃ v run injection, validateRunRequest deployRequest .mcp = .ok v ∧
      v.resolve deployValues = .ok run ∧ inject deploySystem run.bindings = .ok injection ∧
      setNames injection = ["TOKEN", "KEY_FILE"] ∧
      injection.standardInput = some (ofString "swordfish") ∧
      (ofString "/tmp/deploy.pem", [0xFF, 0x00]) ∈ injection.files := by
  obtain ⟨v, hv, hrun⟩ := bind_eq_ok.mp prepared_deploy
  obtain ⟨run, hrun, hbindings⟩ := bind_eq_ok.mp hrun
  obtain ⟨-, hdelivers⟩ := (run_delivers deployRequest .mcp deployValues).2 v run hv hrun
  obtain ⟨hfiles, hinjects⟩ := hdelivers deploySystem
  obtain ⟨injection, hinjection⟩ := hfiles.mpr fun _ _ _ _ _ => ⟨_, rfl⟩
  have h := hinjects injection hinjection
  have heq : run.bindings = deployBindings := Except.ok.inj hbindings
  have hnames := h.names_eq
  have hinput := h.standardInput
  have harrives := h.arrives
  rw [heq] at hnames hinput harrives
  have hfile := harrives ⟨⟨.filled 3⟩, .value, .temporaryFileEnvironment "KEY_FILE"
    (some (ofString ".pem")), [0xFF, 0x00]⟩ (by simp [deployBindings])
  obtain ⟨path, hpath, -, hmem⟩ := hfile.temporaryFile _ _ rfl
  cases hpath
  exact ⟨v, run, injection, hv, hrun, hinjection, hnames.trans rfl,
    hinput ⟨⟨.filled 2⟩, .value, .standardInput, ofString "swordfish"⟩ (by simp [deployBindings]) rfl,
    hmem⟩

end Deploy

end Ladon.Runner
