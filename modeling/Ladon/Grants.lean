import Ladon.Lib.Table
import Ladon.Lib.Word
import Ladon.Model

/-!
The grants: which client may use which secret, and until when.

A deadline is on the monotonic clock, in milliseconds, or on the wall clock, in nanoseconds, or on
both; expired grants are dropped whenever the store is asked. The clocks are read by the caller.
-/

namespace Ladon.Grants

open Ladon.Model Ladon.Lib Ladon.Lib.Word

/-- What the clocks show: milliseconds that only grow, and the wall clock in nanoseconds. -/
structure Clock where
  nowMillis : ℕ
  wallTime : ℤ
  deriving DecidableEq

/-- Nanoseconds. -/
abbrev Duration := ℕ

def durationMax : Duration := u64Max * 10 ^ 9 + 999999999

def durationMillis (duration : Duration) : ℕ := min (duration / 10 ^ 6) u64Max

/-- The time from one reading of the wall clock to a later one. -/
def durationSince (later earlier : ℤ) : Option Duration :=
  if earlier ≤ later then some (later - earlier).toNat else none

/-- The last reading a wall clock can have. -/
def systemTimeMax : ℤ := (2 ^ 63 - 1) * 10 ^ 9 + 999999999

def systemTimeCheckedAdd (t : ℤ) (d : Duration) : Option ℤ :=
  if t + d ≤ systemTimeMax then some (t + d) else none

inductive GrantDeadline
  | elapsed (deadline : ℕ)
  | wallClock (deadline : ℤ)
  | unattended (wall : ℤ) (elapsed : ℕ)
  | session
  deriving DecidableEq

namespace GrantDeadline

def remaining (clock : Clock) : GrantDeadline → Duration
  | .elapsed deadline => (deadline - clock.nowMillis) * 10 ^ 6
  | .wallClock deadline => (durationSince deadline clock.wallTime).getD 0
  | .unattended deadline bound =>
    min ((durationSince deadline clock.wallTime).getD 0) ((bound - clock.nowMillis) * 10 ^ 6)
  | .session => durationMax

def isUnattended : GrantDeadline → Bool
  | .unattended _ _ => true
  | _ => false

end GrantDeadline

structure GrantEntry where
  clientSessionId : Uuid
  secretId : SecretId
  remaining : Duration
  expiresWithSession : Bool
  unattended : Bool
  expiresAt : Option ℤ
  deriving DecidableEq

structure GrantStore where
  lifetimeMillis : ℕ
  deadlines : Table (Uuid × SecretId) GrantDeadline
  deriving DecidableEq

namespace GrantStore

def new (lifetime : Duration) : GrantStore := ⟨durationMillis lifetime, .empty⟩

/-- The deadline of a grant. -/
def get? (g : GrantStore) (client : Uuid) (secret : SecretId) : Option GrantDeadline :=
  g.deadlines.get? (client, secret)

def retain (g : GrantStore) (p : Uuid × SecretId → GrantDeadline → Bool) : GrantStore :=
  { g with deadlines := g.deadlines.retain p }

def purgeExpired (g : GrantStore) (clock : Clock) : GrantStore :=
  g.retain fun _ deadline => deadline.remaining clock ≠ 0

/-- One deadline for each of the secrets. -/
def insertAll (g : GrantStore) (client : Uuid) (secrets : List SecretId)
    (deadline : GrantDeadline) : GrantStore :=
  { g with deadlines := g.deadlines.insertAll (secrets.map fun s => (client, s)) deadline }

/-! ### Granting -/

def grantFor (g : GrantStore) (clock : Clock) (client : Uuid) (secrets : List SecretId)
    (lifetime : Duration) : GrantStore :=
  (g.purgeExpired clock).insertAll client secrets
    (.elapsed (saturatingAdd clock.nowMillis (durationMillis lifetime)))

def grant (g : GrantStore) (clock : Clock) (client : Uuid) (secrets : List SecretId) : GrantStore :=
  g.grantFor clock client secrets (g.lifetimeMillis * 10 ^ 6)

def grantUntil (g : GrantStore) (clock : Clock) (client : Uuid) (secrets : List SecretId)
    (deadline : ℤ) : GrantStore :=
  (g.purgeExpired clock).insertAll client secrets (.wallClock deadline)

def grantSession (g : GrantStore) (clock : Clock) (client : Uuid) (secrets : List SecretId) :
    GrantStore :=
  (g.purgeExpired clock).insertAll client secrets .session

/-- An unattended grant ends on whichever of the two clocks comes first. -/
def unattendedDeadline (clock : Clock) (deadline : ℤ) : GrantDeadline :=
  .unattended deadline (saturatingAdd clock.nowMillis
    (durationMillis ((durationSince deadline clock.wallTime).getD 0)))

def grantUnattendedUntil (g : GrantStore) (clock : Clock) (client : Uuid)
    (secrets : List SecretId) (deadline : ℤ) : GrantStore :=
  (g.purgeExpired clock).insertAll client secrets (unattendedDeadline clock deadline)

/-! ### Revoking -/

def retainUnattended (g : GrantStore) (clock : Clock) : GrantStore :=
  (g.purgeExpired clock).retain fun _ deadline => deadline.isUnattended

def revokeClient (g : GrantStore) (client : Uuid) : GrantStore := g.retain fun k _ => k.1 ≠ client

def revokeSecret (g : GrantStore) (secret : SecretId) : GrantStore :=
  g.retain fun k _ => k.2 ≠ secret

def revokeAll (g : GrantStore) : GrantStore := { g with deadlines := .empty }

def revokePair (g : GrantStore) (clock : Clock) (client : Uuid) (secret : SecretId) :
    Bool × GrantStore :=
  let g := g.purgeExpired clock
  ((g.get? client secret).isSome, { g with deadlines := g.deadlines.erase (client, secret) })

/-! ### Asking -/

def hasUnattended (g : GrantStore) (clock : Clock) (client : Uuid) : Bool × GrantStore :=
  let g := g.purgeExpired clock
  (g.deadlines.any fun k deadline => k.1 = client && deadline.isUnattended, g)

def missingUnattended (g : GrantStore) (clock : Clock) (client : Uuid) (secrets : List SecretId) :
    List SecretId × GrantStore :=
  let g := g.purgeExpired clock
  (secrets.filter fun s => !(g.get? client s).any GrantDeadline.isUnattended, g)

def missing (g : GrantStore) (clock : Clock) (client : Uuid) (secrets : List SecretId) :
    List SecretId × GrantStore :=
  let g := g.purgeExpired clock
  (secrets.eraseDups.filter fun s => (g.get? client s).isNone, g)

def remaining (g : GrantStore) (clock : Clock) (client : Uuid) (secret : SecretId) :
    Option Duration × GrantStore :=
  let g := g.purgeExpired clock
  ((g.get? client secret).map fun deadline => deadline.remaining clock, g)

/-- When a grant ends on the wall clock. -/
def expiresAt (clock : Clock) : GrantDeadline → Option ℤ
  | .session => none
  | .wallClock time => some time
  | .unattended wall _ => some wall
  | .elapsed d => systemTimeCheckedAdd clock.wallTime ((GrantDeadline.elapsed d).remaining clock)

def active (g : GrantStore) (clock : Clock) : List GrantEntry × GrantStore :=
  let g := g.purgeExpired clock
  (g.deadlines.entries.map fun e =>
    { clientSessionId := e.1.1
      secretId := e.1.2
      remaining := e.2.remaining clock
      expiresWithSession := e.2 = .session
      unattended := e.2.isUnattended
      expiresAt := expiresAt clock e.2 }, g)

def len (g : GrantStore) (clock : Clock) : ℕ × GrantStore :=
  let g := g.purgeExpired clock
  (g.deadlines.size, g)

/-! ### What the store holds -/

variable {g : GrantStore} {clock : Clock} {client : Uuid} {secret : SecretId}
  {secrets : List SecretId} {deadline d : GrantDeadline}

lemma get?_retain {p : Uuid × SecretId → GrantDeadline → Bool} :
    (g.retain p).get? client secret = some d ↔
      g.get? client secret = some d ∧ p (client, secret) d := by
  rw [get?, retain, Table.get?_retain, Option.filter_eq_some_iff]
  rfl

lemma get?_purgeExpired :
    (g.purgeExpired clock).get? client secret = some d ↔
      g.get? client secret = some d ∧ d.remaining clock ≠ 0 := by
  rw [purgeExpired, get?_retain]
  simp

lemma get?_insertAll {c : Uuid} :
    (g.insertAll c secrets deadline).get? client secret = some d ↔
      (client = c ∧ secret ∈ secrets ∧ d = deadline) ∨
        (¬ (client = c ∧ secret ∈ secrets) ∧ g.get? client secret = some d) := by
  have hmem : (client, secret) ∈ secrets.map (fun s => (c, s)) ↔ client = c ∧ secret ∈ secrets := by
    simp only [List.mem_map, Prod.mk.injEq]
    constructor
    · rintro ⟨s, hs, rfl, rfl⟩
      exact ⟨rfl, hs⟩
    · rintro ⟨rfl, hs⟩
      exact ⟨secret, hs, rfl, rfl⟩
  rw [get?, insertAll, Table.get?_insertAll]
  by_cases h : client = c ∧ secret ∈ secrets
  · rw [if_pos (hmem.mpr h)]
    simp [h, eq_comm]
  · rw [if_neg (mt hmem.mp h)]
    constructor
    · intro hg
      exact .inr ⟨h, hg⟩
    · rintro (⟨h1, h2, -⟩ | ⟨-, hg⟩)
      · exact (h ⟨h1, h2⟩).elim
      · exact hg

lemma get?_revokeAll : g.revokeAll.get? client secret = none := rfl

lemma not_revokeAll (h : g.revokeAll.get? client secret = some d) : False := by
  rw [get?_revokeAll] at h
  cases h

lemma get?_revokeClient {c : Uuid} :
    (g.revokeClient c).get? client secret = some d ↔ g.get? client secret = some d ∧ client ≠ c := by
  rw [revokeClient, get?_retain]
  simp

lemma get?_revokeSecret {s : SecretId} :
    (g.revokeSecret s).get? client secret = some d ↔ g.get? client secret = some d ∧ secret ≠ s := by
  rw [revokeSecret, get?_retain]
  simp

lemma get?_retainUnattended :
    (g.retainUnattended clock).get? client secret = some d ↔
      g.get? client secret = some d ∧ d.remaining clock ≠ 0 ∧ d.isUnattended := by
  rw [retainUnattended, get?_retain, get?_purgeExpired, and_assoc]

lemma get?_revokePair {c : Uuid} {s : SecretId} :
    (g.revokePair clock c s).2.get? client secret = some d ↔
      g.get? client secret = some d ∧ d.remaining clock ≠ 0 ∧ ¬ (client = c ∧ secret = s) := by
  rw [revokePair, get?, Table.get?_erase, ← and_assoc, ← get?_purgeExpired]
  by_cases h : client = c ∧ secret = s
  · simp [h]
  · rw [if_neg (by simpa using h)]
    simp [h, get?]

/-- A secret that is not missing has a grant that has not expired. -/
lemma missing_eq_nil (h : (g.missing clock client secrets).1 = []) (hs : secret ∈ secrets) :
    ∃ d, g.get? client secret = some d ∧ d.remaining clock ≠ 0 := by
  have hnot : secret ∉ (g.missing clock client secrets).1 := by
    rw [h]
    exact List.not_mem_nil
  rw [missing, List.mem_filter, List.mem_eraseDups] at hnot
  cases hg : (g.purgeExpired clock).get? client secret with
  | none => exact (hnot ⟨hs, by simp [hg]⟩).elim
  | some d => exact ⟨d, get?_purgeExpired.mp hg⟩

/-- The same for unattended grants. -/
lemma missingUnattended_eq_nil (h : (g.missingUnattended clock client secrets).1 = [])
    (hs : secret ∈ secrets) :
    ∃ d, g.get? client secret = some d ∧ d.remaining clock ≠ 0 ∧ d.isUnattended := by
  have hnot : secret ∉ (g.missingUnattended clock client secrets).1 := by
    rw [h]
    exact List.not_mem_nil
  rw [missingUnattended, List.mem_filter] at hnot
  cases hg : (g.purgeExpired clock).get? client secret with
  | none => exact (hnot ⟨hs, by simp [hg]⟩).elim
  | some d =>
    obtain ⟨h1, h2⟩ := get?_purgeExpired.mp hg
    refine ⟨d, h1, h2, ?_⟩
    by_contra hu
    exact hnot ⟨hs, by simp [hg, hu]⟩

end GrantStore

end Ladon.Grants
