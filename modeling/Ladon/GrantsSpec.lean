import Ladon.Grants
import Ladon.Lib.LastWriter

/-!
What the store of grants is for: for each pair of a client and a secret, one record.

A record is the deadline that the last grant naming the pair has set. It is dropped by a revocation
that names the pair, by an automatic lock if it is not unattended, and by any call that looks for
expired grants at a time when the deadline is reached; nothing else drops it, and nothing but a
grant makes one or moves its deadline. The two clocks may show anything; the wall clock may go back.
-/

namespace Ladon.Grants

open Ladon.Model Ladon.Lib Ladon.Lib.Word

/-- The operations of the store. -/
inductive GrantOp
  | grant (client : Uuid) (secrets : List SecretId)
  | grantFor (client : Uuid) (secrets : List SecretId) (lifetime : Duration)
  | grantUntil (client : Uuid) (secrets : List SecretId) (deadline : ℤ)
  | grantSession (client : Uuid) (secrets : List SecretId)
  | grantUnattendedUntil (client : Uuid) (secrets : List SecretId) (deadline : ℤ)
  | retainUnattended
  | revokePair (client : Uuid) (secret : SecretId)
  | revokeSecret (secret : SecretId)
  | revokeClient (client : Uuid)
  | revokeAll
  | missing (client : Uuid) (secrets : List SecretId)
  | missingUnattended (client : Uuid) (secrets : List SecretId)
  | hasUnattended (client : Uuid)
  | remaining (client : Uuid) (secret : SecretId)
  | active
  | len

/-- An operation, at what the clocks show. -/
abbrev GrantCall := Clock × GrantOp

def GrantStore.after (g : GrantStore) : GrantCall → GrantStore
  | (clock, .grant client secrets) => g.grant clock client secrets
  | (clock, .grantFor client secrets lifetime) => g.grantFor clock client secrets lifetime
  | (clock, .grantUntil client secrets deadline) => g.grantUntil clock client secrets deadline
  | (clock, .grantSession client secrets) => g.grantSession clock client secrets
  | (clock, .grantUnattendedUntil client secrets deadline) =>
    g.grantUnattendedUntil clock client secrets deadline
  | (clock, .retainUnattended) => g.retainUnattended clock
  | (clock, .revokePair client secret) => (g.revokePair clock client secret).2
  | (_, .revokeSecret secret) => g.revokeSecret secret
  | (_, .revokeClient client) => g.revokeClient client
  | (_, .revokeAll) => g.revokeAll
  | (clock, .missing client secrets) => (g.missing clock client secrets).2
  | (clock, .missingUnattended client secrets) => (g.missingUnattended clock client secrets).2
  | (clock, .hasUnattended client) => (g.hasUnattended clock client).2
  | (clock, .remaining client secret) => (g.remaining clock client secret).2
  | (clock, .active) => (g.active clock).2
  | (clock, .len) => (g.len clock).2

/-! ### The rules of a record -/

/-- The deadline is reached, on whichever clock it is on. -/
def Reached (clock : Clock) : GrantDeadline → Prop
  | .elapsed deadline => deadline ≤ clock.nowMillis
  | .wallClock deadline => deadline ≤ clock.wallTime
  | .unattended wall bound => wall ≤ clock.wallTime ∨ bound ≤ clock.nowMillis
  | .session => False

/-- The deadline that a grant sets, and the pairs it names. -/
def given (lifetimeMillis : ℕ) : GrantCall → Option (Uuid × List SecretId × GrantDeadline)
  | (clock, .grant client secrets) =>
    some (client, secrets, .elapsed (saturatingAdd clock.nowMillis (min lifetimeMillis u64Max)))
  | (clock, .grantFor client secrets lifetime) =>
    some (client, secrets, .elapsed (saturatingAdd clock.nowMillis (durationMillis lifetime)))
  | (_, .grantUntil client secrets deadline) => some (client, secrets, .wallClock deadline)
  | (_, .grantSession client secrets) => some (client, secrets, .session)
  | (clock, .grantUnattendedUntil client secrets deadline) =>
    some (client, secrets, .unattended deadline (saturatingAdd clock.nowMillis
      (durationMillis (deadline - clock.wallTime).toNat)))
  | _ => none

/-- The calls that drop a record with this deadline from the pair. -/
def Drops (call : GrantCall) (pair : Uuid × SecretId) (deadline : GrantDeadline) : Prop :=
  match call with
  | (clock, .revokePair client secret) => pair = (client, secret) ∨ Reached clock deadline
  | (_, .revokeSecret secret) => pair.2 = secret
  | (_, .revokeClient client) => pair.1 = client
  | (_, .revokeAll) => True
  | (clock, .retainUnattended) => ¬ deadline.isUnattended ∨ Reached clock deadline
  | (clock, _) => Reached clock deadline

/-- The rules of the records, one pair at a time. -/
def grantRules (lifetimeMillis : ℕ) : Rules GrantCall (Uuid × SecretId) GrantDeadline where
  sets := fun call pair =>
    match given lifetimeMillis call with
    | some (client, secrets, deadline) =>
      if pair.1 = client ∧ pair.2 ∈ secrets then some deadline else none
    | none => none
  drops := Drops

/-! ### One operation -/

lemma durationSince_getD (later earlier : ℤ) :
    (durationSince later earlier).getD 0 = (later - earlier).toNat := by
  unfold durationSince
  split
  · rfl
  · next h =>
    rw [Option.getD_none, Int.toNat_of_nonpos (by omega)]

/-- A grant has no time left just when its deadline is reached. -/
lemma remaining_eq_zero_iff {clock : Clock} {d : GrantDeadline} :
    d.remaining clock = 0 ↔ Reached clock d := by
  cases d with
  | elapsed deadline =>
    change (deadline - clock.nowMillis) * 10 ^ 6 = 0 ↔ deadline ≤ clock.nowMillis
    omega
  | wallClock deadline =>
    rw [GrantDeadline.remaining, durationSince_getD]
    change (deadline - clock.wallTime).toNat = 0 ↔ deadline ≤ clock.wallTime
    omega
  | unattended wall bound =>
    rw [GrantDeadline.remaining, durationSince_getD]
    change min (wall - clock.wallTime).toNat ((bound - clock.nowMillis) * 10 ^ 6) = 0 ↔
      wall ≤ clock.wallTime ∨ bound ≤ clock.nowMillis
    omega
  | session =>
    change durationMax = 0 ↔ False
    have : durationMax ≠ 0 := by decide
    simp [this]

lemma durationMillis_millis (n : ℕ) : durationMillis (n * 10 ^ 6) = min n u64Max := by
  rw [durationMillis, Nat.mul_div_cancel _ (by norm_num)]

lemma lifetimeMillis_after (g : GrantStore) (call : GrantCall) :
    (g.after call).lifetimeMillis = g.lifetimeMillis := by
  obtain ⟨clock, op⟩ := call
  cases op <;> rfl

namespace GrantStore

variable {g : GrantStore} {clock : Clock} {pair : Uuid × SecretId} {d : GrantDeadline}

/-- The record of a pair. -/
def record (g : GrantStore) (pair : Uuid × SecretId) : Option GrantDeadline := g.get? pair.1 pair.2

lemma record_purgeExpired : (g.purgeExpired clock).record pair = some d ↔
    g.record pair = some d ∧ ¬ Reached clock d := by
  rw [record, get?_purgeExpired, ne_eq, remaining_eq_zero_iff]
  rfl

/-- Granting sets the records of the pairs it names and drops those that have expired. -/
lemma record_grants {client : Uuid} {secrets : List SecretId} {deadline : GrantDeadline} :
    ((g.purgeExpired clock).insertAll client secrets deadline).record pair = some d ↔
      (if pair.1 = client ∧ pair.2 ∈ secrets then some deadline else none) = some d ∨
      ((if pair.1 = client ∧ pair.2 ∈ secrets then some deadline else none) = none ∧
        g.record pair = some d ∧ ¬ Reached clock d) := by
  rw [record, get?_insertAll]
  by_cases h : pair.1 = client ∧ pair.2 ∈ secrets
  · simp [h, eq_comm]
  · rw [if_neg h, ← record_purgeExpired]
    simp only [h, not_false_eq_true, true_and, reduceCtorEq, false_or]
    constructor
    · rintro (⟨h1, h2, -⟩ | hd)
      · exact (h ⟨h1, h2⟩).elim
      · exact hd
    · exact .inr

/-- Asking only drops what has expired. -/
lemma record_asks {p : Prop} (hp : p) : (g.purgeExpired clock).record pair = some d ↔
    none = some d ∨ (p ∧ g.record pair = some d ∧ ¬ Reached clock d) := by
  rw [record_purgeExpired]
  simp [hp]

/-- One operation follows the rules. -/
lemma record_after (call : GrantCall) : (g.after call).record pair = some d ↔
    (grantRules g.lifetimeMillis).sets call pair = some d ∨
      ((grantRules g.lifetimeMillis).sets call pair = none ∧ g.record pair = some d ∧
        ¬ (grantRules g.lifetimeMillis).drops call pair d) := by
  obtain ⟨clock, op⟩ := call
  cases op with
  | grant client secrets =>
    rw [after, grant, grantFor, durationMillis_millis]
    exact record_grants
  | grantFor client secrets lifetime => exact record_grants
  | grantUntil client secrets deadline => exact record_grants
  | grantSession client secrets => exact record_grants
  | grantUnattendedUntil client secrets deadline =>
    rw [after, grantUnattendedUntil, unattendedDeadline, durationSince_getD]
    exact record_grants
  | retainUnattended =>
    simp only [after, grantRules, given, Drops, reduceCtorEq, false_or, true_and, record,
      get?_retainUnattended, ne_eq, remaining_eq_zero_iff, not_or, not_not]
    tauto
  | revokePair client secret =>
    simp only [after, grantRules, given, Drops, reduceCtorEq, false_or, true_and, record,
      get?_revokePair, ne_eq, remaining_eq_zero_iff, not_or, Prod.ext_iff]
    tauto
  | revokeSecret secret =>
    simp only [after, grantRules, given, Drops, reduceCtorEq, false_or, true_and, record,
      get?_revokeSecret, ne_eq]
  | revokeClient client =>
    simp only [after, grantRules, given, Drops, reduceCtorEq, false_or, true_and, record,
      get?_revokeClient, ne_eq]
  | revokeAll =>
    simp only [after, grantRules, given, Drops, reduceCtorEq, false_or, record, get?_revokeAll,
      not_true_eq_false, and_false]
  | missing client secrets => exact record_asks rfl
  | missingUnattended client secrets => exact record_asks rfl
  | hasUnattended client => exact record_asks rfl
  | remaining client secret => exact record_asks rfl
  | active => exact record_asks rfl
  | len => exact record_asks rfl

/-! ### What is reported -/

/-- A pair whose record is there and has time left. -/
def LiveAt (g : GrantStore) (clock : Clock) (client : Uuid) (secret : SecretId)
    (d : GrantDeadline) : Prop :=
  g.record (client, secret) = some d ∧ ¬ Reached clock d

lemma liveAt_iff {client : Uuid} {secret : SecretId} :
    (g.purgeExpired clock).get? client secret = some d ↔ g.LiveAt clock client secret d :=
  @record_purgeExpired g clock (client, secret) d

lemma get?_isNone_iff {client : Uuid} {secret : SecretId} :
    ((g.purgeExpired clock).get? client secret).isNone ↔
      ¬ ∃ d, g.LiveAt clock client secret d := by
  rw [Option.isNone_iff_eq_none, Option.eq_none_iff_forall_ne_some, not_exists]
  exact forall_congr' fun d => not_congr liveAt_iff

lemma mem_missing {client : Uuid} {secrets : List SecretId} {secret : SecretId} :
    secret ∈ (g.missing clock client secrets).1 ↔
      secret ∈ secrets ∧ ¬ ∃ d, g.LiveAt clock client secret d := by
  rw [missing, List.mem_filter, List.mem_eraseDups, get?_isNone_iff]

lemma mem_missingUnattended {client : Uuid} {secrets : List SecretId} {secret : SecretId} :
    secret ∈ (g.missingUnattended clock client secrets).1 ↔
      secret ∈ secrets ∧ ¬ ∃ d, g.LiveAt clock client secret d ∧ d.isUnattended := by
  rw [missingUnattended, List.mem_filter]
  refine and_congr_right fun _ => ?_
  cases h : (g.purgeExpired clock).get? client secret with
  | none =>
    have hno : ¬ ∃ d, g.LiveAt clock client secret d := get?_isNone_iff.mp (by rw [h]; rfl)
    simp only [Option.any_none, Bool.not_false, true_iff]
    rintro ⟨d, hd, -⟩
    exact hno ⟨d, hd⟩
  | some d =>
    have hd := liveAt_iff.mp h
    have huniq : ∀ d', g.LiveAt clock client secret d' → d' = d := fun d' hd' => by
      have := hd'.1.symm.trans hd.1
      simpa using this
    simp only [Option.any_some, Bool.not_eq_true', ← Bool.not_eq_true]
    refine not_congr ⟨fun hu => ⟨d, hd, hu⟩, ?_⟩
    rintro ⟨d', hd', hu⟩
    exact huniq d' hd' ▸ hu

lemma hasUnattended_iff {client : Uuid} : (g.hasUnattended clock client).1 = true ↔
    ∃ secret d, g.LiveAt clock client secret d ∧ d.isUnattended := by
  rw [hasUnattended, Table.any_eq_true]
  constructor
  · rintro ⟨⟨c, s⟩, d, hget, hp⟩
    obtain ⟨hc, hu⟩ := Bool.and_eq_true_iff.mp hp
    have hc : c = client := of_decide_eq_true hc
    exact ⟨s, d, liveAt_iff.mp (hc ▸ hget), hu⟩
  · rintro ⟨s, d, hlive, hu⟩
    exact ⟨(client, s), d, liveAt_iff.mpr hlive, by simp [hu]⟩

lemma remaining_eq_some_iff {client : Uuid} {secret : SecretId} {left : Duration} :
    (g.remaining clock client secret).1 = some left ↔
      ∃ d, g.LiveAt clock client secret d ∧ d.remaining clock = left := by
  rw [remaining, Option.map_eq_some_iff]
  exact exists_congr fun d => and_congr_left' liveAt_iff

lemma mem_active_iff {client : Uuid} {secret : SecretId} :
    (∃ e ∈ (g.active clock).1, e.clientSessionId = client ∧ e.secretId = secret) ↔
      ∃ d, g.LiveAt clock client secret d := by
  constructor
  · rintro ⟨e, he, rfl, rfl⟩
    obtain ⟨⟨⟨c, s⟩, d⟩, hmem, rfl⟩ := List.mem_map.mp he
    exact ⟨d, liveAt_iff.mp (Table.get?_eq_some_iff.mpr hmem)⟩
  · rintro ⟨d, hd⟩
    exact ⟨_, List.mem_map.mpr ⟨((client, secret), d),
      Table.get?_eq_some_iff.mp (liveAt_iff.mpr hd), rfl⟩, rfl, rfl⟩

end GrantStore

/-! ### Histories -/

section Histories

variable (lifetime : Duration) (history : List GrantCall)

/-- The store after a history. -/
def storeAfter : GrantStore := history.foldl GrantStore.after (GrantStore.new lifetime)

/-- The pair has a record with this deadline: the last grant naming the pair has set it, and no call
since has dropped it. -/
def HasRecord (client : Uuid) (secret : SecretId) (d : GrantDeadline) : Prop :=
  (grantRules (durationMillis lifetime)).Written history (client, secret) d

/-- The call is a grant that names the pair. -/
def Names (client : Uuid) (secret : SecretId) (call : GrantCall) : Prop :=
  ∃ secrets deadline, given (durationMillis lifetime) call = some (client, secrets, deadline) ∧
    secret ∈ secrets

/-- What it means that a store follows the records of its history. -/
structure Refines (g : GrantStore) : Prop where
  records : ∀ client secret d, g.get? client secret = some d ↔
    HasRecord lifetime history client secret d
  created : ∀ call client secret d, ¬ Names lifetime client secret call →
    (g.after call).get? client secret = some d → g.get? client secret = some d
  missing : ∀ clock client secrets, (g.missing clock client secrets).1.Sublist secrets.eraseDups ∧
    ∀ secret, secret ∈ (g.missing clock client secrets).1 ↔ secret ∈ secrets ∧
      ¬ ∃ d, HasRecord lifetime (history ++ [(clock, .missing client secrets)]) client secret d
  missingUnattended : ∀ clock client secrets secret,
    secret ∈ (g.missingUnattended clock client secrets).1 ↔ secret ∈ secrets ∧
      ¬ ∃ d, HasRecord lifetime history client secret d ∧ ¬ Reached clock d ∧ d.isUnattended
  hasUnattended : ∀ clock client, (g.hasUnattended clock client).1 = true ↔
    ∃ secret d, HasRecord lifetime history client secret d ∧ ¬ Reached clock d ∧ d.isUnattended
  remaining : ∀ clock client secret left, (g.remaining clock client secret).1 = some left ↔
    ∃ d, HasRecord lifetime history client secret d ∧ ¬ Reached clock d ∧
      d.remaining clock = left
  active : ∀ clock client secret,
    (∃ e ∈ (g.active clock).1, e.clientSessionId = client ∧ e.secretId = secret) ↔
      ∃ d, HasRecord lifetime history client secret d ∧ ¬ Reached clock d
  len : ∀ clock, (g.len clock).1 = (g.active clock).1.length
  ceiling : ∀ before after granted client secrets deadline secret clock,
    history = before ++ (granted, .grantUnattendedUntil client secrets deadline) :: after →
    secret ∈ secrets → (∀ call ∈ after, ¬ Names lifetime client secret call) →
    saturatingAdd granted.nowMillis (durationMillis (deadline - granted.wallTime).toNat) ≤
      clock.nowMillis →
    ∀ d, ¬ (HasRecord lifetime history client secret d ∧ ¬ Reached clock d)

variable {lifetime history}

lemma lifetimeMillis_storeAfter :
    (storeAfter lifetime history).lifetimeMillis = durationMillis lifetime := by
  unfold storeAfter
  induction history using List.reverseRecOn with
  | nil => rfl
  | append_singleton history call ih =>
    rw [List.foldl_append, List.foldl_cons, List.foldl_nil, lifetimeMillis_after]
    exact ih

/-- The store holds the records of its history. -/
lemma get?_storeAfter (client : Uuid) (secret : SecretId) (d : GrantDeadline) :
    (storeAfter lifetime history).get? client secret = some d ↔
      HasRecord lifetime history client secret d := by
  have hstep : ∀ (g : GrantStore) (call : GrantCall) (pair : Uuid × SecretId) (d : GrantDeadline),
      g.lifetimeMillis = durationMillis lifetime → ((g.after call).record pair = some d ↔
        (grantRules (durationMillis lifetime)).sets call pair = some d ∨
        ((grantRules (durationMillis lifetime)).sets call pair = none ∧ g.record pair = some d ∧
          ¬ (grantRules (durationMillis lifetime)).drops call pair d)) := fun g call pair d hg => by
    rw [← hg]
    exact GrantStore.record_after call
  have hkeep : ∀ (g : GrantStore) (call : GrantCall), g.lifetimeMillis = durationMillis lifetime →
      (g.after call).lifetimeMillis = durationMillis lifetime :=
    fun g call hg => (lifetimeMillis_after g call).trans hg
  exact (Rules.get_foldl (I := fun g : GrantStore => g.lifetimeMillis = durationMillis lifetime)
    rfl (fun _ => rfl) hkeep hstep history).2 (client, secret) d

lemma liveAt_storeAfter {clock : Clock} {client : Uuid} {secret : SecretId} {d : GrantDeadline} :
    (storeAfter lifetime history).LiveAt clock client secret d ↔
      HasRecord lifetime history client secret d ∧ ¬ Reached clock d :=
  and_congr_left' (get?_storeAfter client secret d)

/-- A call that names the pair is the only one that sets its record. -/
lemma names_of_sets {client : Uuid} {secret : SecretId} {call : GrantCall} {d : GrantDeadline}
    (h : (grantRules (durationMillis lifetime)).sets call (client, secret) = some d) :
    Names lifetime client secret call := by
  unfold grantRules at h
  dsimp only at h
  split at h
  · next c secrets deadline hgiven =>
    split at h
    · next hpair =>
      obtain ⟨rfl, hs⟩ := hpair
      exact ⟨secrets, deadline, hgiven, hs⟩
    · cases h
  · cases h

lemma hasRecord_asks {clock : Clock} {client c : Uuid} {secret : SecretId} {secrets : List SecretId}
    {d : GrantDeadline} :
    HasRecord lifetime (history ++ [(clock, .missing c secrets)]) client secret d ↔
      HasRecord lifetime history client secret d ∧ ¬ Reached clock d := by
  rw [HasRecord, Rules.written_snoc]
  constructor
  · rintro (h | ⟨-, h⟩)
    · cases h
    · exact h
  · exact fun h => .inr ⟨rfl, h⟩

/-- The record of an unattended grant that nothing has set again. -/
lemma hasRecord_unattended {before after : List GrantCall} {granted : Clock} {client : Uuid}
    {secrets : List SecretId} {deadline : ℤ} {secret : SecretId} {d : GrantDeadline}
    (hs : secret ∈ secrets) (hafter : ∀ call ∈ after, ¬ Names lifetime client secret call)
    (h : HasRecord lifetime
      (before ++ (granted, .grantUnattendedUntil client secrets deadline) :: after) client secret d) :
    d = .unattended deadline
      (saturatingAdd granted.nowMillis (durationMillis (deadline - granted.wallTime).toNat)) := by
  induction after using List.reverseRecOn with
  | nil =>
    rcases Rules.written_snoc.mp h with h | ⟨h, -⟩
    · simpa [grantRules, given, hs, eq_comm] using h
    · simp [grantRules, given, hs] at h
  | append_singleton after call ih =>
    rw [← List.cons_append, ← List.append_assoc] at h
    rcases Rules.written_snoc.mp h with h | ⟨-, h, -⟩
    · exact (hafter call (by simp) (names_of_sets h)).elim
    · exact ih (fun c hc => hafter c (by simp [hc])) h

/-- **The store of grants is one record for each pair**, set by the last grant naming the pair and
dropped only by what names it, by an automatic lock, or on its deadline; every answer is about these
records, and an unattended grant is over once the elapsed time has reached its bound, whatever the
wall clock shows. -/
theorem storeAfter_refines (lifetime : Duration) (history : List GrantCall) :
    Refines lifetime history (storeAfter lifetime history) where
  records := get?_storeAfter
  created := fun call client secret d hnames h => by
    have hafter := (@GrantStore.record_after (storeAfter lifetime history) (client, secret) d
      call).mp h
    rw [lifetimeMillis_storeAfter] at hafter
    rcases hafter with hset | ⟨-, hold, -⟩
    · exact (hnames (names_of_sets hset)).elim
    · exact hold
  missing := fun clock client secrets => ⟨List.filter_sublist, fun secret => by
    rw [GrantStore.mem_missing]
    simp only [liveAt_storeAfter, hasRecord_asks]⟩
  missingUnattended := fun clock client secrets secret => by
    rw [GrantStore.mem_missingUnattended]
    simp only [liveAt_storeAfter, and_assoc]
  hasUnattended := fun clock client => by
    rw [GrantStore.hasUnattended_iff]
    simp only [liveAt_storeAfter, and_assoc]
  remaining := fun clock client secret left => by
    rw [GrantStore.remaining_eq_some_iff]
    simp only [liveAt_storeAfter, and_assoc]
  active := fun clock client secret => by
    rw [GrantStore.mem_active_iff]
    simp only [liveAt_storeAfter]
  len := fun clock => by
    rw [GrantStore.len, GrantStore.active, List.length_map]
    rfl
  ceiling := by
    rintro before after granted client secrets deadline secret clock rfl hs hafter hbound d ⟨hd, hr⟩
    rw [hasRecord_unattended hs hafter hd] at hr
    exact hr (.inr hbound)

end Histories

end Ladon.Grants
