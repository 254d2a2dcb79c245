import Ladon.ControllerLaw
import Ladon.VaultCrud

/-!
What is resolved is what was approved.

The plan of a run lists the secrets that its bindings refer to, for the user to approve, and keeps
the identifier each binding was found under. By the time the values are read the vault may have
been edited: names moved to other records, records deleted and made again. The bindings are then
looked up once more, and each must lead to the record it led to when the plan was made.
-/

namespace Ladon.ControllerPlan

open Ladon.Error Ladon.Model Ladon.Vault Ladon.VaultReopen Ladon.VaultCrud Ladon.Runner
  Ladon.Approval Ladon.Controller Ladon.Lib Ladon.Lib.Utf8

/-- What a search finds, where it can find one element at most. -/
lemma find_eq_some_of_unique {α : Type} {l : List α} {p : α → Bool} {a : α}
    (h : ∀ a ∈ l, ∀ b ∈ l, p a → p b → a = b) : l.find? p = some a ↔ a ∈ l ∧ p a := by
  constructor
  · intro ha
    exact ⟨List.mem_of_find?_eq_some ha, List.find?_some ha⟩
  · rintro ⟨ha, hp⟩
    obtain ⟨b, hb⟩ := Option.isSome_iff_exists.mp (List.find?_isSome.mpr ⟨a, ha, hp⟩)
    rw [hb, h b (List.mem_of_find?_eq_some hb) a ha (List.find?_some hb) hp]

/-- The first of equal elements stays. -/
lemma eraseDups_concat {α : Type} [DecidableEq α] (l : List α) (a : α) :
    (l ++ [a]).eraseDups = if a ∈ l.eraseDups then l.eraseDups else l.eraseDups ++ [a] := by
  simp only [List.eraseDups_append, List.mem_eraseDups]
  by_cases h : a ∈ l
  · simp [h, List.removeAll]
  · simp [h, List.removeAll, List.eraseDups_cons]

lemma exists_forall₂ {α β : Type} {R : α → β → Prop} {l : List α} :
    (∃ l', List.Forall₂ R l l') ↔ ∀ a ∈ l, ∃ b, R a b := by
  induction l with
  | nil => exact iff_of_true ⟨[], .nil⟩ fun a ha => by cases ha
  | cons a l ih =>
    rw [List.forall_mem_cons, ← ih]
    constructor
    · rintro ⟨l', h⟩
      obtain ⟨b, rest, hb, hrest, -⟩ := List.forall₂_cons_left_iff.mp h
      exact ⟨⟨b, hb⟩, rest, hrest⟩
    · rintro ⟨⟨b, hb⟩, rest, hrest⟩
      exact ⟨b :: rest, .cons hb hrest⟩

section Plans

variable [UnicodeNormalization]

/-- The record and the field that a binding leads to. -/
structure Bound (records : List SecretRecord) (b : ValidatedSecretBinding) (r : SecretRecord)
    (f : SecretField) : Prop where
  mem : r ∈ records
  refers : Vault.refersTo b.secretRef r
  field : f ∈ r.fields
  name : f.name = b.field

/-- A binding that led to a record leads to another, or to none, or its field is gone. -/
def Lost (records : List SecretRecord) (b : ValidatedSecretBinding) (planned : SecretId) : Prop :=
  (∃ r ∈ records, Vault.refersTo b.secretRef r ∧ r.id ≠ planned) ∨
    (∀ r ∈ records, ¬ Vault.refersTo b.secretRef r) ∨
    ∃ r ∈ records, Vault.refersTo b.secretRef r ∧ ∀ f ∈ r.fields, f.name ≠ b.field

/-- What the user is asked about one secret: under its name, the fields its bindings request. -/
structure Entry (records : List SecretRecord) (done : List (ValidatedSecretBinding × SecretId))
    (s : ApprovalSecret) : Prop where
  named : ∃ r ∈ records, r.id = s.id ∧ r.name.text = s.name
  fields_nodup : s.fields.Nodup
  fields : ∀ field, field ∈ s.fields ↔ ∃ p ∈ done, p.2 = s.id ∧ p.1.field.text = field

/-- Each secret once, in the order of the first binding that refers to it. -/
structure Asked (records : List SecretRecord) (done : List (ValidatedSecretBinding × SecretId))
    (requested : List ApprovalSecret) : Prop where
  once : (requested.map ApprovalSecret.id).Nodup
  ids : requested.map ApprovalSecret.id = (done.map Prod.snd).eraseDups
  entries : ∀ s ∈ requested, Entry records done s

/-- A plan that keeps for every binding the record it leads to, and asks for the secrets of all. -/
structure Planned (records : List SecretRecord) (bindings : List ValidatedSecretBinding)
    (plan : ApprovalPlan) : Prop where
  ids : List.Forall₂ (fun b k => ∃ r f, Bound records b r f ∧ r.id = k) bindings
    plan.bindingSecretIds
  asked : Asked records (bindings.zip plan.bindingSecretIds) plan.secrets

/-- The value of a binding that leads to the record of its plan. -/
def Resolved (records : List SecretRecord) (p : ValidatedSecretBinding × SecretId)
    (v : ResolvedSecretBinding) : Prop :=
  ∃ r f, Bound records p.1 r f ∧ r.id = p.2 ∧ v = ⟨r.id, p.1.field, f.value⟩

/-! ### Looking up -/

variable {records : List SecretRecord} {s : VaultSession} {reference : SecretRef}
  {r r' : SecretRecord}

/-- How a record is listed. -/
def listed (r : SecretRecord) : SecretMetadata :=
  ⟨r.id, r.name.text, r.fields.map fun f => f.name.text⟩

/-- What a search of the list finds, where it can find one record at most. -/
lemma find_list {p : SecretMetadata → Bool} {m : SecretMetadata}
    (h : ∀ r ∈ s.records, ∀ r' ∈ s.records, p (listed r) → p (listed r') → r = r') :
    s.list.find? p = some m ↔ ∃ r ∈ s.records, p (listed r) ∧ m = listed r := by
  have hlist : s.list.find? p = (s.records.find? (p ∘ listed)).map listed := List.find?_map
  rw [hlist, Option.map_eq_some_iff]
  constructor
  · rintro ⟨r, hfind, rfl⟩
    obtain ⟨hr, hp⟩ := (find_eq_some_of_unique h).mp hfind
    exact ⟨r, hr, hp, rfl⟩
  · rintro ⟨r, hr, hp, rfl⟩
    exact ⟨r, (find_eq_some_of_unique h).mpr ⟨hr, hp⟩, rfl⟩

lemma findSecret_eq_ok (hd : Distinct s.records) {m : SecretMetadata} :
    findSecret s.list reference = .ok m ↔
      ∃ r ∈ s.records, Vault.refersTo reference r ∧ m = listed r := by
  have hunique : ∀ r ∈ s.records, ∀ r' ∈ s.records, Vault.refersTo reference r →
      Vault.refersTo reference r' → r = r' := fun r hr r' hr' => refersTo_unique hd hr hr'
  cases reference with
  | name n =>
    simp only [Vault.refersTo, ← SecretName.text_injective.eq_iff] at hunique ⊢
    have hfind := find_list (p := fun secret => secret.name = n.text) (m := m) hunique
    refine Iff.trans ?_ hfind
    unfold findSecret
    cases s.list.find? fun secret => secret.name = n.text <;> simp
  | id k =>
    have hfind := find_list (p := fun secret => secret.id = k) (m := m) hunique
    refine Iff.trans ?_ hfind
    unfold findSecret
    cases s.list.find? fun secret => secret.id = k <;> simp

/-- A field of a record, by its name. -/
lemma find_field {name : FieldName} {f : SecretField} :
    r.fields.find? (fun f => f.name = name) = some f ↔ f ∈ r.fields ∧ f.name = name := by
  rw [find_eq_some_of_unique, decide_eq_true_eq]
  intro f hf f' hf' h h'
  rw [decide_eq_true_eq] at h h'
  exact List.inj_on_of_nodup_map r.fields_nodup hf hf' (h.trans h'.symm)

lemma mem_fieldNames {name : FieldName} :
    name.text ∈ (listed r).fieldNames ↔ ∃ f ∈ r.fields, f.name = name := by
  have hinj : ∀ a b : FieldName, a.text = b.text ↔ a = b := by
    intro a b
    cases a
    cases b
    simp
  simp only [listed, List.mem_map, hinj]

/-- A field is read through a reference where the reference leads to a record that has it. -/
lemma withField_eq_ok (hd : Distinct s.records) {field : FieldName} {value : Bytes} :
    (s.withField reference field id).1 = .ok value ↔ ∃ r f, r ∈ s.records ∧
      Vault.refersTo reference r ∧ f ∈ r.fields ∧ f.name = field ∧ f.value = value := by
  constructor
  · intro h
    unfold VaultSession.withField at h
    split at h
    · cases h
    next target htarget =>
    split at h
    · cases h
    next f hf =>
    cases h
    obtain ⟨hmem, hname⟩ := find_field.mp hf
    exact ⟨_, f, List.get_mem _ target, findRecordIndex_eq_ok htarget, hmem, hname, rfl⟩
  · rintro ⟨r, f, hr, href, hf, hname, rfl⟩
    obtain ⟨target, htarget, rfl⟩ := findRecordIndex_mem hd hr href
    have hfind := find_field.mpr ⟨hf, hname⟩
    rw [VaultSession.withField, htarget]
    simp only [hfind]
    rfl

/-! ### Making a plan -/

/-- The planned record has the field of its binding. -/
def HasField (records : List SecretRecord) (p : ValidatedSecretBinding × SecretId) : Prop :=
  ∃ r ∈ records, r.id = p.2 ∧ ∃ f ∈ r.fields, f.name = p.1.field

lemma requestBinding_eq_ok (hd : Distinct s.records) {requested result : List ApprovalSecret}
    {p : ValidatedSecretBinding × SecretId} :
    requestBinding s.list requested p = .ok result ↔ ∃ r ∈ s.records, r.id = p.2 ∧
      (∃ f ∈ r.fields, f.name = p.1.field) ∧
      result = requestField requested (listed r) p.1.field.text := by
  have hunique : ∀ r ∈ s.records, ∀ r' ∈ s.records, decide (r.id = p.2) → decide (r'.id = p.2) →
      r = r' := by
    intro r hr r' hr' h h'
    rw [decide_eq_true_eq] at h h'
    exact List.inj_on_of_nodup_map hd.1 hr hr' (h.trans h'.symm)
  have hfind := fun m => find_list (p := fun secret => secret.id = p.2) (m := m) hunique
  unfold requestBinding
  cases hs : s.list.find? fun secret => secret.id = p.2 with
  | none =>
    refine iff_of_false (fun h => by cases h) ?_
    rintro ⟨r, hr, hid, -⟩
    rw [(hfind (listed r)).mpr ⟨r, hr, decide_eq_true hid, rfl⟩] at hs
    cases hs
  | some m =>
    obtain ⟨r, hr, hid, rfl⟩ := (hfind m).mp hs
    rw [decide_eq_true_eq] at hid
    dsimp only
    split
    · next hfield =>
      rw [mem_fieldNames] at hfield
      refine ⟨fun h => ?_, ?_⟩
      · cases h
        exact ⟨r, hr, hid, hfield, rfl⟩
      · rintro ⟨r', hr', hid', -, rfl⟩
        rw [List.inj_on_of_nodup_map hd.1 hr hr' (hid.trans hid'.symm)]
    · next hfield =>
      refine iff_of_false (fun h => by cases h) ?_
      rintro ⟨r', hr', hid', hfield', -⟩
      rw [← List.inj_on_of_nodup_map hd.1 hr hr' (hid.trans hid'.symm)] at hfield'
      exact hfield (mem_fieldNames.mpr hfield')

omit [UnicodeNormalization] in
/-- The secrets that are asked for, where one more field is requested: one of another identifier is
as it was; the one of this identifier has the fields it had, and the new one. -/
lemma mem_requestField {requested : List ApprovalSecret} {m : SecretMetadata} {field : String}
    (hnodup : (requested.map ApprovalSecret.id).Nodup) {x : ApprovalSecret}
    (hx : x ∈ requestField requested m field) :
    (x ∈ requested ∧ x.id ≠ m.id) ∨
    (x ∈ requested ∧ x.id = m.id ∧ field ∈ x.fields) ∨
    (∃ old ∈ requested, old.id = m.id ∧ field ∉ old.fields ∧
      x = ⟨m.id, m.name, old.fields ++ [field]⟩) ∨
    (m.id ∉ requested.map ApprovalSecret.id ∧ x = ⟨m.id, m.name, [field]⟩) := by
  unfold requestField at hx
  split at hx
  · next i hi =>
    obtain ⟨hlt, hid, -⟩ := List.findIdx?_eq_some_iff_getElem.mp hi
    have hsame : requested[i].id = m.id := of_decide_eq_true hid
    obtain ⟨n, hn, rfl⟩ := List.mem_iff_getElem.mp hx
    rw [List.length_modify] at hn
    rw [List.getElem_modify]
    split
    · next heq =>
      subst heq
      split
      · next hfield => exact .inr (.inl ⟨List.getElem_mem hn, hsame, hfield⟩)
      · next hfield =>
        exact .inr (.inr (.inl ⟨requested[i], List.getElem_mem hn, hsame, hfield, rfl⟩))
    · next hne =>
      refine .inl ⟨List.getElem_mem hn, fun h => hne ?_⟩
      have hinj := List.nodup_iff_injective_getElem.mp hnodup
      have heq := @hinj ⟨i, by simpa using hlt⟩ ⟨n, by simpa using hn⟩
        (by simpa using hsame.trans h.symm)
      simpa using heq
  · next hnone =>
    have hmem : m.id ∉ requested.map ApprovalSecret.id := by
      intro h
      obtain ⟨y, hy, hid⟩ := List.mem_map.mp h
      have := List.findIdx?_eq_none_iff.mp hnone y hy
      simp [hid] at this
    rcases List.mem_append.mp hx with hx | hx
    · exact .inl ⟨hx, fun h => hmem (List.mem_map.mpr ⟨x, hx, h⟩)⟩
    · exact .inr (.inr (.inr ⟨hmem, List.mem_singleton.mp hx⟩))

variable {done : List (ValidatedSecretBinding × SecretId)} {requested result : List ApprovalSecret}

/-- A binding of another secret does not change what is asked about this one. -/
lemma Entry.of_ne {x : ApprovalSecret} (h : Entry records done x)
    {b : ValidatedSecretBinding} {k : SecretId} (hne : x.id ≠ k) :
    Entry records (done ++ [(b, k)]) x := by
  refine ⟨h.named, h.fields_nodup, fun field => (h.fields field).trans ?_⟩
  simp only [List.mem_append, List.mem_singleton]
  constructor
  · rintro ⟨p, hp, hq⟩
    exact ⟨p, .inl hp, hq⟩
  · rintro ⟨p, hp | rfl, hid, hfield⟩
    · exact ⟨p, hp, hid, hfield⟩
    · exact absurd hid.symm hne

/-- What is asked about a secret after one more binding of it. -/
lemma Entry.concat (x : ApprovalSecret) (fields : List String) (b : ValidatedSecretBinding)
    (hnamed : ∃ r ∈ records, r.id = x.id ∧ r.name.text = x.name) (hnodup : x.fields.Nodup)
    (hold : ∀ field, field ∈ fields ↔ ∃ p ∈ done, p.2 = x.id ∧ p.1.field.text = field)
    (hnew : ∀ field, field ∈ x.fields ↔ field ∈ fields ∨ field = b.field.text) :
    Entry records (done ++ [(b, x.id)]) x := by
  refine ⟨hnamed, hnodup, fun field => ?_⟩
  rw [hnew, hold]
  simp only [List.mem_append, List.mem_singleton]
  constructor
  · rintro (⟨p, hp, hq⟩ | rfl)
    · exact ⟨p, .inl hp, hq⟩
    · exact ⟨(b, x.id), .inr rfl, rfl, rfl⟩
  · rintro ⟨p, hp | rfl, hid, hfield⟩
    · exact .inl ⟨p, hp, hid, hfield⟩
    · exact .inr hfield.symm

lemma Asked.concat (h : Asked records done requested) (hr : r ∈ records)
    (b : ValidatedSecretBinding) :
    Asked records (done ++ [(b, r.id)]) (requestField requested (listed r) b.field.text) := by
  have hmap := @map_id_requestField requested (listed r) b.field.text
  refine ⟨?_, ?_, fun x hx => ?_⟩
  · rw [hmap]
    split
    · exact h.once
    · next hno =>
      rw [List.nodup_append]
      refine ⟨h.once, by simp, fun a ha a' ha' heq => hno ?_⟩
      rw [← List.mem_singleton.mp ha', ← heq]
      exact ha
  · rw [hmap, List.map_append, List.map_singleton, eraseDups_concat, ← h.ids]
    rfl
  · rcases mem_requestField h.once hx with ⟨hx, hne⟩ | ⟨hx, hid, hfield⟩ |
      ⟨old, hold, hid, hfield, rfl⟩ | ⟨hno, rfl⟩
    · exact (h.entries x hx).of_ne hne
    · have he := h.entries x hx
      have hk : x.id = r.id := hid
      rw [← hk]
      refine .concat x x.fields b he.named he.fields_nodup he.fields fun field => ?_
      exact ⟨.inl, fun hf => hf.elim id fun hf => hf ▸ hfield⟩
    · have he := h.entries old hold
      refine Entry.concat ⟨r.id, r.name.text, old.fields ++ [b.field.text]⟩ old.fields b
        ⟨r, hr, rfl, rfl⟩ ?_ ?_ fun field => ?_
      · rw [List.nodup_append]
        refine ⟨he.fields_nodup, by simp, fun a ha a' ha' heq => hfield ?_⟩
        rw [← List.mem_singleton.mp ha', ← heq]
        exact ha
      · intro field
        rw [he.fields, hid]
        rfl
      · simp
    · refine Entry.concat ⟨r.id, r.name.text, [b.field.text]⟩ [] b ⟨r, hr, rfl, rfl⟩ (by simp)
        (fun field => ?_) fun field => ?_
      · refine iff_of_false (by simp) ?_
        rintro ⟨p, hp, hid, -⟩
        refine hno ?_
        rw [h.ids, List.mem_eraseDups]
        exact List.mem_map.mpr ⟨p, hp, hid⟩
      · simp

/-- What is asked for after all bindings. -/
lemma Asked.foldlM (hd : Distinct s.records) (h : Asked s.records done requested)
    {pairs : List (ValidatedSecretBinding × SecretId)}
    (hfold : pairs.foldlM (requestBinding s.list) requested = .ok result) :
    Asked s.records (done ++ pairs) result := by
  induction pairs generalizing done requested with
  | nil =>
    cases hfold
    rw [List.append_nil]
    exact h
  | cons p pairs ih =>
    rw [List.foldlM_cons, bind_eq_ok] at hfold
    obtain ⟨next, hp, hfold⟩ := hfold
    obtain ⟨r, hr, hid, -, rfl⟩ := (requestBinding_eq_ok hd).mp hp
    have hstep := h.concat hr p.1
    rw [hid] at hstep
    have := ih hstep hfold
    rwa [List.append_assoc, List.singleton_append] at this

/-- Every binding is asked for where every planned record has its field. -/
lemma foldlM_requestBinding_ok (hd : Distinct s.records)
    {pairs : List (ValidatedSecretBinding × SecretId)} :
    (∃ result, pairs.foldlM (requestBinding s.list) requested = .ok result) ↔
      ∀ p ∈ pairs, HasField s.records p := by
  induction pairs generalizing requested with
  | nil => exact iff_of_true ⟨requested, rfl⟩ fun p hp => by cases hp
  | cons p pairs ih =>
    simp only [List.foldlM_cons, bind_eq_ok, List.forall_mem_cons]
    constructor
    · rintro ⟨result, next, hp, hrest⟩
      obtain ⟨r, hr, hid, hfield, -⟩ := (requestBinding_eq_ok hd).mp hp
      exact ⟨⟨r, hr, hid, hfield⟩, ih.mp ⟨result, hrest⟩⟩
    · rintro ⟨⟨r, hr, hid, hfield⟩, hrest⟩
      obtain ⟨result, hresult⟩ := ih.mpr hrest
      exact ⟨result, _, (requestBinding_eq_ok hd).mpr ⟨r, hr, hid, hfield, rfl⟩, hresult⟩

lemma bindingSecretIds_eq_ok {c : VaultController} {last : ℕ} (hd : Distinct s.records)
    (hopen : c.state = .unlocked s last) {bindings : List ValidatedSecretBinding}
    {ids : List SecretId} :
    c.bindingSecretIds bindings = .ok ids ↔ List.Forall₂ (fun b k =>
      ∃ r ∈ s.records, Vault.refersTo b.secretRef r ∧ r.id = k) bindings ids := by
  have hone : ∀ (b : ValidatedSecretBinding) (k : SecretId),
      (findSecret s.list b.secretRef).map SecretMetadata.id = .ok k ↔
        ∃ r ∈ s.records, Vault.refersTo b.secretRef r ∧ r.id = k := by
    intro b k
    constructor
    · intro h
      cases hfind : findSecret s.list b.secretRef with
      | error e =>
        rw [hfind] at h
        cases h
      | ok m =>
        rw [hfind] at h
        obtain ⟨r, hr, href, rfl⟩ := (findSecret_eq_ok hd).mp hfind
        cases h
        exact ⟨r, hr, href, rfl⟩
    · rintro ⟨r, hr, href, rfl⟩
      rw [(findSecret_eq_ok hd).mpr ⟨r, hr, href, rfl⟩]
      rfl
  unfold VaultController.bindingSecretIds
  rw [hopen]
  simp only [mapM_eq_ok, hone]

lemma approvalPlan_eq_ok {c : VaultController} {last : ℕ} (hopen : c.state = .unlocked s last)
    {v : Uuid} (hv : c.sessionId = some v) {bindings : List ValidatedSecretBinding}
    {plan : ApprovalPlan} :
    c.approvalPlan bindings = .ok plan ↔
      c.bindingSecretIds bindings = .ok plan.bindingSecretIds ∧
      (bindings.zip plan.bindingSecretIds).foldlM (requestBinding s.list) [] = .ok plan.secrets ∧
      plan.vaultSessionId = v := by
  unfold VaultController.approvalPlan
  rw [hopen, hv]
  simp only [bind_eq_ok]
  constructor
  · rintro ⟨ids, hids, requested, hreq, h⟩
    cases h
    exact ⟨hids, hreq, rfl⟩
  · rintro ⟨hids, hreq, rfl⟩
    exact ⟨plan.bindingSecretIds, hids, plan.secrets, hreq, rfl⟩

lemma Asked.nil : Asked records [] [] :=
  ⟨List.nodup_nil, rfl, fun x hx => by cases hx⟩

/-- A binding found under an identifier whose record has the field leads to that record. -/
lemma bound_of_hasField (hd : Distinct records) {b : ValidatedSecretBinding}
    (hr : r ∈ records) (href : Vault.refersTo b.secretRef r) (h : HasField records (b, r.id)) :
    ∃ f, Bound records b r f := by
  obtain ⟨r', hr', hid, f, hf, hname⟩ := h
  rw [List.inj_on_of_nodup_map hd.1 hr' hr hid] at hf
  exact ⟨f, hr, href, hf, hname⟩

/-- What a plan holds. -/
lemma planned_of_approvalPlan {c : VaultController} {last : ℕ} (hd : Distinct s.records)
    (hopen : c.state = .unlocked s last) {v : Uuid} (hv : c.sessionId = some v)
    {bindings : List ValidatedSecretBinding} {plan : ApprovalPlan}
    (h : c.approvalPlan bindings = .ok plan) : Planned s.records bindings plan := by
  obtain ⟨hids, hfold, -⟩ := (approvalPlan_eq_ok hopen hv).mp h
  rw [bindingSecretIds_eq_ok hd hopen] at hids
  have hfields := (foldlM_requestBinding_ok hd).mp ⟨_, hfold⟩
  refine ⟨?_, Asked.nil.foldlM hd hfold⟩
  rw [List.forall₂_iff_zip] at hids ⊢
  refine ⟨hids.1, fun {b k} hmem => ?_⟩
  obtain ⟨r, hr, href, rfl⟩ := hids.2 hmem
  obtain ⟨f, hf⟩ := bound_of_hasField hd hr href (hfields _ hmem)
  exact ⟨r, f, hf, rfl⟩

/-- There is a plan where every binding leads to a field. -/
lemma approvalPlan_ok_iff {c : VaultController} {last : ℕ} (hd : Distinct s.records)
    (hopen : c.state = .unlocked s last) {v : Uuid} (hv : c.sessionId = some v)
    {bindings : List ValidatedSecretBinding} :
    (∃ plan, c.approvalPlan bindings = .ok plan) ↔
      ∀ b ∈ bindings, ∃ r f, Bound s.records b r f := by
  constructor
  · rintro ⟨plan, h⟩
    have hids := (planned_of_approvalPlan hd hopen hv h).ids
    intro b hb
    obtain ⟨k, r, f, hbound, -⟩ := exists_forall₂.mp ⟨_, hids⟩ b hb
    exact ⟨r, f, hbound⟩
  · intro h
    have hex : ∀ b ∈ bindings, ∃ k, ∃ r f, Bound s.records b r f ∧ r.id = k := by
      intro b hb
      obtain ⟨r, f, hbound⟩ := h b hb
      exact ⟨r.id, r, f, hbound, rfl⟩
    obtain ⟨ids, hids⟩ := exists_forall₂.mpr hex
    have hfields : ∀ p ∈ bindings.zip ids, HasField s.records p := by
      intro p hp
      obtain ⟨r, f, hbound, hid⟩ := (List.forall₂_iff_zip.mp hids).2 hp
      exact ⟨r, hbound.mem, hid, f, hbound.field, hbound.name⟩
    obtain ⟨requested, hreq⟩ := (foldlM_requestBinding_ok hd).mpr hfields
    refine ⟨⟨v, requested, ids⟩, (approvalPlan_eq_ok hopen hv).mpr ⟨?_, hreq, rfl⟩⟩
    refine (bindingSecretIds_eq_ok hd hopen).mpr (hids.imp ?_)
    rintro b k ⟨r, f, hbound, hid⟩
    exact ⟨r, hbound.mem, hbound.refers, hid⟩

/-! ### Resolving -/

omit [UnicodeNormalization] in
lemma new_eq_ok {k : SecretId} {field : FieldName} {value : Bytes} {v : ResolvedSecretBinding} :
    ResolvedSecretBinding.new k.uuid.display field.text value = .ok v ↔ v = ⟨k, field, value⟩ := by
  have h : ResolvedSecretBinding.new k.uuid.display field.text value = .ok ⟨k, field, value⟩ := by
    rw [ResolvedSecretBinding.new, SecretId.parse, Uuid.parse_display, FieldName.parse_text]
    rfl
  rw [h, Except.ok.injEq, eq_comm]

lemma resolveBinding_eq_ok {after : VaultSession} (hd : Distinct s.records)
    (hrecords : after.records = s.records) {p : ValidatedSecretBinding × SecretId}
    {v : ResolvedSecretBinding} :
    (resolveBinding s.list after p.1 p.2).1 = .ok v ↔ Resolved s.records p v := by
  have hd' : Distinct after.records := by rwa [hrecords]
  unfold resolveBinding
  cases hfind : findSecret s.list p.1.secretRef with
  | error e =>
    refine iff_of_false (fun h => by cases h) ?_
    rintro ⟨r, f, hbound, -⟩
    rw [(findSecret_eq_ok hd).mpr ⟨r, hbound.mem, hbound.refers, rfl⟩] at hfind
    cases hfind
  | ok m =>
    obtain ⟨r, hr, href, rfl⟩ := (findSecret_eq_ok hd).mp hfind
    dsimp only
    split
    · next hid =>
      refine iff_of_false (fun h => by cases h) ?_
      rintro ⟨r', f, hbound, hid', -⟩
      rw [← refersTo_unique hd hr hbound.mem href hbound.refers] at hid'
      exact hid hid'
    · next hid =>
      rw [not_not] at hid
      have hread : ∀ value, (after.withField p.1.secretRef p.1.field id).1 = .ok value ↔ _ :=
        fun value => withField_eq_ok hd'
      rw [hrecords] at hread
      rcases hw : after.withField p.1.secretRef p.1.field id with ⟨_ | value, after'⟩
      · refine iff_of_false (fun h => by cases h) ?_
        rintro ⟨r', f, hbound, -⟩
        have := (hread f.value).mpr ⟨r', f, hbound.mem, hbound.refers, hbound.field, hbound.name, rfl⟩
        rw [hw] at this
        cases this
      · obtain ⟨r', f, hr', href', hf, hname, hvalue⟩ := (hread value).mp (by rw [hw])
        obtain rfl := refersTo_unique hd hr hr' href href'
        rw [new_eq_ok]
        constructor
        · rintro rfl
          exact ⟨r, f, ⟨hr, href, hf, hname⟩, hid, by rw [hvalue]; rfl⟩
        · rintro ⟨r', f', hbound, hid', rfl⟩
          obtain rfl := refersTo_unique hd hr hbound.mem href hbound.refers
          have hsame : f' = f := List.inj_on_of_nodup_map r.fields_nodup hbound.field hf
            (hbound.name.trans hname.symm)
          rw [hsame, hvalue]
          rfl

lemma records_resolveBinding (metadata : List SecretMetadata) (after : VaultSession)
    (p : ValidatedSecretBinding × SecretId) :
    (resolveBinding metadata after p.1 p.2).2.records = after.records := by
  rw [VaultSession.records, VaultSession.payload, vault_resolveBinding]
  rfl

lemma resolveAll_eq_ok {after : VaultSession} (hd : Distinct s.records)
    (hrecords : after.records = s.records) {pairs : List (ValidatedSecretBinding × SecretId)}
    {values : List ResolvedSecretBinding} :
    (resolveAll s.list after pairs).1 = .ok values ↔
      List.Forall₂ (Resolved s.records) pairs values := by
  induction pairs generalizing after values with
  | nil =>
    rw [List.forall₂_nil_left_iff]
    exact ⟨fun h => by cases h; rfl, fun h => by rw [h]; rfl⟩
  | cons p pairs ih =>
    have hone := fun v => resolveBinding_eq_ok (p := p) (v := v) hd hrecords
    have hkeep := records_resolveBinding s.list after p
    unfold resolveAll
    rw [List.forall₂_cons_left_iff]
    rcases hb : resolveBinding s.list after p.1 p.2 with ⟨_ | v, next⟩
    · rw [hb] at hone
      refine iff_of_false (fun h => by cases h) ?_
      rintro ⟨v, rest, hv, -⟩
      have := (hone v).mpr hv
      cases this
    · rw [hb] at hone hkeep
      have hrest : ∀ values, (resolveAll s.list next pairs).1 = .ok values ↔ _ :=
        fun values => ih (hkeep.trans hrecords)
      dsimp only
      rcases hr : resolveAll s.list next pairs with ⟨_ | rest, final⟩
      · rw [hr] at hrest
        refine iff_of_false (fun h => by cases h) ?_
        rintro ⟨v', rest, -, hall, -⟩
        have := (hrest rest).mpr hall
        cases this
      · rw [hr] at hrest
        constructor
        · intro h
          cases h
          exact ⟨v, rest, (hone v).mp rfl, (hrest rest).mp rfl, rfl⟩
        · rintro ⟨v', rest', hv', hall, rfl⟩
          have h1 := (hone v').mpr hv'
          have h2 := (hrest rest').mpr hall
          cases h1
          cases h2
          rfl

/-! ### What was approved -/

/-- An open vault has a session, after whatever operations. -/
lemma session_of_open {fileExists : Bool} {steps : List (Ambient × ControllerOp)}
    {c : VaultController} (hrun : Run OpStep (VaultController.new fileExists) steps c)
    (hopen : c.phase = .unlocked) : ∃ v, c.sessionId = some v := by
  have h : c.phase = .unlocked → c.sessionId.isSome := by
    refine hrun.invariant (I := fun c => c.phase = .unlocked → c.sessionId.isSome) ?_ ?_
    · intro h
      cases fileExists <;> cases h
    · rintro c ⟨amb, op⟩ c' hc rfl hopen
      exact (op.ends amb c).session_isSome hc hopen
  exact Option.isSome_iff_exists.mp (h hopen)

/-- A binding that is lost has no value. -/
lemma Lost.not_resolved (hd : Distinct records) {p : ValidatedSecretBinding × SecretId}
    (h : Lost records p.1 p.2) (v : ResolvedSecretBinding) : ¬ Resolved records p v := by
  rintro ⟨r, f, hbound, hid, -⟩
  rcases h with ⟨r', hr', href, hne⟩ | hnone | ⟨r', hr', href, hno⟩
  · rw [refersTo_unique hd hr' hbound.mem href hbound.refers] at hne
    exact hne hid
  · exact hnone r hbound.mem hbound.refers
  · rw [refersTo_unique hd hr' hbound.mem href hbound.refers] at hno
    exact hno f hbound.field hbound.name

/-- **What is resolved is what was approved.** A plan for bindings is made exactly where each leads
to a field; it lists each secret once, in the order of the first binding that leads to it, with the
fields that are requested of it, and keeps the identifier of each binding's record. After any
further calls on the vault, renames and deletions included, resolving gives values exactly where
every binding leads to the record of the plan, and these are the current ones; where a binding leads
elsewhere, or its record or field is gone, resolving fails. -/
theorem resolved_as_approved (start : VaultSession) (hstart : Accepted start.payload)
    (calls : List VaultCrud.Call) (e : Editing) (hrun : Run CallStep ⟨start, []⟩ calls e)
    (fileExists : Bool) (steps : List (Ambient × ControllerOp)) (c : VaultController)
    (hreach : Run OpStep (VaultController.new fileExists) steps c) (last : ℕ)
    (hopen : c.state = .unlocked e.session last) (bindings : List ValidatedSecretBinding) :
    ((∃ plan, c.approvalPlan bindings = .ok plan) ↔
      ∀ b ∈ bindings, ∃ r f, Bound e.session.records b r f) ∧
    ∀ plan, c.approvalPlan bindings = .ok plan →
      Planned e.session.records bindings plan ∧
      ∀ later e', Run CallStep e later e' → ∀ (c' : VaultController) (last' : ℕ),
        c'.state = .unlocked e'.session last' → ∀ amb,
        (∀ values, (c'.resolveBindingsForIds amb bindings plan.bindingSecretIds).1 = .ok values ↔
          List.Forall₂ (Resolved e'.session.records) (bindings.zip plan.bindingSecretIds) values) ∧
        ∀ p ∈ bindings.zip plan.bindingSecretIds, Lost e'.session.records p.1 p.2 →
          ∃ error, (c'.resolveBindingsForIds amb bindings plan.bindingSecretIds).1 =
            .error error := by
  have hd := distinct_of_calls hstart hrun
  obtain ⟨v, hv⟩ := session_of_open hreach (phase_of_unlocked hopen)
  refine ⟨approvalPlan_ok_iff hd hopen hv, fun plan hplan => ?_⟩
  have hplanned := planned_of_approvalPlan hd hopen hv hplan
  refine ⟨hplanned, fun later e' hlater c' last' hopen' amb => ?_⟩
  have hd' := distinct_of_calls hstart (hrun.append hlater)
  have hvalues : ∀ values,
      (c'.resolveBindingsForIds amb bindings plan.bindingSecretIds).1 = .ok values ↔
        List.Forall₂ (Resolved e'.session.records) (bindings.zip plan.bindingSecretIds) values := by
    intro values
    rw [VaultController.resolveBindingsForIds, if_neg (not_not.mpr hplanned.ids.length_eq), hopen']
    exact resolveAll_eq_ok hd' rfl
  refine ⟨hvalues, fun p hp hlost => ?_⟩
  cases hresult : (c'.resolveBindingsForIds amb bindings plan.bindingSecretIds).1 with
  | error error => exact ⟨error, rfl⟩
  | ok values =>
    obtain ⟨w, hw⟩ := exists_forall₂.mp ⟨values, (hvalues values).mp hresult⟩ p hp
    exact absurd hw (hlost.not_resolved hd' w)

end Plans

/-! ### A name that moved -/

section Moved

local instance movedNames : UnicodeNormalization := asciiNormalization

def pairSession : VaultSession := sessionOn (widePayload 0 2)

/-- Files that open to a vault of two secrets. -/
def pairStorage : Storage := { openStorage with
  openVault := fun _ => .ok (.primary pairSession.vault none) }

def pairController : VaultController :=
  (VaultController.new true).unlock openAmbient pairStorage "correct horse" |>.2

/-- The first secret by its name, twice, and by its identifier. -/
def pairBindings : List ValidatedSecretBinding :=
  [⟨.name (wideName 0), .value, .environment "A"⟩, ⟨.id (wideId 0), .value, .environment "B"⟩,
    ⟨.name (wideName 0), .value, .standardInput⟩]

/-- The first secret gives its name to the second. -/
def movedName : Editing :=
  let e := (perform ⟨pairSession, []⟩ (.edit (.rename (.id (wideId 0)) "spare"))).2
  (perform e (.edit (.rename (.id (wideId 1)) (wideName 0).text))).2

def pairPlan : ApprovalPlan :=
  ⟨openAmbient.sessionId, [⟨wideId 0, (wideName 0).text, [FieldName.value.text]⟩],
    [wideId 0, wideId 0, wideId 0]⟩

lemma approvalPlan_pair : pairController.approvalPlan pairBindings = .ok pairPlan := by rfl

lemma mem_moved : (wideRecord 1).setName (wideName 0) ∈ movedName.session.records := by
  decide +kernel

theorem resolved_as_approved_moved :
    Planned pairSession.records pairBindings pairPlan ∧
    (pairController.resolveBindingsForIds openAmbient pairBindings pairPlan.bindingSecretIds).1 =
      .ok [⟨wideId 0, .value, []⟩, ⟨wideId 0, .value, []⟩, ⟨wideId 0, .value, []⟩] ∧
    ∃ error, (VaultController.resolveBindingsForIds openAmbient pairBindings
      pairPlan.bindingSecretIds ⟨.unlocked movedName.session 0, none⟩).1 = .error error := by
  have hstart : Accepted pairSession.payload := accepted_wide (by decide) (by decide)
  have hreach : Run OpStep (VaultController.new true)
      [(openAmbient, .unlock pairStorage "correct horse")] pairController := Run.single rfl
  have hmain := resolved_as_approved pairSession hstart [] ⟨pairSession, []⟩ (.nil _) true _ _ hreach
    0 rfl pairBindings
  obtain ⟨hplanned, hresolve⟩ := hmain.2 pairPlan approvalPlan_pair
  have hmoved : Run CallStep ⟨pairSession, []⟩
      [.edit (.rename (.id (wideId 0)) "spare"),
        .edit (.rename (.id (wideId 1)) (wideName 0).text)] movedName :=
    Run.cons ⟨trivial, rfl⟩ (Run.single ⟨trivial, rfl⟩)
  have hvalue : ∀ b, b ∈ pairBindings → Resolved pairSession.records (b, wideId 0)
      ⟨wideId 0, .value, []⟩ := by
    intro b hb
    have hb' : Vault.refersTo b.secretRef (wideRecord 0) ∧ valueField.name = b.field := by
      revert b
      decide +kernel
    refine ⟨wideRecord 0, valueField, ⟨by decide +kernel, hb'.1, by decide +kernel, hb'.2⟩, rfl, ?_⟩
    rw [← hb'.2]
    rfl
  refine ⟨hplanned, ((hresolve [] _ (.nil _) pairController 0 rfl openAmbient).1 _).mpr ?_,
    (hresolve _ _ hmoved ⟨.unlocked movedName.session 0, none⟩ 0 rfl openAmbient).2
      (⟨.name (wideName 0), .value, .environment "A"⟩, wideId 0) (by simp [pairBindings, pairPlan])
      (.inl ⟨_, mem_moved, by decide +kernel, by decide +kernel⟩)⟩
  exact .cons (hvalue _ (by simp [pairBindings])) (.cons (hvalue _ (by simp [pairBindings]))
    (.cons (hvalue _ (by simp [pairBindings])) .nil))

end Moved

end Ladon.ControllerPlan
