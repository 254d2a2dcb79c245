import Ladon.ExposureScan
import Ladon.Lib.FirstCome

/-!
What the detection reports.

The detections are the candidates of the passes, first come and first kept, put in the order of the
text. They lie between characters and never overlap, so that the lines can be counted on from one
to the next.
-/

namespace Ladon.Detect

open Ladon.Lib Ladon.Lib.Slice Ladon.ExposureScan
open String (utf8Len utf8Len_nil utf8Len_cons utf8Len_append)

/-- What the patterns find is not empty and lies between characters. -/
structure Patterns.Lawful (patterns : Patterns) : Prop where
  assignments : ∀ text, ∀ captures ∈ patterns.assignments text,
    captures.key.Within text ∧ captures.value.Within text
  tokens : ∀ text, ∀ span ∈ patterns.tokens text, span.Within text
  urls : ∀ text, ∀ span ∈ patterns.urls text, span.Within text
  bearer : ∀ text, ∀ span ∈ patterns.bearer text, span.Within text
  privateKeys : ∀ text, ∀ span ∈ patterns.privateKeys text, span.Within text

/-! ### Candidates -/

section Candidates

variable {α : Type}

/-- The step does not fault, and what it proposes to record lies within the text. -/
def Sound (text : Text) (candidate : α → Except Fault (Option Detection)) (found : α) : Prop :=
  ∃ r, candidate found = .ok r ∧ ∀ d ∈ r, d.range.Within text

/-- What passes the filter of a pass, of what its pattern finds. -/
def candidates (candidate : α → Except Fault (Option Detection)) (found : List α) :
    List Detection :=
  found.filterMap fun f => (candidate f).toOption.join

lemma candidates_append_singleton (candidate : α → Except Fault (Option Detection))
    (found : List α) (f : α) : candidates candidate (found ++ [f]) =
      candidates candidate found ++ (candidate f).toOption.join.toList := by
  rw [candidates, List.filterMap_append, List.filterMap_cons]
  cases (candidate f).toOption.join <;> rfl

lemma candidates_isPrefix (candidate : α → Except Fault (Option Detection)) (done rest : List α) :
    candidates candidate done <+: candidates candidate (done ++ rest) := by
  rw [candidates, candidates, List.filterMap_append]
  exact List.prefix_append _ _

lemma within_of_mem_candidates {text : Text} {candidate : α → Except Fault (Option Detection)}
    {found : List α} (h : ∀ f ∈ found, Sound text candidate f) :
    ∀ d ∈ candidates candidate found, d.range.Within text := by
  intro d hd
  obtain ⟨f, hf, hd⟩ := List.mem_filterMap.mp hd
  obtain ⟨r, hr, hwithin⟩ := h f hf
  rw [hr] at hd
  exact hwithin d hd

end Candidates

variable {text : Text}

lemma of_within {span : Span} (h : span.Within text) : ∃ part, span.of text = .ok part := by
  obtain ⟨-, part, -, -, -, -, hpart⟩ := slice_of_boundaries h.lt.le h.start h.stop
  exact ⟨part, hpart⟩

lemma sliceFrom_boundary {n : ℕ} (h : IsCharBoundary text n) :
    ∃ u v, text = u ++ v ∧ utf8Len u = n ∧ sliceFrom text n = .ok v := by
  obtain ⟨u, v, rfl, rfl⟩ := h
  exact ⟨u, v, rfl, rfl, sliceFrom_append u v⟩

lemma range_of_mem_ite {p : Prop} [Decidable p] {span : Span} {rule : ExposureRule} {d : Detection}
    (h : d ∈ if p then some (⟨span, rule⟩ : Detection) else none) : d.range = span := by
  obtain ⟨-, hd⟩ := Option.ite_none_right_eq_some.mp (Option.mem_def.mp h)
  cases hd
  rfl

lemma sound_filtered {passes : Text → Bool} {rule : ExposureRule} {span : Span}
    (h : span.Within text) : Sound text (filtered text passes rule) span := by
  obtain ⟨part, hpart⟩ := of_within h
  refine ⟨if passes part then some ⟨span, rule⟩ else none, by rw [filtered, hpart]; rfl, ?_⟩
  intro d hd
  rw [range_of_mem_ite hd]
  exact h

lemma sound_privateKey {span : Span} (h : span.Within text) : Sound text (privateKey text) span := by
  obtain ⟨part, hpart⟩ := of_within h
  obtain ⟨-, following, -, -, hfollowing⟩ := sliceFrom_boundary h.stop
  refine ⟨_, by rw [privateKey, hfollowing, hpart]; rfl, ?_⟩
  intro d hd
  rw [range_of_mem_ite hd]
  exact h

/-! ### Blocks of YAML -/

/-- A block ends where one of its lines does. -/
lemma blockEnd_eq (indent : ℕ) (stop : ℕ) (lines : List Text) :
    ∃ taken rest, lines = taken ++ rest ∧
      blockEnd indent stop lines = stop + utf8Len taken.flatten := by
  induction lines generalizing stop with
  | nil => exact ⟨[], [], rfl, rfl⟩
  | cons line lines ih =>
    unfold blockEnd
    split_ifs
    · exact ⟨[], line :: lines, rfl, rfl⟩
    · obtain ⟨taken, rest, hlines, hend⟩ := ih (stop + utf8Len line)
      refine ⟨line :: taken, rest, by rw [hlines]; rfl, ?_⟩
      rw [hend, List.flatten_cons, utf8Len_append, Nat.add_assoc]

/-- The line of an offset begins at a boundary. -/
lemma lineStart_boundary {u v : Text} : IsCharBoundary (u ++ v) ((rfind '\n' u).elim 0 (· + 1)) := by
  cases h : rfind '\n' u with
  | none => exact isCharBoundary_zero _
  | some n =>
    obtain ⟨a, b, rfl, rfl⟩ := rfind_eq_some h
    refine ⟨a ++ ['\n'], b ++ v, by simp, ?_⟩
    rw [utf8Len_append]
    rfl

lemma yamlBlock_ok {keyOffset valueEnd : ℕ} (hkey : IsCharBoundary text keyOffset)
    (hvalue : IsCharBoundary text valueEnd) :
    ∃ r, yamlBlock text keyOffset valueEnd = .ok r ∧ ∀ span ∈ r, span.Within text := by
  obtain ⟨u, v, htext, hu⟩ := hkey
  have hbefore : slice text 0 keyOffset = .ok u :=
    slice_eq_ok.mpr ⟨[], v, htext, rfl, by rw [Nat.zero_add, hu]⟩
  obtain ⟨-, line, -, -, hline⟩ := sliceFrom_boundary (htext ▸ lineStart_boundary (u := u) (v := v))
  obtain ⟨w, rest, htext', hw, hrest⟩ := sliceFrom_boundary hvalue
  cases hfind : find '\n' rest with
  | none =>
    refine ⟨none, ?_, by simp⟩
    simp only [yamlBlock, hbefore, hline, hrest, hfind, bind, Except.bind]
    rfl
  | some n =>
    obtain ⟨a, b, hab, hn⟩ := find_eq_some hfind
    -- The block begins behind the line feed, and ends with one of the lines after it.
    have hcut : text = (w ++ a ++ ['\n']) ++ b := by rw [htext', hab]; simp
    have hlen : utf8Len (w ++ a ++ ['\n']) = valueEnd + n + 1 := by
      rw [utf8Len_append, utf8Len_append, hw, hn]
      rfl
    have hfrom : sliceFrom text (valueEnd + n + 1) = .ok b := by
      rw [hcut, ← hlen]
      exact sliceFrom_append _ b
    obtain ⟨taken, others, hlines, hend⟩ := blockEnd_eq (leading line) (valueEnd + n + 1)
      (splitInclusive '\n' b)
    have hb : b = taken.flatten ++ others.flatten := by
      rw [← List.flatten_append, ← hlines, flatten_splitInclusive]
    have hblock : slice text (valueEnd + n + 1)
        (blockEnd (leading line) (valueEnd + n + 1) (splitInclusive '\n' b)) =
          .ok taken.flatten := by
      rw [hend]
      exact slice_eq_ok.mpr ⟨_, others.flatten, by rw [hcut, hb], hlen, rfl⟩
    simp only [yamlBlock, hbefore, hline, hrest, hfind, hfrom, bind, Except.bind]
    split_ifs with hlt
    · refine ⟨_, by rw [hblock]; rfl, fun span hspan => ?_⟩
      obtain ⟨-, heq⟩ := Option.ite_none_left_eq_some.mp (Option.mem_def.mp hspan)
      cases heq
      refine ⟨hlt, ⟨_, b, hcut, hlen⟩, ⟨_, others.flatten, by rw [hcut, hb, ← List.append_assoc], ?_⟩⟩
      rw [utf8Len_append, hlen, hend]
    · exact ⟨none, rfl, by simp⟩

lemma assignmentRange_ok {captures : Assignment} (hkey : captures.key.Within text)
    (hvalue : captures.value.Within text) (matched : Text) :
    ∃ r, assignmentRange text captures matched = .ok r ∧ ∀ span ∈ r, span.Within text := by
  unfold assignmentRange
  split_ifs
  · exact yamlBlock_ok hkey.start hvalue.stop
  · refine ⟨some captures.value, rfl, fun span hspan => ?_⟩
    cases hspan
    exact hvalue

lemma sound_assignment {patterns : Patterns} {captures : Assignment}
    (hkey : captures.key.Within text) (hvalue : captures.value.Within text) :
    Sound text (assignment patterns text) captures := by
  obtain ⟨key, hkeyText⟩ := of_within hkey
  obtain ⟨matched, hmatched⟩ := of_within hvalue
  obtain ⟨range, hrange, hwithin⟩ := assignmentRange_ok hkey hvalue matched
  unfold Sound assignment
  simp only [hkeyText, hmatched, hrange, bind, Except.bind]
  split_ifs
  · exact ⟨none, rfl, by simp⟩
  · cases range with
    | none => exact ⟨none, rfl, by simp⟩
    | some span =>
      have hspan := hwithin span rfl
      obtain ⟨part, hpart⟩ := of_within hspan
      refine ⟨(assignmentRule patterns (decoded key) (decoded part)).map (⟨span, ·⟩),
        by simp only [hpart]; rfl, fun d hd => ?_⟩
      obtain ⟨rule, -, rfl⟩ := Option.map_eq_some_iff.mp (Option.mem_def.mp hd)
      exact hspan

/-! ### The scan -/

def Detection.Conflicts (a b : Detection) : Prop := a.range.Overlaps b.range

lemma not_conflicts_symm {a b : Detection} (h : ¬ a.Conflicts b) : ¬ b.Conflicts a :=
  fun hc => h ⟨hc.2, hc.1⟩

instance : DecidableRel Detection.Conflicts := fun a b =>
  inferInstanceAs (Decidable (a.range.Overlaps b.range))

/-- The detections among candidates that arrived in this order. -/
abbrev firstSeen (arrived : List Detection) : List Detection :=
  FirstCome.keep Detection.Conflicts arrived

section Scan

variable {limit : ℕ} {stopped : ℕ → Bool} {arrived all : List Detection} {s : Scan}

/-- Of the candidates so far every one was recorded that had to be. -/
structure Recorded (limit : ℕ) (arrived : List Detection) (s : Scan) : Prop where
  detections : s.detections = firstSeen arrived
  le : s.detections.length ≤ limit

/-- The same, of some first ones of the candidates. -/
def CutShort (limit : ℕ) (all : List Detection) (s : Scan) : Prop :=
  ∃ arrived, arrived <+: all ∧ Recorded limit arrived s

lemma CutShort.mono {more : List Detection} (h : CutShort limit all s) (hmore : all <+: more) :
    CutShort limit more s := by
  obtain ⟨arrived, hpre, hrecorded⟩ := h
  exact ⟨arrived, hpre.trans hmore, hrecorded⟩

lemma add_eq_some {detections detections' : List Detection} {found : Detection}
    (h : add limit detections found = some detections') (hle : detections.length ≤ limit) :
    detections' = FirstCome.receive Detection.Conflicts detections found ∧
      detections'.length ≤ limit := by
  have hany : (detections.any fun other => other.range.Overlaps found.range) =
      decide (∃ d ∈ detections, d.Conflicts found) := by
    rw [Bool.eq_iff_iff, List.any_eq_true, decide_eq_true_iff]
    simp only [decide_eq_true_iff]
    rfl
  unfold add at h
  unfold FirstCome.receive
  rw [hany] at h
  split_ifs at h with hconflict hlimit
  · cases h
    rw [if_pos (of_decide_eq_true hconflict)]
    exact ⟨rfl, hle⟩
  · cases h
    rw [if_neg fun hc => hconflict (decide_eq_true hc)]
    refine ⟨rfl, ?_⟩
    rw [List.length_append, List.length_singleton]
    omega

lemma record_meets (h : Recorded limit arrived s) (found : Detection) :
    Meets (liftM (record limit stopped s found) : Faulting Scan Scan)
      (Recorded limit (arrived ++ [found])) (CutShort limit (arrived ++ [found])) := by
  have hcut : ∀ asked, CutShort limit (arrived ++ [found]) { s with asked } := fun asked =>
    ⟨arrived, List.prefix_append _ _, ⟨h.detections, h.le⟩⟩
  unfold record poll
  split_ifs
  · exact .inr ⟨_, rfl, hcut _⟩
  · simp only [bind, Except.bind]
    split
    · exact .inr ⟨_, rfl, hcut _⟩
    · next detections hadd =>
      obtain ⟨hdetections, hle⟩ := add_eq_some hadd h.le
      refine .inl ⟨_, rfl, ⟨hdetections.trans ?_, hle⟩⟩
      rw [h.detections]
      exact (FirstCome.keep_append_singleton arrived found).symm

variable {α : Type} {candidate : α → Except Fault (Option Detection)}

lemma visit_meets {found : α} {r : Option Detection} (hr : candidate found = .ok r)
    (h : Recorded limit arrived s) :
    Meets (visit limit stopped candidate s found) (Recorded limit (arrived ++ r.toList))
      (CutShort limit (arrived ++ r.toList)) := by
  unfold visit
  refine Meets.step hr ?_
  cases r with
  | none =>
    rw [Option.toList_none, List.append_nil]
    exact Meets.pure h
  | some d => exact record_meets h d

/-- A turn of a pass asks whether to stop or does not, and visits what was found. -/
def IsTurn (limit : ℕ) (candidate : α → Except Fault (Option Detection))
    (turn : Scan → α → Faulting Scan Scan) : Prop :=
  ∀ found r arrived s, candidate found = .ok r → Recorded limit arrived s →
    Meets (turn s found) (Recorded limit (arrived ++ r.toList))
      (CutShort limit (arrived ++ r.toList))

lemma isTurn_visit : IsTurn limit candidate (visit limit stopped candidate) :=
  fun _ _ _ _ => visit_meets

lemma isTurn_pollAndVisit : IsTurn limit candidate (pollAndVisit limit stopped candidate) := by
  intro found r arrived s hr h
  unfold pollAndVisit poll
  split_ifs
  · exact .inr ⟨_, rfl, arrived, List.prefix_append _ _, ⟨h.detections, h.le⟩⟩
  · exact visit_meets (s := { s with asked := s.asked + 1 }) hr ⟨h.detections, h.le⟩

/-- A pass records its candidates, or is cut short. -/
lemma pass_meets {turn : Scan → α → Faulting Scan Scan} {found : List α}
    (hturn : IsTurn limit candidate turn) (hsound : ∀ f ∈ found, Sound text candidate f)
    (h : Recorded limit arrived s) :
    Meets (found.foldlM turn s) (Recorded limit (arrived ++ candidates candidate found))
      (CutShort limit (arrived ++ candidates candidate found)) := by
  refine Meets.foldlM (I := fun done => Recorded limit (arrived ++ candidates candidate done))
    (by rw [candidates, List.filterMap_nil, List.append_nil]; exact h) ?_
  intro done f rest s hfound hs
  obtain ⟨r, hr, -⟩ := hsound f (by rw [hfound]; exact List.mem_append_right _ List.mem_cons_self)
  have hnext : arrived ++ candidates candidate (done ++ [f]) =
      arrived ++ candidates candidate done ++ r.toList := by
    rw [candidates_append_singleton, hr, ← List.append_assoc]
    rfl
  rw [hnext]
  refine (hturn f r _ s hr hs).mono (fun _ h => h) fun s hs => hs.mono ?_
  rw [← hnext, hfound]
  refine (List.prefix_append_right_inj _).mpr ?_
  have hcons : done ++ f :: rest = done ++ [f] ++ rest := by simp
  rw [hcons]
  exact candidates_isPrefix candidate _ rest

/-- One pass after another: what the first leaves early, the others would have gone on with. -/
lemma pass_bind {c : Faulting Scan Scan} {rest : Scan → Faulting Scan Scan}
    (h : Meets c (Recorded limit arrived) (CutShort limit arrived)) (hpre : arrived <+: all)
    (hrest : ∀ s, Recorded limit arrived s →
      Meets (rest s) (Recorded limit all) (CutShort limit all)) :
    Meets (c >>= rest) (Recorded limit all) (CutShort limit all) :=
  (h.mono (fun _ h => h) fun _ h => h.mono hpre).bind hrest

variable {patterns : Patterns}

/-- What passes the filters, pass by pass. -/
def candidatePasses (patterns : Patterns) (text : Text) : List (List Detection) :=
  [candidates (privateKey text) (patterns.privateKeys text),
    candidates (token text) (patterns.tokens text),
    candidates (url text) (patterns.urls text),
    candidates (bearer text) (patterns.bearer text),
    candidates (assignment patterns text) (patterns.assignments text)]

lemma within_of_mem_candidatePasses (h : patterns.Lawful) :
    ∀ d ∈ (candidatePasses patterns text).flatten, d.range.Within text := by
  intro d hd
  simp only [candidatePasses, List.flatten_cons, List.flatten_nil, List.append_nil,
    List.mem_append] at hd
  rcases hd with hd | hd | hd | hd | hd
  · exact within_of_mem_candidates (fun f hf => sound_privateKey (h.privateKeys text f hf)) d hd
  · exact within_of_mem_candidates (fun f hf => sound_filtered (h.tokens text f hf)) d hd
  · exact within_of_mem_candidates (fun f hf => sound_filtered (h.urls text f hf)) d hd
  · exact within_of_mem_candidates (fun f hf => sound_filtered (h.bearer text f hf)) d hd
  · exact within_of_mem_candidates (fun f hf => sound_assignment (h.assignments text f hf).1
      (h.assignments text f hf).2) d hd

lemma passes_meets (h : patterns.Lawful) (limit : ℕ) (stopped : ℕ → Bool) (text : Text) :
    Meets (passes limit stopped patterns text Scan.initial)
      (Recorded limit (candidatePasses patterns text).flatten)
      (CutShort limit (candidatePasses patterns text).flatten) := by
  have hall : (candidatePasses patterns text).flatten =
      [] ++ candidates (privateKey text) (patterns.privateKeys text) ++
        candidates (token text) (patterns.tokens text) ++
        candidates (url text) (patterns.urls text) ++
        candidates (bearer text) (patterns.bearer text) ++
        candidates (assignment patterns text) (patterns.assignments text) := by
    simp [candidatePasses]
  have h0 : Recorded limit [] Scan.initial := ⟨rfl, Nat.zero_le limit⟩
  rw [hall]
  unfold passes
  refine pass_bind (pass_meets isTurn_visit
    (fun f hf => sound_privateKey (h.privateKeys text f hf)) h0)
    (by simp) fun s hs => ?_
  refine pass_bind (pass_meets isTurn_visit (fun f hf => sound_filtered (h.tokens text f hf)) hs)
    (by simp) fun s hs => ?_
  refine pass_bind (pass_meets isTurn_visit (fun f hf => sound_filtered (h.urls text f hf)) hs)
    (by simp) fun s hs => ?_
  refine pass_bind (pass_meets isTurn_visit (fun f hf => sound_filtered (h.bearer text f hf)) hs)
    (by simp) fun s hs => ?_
  exact pass_meets isTurn_pollAndVisit (fun f hf => sound_assignment (h.assignments text f hf).1
    (h.assignments text f hf).2) hs

/-- The detections are those of the candidates, or of some first ones of them. -/
lemma detect_eq (h : patterns.Lawful) (limit : ℕ) (stopped : ℕ → Bool) (text : Text) :
    ∃ arrived incomplete,
      detect limit stopped patterns text = .ok (sorted (firstSeen arrived), incomplete) ∧
      arrived <+: (candidatePasses patterns text).flatten ∧ (firstSeen arrived).length ≤ limit ∧
      (incomplete = false → arrived = (candidatePasses patterns text).flatten) := by
  rcases passes_meets h limit stopped text with
    ⟨s, hs, hrecorded⟩ | ⟨s, hs, arrived, hpre, hrecorded⟩
  · refine ⟨_, false, ?_, List.prefix_rfl, hrecorded.detections ▸ hrecorded.le, fun _ => rfl⟩
    rw [detect, hs, ← hrecorded.detections]
    rfl
  · refine ⟨arrived, true, ?_, hpre, hrecorded.detections ▸ hrecorded.le, by simp⟩
    rw [detect, hs, ← hrecorded.detections]
    rfl

end Scan

/-! ### Order -/

/-- The detections end before the next begins. -/
abbrev Apart (detections : List Detection) : Prop :=
  detections.Pairwise fun d e => d.range.stop ≤ e.range.start

lemma apart_sorted {detections : List Detection} (hwithin : ∀ d ∈ detections, d.range.Within text)
    (hfree : detections.Pairwise fun d e => ¬ d.Conflicts e) : Apart (sorted detections) := by
  have hperm : (sorted detections).Perm detections := List.perm_insertionSort _ _
  have hsorted : (sorted detections).Pairwise fun d e => d.range.start ≤ e.range.start := by
    have htrans : IsTrans Detection fun d e => d.range.start ≤ e.range.start :=
      ⟨fun _ _ _ => Nat.le_trans⟩
    have htotal : Std.Total fun d e : Detection => d.range.start ≤ e.range.start :=
      ⟨fun _ _ => Nat.le_total _ _⟩
    exact List.pairwise_insertionSort _ _
  have hfree' := hperm.symm.pairwise hfree not_conflicts_symm
  refine (hsorted.and hfree').imp_of_mem fun {d e} hd he h => ?_
  have hlt := (hwithin e (hperm.subset he)).lt
  by_contra hover
  exact h.2 ⟨by omega, by omega⟩

/-! ### Lines -/

/-- The finding is that of the detection, on the line that it begins in. -/
structure Located (path : PathBuf) (text : Text) (d : Detection) (finding : ScanFinding) : Prop where
  path : finding.path = path
  rule : finding.rule = d.rule
  line : ∃ before, before <+: text ∧ utf8Len before = d.range.start ∧
    finding.line = 1 + before.count '\n'

lemma lineFindings_ok (path : PathBuf) {detections : List Detection} {u : Text} (hu : u <+: text)
    (hwithin : ∀ d ∈ detections, d.range.Within text)
    (hle : ∀ d ∈ detections, utf8Len u ≤ d.range.start) (hapart : Apart detections) :
    ∃ findings, lineFindings path text (utf8Len u) (1 + u.count '\n') detections = .ok findings ∧
      List.Forall₂ (Located path text) detections findings := by
  induction detections generalizing u with
  | nil => exact ⟨[], rfl, .nil⟩
  | cons d detections ih =>
    obtain ⟨v, htext⟩ := hu
    have hd := hwithin d List.mem_cons_self
    obtain ⟨w, part, x, htext', hw, hstart, hslice⟩ := slice_of_boundaries
      (hle d List.mem_cons_self) ⟨u, v, htext.symm, rfl⟩ hd.start
    -- The part up to the detection goes on from what was counted.
    have hwu : w = u := by
      have hpre := prefix_of_utf8Len_le (htext.trans htext') hw.ge
      have hlen := prefix_of_utf8Len_le (htext'.symm.trans htext.symm) hw.le
      exact hlen.eq_of_length_le hpre.length_le
    subst hwu
    have hcount : (w ++ part).count '\n' = w.count '\n' + part.count '\n' := List.count_append
    have hpre : w ++ part <+: text := ⟨x, by rw [htext', List.append_assoc]⟩
    obtain ⟨hnext, hapart⟩ := List.pairwise_cons.mp hapart
    have hbehind : ∀ e ∈ detections, utf8Len (w ++ part) ≤ e.range.start := by
      intro e he
      have hstop := hnext e he
      have hlt := hd.lt
      rw [hstart]
      omega
    obtain ⟨findings, hfindings, hlocated⟩ := ih hpre
      (fun e he => hwithin e (List.mem_cons_of_mem d he)) hbehind hapart
    rw [hstart, hcount, ← Nat.add_assoc] at hfindings
    refine ⟨⟨path, 1 + w.count '\n' + part.count '\n', d.rule⟩ :: findings, ?_, .cons ?_ hlocated⟩
    · simp only [lineFindings, hslice, hfindings, bind, Except.bind]
      rfl
    · exact ⟨rfl, rfl, w ++ part, hpre, hstart, by rw [hcount, Nat.add_assoc]⟩

/-! ### The report -/

/-- The detections are the candidates that no kept one overlapped when they came: each candidate
overlaps a detection of its own pass or an earlier one, itself if it was kept. -/
structure FirstSeen (passes : List (List Detection)) (detections : List Detection) : Prop where
  kept : detections.Perm (firstSeen passes.flatten)
  wins : ∀ c ∈ detections, ∀ d ∈ passes.flatten, d ≠ c → d.range.Overlaps c.range → d ∉ detections
  overlaps : ∀ (i : ℕ) (pass : List Detection), passes[i]? = some pass → ∀ c ∈ pass,
    ∃ d ∈ detections, d.range.Overlaps c.range ∧
      ∃ (j : ℕ) (pass' : List Detection), j ≤ i ∧ passes[j]? = some pass' ∧ d ∈ pass'

lemma firstSeen_of_perm {passes : List (List Detection)} {detections : List Detection}
    (hkept : detections.Perm (firstSeen passes.flatten))
    (hwithin : ∀ d ∈ passes.flatten, d.range.Within text) : FirstSeen passes detections := by
  have hfree : detections.Pairwise fun c d => ¬ c.Conflicts d :=
    hkept.symm.pairwise (FirstCome.keep_pairwise _) not_conflicts_symm
  refine ⟨hkept, fun c hc d _ hne hover hd => ?_, fun i pass hi c hc => ?_⟩
  · have hsymm : Std.Symm fun c d : Detection => ¬ c.Conflicts d := ⟨fun _ _ => not_conflicts_symm⟩
    exact hfree.forall hd hc hne hover
  -- What came up to the end of the pass is the passes up to it.
  have hsplit : passes.flatten = (passes.take (i + 1)).flatten ++ (passes.drop (i + 1)).flatten := by
    rw [← List.flatten_append, List.take_append_drop]
  have hmem : c ∈ (passes.take (i + 1)).flatten :=
    List.mem_flatten.mpr ⟨pass, List.mem_of_getElem? (i := i) (by
      rw [List.getElem?_take_of_lt (Nat.lt_succ_self i)]; exact hi), hc⟩
  have hlt := (hwithin c (by rw [hsplit]; exact List.mem_append_left _ hmem)).lt
  have hself : c.Conflicts c := ⟨hlt, hlt⟩
  obtain ⟨d, hd, hdmem, hconflict⟩ :=
    FirstCome.exists_kept hself hmem (passes.drop (i + 1)).flatten
  rw [← hsplit] at hd
  refine ⟨d, hkept.symm.subset hd, hconflict, ?_⟩
  obtain ⟨pass', hpass', hd'⟩ := List.mem_flatten.mp hdmem
  obtain ⟨j, hj⟩ := List.mem_iff_getElem?.mp hpass'
  have hji : j < i + 1 := by
    by_contra hge
    rw [List.getElem?_take_eq_none (Nat.le_of_not_lt hge)] at hj
    cases hj
  rw [List.getElem?_take_of_lt hji] at hj
  exact ⟨j, pass', Nat.le_of_lt_succ hji, hj, hd'⟩

theorem detect_reports {patterns : Patterns} (h : patterns.Lawful) (text : Text) (limit : ℕ)
    (stopped : ℕ → Bool) (path : PathBuf) :
    ∃ detections incomplete findings,
      detect limit stopped patterns text = .ok (detections, incomplete) ∧
      (∀ d ∈ detections, d.range.Within text ∧ d ∈ (candidatePasses patterns text).flatten) ∧
      Apart detections ∧ detections.length ≤ limit ∧
      lineFindings path text 0 1 detections = .ok findings ∧
      List.Forall₂ (Located path text) detections findings ∧
      (∀ captures ∈ patterns.assignments text, ∃ candidate,
        assignment patterns text captures = .ok candidate) ∧
      (incomplete = false → FirstSeen (candidatePasses patterns text) detections) := by
  obtain ⟨arrived, incomplete, hdetect, hpre, hle, hcomplete⟩ := detect_eq h limit stopped text
  have hperm : (sorted (firstSeen arrived)).Perm (firstSeen arrived) := List.perm_insertionSort _ _
  have hmem : ∀ d ∈ firstSeen arrived, d ∈ (candidatePasses patterns text).flatten :=
    fun d hd => hpre.subset ((FirstCome.keep_sublist arrived).subset hd)
  have hwithin : ∀ d ∈ firstSeen arrived, d.range.Within text :=
    fun d hd => within_of_mem_candidatePasses h d (hmem d hd)
  have hapart := apart_sorted hwithin (FirstCome.keep_pairwise arrived)
  have hwithin' : ∀ d ∈ sorted (firstSeen arrived), d.range.Within text :=
    fun d hd => hwithin d (hperm.subset hd)
  obtain ⟨findings, hfindings, hlocated⟩ := lineFindings_ok path (u := []) List.nil_prefix hwithin'
    (fun d _ => Nat.zero_le d.range.start) hapart
  refine ⟨_, incomplete, findings, hdetect,
    fun d hd => ⟨hwithin' d hd, hmem d (hperm.subset hd)⟩, hapart, ?_, hfindings, hlocated, ?_, ?_⟩
  · rw [hperm.length_eq]
    exact hle
  · intro captures hcaptures
    obtain ⟨hkey, hvalue⟩ := h.assignments text captures hcaptures
    obtain ⟨r, hr, -⟩ : Sound text (assignment patterns text) captures :=
      sound_assignment hkey hvalue
    exact ⟨r, hr⟩
  · intro hincomplete
    rw [hcomplete hincomplete] at hperm ⊢
    exact firstSeen_of_perm hperm (within_of_mem_candidatePasses h)

/-! ### A block -/

def blockText : Text := "password: |\n  hunter22\n".toList

/-- What the expressions find in the text: one assignment, of the sign to the key. -/
def blockPatterns : Patterns where
  assignments text := if text = blockText then [⟨⟨0, 8⟩, ⟨10, 11⟩⟩] else []
  tokens _ := []
  urls _ := []
  bearer _ := []
  privateKeys _ := []

lemma blockPatterns_lawful : blockPatterns.Lawful := by
  refine ⟨fun text captures hcaptures => ?_, by simp [blockPatterns], by simp [blockPatterns],
    by simp [blockPatterns], by simp [blockPatterns]⟩
  unfold blockPatterns at hcaptures
  dsimp only at hcaptures
  split_ifs at hcaptures with htext
  · subst htext
    rw [List.mem_singleton] at hcaptures
    subst hcaptures
    exact ⟨⟨by decide, by decide +kernel, by decide +kernel⟩,
      ⟨by decide, by decide +kernel, by decide +kernel⟩⟩
  · cases hcaptures

lemma detect_block : detect 5 (fun _ => false) blockPatterns blockText =
    .ok ([⟨⟨12, 23⟩, .credentialAssignment⟩], false) := by decide +kernel

theorem detect_reports_block :
    FirstSeen (candidatePasses blockPatterns blockText) [⟨⟨12, 23⟩, .credentialAssignment⟩] := by
  obtain ⟨detections, incomplete, -, hdetect, -, -, -, -, -, -, hfirst⟩ :=
    detect_reports blockPatterns_lawful blockText 5 (fun _ => false) ⟨true, []⟩
  cases detect_block.symm.trans hdetect
  exact hfirst rfl

end Ladon.Detect
