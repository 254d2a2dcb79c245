import Ladon.Redact

/-!
The streaming redactor against a redaction done in one go.

The redactor sees its input in chunks and holds back what could still become part of a match,
and its escaper holds back what could still become a character. Neither changes the result:
what has left either of them is what the whole input would have made of it, whatever follows.
-/

namespace Ladon.RedactStream

open Ladon.Error Ladon.Redact Ladon.Lib.Find Ladon.Lib.Utf8 Ladon.Lib.Digits Ladon.Lib.Word

/-! ### The text of a word -/

def renderPiece : Piece → Bytes
  | .char b => b
  | .bad b => b.flatMap escapedByte

/-- A word made printable: every byte of an ill-formed sequence, and of one cut short at the end,
is written as `\xNN`. -/
def render (w : Bytes) : Bytes := (split w).1.flatMap renderPiece ++ (split w).2.flatMap escapedByte

lemma fromUtf8_escapedByte (b : UInt8) : fromUtf8 (escapedByte b) = .ok := by
  refine fromUtf8_ascii fun d hd => ?_
  simp only [escapedByte, List.mem_cons] at hd
  rcases hd with rfl | rfl | hd
  · decide
  · decide
  · exact hexByte_lt false b d hd

lemma fromUtf8_renderPiece {w : Bytes} {p : Piece} (h : p ∈ (split w).1) :
    fromUtf8 (renderPiece p) = .ok := by
  cases p with
  | char b => exact fromUtf8_of_char (step_of_mem_split h)
  | bad b => exact fromUtf8_flatMap fun c _ => fromUtf8_escapedByte c

lemma fromUtf8_pieces (w : Bytes) : fromUtf8 ((split w).1.flatMap renderPiece) = .ok :=
  fromUtf8_flatMap fun _ hp => fromUtf8_renderPiece hp

lemma pieces_of_ok {w : Bytes} (h : fromUtf8 w = .ok) : (split w).1.flatMap renderPiece = w := by
  obtain ⟨l, hl, rfl⟩ := split_of_ok h
  rw [hl, List.flatMap_map]
  exact List.flatMap_id

/-! ### The escaper -/

lemma pushStr_append (c : BoundedCapture) {u : Bytes} (h : fromUtf8 u = .ok) (v : Bytes) :
    c.pushStr (u ++ v) = (c.pushStr u).pushStr v := by
  rw [BoundedCapture.pushStr, chars_append h, List.foldl_append]
  rfl

@[simp] lemma pushStr_nil (c : BoundedCapture) : c.pushStr [] = c := by
  simp [BoundedCapture.pushStr, chars]

lemma pushEscaped_eq (c : BoundedCapture) (w : Bytes) :
    pushEscaped c w = c.pushStr (w.flatMap escapedByte) := by
  induction w generalizing c with
  | nil => simp [pushEscaped]
  | cons b t ih =>
    rw [List.flatMap_cons, pushStr_append c (fromUtf8_escapedByte b), ← ih]
    rfl

lemma split_bad_take {w : Bytes} {n : ℕ} (h : step w = .bad n) :
    (split w).1.flatMap renderPiece =
      (w.take n).flatMap escapedByte ++ (split (w.drop n)).1.flatMap renderPiece := by
  rw [split_bad h]; rfl

/-- Draining a buffer splits it: the pieces are rendered, the rest is held back. -/
lemma drain_eq (buffer : Bytes) (c : BoundedCapture) :
    Utf8Escaper.drain buffer c =
      ((split buffer).2, c.pushStr ((split buffer).1.flatMap renderPiece)) := by
  fun_induction Utf8Escaper.drain buffer c with
  | case1 buffer c h => rw [split_snd_of_ok h, pieces_of_ok h]
  | case2 buffer c v h =>
    obtain ⟨-, hok, hnone, -⟩ := fromUtf8_error h
    have hs := split_append (buffer.take v) (buffer.drop v)
    rw [List.take_append_drop, split_snd_of_ok hok, List.nil_append,
      split_short (hnone rfl).1] at hs
    rw [hs, List.append_nil, pieces_of_ok hok]
  | case3 buffer c v n h ih =>
    obtain ⟨-, hok, -, hsome⟩ := fromUtf8_error h
    have hbad := hsome n rfl
    have hs := split_append (buffer.take v) (buffer.drop v)
    rw [List.take_append_drop, split_snd_of_ok hok, List.nil_append] at hs
    have hesc : fromUtf8 (((buffer.drop v).take n).flatMap escapedByte) = .ok :=
      fromUtf8_flatMap fun b _ => fromUtf8_escapedByte b
    rw [ih, hs, List.flatMap_append, pieces_of_ok hok, pushStr_append _ hok, split_bad_take hbad,
      pushStr_append _ hesc, ← pushEscaped_eq, split_bad hbad, List.drop_drop]

/-- The word `w` has gone through the escaper of `r`, into a capture that was `c`. -/
def Fed (c : BoundedCapture) (w : Bytes) (r : StreamingRedactor) : Prop :=
  r.utf8.pending = (split w).2 ∧ r.capture = c.pushStr ((split w).1.flatMap renderPiece)

lemma Fed.emit {c : BoundedCapture} {w : Bytes} {r : StreamingRedactor} (h : Fed c w r)
    (bytes : Bytes) : Fed c (w ++ bytes) (r.emit bytes) := by
  obtain ⟨h1, h2⟩ := h
  simp only [Fed, StreamingRedactor.emit, Utf8Escaper.push, drain_eq, h1, h2,
    split_append w bytes, List.flatMap_append, true_and]
  exact (pushStr_append c (fromUtf8_pieces w) _).symm

lemma Fed.finish {c : BoundedCapture} {w : Bytes} {r : StreamingRedactor} (h : Fed c w r) :
    r.utf8.finish r.capture = c.pushStr (render w) := by
  obtain ⟨h1, h2⟩ := h
  rw [Utf8Escaper.finish, h1, h2, pushEscaped_eq, ← pushStr_append c (fromUtf8_pieces w)]
  rfl

/-! ### The scan -/

/-- What the redactor is set up with; no step changes it. -/
def SameSetup (r r' : StreamingRedactor) : Prop :=
  r'.patterns = r.patterns ∧ r'.marker = r.marker ∧
    r'.maximumPatternBytes = r.maximumPatternBytes ∧ r'.suppressed = r.suppressed

lemma processLoop_setup (buffer : Bytes) (safeEnd : ℕ) (r : StreamingRedactor) (position : ℕ) :
    SameSetup r (StreamingRedactor.processLoop buffer safeEnd r position).1 := by
  fun_induction StreamingRedactor.processLoop buffer safeEnd r position with
  | case1 r position hlt h => exact ⟨rfl, rfl, rfl, rfl⟩
  | case2 r position hlt start pattern h ih => exact ih
  | case3 r position hge => exact ⟨rfl, rfl, rfl, rfl⟩

lemma process_setup (r : StreamingRedactor) (finishing : Bool) : SameSetup r (r.process finishing) :=
  processLoop_setup r.pending (r.safeEnd finishing) { r with pending := [] } 0

lemma push_setup (r : StreamingRedactor) (bytes : Bytes) : SameSetup r (r.push bytes) := by
  unfold StreamingRedactor.push
  split
  · exact ⟨rfl, rfl, rfl, rfl⟩
  · exact process_setup { r with pending := r.pending ++ bytes } false

def needles (r : StreamingRedactor) : List Bytes := r.patterns.map Pattern.needle

/-- `z` may follow the buffer without a match that begins before `safeEnd` coming or going. -/
def Settled (r : StreamingRedactor) (buffer : Bytes) (safeEnd : ℕ) (z : Bytes) : Prop :=
  ∀ p ∈ r.patterns, ∀ i < safeEnd,
    p.needle <+: (buffer ++ z).drop i ↔ p.needle <+: buffer.drop i

lemma drop_split {w : Bytes} {i j : ℕ} (hij : i ≤ j) (hj : j ≤ w.length) (z : Bytes) :
    (w ++ z).drop i = (w.take j).drop i ++ (w ++ z).drop j := by
  have h1 : (w.take j).drop i ++ w.drop j = w.drop i := by
    rw [List.drop_take]
    have := List.take_append_drop (j - i) (w.drop i)
    rwa [List.drop_drop, Nat.add_sub_cancel' hij] at this
  rw [List.drop_append_of_le_length (hij.trans hj), List.drop_append_of_le_length hj,
    ← List.append_assoc, h1]

/-- A stretch of the buffer with no match in it is copied. -/
lemma replace_stretch {r : StreamingRedactor} {buffer z : Bytes} {safeEnd i j : ℕ}
    (hz : Settled r buffer safeEnd z) (hij : i ≤ j) (hj : j ≤ safeEnd)
    (hb : safeEnd ≤ buffer.length)
    (hno : ∀ p ∈ r.patterns, ∀ k, i ≤ k → k < j → ¬ p.needle <+: buffer.drop k) :
    replace (needles r) r.marker ((buffer ++ z).drop i) =
      ((buffer.take j).drop i ++ (replace (needles r) r.marker ((buffer ++ z).drop j)).1,
        (replace (needles r) r.marker ((buffer ++ z).drop j)).2) := by
  have hsplit := drop_split hij (hj.trans hb) z
  rw [hsplit]
  refine replace_copy _ _ fun k hk q hq => ?_
  obtain ⟨p, hp, rfl⟩ := List.mem_map.mp hq
  have hk' : i + k < j := by
    simp only [List.length_drop, List.length_take] at hk
    omega
  rw [← hsplit, List.drop_drop, hz p hp _ (by omega)]
  exact hno p hp _ (by omega) hk'

/-- Where the next match begins, the longest pattern is replaced. -/
lemma replace_next {r : StreamingRedactor} {buffer z : Bytes} {position safeEnd start : ℕ}
    {p : Pattern} (hz : Settled r buffer safeEnd z)
    (h : IsNext buffer position safeEnd r.patterns (some (start, p))) :
    replace (needles r) r.marker ((buffer ++ z).drop start) =
      (r.marker ++
        (replace (needles r) r.marker ((buffer ++ z).drop (start + p.needle.length))).1,
        (replace (needles r) r.marker ((buffer ++ z).drop (start + p.needle.length))).2 + 1) := by
  obtain ⟨h1, -, h3, h4, -, h6⟩ := h
  have hl : longest (needles r) ((buffer ++ z).drop start) = some p.needle.length := by
    refine longest_eq_some (List.mem_map_of_mem h1) ((hz p h1 start h3).mpr h4) fun q hq hqs => ?_
    obtain ⟨q', hq', rfl⟩ := List.mem_map.mp hq
    exact h6 q' hq' ((hz q' hq' start h3).mp hqs)
  rw [replace_match p.ne_nil hl, List.drop_drop]

/-- What the scan from `position` did: it emitted `out` and counted `n` matches, and stands
behind the safe end; the rest of the input, whatever it is, is replaced from there. -/
inductive Scanned (c : BoundedCapture) (buffer : Bytes) (safeEnd : ℕ) (w : Bytes)
    (r : StreamingRedactor) (position : ℕ) (r' : StreamingRedactor) (position' : ℕ) : Prop
  | mk (out : Bytes) (n : ℕ)
      (fed : Fed c (w ++ out) r')
      (count : r'.redactionCount = saturatingAdd r.redactionCount n)
      (behind : safeEnd ≤ position')
      (inside : position' ≤ buffer.length)
      (rest : ∀ z, Settled r buffer safeEnd z →
        replace (needles r) r.marker ((buffer ++ z).drop position) =
          (out ++ (replace (needles r) r.marker ((buffer ++ z).drop position')).1,
            n + (replace (needles r) r.marker ((buffer ++ z).drop position')).2))

lemma processLoop_scanned (c : BoundedCapture) (buffer : Bytes) (safeEnd : ℕ)
    (hb : safeEnd ≤ buffer.length) (r : StreamingRedactor) (position : ℕ) (w : Bytes)
    (hf : Fed c w r) (hc : r.redactionCount ≤ u64Max) (hpos : position ≤ buffer.length) :
    Scanned c buffer safeEnd w r position
      (StreamingRedactor.processLoop buffer safeEnd r position).1
      (StreamingRedactor.processLoop buffer safeEnd r position).2 := by
  fun_induction StreamingRedactor.processLoop buffer safeEnd r position generalizing w with
  | case1 r position hlt h =>
    have hn := isNext_findNext buffer position safeEnd r.patterns
    rw [h] at hn
    refine ⟨(buffer.take safeEnd).drop position, 0, hf.emit _, ?_, Nat.le_refl _, hb,
      fun z hz => ?_⟩
    · exact (saturatingAdd_zero hc).symm
    · rw [Nat.zero_add]
      exact replace_stretch hz (by omega) (Nat.le_refl _) hb hn
  | case2 r position hlt start pattern h ih =>
    have hn := isNext_findNext buffer position safeEnd r.patterns
    rw [h] at hn
    obtain ⟨hmem, hle, hend, hat, hno, -⟩ := id hn
    have hin : start + pattern.needle.length ≤ buffer.length := by
      have := hat.length_le
      rw [List.length_drop] at this
      have := List.length_pos_iff.mpr pattern.ne_nil
      omega
    have hf' : Fed c (w ++ ((buffer.take start).drop position ++ r.marker))
        ((r.emit ((buffer.take start).drop position)).emit r.marker) := by
      rw [← List.append_assoc]
      exact (hf.emit _).emit _
    obtain ⟨out, n, hfed, hcount, hbehind, hinside, hrest⟩ :=
      ih _ hf' (saturatingAdd_le _ _) hin
    refine ⟨(buffer.take start).drop position ++ r.marker ++ out, n + 1,
      by simpa only [List.append_assoc] using hfed, ?_, hbehind, hinside, fun z hz => ?_⟩
    · rw [hcount, saturatingAdd_assoc, Nat.add_comm 1 n]
    · have hz' := hrest z hz
      rw [replace_stretch hz hle (by omega) hb hno, replace_next hz hn]
      simp only [needles, StreamingRedactor.emit] at hz' ⊢
      rw [hz']
      simp only [List.append_assoc, Prod.mk.injEq, true_and]
      omega
  | case3 r position hge =>
    refine ⟨[], 0, by simpa using hf, ?_, by omega, hpos, fun z _ => ?_⟩
    · exact (saturatingAdd_zero hc).symm
    · simp

/-! ### Runs -/

/-- The bytes held back are enough to decide every match that begins before the safe end. -/
lemma settled_safeEnd (r : StreamingRedactor)
    (hmax : ∀ p ∈ r.patterns, p.needle.length ≤ r.maximumPatternBytes) (z : Bytes) :
    Settled r r.pending (r.safeEnd false) z := by
  intro p hp i hi
  have hlen := hmax p hp
  have hpos := List.length_pos_iff.mpr p.ne_nil
  simp only [StreamingRedactor.safeEnd, Bool.false_eq_true, if_false] at hi
  rw [List.drop_append_of_le_length (by omega)]
  constructor
  · intro h
    exact List.prefix_of_prefix_length_le h (List.prefix_append _ _)
      (by rw [List.length_drop]; omega)
  · exact List.prefix_append_of_prefix

/-- The state of the redactor after the input `b`: what it emitted, and what it holds back, make
up the replacement of `b` and whatever follows. -/
inductive Streamed (secrets : List RedactionSecret) (c : BoundedCapture) (b : Bytes)
    (r : StreamingRedactor) : Prop
  | mk (out : Bytes) (n : ℕ)
      (patterns : r.patterns = patternsOf secrets)
      (marker : r.marker = markerOf (patternsOf secrets))
      (maximum : ∀ p ∈ r.patterns, p.needle.length ≤ r.maximumPatternBytes)
      (unsuppressed : r.suppressed = false)
      (fed : Fed c out r)
      (count : r.redactionCount = saturatingAdd 0 n)
      (rest : ∀ z, replace (needles r) r.marker (b ++ z) =
        (out ++ (replace (needles r) r.marker (r.pending ++ z)).1,
          n + (replace (needles r) r.marker (r.pending ++ z)).2))

lemma process_scanned (c : BoundedCapture) (r : StreamingRedactor) (finishing : Bool) (w : Bytes)
    (hf : Fed c w r) (hc : r.redactionCount ≤ u64Max) :
    ∃ (position' : ℕ) (r' : StreamingRedactor),
      r.process finishing = { r' with pending := r.pending.drop position' } ∧
      Scanned c r.pending (r.safeEnd finishing) w { r with pending := [] } 0 r' position' := by
  have hb : r.safeEnd finishing ≤ r.pending.length := by
    unfold StreamingRedactor.safeEnd
    split <;> omega
  exact ⟨_, _, rfl, processLoop_scanned c r.pending _ hb { r with pending := [] } 0 w hf hc
    (Nat.zero_le _)⟩

lemma streamed_process {secrets : List RedactionSecret} {c : BoundedCapture} {b : Bytes}
    {r : StreamingRedactor} (h : Streamed secrets c b r) :
    Streamed secrets c b (r.process false) := by
  obtain ⟨out, n, hp, hm, hmax, hu, hf, hc, hr⟩ := h
  obtain ⟨position', r', he, out', n', hf', hc', -, hin, hr'⟩ :=
    process_scanned c r false out hf (hc ▸ saturatingAdd_le _ _)
  obtain ⟨s1, s2, s3, s4⟩ := process_setup r false
  rw [he] at s1 s2 s3 s4 ⊢
  dsimp only at s1 s2 s3 s4 hc'
  refine ⟨out ++ out', n + n', s1.trans hp, s2.trans hm, ?_, s4.trans hu, hf', ?_, fun z => ?_⟩
  · simpa only [s1, s3] using hmax
  · rw [hc', hc, saturatingAdd_assoc]
  · have h1 := hr z
    have h2 := hr' z (settled_safeEnd r hmax z)
    have hdrop : (r.pending ++ z).drop position' = r.pending.drop position' ++ z :=
      List.drop_append_of_le_length hin
    simp only [needles, s1, s2, List.drop_zero, hdrop] at h1 h2 ⊢
    rw [h1, h2]
    simp only [List.append_assoc, Prod.mk.injEq, true_and]
    omega

/-- One chunk. -/
lemma streamed_push {secrets : List RedactionSecret} {c : BoundedCapture} {b : Bytes}
    {r : StreamingRedactor} (h : Streamed secrets c b r) (chunk : Bytes) :
    Streamed secrets c (b ++ chunk) (r.push chunk) := by
  obtain ⟨out, n, hp, hm, hmax, hu, hf, hc, hr⟩ := h
  rw [StreamingRedactor.push, if_neg (by simp [hu])]
  refine streamed_process ⟨out, n, hp, hm, hmax, hu, hf, hc, fun z => ?_⟩
  simpa only [needles, List.append_assoc] using hr (chunk ++ z)

/-- Any number of chunks. -/
lemma streamed_chunks {secrets : List RedactionSecret} {c : BoundedCapture} (chunks : List Bytes)
    {b : Bytes} {r : StreamingRedactor} (h : Streamed secrets c b r) :
    Streamed secrets c (b ++ chunks.flatten) (chunks.foldl StreamingRedactor.push r) := by
  induction chunks generalizing b r with
  | nil => simpa using h
  | cons chunk t ih => simpa using ih (streamed_push h chunk)

lemma needle_length_le_max (patterns : List Pattern) :
    ∀ p ∈ patterns, p.needle.length ≤ ((patterns.map fun p => p.needle.length).max?).getD 1 := by
  intro p hp
  have hmem : p.needle.length ∈ patterns.map fun p => p.needle.length :=
    List.mem_map_of_mem (f := fun p : Pattern => p.needle.length) hp
  cases hmx : (patterns.map fun p => p.needle.length).max? with
  | none => rw [List.max?_eq_none_iff.mp hmx] at hmem; cases hmem
  | some m => exact (List.max?_eq_some_iff.mp hmx).2 _ hmem

/-- The redaction of `b` in one go. -/
def reference (secrets : List RedactionSecret) (c : BoundedCapture) (b : Bytes) : RedactedOutput :=
  let patterns := patternsOf secrets
  let replaced := replace (patterns.map Pattern.needle) (markerOf patterns) b
  let (text, truncated, omittedBytes) := (c.pushStr (render replaced.1)).finish
  { text := if containsPattern text patterns then [] else text
    redactionCount := replaced.2
    truncated := truncated
    omittedBytes := omittedBytes
    suppressed := containsPattern text patterns }

/-- What ends a stream, with the count of the matches kept within a word. -/
lemma streamed_finish {secrets : List RedactionSecret} {c : BoundedCapture} {b : Bytes}
    {r : StreamingRedactor} (h : Streamed secrets c b r) :
    r.finish = { reference secrets c b with
      redactionCount := saturatingAdd 0 (reference secrets c b).redactionCount } := by
  obtain ⟨out, n, hp, hm, hmax, hu, hf, hc, hr⟩ := h
  obtain ⟨position', r', he, out', n', hf', hc', hbehind, hin, hr'⟩ :=
    process_scanned c r true out hf (hc ▸ saturatingAdd_le _ _)
  obtain ⟨s1, -, -, -⟩ := process_setup r true
  rw [he] at s1
  dsimp only at s1 hc'
  have hall : position' = r.pending.length := by
    simp only [StreamingRedactor.safeEnd, if_true] at hbehind
    omega
  have hrep : replace ((patternsOf secrets).map Pattern.needle) (markerOf (patternsOf secrets)) b =
      (out ++ out', n + n') := by
    have h1 := hr []
    have h2 := hr' [] fun p _ i _ => by rw [List.append_nil]
    simp only [needles, List.append_nil, List.drop_zero, hall, List.drop_length, replace_nil,
      Nat.add_zero, hp, hm] at h1 h2
    rw [h1, h2]
  have hfin : r'.utf8.finish r'.capture = c.pushStr (render (out ++ out')) := hf'.finish
  have hcnt : r'.redactionCount = saturatingAdd 0 (n + n') := by
    rw [hc', hc, saturatingAdd_assoc]
  rw [StreamingRedactor.finish, if_neg (by simp [hu]), he, reference, hrep]
  simp only [hfin, s1, hp, hcnt]
  split <;> simp_all

/-- A redactor that looks for its values has streamed nothing yet. -/
lemma streamed_new {secrets : List RedactionSecret} {limit : ℕ} {r : StreamingRedactor}
    (hnew : StreamingRedactor.new secrets limit = .ok r) (hlong : secrets.any tooShort = false) :
    ∃ hmin, Streamed secrets (BoundedCapture.new limit hmin) [] r := by
  unfold StreamingRedactor.new at hnew
  split at hnew
  · next h =>
    cases hnew
    refine ⟨h.1, [], 0, rfl, rfl, needle_length_le_max _, hlong, ?_, rfl, fun z => by simp⟩
    exact ⟨by simp, by simp⟩
  · cases hnew

/-- **The streaming redactor agrees with a redaction done in one go**, for every way the input is
cut into chunks, where no value is too short to be looked for. -/
theorem finish_chunks_eq_reference (secrets : List RedactionSecret) (limit : ℕ)
    (hmin : minOutputLimitBytes ≤ limit) (hmax : limit ≤ maxOutputLimitBytes)
    (hlong : ∀ s ∈ secrets, s.value ≠ [] → 4 ≤ s.value.length) (chunks : List Bytes)
    (hcount : (replace ((patternsOf secrets).map Pattern.needle) (markerOf (patternsOf secrets))
      chunks.flatten).2 < 2 ^ 64) :
    ∃ r, StreamingRedactor.new secrets limit = .ok r ∧
      (chunks.foldl StreamingRedactor.push r).finish =
        reference secrets (BoundedCapture.new limit hmin) chunks.flatten := by
  have hsup : secrets.any tooShort = false := by
    rw [List.any_eq_false]
    intro s hs
    have := hlong s hs
    simp only [tooShort, decide_eq_true_eq, not_and, Nat.not_lt]
    exact this
  have hnew : ∃ r, StreamingRedactor.new secrets limit = .ok r := ⟨_, dif_pos ⟨hmin, hmax⟩⟩
  obtain ⟨r, hr⟩ := hnew
  obtain ⟨_, hstart⟩ := streamed_new hr hsup
  refine ⟨r, hr, ?_⟩
  rw [streamed_finish (streamed_chunks chunks hstart), List.nil_append]
  have hword : saturatingAdd 0
      (reference secrets (BoundedCapture.new limit hmin) chunks.flatten).redactionCount =
      (reference secrets (BoundedCapture.new limit hmin) chunks.flatten).redactionCount := by
    rw [saturatingAdd_eq, Nat.zero_add]
    simp only [reference, u64Max]
    omega
  rw [hword]

theorem finish_chunks_eq_reference_token :
    ∃ r, StreamingRedactor.new [⟨ofString "s3cret!"⟩] 128 = .ok r ∧
      (List.foldl StreamingRedactor.push r
        [ofString "token s3c", [], ofString "ret! ok"]).finish =
        reference [⟨ofString "s3cret!"⟩] (BoundedCapture.new 128 (by decide))
          (ofString "token s3cret! ok") :=
  finish_chunks_eq_reference [⟨ofString "s3cret!"⟩] 128 (by decide) (by decide) (by decide)
    [ofString "token s3c", [], ofString "ret! ok"] (by decide +kernel)

example : (reference [⟨ofString "s3cret!"⟩] (BoundedCapture.new 128 (by decide))
    (ofString "token s3cret! ok")).text = ofString "token [REDACTED] ok" := by
  decide +kernel

end Ladon.RedactStream
