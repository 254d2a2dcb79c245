import Ladon.Supervisor

/-!
How much of an output is kept.

A capture keeps whole characters: a head that grows until a character does not fit, and behind it
a tail from whose front characters leave. So at any moment what has been pushed is the head, a gap
and the tail, and the gap is empty until the tail overflows for the first time. Everything about
the text that `finish` returns is read off this cut of the characters in three.

The two halves of the limit belong to the head and to the tail for good. A character across the
middle goes to the tail whole, and the bytes it leaves free in the head are lost to the tail.
-/

namespace Ladon.RedactBounds

open Ladon.Error Ladon.Redact Ladon.RedactStream Ladon.Supervisor Ladon.Runner Ladon.Lib.Find
  Ladon.Lib.Utf8 Ladon.Lib.Digits Ladon.Lib.Word

/-! ### Characters -/

/-- The bytes of one character. -/
def IsChar (b : Bytes) : Prop := step b = .char b.length

lemma chars_of_ok {w : Bytes} (h : fromUtf8 w = .ok) :
    (∀ b ∈ chars w, IsChar b) ∧ (chars w).flatten = w := by
  obtain ⟨l, hl, hw⟩ := split_of_ok h
  have hchars : chars w = l := by
    rw [chars, hl, List.map_map]
    exact List.map_id l
  rw [hchars]
  refine ⟨fun b hb => step_of_mem_split (w := w) ?_, hw⟩
  rw [hl]
  exact List.mem_map_of_mem hb

lemma fromUtf8_flatten {cs : List Bytes} (h : ∀ b ∈ cs, IsChar b) :
    fromUtf8 cs.flatten = .ok := by
  have := fromUtf8_flatMap (f := id) fun b hb => fromUtf8_of_char (h b hb)
  rwa [List.flatMap_id] at this

lemma fromUtf8Lossy_of_ok {w : Bytes} (h : fromUtf8 w = .ok) : fromUtf8Lossy w = w := by
  obtain ⟨l, hl, hw⟩ := split_of_ok h
  rw [fromUtf8Lossy, hl, split_snd_of_ok h, List.flatMap_map]
  simpa [List.flatMap_id'] using hw

lemma conts_isContinuation {k i n : ℕ} {t : Bytes} (h : conts k i t = .char n) :
    ∀ j < k, (t[j]?).any isContinuation = true := by
  induction k generalizing i t with
  | zero => intro j hj; omega
  | succ k ih =>
    rcases t with _ | ⟨c, t⟩
    · cases h
    · rw [conts] at h
      split at h
      · next hc =>
        intro j hj
        rcases j with _ | j
        · simp [isContinuation, hc]
        · simpa using ih h j (by omega)
      · cases h

/-- What a lead byte says: it is none of the continuation bytes, its second byte is one, and the
number of bytes is the width. -/
lemma lead_eq_some {b lo hi : UInt8} {k : ℕ} (h : lead b = some (lo, hi, k)) :
    0xBF < b ∧ 0x80 ≤ lo ∧ hi ≤ 0xBF ∧ characterWidth b = k + 2 := by
  have hall : ∀ b : UInt8, (lead b).all (fun p =>
      decide (0xBF < b ∧ 0x80 ≤ p.1 ∧ p.2.1 ≤ 0xBF ∧ characterWidth b = p.2.2 + 2)) = true := by
    decide +kernel
  simpa [h] using hall b

lemma ascii_first {b : UInt8} (h : b < 0x80) : characterWidth b = 1 ∧ isContinuation b = false := by
  have hall : ∀ b : UInt8, b < 0x80 → characterWidth b = 1 ∧ isContinuation b = false := by
    decide +kernel
  exact hall b h

lemma isContinuation_of_range {lo hi c : UInt8} (hlo : 0x80 ≤ lo) (hhi : hi ≤ 0xBF)
    (h : lo ≤ c ∧ c ≤ hi) : isContinuation c = true := by
  simp only [isContinuation, Bool.and_eq_true, decide_eq_true_eq]
  exact ⟨UInt8.le_trans hlo h.1, UInt8.le_trans h.2 hhi⟩

lemma isContinuation_of_lt {c : UInt8} (h : 0xBF < c) : isContinuation c = false := by
  simp only [isContinuation, Bool.and_eq_false_iff, decide_eq_false_iff_not]
  exact Or.inr (UInt8.not_le.mpr h)

/-- The first byte of a character tells its width and is no continuation byte; all others are. -/
lemma IsChar.shape {b : Bytes} (h : IsChar b) :
    ∃ first rest, b = first :: rest ∧ characterWidth first = b.length ∧
      isContinuation first = false ∧
      ∀ j, 0 < j → j < b.length → (b[j]?).any isContinuation = true := by
  rcases b with _ | ⟨first, rest⟩
  · cases h
  refine ⟨first, rest, rfl, ?_⟩
  rw [IsChar, step] at h
  split at h
  · next hlow =>
    injection h with hlen
    obtain ⟨hwidth, hcont⟩ := ascii_first hlow
    exact ⟨hwidth.trans hlen, hcont, fun j h1 h2 => by omega⟩
  · split at h
    · next lo hi k hlead =>
      obtain ⟨hfirst, hlo, hhi, hwidth⟩ := lead_eq_some hlead
      have hlen := (second_char h).1
      refine ⟨by omega, isContinuation_of_lt hfirst, fun j h1 h2 => ?_⟩
      rcases rest with _ | ⟨c, rest⟩
      · cases h
      · rw [second] at h
        split at h
        · next hc =>
          obtain ⟨j, rfl⟩ := Nat.exists_eq_add_of_lt h1
          simp only [Nat.zero_add, List.getElem?_cons_succ]
          rcases j with _ | j
          · simp [isContinuation_of_range hlo hhi hc]
          · simpa using conts_isContinuation h j (by simp only [List.length_cons] at hlen h2; omega)
        · cases h
    · cases h

lemma IsChar.length_pos {b : Bytes} (h : IsChar b) : 0 < b.length := by
  obtain ⟨first, rest, rfl, -⟩ := h.shape
  simp

/-- Popping takes exactly the first character. -/
lemma popFrontCharacter_char {b : Bytes} (h : IsChar b) (rest : Bytes) :
    popFrontCharacter (b ++ rest) = rest := by
  obtain ⟨first, tail, rfl, hwidth, -⟩ := h.shape
  rw [List.cons_append, popFrontCharacter, hwidth, ← List.cons_append, List.drop_left]

/-! ### Boundaries -/

lemma isCharBoundary_start {front rest : List Bytes} (hrest : ∀ b ∈ rest, IsChar b) :
    isCharBoundary (front ++ rest).flatten front.flatten.length = true := by
  rw [List.flatten_append]
  rcases rest with _ | ⟨b, rest⟩
  · simp [isCharBoundary]
  · obtain ⟨first, tail, rfl, -, hcont, -⟩ := (hrest b (by simp)).shape
    simp [isCharBoundary, hcont]

lemma isCharBoundary_inside {front rest : List Bytes} {b : Bytes} (hb : IsChar b) {j : ℕ}
    (h0 : 0 < j) (hj : j < b.length) :
    isCharBoundary (front ++ b :: rest).flatten (front.flatten.length + j) = false := by
  obtain ⟨-, -, -, -, -, hcont⟩ := hb.shape
  have hbyte : (front ++ b :: rest).flatten[front.flatten.length + j]? = b[j]? := by
    rw [List.flatten_append, List.flatten_cons, List.getElem?_append_right (by omega),
      Nat.add_sub_cancel_left, List.getElem?_append_left hj]
  have hc := hcont j h0 hj
  rw [List.getElem?_eq_getElem hj] at hbyte hc
  have hlen : (front ++ b :: rest).flatten.length = front.flatten.length + b.length +
      rest.flatten.length := by
    simp [Nat.add_assoc]
  simp only [isCharBoundary, hbyte, Option.any_some, Bool.or_eq_false_iff,
    decide_eq_false_iff_not]
  simp only [Option.any_some] at hc
  refine ⟨⟨by omega, by omega⟩, by simp [hc]⟩

lemma floorBoundary_eq {w : Bytes} {m n : ℕ} (hm : isCharBoundary w m = true) (hle : m ≤ n)
    (hno : ∀ i, m < i → i ≤ n → isCharBoundary w i = false) : floorBoundary w n = m := by
  induction n with
  | zero => rw [floorBoundary]; omega
  | succ n ih =>
    rw [floorBoundary]
    rcases Nat.lt_or_ge m (n + 1) with hlt | hge
    · rw [if_neg (by simp [hno (n + 1) hlt (Nat.le_refl _)])]
      exact ih (by omega) fun i h1 h2 => hno i h1 (by omega)
    · obtain rfl : m = n + 1 := by omega
      rw [if_pos hm]

/-- The last boundary at or before a position is the end of the characters that fit. -/
lemma floorBoundary_chars {front rest : List Bytes} {b : Bytes} (hb : IsChar b)
    (hrest : ∀ b ∈ rest, IsChar b) {n : ℕ} (hle : front.flatten.length ≤ n)
    (hlt : n < front.flatten.length + b.length) :
    floorBoundary (front ++ b :: rest).flatten n = front.flatten.length := by
  refine floorBoundary_eq (isCharBoundary_start ?_) hle fun i h1 h2 => ?_
  · intro c hc
    rcases List.mem_cons.mp hc with rfl | hc
    · exact hb
    · exact hrest c hc
  · obtain ⟨j, rfl⟩ := Nat.exists_eq_add_of_le (Nat.le_of_lt h1)
    exact isCharBoundary_inside hb (by omega) (by omega)

/-- Behind the end there is no boundary. -/
lemma floorBoundary_length {w : Bytes} {n : ℕ} (h : w.length ≤ n) : floorBoundary w n = w.length := by
  refine floorBoundary_eq (by simp [isCharBoundary]) h fun i h1 h2 => ?_
  have hnone : w[i]? = none := List.getElem?_eq_none (by omega)
  simp only [isCharBoundary, hnone, Option.any_none, Bool.or_false, Bool.or_eq_false_iff,
    decide_eq_false_iff_not]
  omega

/-! ### The capture -/

/-- Eviction takes characters from the front, and none where all fit. -/
lemma evict_chars (capacity : ℕ) {cs : List Bytes} (h : ∀ b ∈ cs, IsChar b) :
    ∃ gone kept, cs = gone ++ kept ∧ evict capacity cs.flatten = kept.flatten ∧
      (gone ≠ [] → capacity < cs.flatten.length) := by
  induction cs with
  | nil =>
    refine ⟨[], [], rfl, ?_, fun h => absurd rfl h⟩
    rw [evict, dif_neg (by simp)]
  | cons b cs ih =>
    rw [evict]
    split
    · next hover =>
      obtain ⟨gone, kept, hcs, hevict, -⟩ := ih fun c hc => h c (List.mem_cons_of_mem _ hc)
      refine ⟨b :: gone, kept, by rw [hcs, List.cons_append], ?_, fun _ => hover⟩
      rw [List.flatten_cons, popFrontCharacter_char (h b (by simp)), hevict]
    · exact ⟨[], b :: cs, rfl, rfl, fun h => absurd rfl h⟩

/-- The room for the marker is made by characters that leave the tail. -/
lemma assemble_chars (c : BoundedCapture) {cs : List Bytes} (h : ∀ b ∈ cs, IsChar b) :
    ∃ gone kept, cs = gone ++ kept ∧
      c.assemble cs.flatten = (c.head ++ BoundedCapture.omissionMarker
          (c.totalBytes - (c.head.length + kept.flatten.length)) ++ kept.flatten,
        c.totalBytes - (c.head.length + kept.flatten.length)) ∧
      (c.assemble cs.flatten).1.length ≤ c.limit := by
  induction cs with
  | nil =>
    rw [BoundedCapture.assemble]
    split
    · next hfits =>
      refine ⟨[], [], rfl, rfl, ?_⟩
      simpa only [List.length_append, List.flatten_nil] using hfits
    · next hover =>
      -- the marker always fits beside the head alone
      have hmarker : (BoundedCapture.omissionMarker
          (c.totalBytes - (c.head.length + 0))).length ≤ 44 :=
        BoundedCapture.omissionMarker_length_le ((Nat.sub_le _ _).trans c.totalBytes_le)
      have h1 := c.limit_min
      have h2 := c.head_le
      have h3 := c.headCapacity_eq
      simp only [minOutputLimitBytes] at h1
      simp only [List.flatten_nil, List.length_nil] at hover
      omega
  | cons b cs ih =>
    rw [BoundedCapture.assemble]
    split
    · next hfits =>
      refine ⟨[], b :: cs, rfl, rfl, ?_⟩
      simpa only [List.length_append] using hfits
    · obtain ⟨gone, kept, hcs, hassemble, hlen⟩ := ih fun c hc => h c (List.mem_cons_of_mem _ hc)
      rw [List.flatten_cons, popFrontCharacter_char (h b (by simp))]
      exact ⟨b :: gone, kept, by rw [hcs, List.cons_append], hassemble, hlen⟩

/-- The characters pushed so far, cut in three: the head, the gap and the tail. -/
inductive Captured (cs : List Bytes) (c : BoundedCapture) : Prop
  | mk (front gap back : List Bytes)
      (all : cs = front ++ (gap ++ back))
      (head : c.head = front.flatten)
      (tail : c.tail = back.flatten)
      (total : c.totalBytes = min cs.flatten.length u64Max)
      (fresh : c.tailStarted = false → gap ++ back = [])
      (full : c.tailStarted = true → ∃ b rest, gap ++ back = b :: rest ∧
        c.headCapacity < front.flatten.length + b.length)
      (overflown : gap ≠ [] → c.tailCapacity < (gap ++ back).flatten.length)

lemma captured_new (limit : ℕ) (h : minOutputLimitBytes ≤ limit) :
    Captured [] (BoundedCapture.new limit h) :=
  ⟨[], [], [], rfl, rfl, rfl, rfl, fun _ => rfl, by simp [BoundedCapture.new], by simp⟩

lemma pushChar_limit (c : BoundedCapture) (b : Bytes) : (c.pushChar b).limit = c.limit := by
  unfold BoundedCapture.pushChar
  split <;> rfl

lemma saturatingAdd_min {a b : ℕ} : saturatingAdd (min a u64Max) b = min (a + b) u64Max := by
  unfold saturatingAdd
  omega

/-- One character goes to the head, or to the tail for good. -/
lemma Captured.pushChar {cs : List Bytes} {c : BoundedCapture} (h : Captured cs c)
    (hcs : ∀ b ∈ cs, IsChar b) {b : Bytes} (hb : IsChar b) :
    Captured (cs ++ [b]) (c.pushChar b) := by
  obtain ⟨front, gap, back, hall, hhead, htail, htotal, hfresh, hfull, hover⟩ := h
  have htotal' : saturatingAdd c.totalBytes b.length =
      min (cs ++ [b]).flatten.length u64Max := by
    rw [htotal, saturatingAdd_min]
    simp
  unfold BoundedCapture.pushChar
  split
  · next hroom =>
    have hnone := hfresh hroom.1
    obtain ⟨rfl, rfl⟩ := List.append_eq_nil_iff.mp hnone
    have hhead' : c.head ++ b = (front ++ [b]).flatten := by rw [hhead]; simp
    refine ⟨front ++ [b], [], [], ?_, hhead', htail, htotal', fun _ => rfl, ?_, by simp⟩
    · rw [hall]; simp
    · intro hstarted
      rw [show c.tailStarted = true from hstarted] at hroom
      simp at hroom
  · next hroom =>
    have hback : ∀ d ∈ back ++ [b], IsChar d := by
      intro d hd
      rcases List.mem_append.mp hd with hd | hd
      · exact hcs d (by rw [hall]; simp [hd])
      · rw [List.mem_singleton.mp hd]; exact hb
    obtain ⟨gone, kept, hsplit, hevict, hgone⟩ := evict_chars c.tailCapacity hback
    have hparts : (gap ++ gone) ++ kept = gap ++ back ++ [b] := by
      rw [List.append_assoc, ← hsplit, List.append_assoc]
    have htail' : evict c.tailCapacity (c.tail ++ b) = kept.flatten := by
      rw [← hevict, htail]; simp
    refine ⟨front, gap ++ gone, kept, ?_, hhead, htail', htotal', by simp, fun _ => ?_,
      fun hgap => ?_⟩
    · rw [hparts, hall]; simp
    · rw [hparts]
      cases hstarted : c.tailStarted with
      | true =>
        obtain ⟨d, rest, hd, hlt⟩ := hfull hstarted
        exact ⟨d, rest ++ [b], by rw [hd, List.cons_append], hlt⟩
      | false =>
        refine ⟨b, [], by rw [hfresh hstarted, List.nil_append], ?_⟩
        rw [hstarted, hhead] at hroom
        simpa using hroom
    · -- what overflows once overflows for good
      rw [hparts, List.flatten_append, List.length_append]
      by_cases hempty : gap = []
      · subst hempty
        have hlt := hgone (by simpa using hgap)
        simp only [List.flatten_append, List.length_append, List.nil_append] at hlt ⊢
        exact hlt
      · have hlt := hover hempty
        exact Nat.lt_add_right _ hlt

lemma Captured.pushChars {cs : List Bytes} {c : BoundedCapture} (h : Captured cs c)
    (hcs : ∀ b ∈ cs, IsChar b) {more : List Bytes} (hmore : ∀ b ∈ more, IsChar b) :
    Captured (cs ++ more) (more.foldl BoundedCapture.pushChar c) := by
  induction more generalizing cs c with
  | nil => simpa using h
  | cons b more ih =>
    have hb := hmore b (by simp)
    have := ih (h.pushChar hcs hb) (fun d hd => ?_) fun d hd => hmore d (List.mem_cons_of_mem _ hd)
    · simpa using this
    · rcases List.mem_append.mp hd with hd | hd
      · exact hcs d hd
      · rw [List.mem_singleton.mp hd]; exact hb

/-- The text comes out whole: what the characters in the first half of the limit leave fits into
the second half. -/
def Whole (limit : ℕ) (text : Bytes) : Prop :=
  text.length ≤ limit - limit / 2 + floorBoundary text (limit / 2)

instance (limit : ℕ) (text : Bytes) : Decidable (Whole limit text) :=
  inferInstanceAs (Decidable (_ ≤ _))

lemma IsChar.length_le {b : Bytes} (h : IsChar b) : b.length ≤ 4 := by
  obtain ⟨first, rest, -, hwidth, -⟩ := h.shape
  rw [← hwidth, characterWidth]
  split_ifs <;> omega

/-- A text that was cut: a head within three bytes of its half, a gap, and a tail. -/
inductive Cut (limit : ℕ) (text : Bytes) (shown : Bytes) (omitted : ℕ) : Prop
  | mk (front gap back : Bytes)
      (all : text = front ++ (gap ++ back))
      (front_ok : fromUtf8 front = .ok)
      (back_ok : fromUtf8 back = .ok)
      (gap_pos : 0 < gap.length)
      (front_le : front.length ≤ limit / 2)
      (front_full : limit / 2 < front.length + 4)
      (long : limit - limit / 2 + front.length < text.length)
      (count : omitted = min text.length u64Max - (front.length + back.length))
      (eq : shown = front ++ BoundedCapture.omissionMarker omitted ++ back)
      (fits : shown.length ≤ limit)

lemma fromUtf8_omissionMarker (n : ℕ) : fromUtf8 (BoundedCapture.omissionMarker n) = .ok := by
  have hopen : fromUtf8 (ofString "\n...[") = .ok := by decide +kernel
  have hclose : fromUtf8 (ofString " bytes omitted]...\n") = .ok := by decide +kernel
  have hdigits : fromUtf8 (decimal n) = .ok :=
    fromUtf8_ascii fun b hb => UInt8.lt_of_le_of_lt (decimal_range hb).2 (by decide)
  exact fromUtf8_append (fromUtf8_append hopen hdigits) hclose

/-- What `finish` makes of the characters pushed: the text as it is where it is whole, and what
is left of a cut otherwise. -/
lemma Captured.finish {cs : List Bytes} {c : BoundedCapture} (h : Captured cs c)
    (hcs : ∀ b ∈ cs, IsChar b) (hmax : c.limit ≤ maxOutputLimitBytes) :
    (Whole c.limit cs.flatten ∧ c.finish = (cs.flatten, false, 0)) ∨
      ¬ Whole c.limit cs.flatten ∧
        ∃ shown omitted, c.finish = (shown, true, omitted) ∧
          Cut c.limit cs.flatten shown omitted := by
  obtain ⟨front, gap, back, hall, hhead, htail, htotal, hfresh, hfull, hover⟩ := h
  have hcap := c.headCapacity_eq
  have hcap' := c.tailCapacity_eq
  have hheadle := c.head_le
  have htaille := c.tail_le
  have hchar : ∀ b ∈ gap ++ back, IsChar b := fun b hb => hcs b (by rw [hall]; simp [hb])
  have hlen : cs.flatten.length =
      front.flatten.length + (gap.flatten.length + back.flatten.length) := by
    rw [hall]; simp
  rw [hhead] at hheadle
  rw [htail] at htaille
  have hbound : u64Max = 2 ^ 64 - 1 := rfl
  simp only [maxOutputLimitBytes] at hmax
  by_cases hgap : gap = []
  · left
    subst hgap
    simp only [List.flatten_nil, List.length_nil, List.nil_append] at hlen hall
    have hfits : c.totalBytes ≤ c.limit ∧ c.head.length + c.tail.length = c.totalBytes := by
      rw [hhead, htail, htotal]
      omega
    refine ⟨?_, ?_⟩
    · cases hstarted : c.tailStarted with
      | true =>
        obtain ⟨b, rest, hb, hlt⟩ := hfull hstarted
        rw [List.nil_append] at hb
        have hfloor : floorBoundary cs.flatten (c.limit / 2) = front.flatten.length := by
          rw [hall, hb]
          rw [hb] at hchar
          exact floorBoundary_chars (hchar b (by simp))
            (fun d hd => hchar d (by simp [hd])) (by omega) (by omega)
        rw [Whole, hfloor]
        omega
      | false =>
        have hnone := hfresh hstarted
        rw [List.nil_append] at hnone
        subst hnone
        simp only [List.flatten_nil, List.length_nil, Nat.add_zero] at hlen
        rw [Whole, floorBoundary_length (by omega)]
        omega
    · rw [BoundedCapture.finish, if_pos hfits, hhead, htail, ← List.flatten_append, ← hall,
        fromUtf8Lossy_of_ok (fromUtf8_flatten hcs)]
  · right
    have hlong := hover hgap
    simp only [List.flatten_append, List.length_append] at hlong
    have hstarted : c.tailStarted = true := by
      by_contra hno
      have := hfresh (by simpa using hno)
      exact hgap (List.append_eq_nil_iff.mp this).1
    obtain ⟨b, rest, hb, hlt⟩ := hfull hstarted
    have hb4 := (hchar b (by rw [hb]; simp)).length_le
    have hfloor : floorBoundary cs.flatten (c.limit / 2) = front.flatten.length := by
      rw [hall, hb]
      rw [hb] at hchar
      exact floorBoundary_chars (hchar b (by simp))
        (fun d hd => hchar d (by simp [hd])) (by omega) (by omega)
    have hover' : ¬ (c.totalBytes ≤ c.limit ∧ c.head.length + c.tail.length = c.totalBytes) := by
      rw [hhead, htail, htotal]
      omega
    obtain ⟨gone, kept, hback, hassemble, hfits⟩ := assemble_chars c
      fun d hd => hchar d (List.mem_append_right _ hd)
    have hgone : back.flatten.length = gone.flatten.length + kept.flatten.length := by
      rw [hback]; simp
    have hfront_ok : fromUtf8 front.flatten = .ok :=
      fromUtf8_flatten fun d hd => hcs d (by rw [hall]; simp [hd])
    have hkept_ok : fromUtf8 kept.flatten = .ok :=
      fromUtf8_flatten fun d hd => hchar d (by rw [hback]; simp [hd])
    rw [hassemble, hhead, htotal] at hfits
    refine ⟨by rw [Whole, hfloor]; omega, _, _, ?_, ⟨front.flatten, gap.flatten ++ gone.flatten,
      kept.flatten, ?_, hfront_ok, hkept_ok, ?_, by omega, by omega, by omega, rfl, rfl, hfits⟩⟩
    · rw [BoundedCapture.finish, if_neg hover', htail, hassemble, hhead, htotal]
      dsimp only
      rw [fromUtf8Lossy_of_ok
        (fromUtf8_append (fromUtf8_append hfront_ok (fromUtf8_omissionMarker _)) hkept_ok)]
    · rw [hall, hback]; simp
    · obtain ⟨d, t, rfl⟩ := List.exists_cons_of_ne_nil hgap
      have := (hchar d (by simp)).length_pos
      simp only [List.flatten_cons, List.length_append]
      omega

/-! ### Any sequence of pushes -/

lemma foldl_pushStr (c : BoundedCapture) (texts : List Bytes) :
    texts.foldl BoundedCapture.pushStr c =
      (texts.flatMap chars).foldl BoundedCapture.pushChar c := by
  induction texts generalizing c with
  | nil => rfl
  | cons t texts ih =>
    rw [List.foldl_cons, ih, List.flatMap_cons, List.foldl_append]
    rfl

lemma flatMap_chars {texts : List Bytes} (h : ∀ t ∈ texts, fromUtf8 t = .ok) :
    (∀ b ∈ texts.flatMap chars, IsChar b) ∧ (texts.flatMap chars).flatten = texts.flatten := by
  induction texts with
  | nil => simp
  | cons t texts ih =>
    obtain ⟨h1, h2⟩ := chars_of_ok (h t (by simp))
    obtain ⟨ih1, ih2⟩ := ih fun u hu => h u (List.mem_cons_of_mem _ hu)
    constructor
    · intro b hb
      rcases List.mem_append.mp (by rwa [List.flatMap_cons] at hb) with hb | hb
      · exact h1 b hb
      · exact ih1 b hb
    · rw [List.flatMap_cons, List.flatten_append, h2, ih2, List.flatten_cons]

lemma limit_foldl_pushChar (c : BoundedCapture) (cs : List Bytes) :
    (cs.foldl BoundedCapture.pushChar c).limit = c.limit := by
  induction cs generalizing c with
  | nil => rfl
  | cons b cs ih => rw [List.foldl_cons, ih, pushChar_limit]

/-- Characters pushed into a new capture, and what `finish` makes of them. -/
lemma finish_pushChars {limit : ℕ} (hmin : minOutputLimitBytes ≤ limit)
    (hmax : limit ≤ maxOutputLimitBytes) {cs : List Bytes} (hcs : ∀ b ∈ cs, IsChar b) :
    (Whole limit cs.flatten ∧
      (cs.foldl BoundedCapture.pushChar (.new limit hmin)).finish = (cs.flatten, false, 0)) ∨
    ¬ Whole limit cs.flatten ∧ ∃ shown omitted,
      (cs.foldl BoundedCapture.pushChar (.new limit hmin)).finish = (shown, true, omitted) ∧
        Cut limit cs.flatten shown omitted := by
  have h := (captured_new limit hmin).pushChars (by simp) hcs
  have hlimit := limit_foldl_pushChar (.new limit hmin) cs
  rw [List.nil_append] at h
  have := h.finish hcs (by rw [hlimit]; exact hmax)
  rwa [hlimit] at this

lemma Captured.tail_boundary {cs : List Bytes} {c : BoundedCapture} (h : Captured cs c)
    (hcs : ∀ b ∈ cs, IsChar b) :
    c.tail <:+ cs.flatten ∧
      isCharBoundary cs.flatten (cs.flatten.length - c.tail.length) = true := by
  obtain ⟨front, gap, back, hall, -, htail, -⟩ := h
  have hsplit : cs = (front ++ gap) ++ back := by rw [hall, List.append_assoc]
  have hbefore : cs.flatten.length - c.tail.length = (front ++ gap).flatten.length := by
    rw [hsplit, htail, List.flatten_append, List.length_append, Nat.add_sub_cancel]
  refine ⟨⟨(front ++ gap).flatten, by rw [htail, hsplit]; simp⟩, ?_⟩
  rw [hbefore]
  conv_lhs => rw [hsplit]
  exact isCharBoundary_start fun b hb => hcs b (by rw [hsplit]; simp [hb])

/-- **A capture that truncates is safe and exact.** After every character the tail begins on a
boundary and keeps to its half; the text that `finish` returns is well formed and keeps to the
limit; and it is the whole text, or a beginning and an end of it around a marker with the number
of bytes between them. -/
theorem capture_exact (limit : ℕ) (hmin : minOutputLimitBytes ≤ limit)
    (hmax : limit ≤ maxOutputLimitBytes) (texts : List Bytes)
    (hok : ∀ t ∈ texts, fromUtf8 t = .ok) (hsize : texts.flatten.length < 2 ^ 64) :
    (∀ done, done <+: texts.flatMap chars →
      let c := done.foldl BoundedCapture.pushChar (.new limit hmin)
      c.tail <:+ done.flatten ∧
        isCharBoundary done.flatten (done.flatten.length - c.tail.length) = true ∧
        c.tail.length ≤ c.tailCapacity) ∧
    ∃ text truncated omitted,
      (texts.foldl BoundedCapture.pushStr (.new limit hmin)).finish = (text, truncated, omitted) ∧
      fromUtf8 text = .ok ∧ text.length ≤ limit ∧
      (truncated = true → ∃ before after, before <+: texts.flatten ∧ after <:+ texts.flatten ∧
        text = before ++ BoundedCapture.omissionMarker omitted ++ after ∧
        before.length + after.length + omitted = texts.flatten.length ∧ 1 ≤ omitted) ∧
      (truncated = false → text = texts.flatten ∧ omitted = 0) := by
  obtain ⟨hcs, hflat⟩ := flatMap_chars hok
  constructor
  · rintro done ⟨rest, hdone⟩
    have hchar : ∀ b ∈ done, IsChar b := fun b hb => hcs b (by rw [← hdone]; simp [hb])
    have h := (captured_new limit hmin).pushChars (by simp) hchar
    rw [List.nil_append] at h
    obtain ⟨h1, h2⟩ := h.tail_boundary hchar
    exact ⟨h1, h2, BoundedCapture.tail_le _⟩
  · rw [foldl_pushStr]
    rcases finish_pushChars hmin hmax hcs with ⟨hwhole, heq⟩ | ⟨-, shown, omitted, heq, hcut⟩
    · refine ⟨_, _, _, heq, fromUtf8_flatten hcs, ?_, by simp, fun _ => ⟨hflat, rfl⟩⟩
      have := floorBoundary_le (texts.flatMap chars).flatten (limit / 2)
      rw [Whole] at hwhole
      omega
    · obtain ⟨front, gap, back, hall, hfront, hback, hpos, -, -, -, hcount, rfl, hfits⟩ := hcut
      rw [hflat] at hall hcount
      have hlen : texts.flatten.length = front.length + (gap.length + back.length) := by
        rw [hall]; simp
      have hword : min texts.flatten.length u64Max = texts.flatten.length :=
        Nat.min_eq_left (by simp only [u64Max]; omega)
      rw [hword] at hcount
      refine ⟨_, _, _, heq, ?_, hfits, fun _ => ⟨front, back, ?_, ?_, rfl, ?_, ?_⟩, by simp⟩
      · exact fromUtf8_append (fromUtf8_append hfront (fromUtf8_omissionMarker _)) hback
      · rw [hall]; exact List.prefix_append _ _
      · rw [hall]; exact ⟨front ++ gap, by simp⟩
      · omega
      · omega

/-- Two lines of sixty and ninety characters, of which the second is cut. -/
def twoLines : List Bytes := [List.replicate 60 0x61, List.replicate 90 0x62]

lemma twoLines_ok : ∀ t ∈ twoLines, fromUtf8 t = .ok := by
  intro t ht
  refine fromUtf8_ascii fun b hb => ?_
  simp only [twoLines, List.mem_cons, List.not_mem_nil, or_false] at ht
  rcases ht with rfl | rfl
  · rw [List.eq_of_mem_replicate hb]; decide
  · rw [List.eq_of_mem_replicate hb]; decide

theorem capture_exact_twoLines :
    ∃ text truncated omitted,
      (twoLines.foldl BoundedCapture.pushStr (.new 128 (by decide))).finish =
        (text, truncated, omitted) ∧ text.length ≤ 128 ∧
      (truncated = false → text = twoLines.flatten ∧ omitted = 0) := by
  obtain ⟨-, text, truncated, omitted, heq, -, hlen, -, hwhole⟩ :=
    capture_exact 128 (by decide) (by decide) twoLines twoLines_ok (by simp [twoLines])
  exact ⟨text, truncated, omitted, heq, hlen, hwhole⟩

/-! ### Output that fits -/

lemma fromUtf8_render (w : Bytes) : fromUtf8 (render w) = .ok :=
  fromUtf8_append (fromUtf8_pieces w) (fromUtf8_flatMap fun b _ => fromUtf8_escapedByte b)

/-- The output of a child, redacted and made printable as a whole. -/
def rendered (secrets : List RedactionSecret) (output : Bytes) : Bytes :=
  render (replace ((patternsOf secrets).map Pattern.needle) (markerOf (patternsOf secrets))
    output).1

lemma finish_pushStr {limit : ℕ} (hmin : minOutputLimitBytes ≤ limit)
    (hmax : limit ≤ maxOutputLimitBytes) {text : Bytes} (hok : fromUtf8 text = .ok) :
    (Whole limit text ∧
      ((BoundedCapture.new limit hmin).pushStr text).finish = (text, false, 0)) ∨
    ¬ Whole limit text ∧ ∃ shown omitted,
      ((BoundedCapture.new limit hmin).pushStr text).finish = (shown, true, omitted) ∧
        Cut limit text shown omitted := by
  obtain ⟨hcs, hflat⟩ := chars_of_ok hok
  have := finish_pushChars hmin hmax hcs
  rwa [hflat] at this

/-- What a redactor that is not suppressed from the start ends with. -/
lemma finish_chunks {secrets : List RedactionSecret} {limit : ℕ} {r : StreamingRedactor}
    (hnew : StreamingRedactor.new secrets limit = .ok r) (hlong : secrets.any tooShort = false)
    (chunks : List Bytes) :
    ∃ hmin, ∃ text truncated omitted,
      ((BoundedCapture.new limit hmin).pushStr (rendered secrets chunks.flatten)).finish =
        (text, truncated, omitted) ∧
      let output := (chunks.foldl StreamingRedactor.push r).finish
      output.truncated = truncated ∧ output.omittedBytes = omitted ∧
        (output.suppressed = false → output.text = text) := by
  obtain ⟨hmin, hstart⟩ := streamed_new hnew hlong
  have h := streamed_finish (streamed_chunks chunks hstart)
  rw [List.nil_append] at h
  refine ⟨hmin, _, _, _, rfl, ?_⟩
  rw [h]
  refine ⟨rfl, rfl, fun hno => ?_⟩
  simp only [reference] at hno ⊢
  rw [if_neg (by simp [hno])]
  rfl

lemma suppressed_push (r : StreamingRedactor) (chunks : List Bytes) :
    (chunks.foldl StreamingRedactor.push r).suppressed = r.suppressed := by
  induction chunks generalizing r with
  | nil => rfl
  | cons chunk chunks ih => rw [List.foldl_cons, ih, (push_setup r chunk).2.2.2]

/-- **Output that fits comes out verbatim, unless a character lies across the middle.** A text
within the limit is returned as it is exactly when it is whole, and exactly then a stream whose
rendered text fits is not reported truncated. -/
theorem verbatim_iff (limit : ℕ) (hmin : minOutputLimitBytes ≤ limit)
    (hmax : limit ≤ maxOutputLimitBytes) :
    (∀ texts : List Bytes, (∀ t ∈ texts, fromUtf8 t = .ok) → texts.flatten.length ≤ limit →
      ((texts.foldl BoundedCapture.pushStr (.new limit hmin)).finish = (texts.flatten, false, 0) ↔
        Whole limit texts.flatten)) ∧
    ∀ (secrets : List RedactionSecret) (chunks : List Bytes),
      (rendered secrets chunks.flatten).length ≤ limit →
      ∃ r, StreamingRedactor.new secrets limit = .ok r ∧
        ((chunks.foldl StreamingRedactor.push r).finish.truncated = false ↔
          secrets.any tooShort = true ∨ Whole limit (rendered secrets chunks.flatten)) := by
  constructor
  · intro texts hok _
    obtain ⟨hcs, hflat⟩ := flatMap_chars hok
    rw [foldl_pushStr, ← hflat]
    rcases finish_pushChars hmin hmax hcs with ⟨hwhole, heq⟩ | ⟨hno, shown, omitted, heq, -⟩
    · exact iff_of_true heq hwhole
    · refine iff_of_false ?_ hno
      rw [heq]
      simp
  · intro secrets chunks _
    have hnew : ∃ r, StreamingRedactor.new secrets limit = .ok r := ⟨_, dif_pos ⟨hmin, hmax⟩⟩
    obtain ⟨r, hr⟩ := hnew
    refine ⟨r, hr, ?_⟩
    cases hshort : secrets.any tooShort with
    | true =>
      refine iff_of_true ?_ (Or.inl rfl)
      have hsup : r.suppressed = true := by
        rw [StreamingRedactor.new, dif_pos ⟨hmin, hmax⟩] at hr
        cases hr
        exact hshort
      rw [StreamingRedactor.finish, if_pos (by rw [suppressed_push, hsup])]
    | false =>
      obtain ⟨hmin', text, truncated, omitted, heq, htruncated, -⟩ := finish_chunks hr hshort chunks
      rw [htruncated]
      rcases finish_pushStr hmin' hmax (fromUtf8_render _) with
        ⟨hwhole, heq'⟩ | ⟨hno, shown, omitted, heq', -⟩
      · rw [rendered, heq'] at heq
        cases heq
        exact iff_of_true rfl (Or.inr hwhole)
      · rw [rendered, heq'] at heq
        cases heq
        refine iff_of_false (by simp) ?_
        rintro (h | h)
        · cases h
        · exact hno h

/-- Two pieces that fill the limit, head and tail. -/
def bothHalves : List Bytes := [List.replicate 40 0x61, List.replicate 88 0x62]

theorem verbatim_iff_ascii :
    (bothHalves.foldl BoundedCapture.pushStr (.new 128 (by decide))).tail.length = 64 ∧
      (bothHalves.foldl BoundedCapture.pushStr (.new 128 (by decide))).finish =
        (bothHalves.flatten, false, 0) := by
  have htexts : ∀ t ∈ bothHalves, fromUtf8 t = .ok := by decide +kernel
  refine ⟨by decide +kernel, ?_⟩
  exact ((verbatim_iff 128 (by decide) (by decide)).1 bothHalves htexts (by decide +kernel)).mpr
    (by decide +kernel)

/-- A text of exactly the limit with a character of two bytes across the middle. -/
def acrossTheMiddle : Bytes := List.replicate 63 0x61 ++ [0xC3, 0xA9] ++ List.replicate 63 0x62

/-- The character is lost, although the text fits, and room is made for a marker. -/
theorem fitting_text_truncated :
    (fromUtf8 acrossTheMiddle = .ok ∧ acrossTheMiddle.length = 128) ∧
      ((BoundedCapture.new 128 (by decide)).pushStr acrossTheMiddle).finish =
        (List.replicate 63 0x61 ++ ofString "\n...[26 bytes omitted]...\n" ++
          List.replicate 39 0x62, true, 26) ∧
      ((BoundedCapture.new 128 (by decide)).pushStr acrossTheMiddle).finish ≠
        (acrossTheMiddle, false, 0) :=
  ⟨by decide +kernel, by decide +kernel, by decide +kernel⟩

/-! ### Two streams -/

/-- What the reads of a pipe deliver, up to its end. -/
def childOutput : List (Option Bytes) → Bytes
  | some (b :: chunk) :: rest => (b :: chunk) ++ childOutput rest
  | _ => []

lemma redactReader_eq_ok {reads : List (Option Bytes)} {r : StreamingRedactor}
    {output : RedactedOutput} (h : redactReader reads r = .ok output) :
    ∃ chunks : List Bytes, chunks.flatten = childOutput reads ∧
      output = (chunks.foldl StreamingRedactor.push r).finish := by
  fun_induction redactReader reads r with
  | case1 r => cases h; exact ⟨[], rfl, rfl⟩
  | case2 => cases h
  | case3 rest r => cases h; exact ⟨[], rfl, rfl⟩
  | case4 b chunk rest r ih =>
    obtain ⟨chunks, hflat, rfl⟩ := ih h
    exact ⟨(b :: chunk) :: chunks, by rw [List.flatten_cons, hflat, childOutput], rfl⟩

/-- The text of one stream, bounded by itself. -/
def boundedText (limit : ℕ) (text : Bytes) : Bytes :=
  if h : minOutputLimitBytes ≤ limit then ((BoundedCapture.new limit h).pushStr text).finish.1
  else []

/-- What may be shown of a text: all of it, or a beginning and an end around a marker that counts
the bytes missing between them. -/
def Shown (whole shown : Bytes) (missing : ℕ) : Prop :=
  (shown = whole ∧ missing = 0) ∨ ∃ before after, before <+: whole ∧ after <:+ whole ∧
    missing + before.length + after.length = whole.length ∧
    shown = before ++ BoundedCapture.omissionMarker missing ++ after

/-- The output of a run is accounted for, given the rendered texts of its streams. -/
def Accounted (limit : ℕ) (stdout stderr : Bytes) (result : RunResult) : Prop :=
  ∃ missingOut missingErr, Shown stdout result.stdout missingOut ∧
    Shown stderr result.stderr missingErr ∧
    result.stdout.length + result.stderr.length ≤ limit ∧
    result.omittedBytes = missingOut + missingErr ∧
    (result.outputTruncated = true ↔ 0 < missingOut + missingErr)

/-- One stream behind its capture: all of its text, or a cut of it. -/
def Bounded (limit : ℕ) (text shown : Bytes) (truncated : Bool) (omitted : ℕ) : Prop :=
  (shown = text ∧ truncated = false ∧ omitted = 0) ∨ truncated = true ∧ Cut limit text shown omitted

lemma bounded_stream {limit : ℕ} (hmin : minOutputLimitBytes ≤ limit)
    (hmax : limit ≤ maxOutputLimitBytes) {text shown : Bytes} {truncated : Bool} {omitted : ℕ}
    (hok : fromUtf8 text = .ok)
    (h : ((BoundedCapture.new limit hmin).pushStr text).finish = (shown, truncated, omitted)) :
    boundedText limit text = shown ∧ Bounded limit text shown truncated omitted := by
  refine ⟨by rw [boundedText, dif_pos hmin, h], ?_⟩
  rcases finish_pushStr hmin hmax hok with ⟨-, heq⟩ | ⟨-, shown', omitted', heq, hcut⟩
  · rw [h] at heq
    cases heq
    exact Or.inl ⟨rfl, rfl, rfl⟩
  · rw [h] at heq
    cases heq
    exact Or.inr ⟨rfl, hcut⟩

lemma Cut.shown {limit : ℕ} {text shown : Bytes} {omitted : ℕ} (h : Cut limit text shown omitted)
    (hsize : text.length ≤ u64Max) : Shown text shown omitted ∧ 0 < omitted := by
  obtain ⟨front, gap, back, hall, -, -, hpos, -, -, -, hcount, heq, -⟩ := h
  have hlen : text.length = front.length + (gap.length + back.length) := by
    rw [hall]; simp
  rw [Nat.min_eq_left hsize] at hcount
  refine ⟨Or.inr ⟨front, back, ?_, ?_, by omega, heq⟩, by omega⟩
  · rw [hall]; exact List.prefix_append _ _
  · rw [hall]; exact ⟨front ++ gap, by simp⟩

lemma Bounded.shown {limit : ℕ} {text shown : Bytes} {truncated : Bool} {omitted : ℕ}
    (h : Bounded limit text shown truncated omitted) (hsize : text.length ≤ u64Max) :
    Shown text shown omitted ∧ omitted ≤ text.length ∧ (truncated = true ↔ 0 < omitted) := by
  rcases h with ⟨rfl, rfl, rfl⟩ | ⟨rfl, hcut⟩
  · exact ⟨Or.inl ⟨rfl, rfl⟩, by simp, by simp⟩
  · obtain ⟨hshown, hpos⟩ := hcut.shown hsize
    refine ⟨hshown, ?_, iff_of_true rfl hpos⟩
    rcases hshown with ⟨-, rfl⟩ | ⟨before, after, -, -, hlen, -⟩ <;> omega

/-- The opening of a marker. -/
def markerOpening : Bytes := ofString "\n...["

lemma markerOpening_eq : markerOpening = ofString "\n..." ++ [0x5B] := by decide

lemma markerOpening_isPrefix (n : ℕ) : markerOpening <+: BoundedCapture.omissionMarker n := by
  rw [BoundedCapture.omissionMarker, List.append_assoc]
  exact List.prefix_append _ _

/-- A word that ends in a letter which does not occur behind `u` lies in `u`. -/
lemma infix_of_append {w u v : Bytes} {x : UInt8} (h : w ++ [x] <:+: u ++ v) (hx : x ∉ v) :
    w ++ [x] <:+: u := by
  obtain ⟨s, t, hst⟩ := h
  rcases List.append_eq_append_iff.mp hst with ⟨rest, hu, -⟩ | ⟨rest, hsw, hv⟩
  · exact ⟨s, rest, hu.symm⟩
  · rcases List.eq_nil_or_concat rest with rfl | ⟨rest, y, rfl⟩
    · exact ⟨s, [], by simpa using hsw⟩
    · -- the last letter of the word is one of `v`
      have hlast : y = x := by
        have h1 : s ++ w ++ [x] = u ++ rest ++ [y] := by simpa using hsw
        exact (List.append_inj' h1 rfl).2 |> List.singleton_inj.mp |>.symm
      refine absurd ?_ hx
      rw [hv, ← hlast]
      simp

/-- A stream cut once more, at about half the limit, shows neither all of its text nor a marker of
its own. -/
lemma not_shown_of_cut {limit budget k : ℕ} (hmin : minOutputLimitBytes ≤ limit)
    (hbudget : budget ≤ limit / 2 + 1) (hk : k ≤ budget) {text shown : Bytes} {missing : ℕ}
    {truncated : Bool} {omitted : ℕ} (hshown : Bounded limit text shown truncated omitted)
    (hover : budget < shown.length) (hplain : ¬ markerOpening <:+: text) :
    ¬ Shown text (shown.take k) missing := by
  have hin : ∀ before after, shown.take k = before ++ BoundedCapture.omissionMarker missing ++ after →
      markerOpening <:+: shown.take k := by
    intro before after heq
    rw [heq]
    exact (markerOpening_isPrefix missing).isInfix.trans ⟨before, after, rfl⟩
  rcases hshown with ⟨rfl, -⟩ | ⟨-, front, gap, back, hall, -, -, -, hle, hfull, hlong, -, heq, -⟩
  · rintro (⟨heq, -⟩ | ⟨before, after, -, -, -, heq⟩)
    · have := congrArg List.length heq
      rw [List.length_take] at this
      omega
    · exact hplain ((hin before after heq).trans (List.take_prefix _ _).isInfix)
  · rintro (⟨hall', -⟩ | ⟨before, after, -, -, -, heq'⟩)
    · have := congrArg List.length hall'
      rw [List.length_take] at this
      simp only [minOutputLimitBytes] at hmin
      omega
    · have hopen := hin before after heq'
      -- behind the head stand at most four bytes of the marker, and its bracket is the fifth
      have hshort : shown.take k <+: front ++ ofString "\n..." := by
        obtain ⟨rest, hrest⟩ := markerOpening_isPrefix omitted
        refine List.prefix_of_prefix_length_le (List.take_prefix k shown) ?_ ?_
        · rw [heq, ← hrest, markerOpening_eq]
          exact ⟨[0x5B] ++ rest ++ back, by simp⟩
        · have h4 : (ofString "\n...").length = 4 := by decide
          rw [List.length_take, List.length_append, h4]
          omega
      have hhead : markerOpening <:+: front := by
        rw [markerOpening_eq] at hopen ⊢
        exact infix_of_append (hopen.trans hshort.isInfix) (by decide)
      refine hplain (hhead.trans ?_)
      rw [hall]
      exact (List.prefix_append _ _).isInfix

lemma truncateUtf8_length_le (value : Bytes) (limit : ℕ) :
    (truncateUtf8 value limit).length ≤ limit := by
  have := floorBoundary_le value limit
  unfold truncateUtf8
  split
  · assumption
  · rw [List.length_take]
    omega

/-- The two budgets make up the limit, so nothing is left to shrink. -/
lemma enforceCombinedLimit_over {stdout stderr : Bytes} {limit : ℕ}
    (hmin : minOutputLimitBytes ≤ limit) (h : limit < stdout.length + stderr.length) :
    enforceCombinedLimit stdout stderr limit =
      (truncateUtf8 stdout (limit / 2), truncateUtf8 stderr (limit - limit / 2), true,
        stdout.length + stderr.length - ((truncateUtf8 stdout (limit / 2)).length +
          (truncateUtf8 stderr (limit - limit / 2)).length)) := by
  have hout := truncateUtf8_length_le stdout (limit / 2)
  have herr := truncateUtf8_length_le stderr (limit - limit / 2)
  simp only [minOutputLimitBytes] at hmin
  rw [enforceCombinedLimit, if_neg (by omega)]
  simp only [minOutputLimitBytes]
  rw [Nat.max_eq_left (by omega), Nat.max_eq_left (by omega), shrink, if_pos (by omega)]

/-- The output of one pipe of a child, redacted and made printable as a whole. -/
def streamText (bindings : List PreparedBinding) (reads : List (Option Bytes)) : Bytes :=
  rendered (bindings.map fun b => ⟨b.value⟩) (childOutput reads)

/-- One stream of a run that is not suppressed. -/
lemma stream_of_run {bindings : List PreparedBinding} {limit : ℕ} {r : StreamingRedactor}
    {reads : List (Option Bytes)} {output : RedactedOutput}
    (hr : makeRedactor bindings limit = .ok r) (h : redactReader reads r = .ok output)
    (hsup : output.suppressed = false) :
    (minOutputLimitBytes ≤ limit ∧ limit ≤ maxOutputLimitBytes) ∧
      boundedText limit (streamText bindings reads) = output.text ∧
      Bounded limit (streamText bindings reads) output.text output.truncated
        output.omittedBytes := by
  have hlimits : minOutputLimitBytes ≤ limit ∧ limit ≤ maxOutputLimitBytes := by
    unfold makeRedactor StreamingRedactor.new at hr
    split at hr
    · assumption
    · cases hr
  obtain ⟨chunks, hflat, rfl⟩ := redactReader_eq_ok h
  -- a value too short suppresses the stream from the start
  have hlong : (bindings.map fun b => (⟨b.value⟩ : RedactionSecret)).any tooShort = false := by
    rw [← (makeRedactor_setup hr).2]
    by_contra hshort
    rw [StreamingRedactor.finish, if_pos (by rw [suppressed_push]; simpa using hshort)] at hsup
    cases hsup
  obtain ⟨hmin, text, truncated, omitted, heq, h1, h2, h3⟩ := finish_chunks hr hlong chunks
  rw [hflat] at heq
  refine ⟨hlimits, ?_⟩
  rw [h1, h2, h3 hsup]
  exact bounded_stream hmin hlimits.2 (fromUtf8_render _) heq

/-- **The output of a run is accounted for as long as both streams fit together.** Each stream is
bounded by itself first; where the two texts then fit the limit together, each shows all of its
text or a beginning and an end around a count of what is missing, and the result adds the counts
up. Where they do not, the second cut takes the end and the marker with it: unless the child
itself wrote the opening of a marker, the result accounts for nothing. -/
theorem accounted_when_fitting (os : System) (run : PreparedRun) (result : RunResult)
    (h : execute os run = .ok result) (hsup : result.outputSuppressed = false) :
    ((boundedText run.outputLimitBytes (streamText run.bindings os.stdoutReads)).length +
          (boundedText run.outputLimitBytes (streamText run.bindings os.stderrReads)).length ≤
        run.outputLimitBytes →
      (streamText run.bindings os.stdoutReads).length +
        (streamText run.bindings os.stderrReads).length < 2 ^ 64 →
      Accounted run.outputLimitBytes (streamText run.bindings os.stdoutReads)
        (streamText run.bindings os.stderrReads) result) ∧
    (run.outputLimitBytes <
        (boundedText run.outputLimitBytes (streamText run.bindings os.stdoutReads)).length +
          (boundedText run.outputLimitBytes (streamText run.bindings os.stderrReads)).length →
      ¬ markerOpening <:+: streamText run.bindings os.stdoutReads →
      ¬ markerOpening <:+: streamText run.bindings os.stderrReads →
      ¬ Accounted run.outputLimitBytes (streamText run.bindings os.stdoutReads)
        (streamText run.bindings os.stderrReads) result) := by
  obtain ⟨rout, rerr, out, err, ho, he, hout, herr, h1, h2, h3, h4, h5⟩ := execute_eq_ok h
  rw [hsup, Eq.comm, Bool.or_eq_false_iff] at h5
  obtain ⟨⟨hmin, hmax⟩, hboundOut, hcaseOut⟩ := stream_of_run ho hout h5.1
  obtain ⟨-, hboundErr, hcaseErr⟩ := stream_of_run he herr h5.2
  generalize hlimit : run.outputLimitBytes = limit at *
  rw [hboundOut, hboundErr]
  constructor
  · intro hfits hsize
    have hnone : enforceCombinedLimit out.text err.text limit = (out.text, err.text, false, 0) :=
      if_pos hfits
    rw [hnone] at h1 h2 h3 h4
    obtain ⟨hshownOut, hleOut, htruncOut⟩ := hcaseOut.shown (by simp only [u64Max]; omega)
    obtain ⟨hshownErr, hleErr, htruncErr⟩ := hcaseErr.shown (by simp only [u64Max]; omega)
    have hsum : out.omittedBytes + err.omittedBytes ≤ u64Max := by simp only [u64Max]; omega
    refine ⟨out.omittedBytes, err.omittedBytes, h1 ▸ hshownOut, h2 ▸ hshownErr, ?_, ?_, ?_⟩
    · rw [h1, h2]
      exact hfits
    · rw [h4, saturatingAdd_eq hsum, saturatingAdd_zero hsum]
    · rw [h3, Bool.or_false, Bool.or_eq_true, htruncOut, htruncErr]
      omega
  · intro hover hplainOut hplainErr
    rw [enforceCombinedLimit_over hmin hover] at h1 h2
    dsimp only at h1 h2
    rintro ⟨missingOut, missingErr, hshownOut, hshownErr, -⟩
    -- one of the two is over its budget
    rcases Nat.lt_or_ge (limit / 2) out.text.length with hlong | hshort
    · rw [h1, truncateUtf8, if_neg (by omega)] at hshownOut
      exact not_shown_of_cut hmin (Nat.le_succ _) (floorBoundary_le _ _) hcaseOut hlong hplainOut
        hshownOut
    · have hlong : limit - limit / 2 < err.text.length := by omega
      rw [h2, truncateUtf8, if_neg (by omega)] at hshownErr
      exact not_shown_of_cut hmin (by omega) (floorBoundary_le _ _) hcaseErr hlong hplainErr
        hshownErr

/-- A run without values. -/
def chattyRun : PreparedRun where
  executable := "/usr/bin/chatty"
  arguments := []
  workingDirectory := "/"
  bindings := []
  timeout := 1000
  outputLimitBytes := 128

/-- The child writes to both of its pipes, at once. -/
def chattySystem (stdout stderr : Bytes) : System where
  temporaryFile := fun _ => .error .processFailure
  launch := fun _ => .ok ()
  attach := .ok ()
  stdoutReads := [some stdout, some []]
  stderrReads := [some stderr, some []]
  wait := .ok (some 0, .exited)
  stdinResult := .written
  cleanupFailed := false
  elapsed := 5

def chattyResult (stdout stderr : Bytes) (omitted : ℕ) : RunResult where
  exitCode := some 0
  termination := .exited
  stdout := stdout
  stderr := stderr
  duration := 5
  redactionCount := 0
  outputTruncated := 0 < omitted
  omittedBytes := omitted
  outputSuppressed := false
  tempCleanupWarning := false

theorem accounted_when_fitting_chatty :
    Accounted 128 (ofString "out") (ofString "err")
      (chattyResult (ofString "out") (ofString "err") 0) := by
  have hout : streamText [] [some (ofString "out"), some []] = ofString "out" := by decide +kernel
  have herr : streamText [] [some (ofString "err"), some []] = ofString "err" := by decide +kernel
  have h : Accounted 128 (streamText [] [some (ofString "out"), some []])
      (streamText [] [some (ofString "err"), some []])
      (chattyResult (ofString "out") (ofString "err") 0) :=
    (accounted_when_fitting (chattySystem (ofString "out") (ofString "err")) chattyRun
      (chattyResult (ofString "out") (ofString "err") 0) (by decide +kernel) rfl).1
      (by decide +kernel) (by decide +kernel)
  rwa [hout, herr] at h

/-- Both streams come out as their first halves, with no marker and no end. -/
theorem chatty_not_accounted :
    execute (chattySystem (List.replicate 100 0x61) (List.replicate 100 0x62)) chattyRun =
        .ok (chattyResult (List.replicate 64 0x61) (List.replicate 64 0x62) 72) ∧
      streamText [] [some (List.replicate 100 0x61), some []] = List.replicate 100 0x61 ∧
      ¬ Accounted 128 (List.replicate 100 0x61) (List.replicate 100 0x62)
        (chattyResult (List.replicate 64 0x61) (List.replicate 64 0x62) 72) := by
  refine ⟨by decide +kernel, by decide +kernel, ?_⟩
  rintro ⟨missingOut, -, hout, -⟩
  rcases hout with ⟨heq, -⟩ | ⟨before, after, -, -, -, heq⟩
  · have := congrArg List.length heq
    simp [chattyResult] at this
  · have hbracket : (0x5B : UInt8) ∈ (chattyResult (List.replicate 64 0x61)
        (List.replicate 64 0x62) 72).stdout := by
      rw [heq]
      obtain ⟨rest, hrest⟩ := markerOpening_isPrefix missingOut
      rw [← hrest, markerOpening_eq]
      simp
    have := List.eq_of_mem_replicate hbracket
    simp at this

end Ladon.RedactBounds
