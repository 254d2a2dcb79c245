import Ladon.Error
import Ladon.Lib.Calendar
import Ladon.Lib.Utf8

/-!
The deadline that a user sets as a time of day.

The deadline is found through the C library of the user's time zone: the date of now, that day's
instant of the time, then the next day's. What the library promises about a time that the clock
shows twice, or skips, is little, and the first answer decides too much: a time that today's clock
skipped is refused although tomorrow's is less than a day away.
-/

namespace Ladon.ApprovalLifetime

open Ladon.Error Ladon.Lib Ladon.Lib.Utf8 Ladon.Lib.Calendar

def nanosPerSecond : ℤ := 1000000000

/-! ### The C library -/

/-- `struct tm`. -/
structure Tm where
  sec : ℤ
  min : ℤ
  hour : ℤ
  mday : ℤ
  mon : ℤ
  year : ℤ
  isdst : ℤ
  deriving DecidableEq

/-- What the clock shows, in seconds since it showed 1970-01-01 00:00:00. -/
def Tm.wallSeconds (tm : Tm) : ℤ :=
  dayNumber tm.year tm.mon tm.mday * 86400 + tm.hour * 3600 + tm.min * 60 + tm.sec

/-- The fields of the local time at an instant, each in its range. -/
structure Tm.Shows (offset : ℤ → ℤ) (tm : Tm) (t : ℤ) : Prop where
  mon : 0 ≤ tm.mon ∧ tm.mon < 12
  mday : 1 ≤ tm.mday ∧ tm.mday ≤ 31
  hour : 0 ≤ tm.hour ∧ tm.hour < 24
  min : 0 ≤ tm.min ∧ tm.min < 60
  sec : 0 ≤ tm.sec ∧ tm.sec < 60
  wallSeconds : tm.wallSeconds = t + offset t

/-- The library in a time zone, which is any offset from UTC at each instant. Asked with `isdst`
negative, `mktime` answers an instant that shows the fields, if there is one, and another instant
otherwise, each with the fields that it does show. -/
structure LibC (offset : ℤ → ℤ) where
  localtimeR : ℤ → Option Tm
  mktime : Tm → ℤ × Tm
  localtimeR_shows : ∀ {t tm}, localtimeR t = some tm → tm.Shows offset t
  mktime_shows : ∀ {tm}, tm.isdst = -1 → (mktime tm).2.Shows offset (mktime tm).1
  mktime_asked : ∀ {tm t}, tm.isdst = -1 → tm.wallSeconds = t + offset t →
    (mktime tm).1 + offset (mktime tm).1 = tm.wallSeconds

/-! ### The code

Instants are nanoseconds since the epoch, those of the library whole seconds. A `time_t` is as wide
as the seconds of a `SystemTime`, so that neither is ever out of the other's range.
-/

section Code

variable {offset : ℤ → ℤ} (libc : LibC offset)

def localTime (now : ℤ) : Except LadonError Tm := do
  require (0 ≤ now) .invalidRequest
  match libc.localtimeR (now / nanosPerSecond) with
  | none => .error .invalidRequest
  | some tm => return tm

def isAsciiDigit (b : UInt8) : Prop := 0x30 ≤ b ∧ b ≤ 0x39

instance (b : UInt8) : Decidable (isAsciiDigit b) := inferInstanceAs (Decidable (_ ∧ _))

def digit (b : UInt8) : ℤ := b.toNat - 48

/-- The hour and the minute of a text `HH:MM`. -/
def hourMinute (value : Bytes) : Option (ℤ × ℤ) :=
  match value with
  | [h1, h2, colon, m1, m2] =>
    if colon = 0x3a ∧ ∀ b ∈ [h1, h2, m1, m2], isAsciiDigit b then
      let hour := digit h1 * 10 + digit h2
      let minute := digit m1 * 10 + digit m2
      if 24 ≤ hour ∨ 60 ≤ minute then none else some (hour, minute)
    else none
  | _ => none

/-- The fields with the time of day replaced. -/
def Tm.atClock (tm : Tm) (hour minute : ℤ) : Tm :=
  { tm with hour := hour, min := minute, sec := 0, isdst := -1 }

/-- The loop over the dates, from the one in the fields on. -/
def deadlineFrom (now hour minute : ℤ) : ℕ → Tm → Except LadonError ℤ
  | 0, _ => .error .invalidRequest
  | days + 1, fields =>
    let fields := fields.atClock hour minute
    let (timestamp, candidate) := libc.mktime fields
    if candidate.hour ≠ hour ∨ candidate.min ≠ minute then .error .invalidRequest
    else if timestamp < 0 then .error .invalidRequest
    else
      let deadline := timestamp * nanosPerSecond
      -- the duration since now, where the deadline is not before it
      if now ≤ deadline ∧ deadline - now ≠ 0 ∧ deadline - now ≤ 24 * 3600 * nanosPerSecond then
        .ok deadline
      else deadlineFrom now hour minute days { fields with mday := fields.mday + 1 }

def localDeadlineAt (value : String) (now : ℤ) : Except LadonError ℤ :=
  match hourMinute (ofString value) with
  | none => .error .invalidRequest
  | some (hour, minute) => do
    let fields ← localTime libc now
    deadlineFrom libc now hour minute 2 fields

/-- The duration until the next local day. -/
def untilLocalDayEndAt (now : ℤ) : Except LadonError ℤ := do
  require (0 ≤ now) .invalidRequest
  match libc.localtimeR (now / nanosPerSecond) with
  | none => .error .invalidRequest
  | some fields =>
    let midnight := (libc.mktime { fields.atClock 0 0 with mday := fields.mday + 1 }).1
    require (0 ≤ midnight) .invalidRequest
    require (now ≤ midnight * nanosPerSecond) .invalidRequest
    return midnight * nanosPerSecond - now

def localDayEnd (now : ℤ) : Except LadonError ℤ := do
  return now + (← untilLocalDayEndAt libc now)

end Code

/-! ### The time of day on the clock -/

section Clock

variable {offset : ℤ → ℤ} {libc : LibC offset} {now hour minute : ℤ}

/-- An instant after now, and at most 24 hours after it. -/
def InWindow (now t : ℤ) : Prop :=
  now < t * nanosPerSecond ∧ t * nanosPerSecond ≤ now + 24 * 3600 * nanosPerSecond

instance (now t : ℤ) : Decidable (InWindow now t) := inferInstanceAs (Decidable (_ ∧ _))

/-- The clock shows the hour and the minute, and no seconds. -/
def ShowsClock (offset : ℤ → ℤ) (hour minute t : ℤ) : Prop :=
  (t + offset t) % 86400 = hour * 3600 + minute * 60

instance (offset : ℤ → ℤ) (hour minute t : ℤ) : Decidable (ShowsClock offset hour minute t) :=
  inferInstanceAs (Decidable (_ = _))

lemma Tm.Shows.showsClock_iff {tm : Tm} {t : ℤ} (h : tm.Shows offset t) (hh : 0 ≤ hour ∧ hour < 24)
    (hm : 0 ≤ minute ∧ minute < 60) :
    ShowsClock offset hour minute t ↔ tm.hour = hour ∧ tm.min = minute ∧ tm.sec = 0 := by
  have hhour := h.hour
  have hmin := h.min
  have hsec := h.sec
  have hwall := h.wallSeconds
  simp only [Tm.wallSeconds] at hwall
  rw [ShowsClock, ← hwall]
  omega

/-- The answer of `mktime` for the time of day, some days after the date in the fields. -/
def LibC.answer (libc : LibC offset) (fields : Tm) (hour minute days : ℤ) : ℤ × Tm :=
  libc.mktime ({ fields with mday := fields.mday + days }.atClock hour minute)

lemma LibC.answer_shows (fields : Tm) (days : ℤ) :
    (libc.answer fields hour minute days).2.Shows offset (libc.answer fields hour minute days).1 :=
  libc.mktime_shows rfl

/-- The answer shows the hour and the minute, and is not before the epoch. -/
def Reached (hour minute : ℤ) (a : ℤ × Tm) : Prop := a.2.hour = hour ∧ a.2.min = minute ∧ 0 ≤ a.1

instance (hour minute : ℤ) (a : ℤ × Tm) : Decidable (Reached hour minute a) :=
  inferInstanceAs (Decidable (_ ∧ _))

/-- The answer for today's date, or the one for tomorrow's where today's is not in the window: the
clock reaches the time of day on both dates, or on today's. -/
inductive Found (libc : LibC offset) (now hour minute : ℤ) : ℤ × Tm → Prop
  | today {fields : Tm} (epoch : 0 ≤ now)
      (fields_eq : libc.localtimeR (now / nanosPerSecond) = some fields)
      (reached : Reached hour minute (libc.answer fields hour minute 0))
      (inWindow : InWindow now (libc.answer fields hour minute 0).1) :
      Found libc now hour minute (libc.answer fields hour minute 0)
  | tomorrow {fields : Tm} (epoch : 0 ≤ now)
      (fields_eq : libc.localtimeR (now / nanosPerSecond) = some fields)
      (reached : Reached hour minute (libc.answer fields hour minute 0))
      (not_inWindow : ¬ InWindow now (libc.answer fields hour minute 0).1)
      (reached_tomorrow : Reached hour minute (libc.answer fields hour minute 1))
      (inWindow : InWindow now (libc.answer fields hour minute 1).1) :
      Found libc now hour minute (libc.answer fields hour minute 1)

lemma inWindow_iff {t : ℤ} : InWindow now t ↔
    now ≤ t * nanosPerSecond ∧ t * nanosPerSecond - now ≠ 0 ∧
      t * nanosPerSecond - now ≤ 24 * 3600 * nanosPerSecond := by
  rw [InWindow]
  omega

/-- One turn of the loop. -/
lemma deadlineFrom_succ (days : ℕ) (fields : Tm) :
    deadlineFrom libc now hour minute (days + 1) fields =
      if Reached hour minute (libc.answer fields hour minute 0) then
        if InWindow now (libc.answer fields hour minute 0).1 then
          .ok ((libc.answer fields hour minute 0).1 * nanosPerSecond)
        else deadlineFrom libc now hour minute days
          { fields.atClock hour minute with mday := fields.mday + 1 }
      else .error .invalidRequest := by
  have hanswer : libc.mktime (fields.atClock hour minute) = libc.answer fields hour minute 0 := by
    rw [LibC.answer, Int.add_zero]
  have hbefore : ∀ {t : ℤ}, (now ≤ t * nanosPerSecond ∧ t * nanosPerSecond - now ≠ 0 ∧
      t * nanosPerSecond - now ≤ 24 * 3600 * nanosPerSecond) = InWindow now t :=
    propext inWindow_iff.symm
  simp only [deadlineFrom, hanswer, hbefore]
  by_cases hreached : Reached hour minute (libc.answer fields hour minute 0)
  · obtain ⟨hhour, hminute, hepoch⟩ := id hreached
    rw [if_pos hreached, if_neg (by simp [hhour, hminute]), if_neg (Int.not_lt.mpr hepoch)]
    rfl
  · rw [if_neg hreached]
    split_ifs with hshown hepoch
    · rfl
    · rfl
    · exact absurd ⟨by omega, by omega, by omega⟩ hreached
    · exact absurd ⟨by omega, by omega, by omega⟩ hreached

/-- The next turn asks for the next date. -/
lemma answer_atClock (fields : Tm) :
    libc.answer { fields.atClock hour minute with mday := fields.mday + 1 } hour minute 0 =
      libc.answer fields hour minute 1 := by
  simp only [LibC.answer, Tm.atClock, Int.add_zero]

/-- The deadline is the answer that is found. -/
lemma deadlineFrom_eq_ok_iff {fields : Tm} (epoch : 0 ≤ now)
    (hfields : libc.localtimeR (now / nanosPerSecond) = some fields) {d : ℤ} :
    deadlineFrom libc now hour minute 2 fields = .ok d ↔
      ∃ a, Found libc now hour minute a ∧ d = a.1 * nanosPerSecond := by
  rw [deadlineFrom_succ, deadlineFrom_succ, answer_atClock, deadlineFrom]
  constructor
  · intro h
    split_ifs at h with h0 hw0 h1 hw1
    · cases h
      exact ⟨_, .today epoch hfields h0 hw0, rfl⟩
    · cases h
      exact ⟨_, .tomorrow epoch hfields h0 hw0 h1 hw1, rfl⟩
  · rintro ⟨a, hfound, rfl⟩
    cases hfound with
    | today _ hfields' h0 hw0 =>
      cases hfields.symm.trans hfields'
      rw [if_pos h0, if_pos hw0]
    | tomorrow _ hfields' h0 hw0 h1 hw1 =>
      cases hfields.symm.trans hfields'
      rw [if_pos h0, if_neg hw0, if_pos h1, if_pos hw1]

lemma localDeadlineAt_eq_ok_iff {value : String} (hvalue : hourMinute (ofString value) =
    some (hour, minute)) {d : ℤ} :
    localDeadlineAt libc value now = .ok d ↔
      ∃ a, Found libc now hour minute a ∧ d = a.1 * nanosPerSecond := by
  simp only [localDeadlineAt, hvalue, localTime, bind_eq_ok, require_eq_ok]
  constructor
  · rintro ⟨fields, ⟨-, epoch, h⟩, hd⟩
    split at h
    · cases h
    · next tm hfields =>
      cases h
      exact (deadlineFrom_eq_ok_iff epoch hfields).mp hd
  · rintro ⟨a, hfound, rfl⟩
    obtain ⟨fields, epoch, hfields⟩ : ∃ fields, 0 ≤ now ∧
        libc.localtimeR (now / nanosPerSecond) = some fields := by
      cases hfound with
      | today epoch hfields => exact ⟨_, epoch, hfields⟩
      | tomorrow epoch hfields => exact ⟨_, epoch, hfields⟩
    refine ⟨fields, ⟨(), epoch, by rw [hfields]; rfl⟩, ?_⟩
    exact (deadlineFrom_eq_ok_iff epoch hfields).mpr ⟨a, hfound, rfl⟩

lemma Found.reached {a : ℤ × Tm} (h : Found libc now hour minute a) :
    Reached hour minute a ∧ InWindow now a.1 ∧ a.2.Shows offset a.1 := by
  cases h with
  | today _ _ h0 hw0 => exact ⟨h0, hw0, libc.answer_shows _ _⟩
  | tomorrow _ _ _ _ h1 hw1 => exact ⟨h1, hw1, libc.answer_shows _ _⟩

end Clock

/-! ### The texts -/

/-- The text `HH:MM`. -/
def clockText (hour : Fin 24) (minute : Fin 60) : Bytes :=
  [UInt8.ofNat (48 + hour.1 / 10), UInt8.ofNat (48 + hour.1 % 10), 0x3a,
    UInt8.ofNat (48 + minute.1 / 10), UInt8.ofNat (48 + minute.1 % 10)]

lemma digit_ofNat {n : ℕ} (h : n < 10) :
    isAsciiDigit (UInt8.ofNat (48 + n)) ∧ digit (UInt8.ofNat (48 + n)) = n := by
  have hnat : (UInt8.ofNat (48 + n)).toNat = 48 + n := by
    rw [UInt8.toNat_ofNat']
    omega
  refine ⟨⟨?_, ?_⟩, by rw [digit, hnat]; omega⟩
  · rw [UInt8.le_iff_toNat_le, hnat]
    exact Nat.le_add_right 48 n
  · rw [UInt8.le_iff_toNat_le, hnat]
    exact Nat.add_le_add_left (Nat.le_of_lt_succ h) 48

lemma hourMinute_clockText (hour : Fin 24) (minute : Fin 60) :
    hourMinute (clockText hour minute) = some ((hour.1 : ℤ), (minute.1 : ℤ)) := by
  have hhour := hour.2
  have hminute := minute.2
  obtain ⟨a1, d1⟩ := digit_ofNat (show hour.1 / 10 < 10 by omega)
  obtain ⟨a2, d2⟩ := digit_ofNat (show hour.1 % 10 < 10 by omega)
  obtain ⟨a3, d3⟩ := digit_ofNat (show minute.1 / 10 < 10 by omega)
  obtain ⟨a4, d4⟩ := digit_ofNat (show minute.1 % 10 < 10 by omega)
  have hform : (0x3a : UInt8) = 0x3a ∧ ∀ b ∈ [UInt8.ofNat (48 + hour.1 / 10),
      UInt8.ofNat (48 + hour.1 % 10), UInt8.ofNat (48 + minute.1 / 10),
      UInt8.ofNat (48 + minute.1 % 10)], isAsciiDigit b :=
    ⟨rfl, by simp only [List.forall_mem_cons]; exact ⟨a1, a2, a3, a4, by simp⟩⟩
  rw [clockText, hourMinute]
  dsimp only
  rw [if_pos hform, d1, d2, d3, d4, if_neg (by omega)]
  congr 2
  · omega
  · omega

lemma digit_range {b : UInt8} (h : isAsciiDigit b) : 0 ≤ digit b ∧ digit b ≤ 9 := by
  obtain ⟨h0, h9⟩ := h
  rw [UInt8.le_iff_toNat_le] at h0 h9
  have h0' : 48 ≤ b.toNat := h0
  have h9' : b.toNat ≤ 57 := h9
  simp only [digit]
  omega

lemma digit_eq {b : UInt8} (h : isAsciiDigit b) {n : ℕ} (hn : (n : ℤ) = digit b) :
    UInt8.ofNat (48 + n) = b := by
  obtain ⟨h0, h9⟩ := h
  rw [UInt8.le_iff_toNat_le] at h0 h9
  have h0' : 48 ≤ b.toNat := h0
  simp only [digit] at hn
  rw [show 48 + n = b.toNat by omega, UInt8.ofNat_toNat]

/-- No other text has an hour and a minute. -/
lemma exists_clockText {value : Bytes} {hour minute : ℤ}
    (h : hourMinute value = some (hour, minute)) : ∃ h m, value = clockText h m := by
  unfold hourMinute at h
  split at h
  · next h1 h2 colon m1 m2 =>
    split at h
    swap
    · cases h
    next hform =>
    dsimp only at h
    split at h
    · cases h
    next hrange =>
    simp only [List.forall_mem_cons] at hform
    obtain ⟨rfl, d1, d2, d3, d4, -⟩ := hform
    have r1 := digit_range d1
    have r2 := digit_range d2
    have r3 := digit_range d3
    have r4 := digit_range d4
    refine ⟨⟨(digit h1 * 10 + digit h2).toNat, by omega⟩,
      ⟨(digit m1 * 10 + digit m2).toNat, by omega⟩, ?_⟩
    rw [clockText, digit_eq d1 (by simp only; omega), digit_eq d2 (by simp only; omega),
      digit_eq d3 (by simp only; omega), digit_eq d4 (by simp only; omega)]
  · cases h

/-! ### Zones with one change -/

section Change

/-- An offset that changes once. -/
structure Change where
  turn : ℤ
  before : ℤ
  after : ℤ

namespace Change

def offset (c : Change) (t : ℤ) : ℤ := if t < c.turn then c.before else c.after

/-- The fields of a number of seconds on the clock. -/
def fields (w : ℤ) : Tm where
  sec := w % 60
  min := w % 3600 / 60
  hour := w % 86400 / 3600
  mday := (date (w / 86400)).mday
  mon := (date (w / 86400)).mon
  year := (date (w / 86400)).year
  isdst := 0

lemma fields_wallSeconds (w : ℤ) : (fields w).wallSeconds = w := by
  simp only [fields, Tm.wallSeconds, dayNumber_date]
  omega

lemma fields_shows {offset : ℤ → ℤ} (t : ℤ) : (fields (t + offset t)).Shows offset t where
  mon := (date _).mon_range
  mday := (date _).mday_range
  hour := by simp only [fields]; omega
  min := by simp only [fields]; omega
  sec := by simp only [fields]; omega
  wallSeconds := fields_wallSeconds _

/-- The instant that shows a number of seconds on the clock: by the offset before the change, if
that is then still in force, else by the one after it; what is skipped is read by the former. -/
def instant (c : Change) (w : ℤ) : ℤ :=
  if w - c.before < c.turn then w - c.before
  else if c.turn ≤ w - c.after then w - c.after
  else w - c.before

/-- The library in the zone. -/
def libc (c : Change) : LibC c.offset where
  localtimeR t := some (fields (t + c.offset t))
  mktime tm := (c.instant tm.wallSeconds,
    fields (c.instant tm.wallSeconds + c.offset (c.instant tm.wallSeconds)))
  localtimeR_shows h := by
    cases h
    exact fields_shows _
  mktime_shows _ := fields_shows _
  mktime_asked {tm t} _ h := by
    simp only [instant, offset] at h ⊢
    split_ifs at h ⊢ <;> omega

end Change

end Change

/-- New York in 2026: from 07:00 UTC on 8 March the clock is four hours behind instead of five. -/
def newYork : Change := ⟨1772953200, -5 * 3600, -4 * 3600⟩

/-! ### When the deadline is right -/

section Right

variable {offset : ℤ → ℤ}

/-- A deadline is answered just when the clock shows the time in the window, and it is then such an
instant. -/
def Right (libc : LibC offset) (value : String) (now hour minute : ℤ) : Prop :=
  ((∃ d, localDeadlineAt libc value now = .ok d) ↔
      ∃ t, InWindow now t ∧ ShowsClock offset hour minute t) ∧
    ∀ d, localDeadlineAt libc value now = .ok d →
      ∃ t, d = t * nanosPerSecond ∧ InWindow now t ∧ ShowsClock offset hour minute t

/-- The clock shows the time in the window. -/
def Due (offset : ℤ → ℤ) (now hour minute : ℤ) : Prop :=
  ∃ t, InWindow now t ∧ ShowsClock offset hour minute t

/-- What the dates around now must be like. The loop looks at one instant of today's date and one
of tomorrow's, in the library's choice. -/
structure Regular (libc : LibC offset) (now hour minute : ℤ) : Prop where
  /-- A time that is due is so after 1970 began, at a date that the library knows. -/
  known : Due offset now hour minute →
    0 ≤ now ∧ ∃ fields, libc.localtimeR (now / nanosPerSecond) = some fields
  /-- A time that is due is not skipped today. -/
  notSkipped : ∀ fields, libc.localtimeR (now / nanosPerSecond) = some fields →
    Due offset now hour minute → Reached hour minute (libc.answer fields hour minute 0)
  /-- A time that is due is so at today's instant or at tomorrow's, which is not skipped then. -/
  chosen : ∀ fields, libc.localtimeR (now / nanosPerSecond) = some fields →
    Due offset now hour minute → InWindow now (libc.answer fields hour minute 0).1 ∨
      Reached hour minute (libc.answer fields hour minute 1) ∧
        InWindow now (libc.answer fields hour minute 1).1
  /-- The clock is not set forward into the minute: not today, where today's instant is in the window, -/
  fullMinute : ∀ fields, 0 ≤ now → libc.localtimeR (now / nanosPerSecond) = some fields →
    Reached hour minute (libc.answer fields hour minute 0) →
    InWindow now (libc.answer fields hour minute 0).1 → (libc.answer fields hour minute 0).2.sec = 0
  /-- nor tomorrow, where it is not and tomorrow's is. -/
  fullMinuteTomorrow : ∀ fields, 0 ≤ now → libc.localtimeR (now / nanosPerSecond) = some fields →
    Reached hour minute (libc.answer fields hour minute 0) →
    ¬ InWindow now (libc.answer fields hour minute 0).1 →
    Reached hour minute (libc.answer fields hour minute 1) →
    InWindow now (libc.answer fields hour minute 1).1 → (libc.answer fields hour minute 1).2.sec = 0

lemma Regular.sec_of_found {libc : LibC offset} {now hour minute : ℤ}
    (h : Regular libc now hour minute) {a : ℤ × Tm} (hfound : Found libc now hour minute a) :
    a.2.sec = 0 := by
  cases hfound with
  | today epoch hfields h0 hw0 => exact h.fullMinute _ epoch hfields h0 hw0
  | tomorrow epoch hfields h0 hw0 h1 hw1 => exact h.fullMinuteTomorrow _ epoch hfields h0 hw0 h1 hw1

lemma due_iff_found {libc : LibC offset} {now hour minute : ℤ} :
    (Due offset now hour minute → ∃ a, Found libc now hour minute a) ∧
        (∀ a, Found libc now hour minute a → a.2.sec = 0) ↔
      Regular libc now hour minute := by
  constructor
  · rintro ⟨hfound, hsec⟩
    refine ⟨fun hdue => ?_, fun fields hfields hdue => ?_, fun fields hfields hdue => ?_,
      fun fields epoch hfields h0 hw0 => hsec _ (.today epoch hfields h0 hw0),
      fun fields epoch hfields h0 hw0 h1 hw1 => hsec _ (.tomorrow epoch hfields h0 hw0 h1 hw1)⟩
    · obtain ⟨a, ha⟩ := hfound hdue
      cases ha with
      | today epoch hfields => exact ⟨epoch, _, hfields⟩
      | tomorrow epoch hfields => exact ⟨epoch, _, hfields⟩
    · obtain ⟨a, ha⟩ := hfound hdue
      cases ha with
      | today _ hfields' h0 => cases hfields.symm.trans hfields'; exact h0
      | tomorrow _ hfields' h0 => cases hfields.symm.trans hfields'; exact h0
    · obtain ⟨a, ha⟩ := hfound hdue
      cases ha with
      | today _ hfields' _ hw0 => cases hfields.symm.trans hfields'; exact Or.inl hw0
      | tomorrow _ hfields' _ _ h1 hw1 =>
        cases hfields.symm.trans hfields'
        exact Or.inr ⟨h1, hw1⟩
  · intro h
    refine ⟨fun hdue => ?_, fun a => h.sec_of_found⟩
    obtain ⟨epoch, fields, hfields⟩ := h.known hdue
    have h0 := h.notSkipped fields hfields hdue
    by_cases hw0 : InWindow now (libc.answer fields hour minute 0).1
    · exact ⟨_, .today epoch hfields h0 hw0⟩
    · obtain hw0' | ⟨h1, hw1⟩ := h.chosen fields hfields hdue
      · exact absurd hw0' hw0
      · exact ⟨_, .tomorrow epoch hfields h0 hw0 h1 hw1⟩

lemma found_shows {libc : LibC offset} {now : ℤ} {hour : Fin 24} {minute : Fin 60} {a : ℤ × Tm}
    (hfound : Found libc now hour minute a) : ShowsClock offset hour minute a.1 ↔ a.2.sec = 0 := by
  obtain ⟨⟨hhour, hminute, -⟩, -, hshow⟩ := hfound.reached
  rw [hshow.showsClock_iff (by omega) (by omega)]
  exact ⟨fun h => h.2.2, fun h => ⟨hhour, hminute, h⟩⟩

/-- **When a custom deadline is right.** It is just on regular dates; and every text that is not a
time of day is refused. -/
theorem deadline_right_iff (libc : LibC offset) (now : ℤ) (value : String) :
    (∀ (hour : Fin 24) (minute : Fin 60), ofString value = clockText hour minute →
      (Right libc value now hour minute ↔ Regular libc now hour minute)) ∧
      ((∀ (hour : Fin 24) (minute : Fin 60), ofString value ≠ clockText hour minute) →
        localDeadlineAt libc value now = .error .invalidRequest) := by
  constructor
  · intro hour minute hvalue
    have hread : hourMinute (ofString value) = some ((hour.1 : ℤ), (minute.1 : ℤ)) := by
      rw [hvalue, hourMinute_clockText]
    rw [← due_iff_found]
    simp only [Right, localDeadlineAt_eq_ok_iff hread]
    constructor
    · rintro ⟨hiff, hright⟩
      refine ⟨fun hdue => ?_, fun a hfound => ?_⟩
      · obtain ⟨d, a, hfound, -⟩ := hiff.mpr hdue
        exact ⟨a, hfound⟩
      · obtain ⟨t, ht, -, hshow⟩ := hright _ ⟨a, hfound, rfl⟩
        have hsame : a.1 = t := by
          simp only [nanosPerSecond] at ht
          omega
        rw [← found_shows hfound, hsame]
        exact hshow
    · rintro ⟨hdue, hsec⟩
      have hright : ∀ a, Found libc now hour minute a →
          InWindow now a.1 ∧ ShowsClock offset hour minute a.1 := fun a hfound =>
        ⟨hfound.reached.2.1, (found_shows hfound).mpr (hsec a hfound)⟩
      refine ⟨⟨?_, ?_⟩, ?_⟩
      · rintro ⟨d, a, hfound, -⟩
        exact ⟨a.1, hright a hfound⟩
      · intro h
        obtain ⟨a, hfound⟩ := hdue h
        exact ⟨_, a, hfound, rfl⟩
      · rintro d ⟨a, hfound, rfl⟩
        exact ⟨a.1, rfl, hright a hfound⟩
  · intro hother
    have hnone : hourMinute (ofString value) = none := by
      by_contra hsome
      obtain ⟨⟨h, m⟩, hread⟩ := Option.ne_none_iff_exists'.mp hsome
      obtain ⟨hour, minute, hvalue⟩ := exists_clockText hread
      exact hother hour minute hvalue
    rw [localDeadlineAt, hnone]

/-- At 03:30 on the day of the change, a time of 02:30 is refused: the clock skipped it. Tomorrow's
is shown in 23 hours. -/
theorem skipped_time_refused :
    localDeadlineAt newYork.libc "02:30" (1772955000 * nanosPerSecond) = .error .invalidRequest ∧
      Due newYork.offset (1772955000 * nanosPerSecond) 2 30 ∧
      ¬ Right newYork.libc "02:30" (1772955000 * nanosPerSecond) 2 30 := by
  have hrefused : localDeadlineAt newYork.libc "02:30" (1772955000 * nanosPerSecond) =
      .error .invalidRequest := by
    decide +kernel
  have hdue : Due newYork.offset (1772955000 * nanosPerSecond) 2 30 :=
    ⟨1772955000 + 23 * 3600, by decide +kernel⟩
  refine ⟨hrefused, hdue, fun h => ?_⟩
  obtain ⟨d, hd⟩ := h.1.mpr hdue
  rw [hrefused] at hd
  cases hd

/-! ### Ordinary days -/

/-- Where the offset is the same all around, the answer for a day is its instant of the time. -/
lemma answer_of_unchanged (libc : LibC offset) {n c : ℤ} (hour : Fin 24) (minute : Fin 60)
    {fields : Tm} {days : ℤ} (hshows : fields.Shows offset n) (hdays : 0 ≤ days ∧ days ≤ 1)
    (hepoch : 86400 ≤ n) (hnear : ∀ t, n - 4 * 86400 ≤ t → t ≤ n + 4 * 86400 → offset t = c)
    (hfar : ∀ t, -86400 ≤ offset t ∧ offset t ≤ 86400) :
    (libc.answer fields hour minute days).1 =
        n - (n + c) % 86400 + (hour * 3600 + minute * 60) + days * 86400 ∧
      Reached hour minute (libc.answer fields hour minute days) ∧
      (libc.answer fields hour minute days).2.sec = 0 := by
  have hhour : (hour.1 : ℤ) < 24 := by omega
  have hminute : (minute.1 : ℤ) < 60 := by omega
  obtain ⟨t, ht⟩ : ∃ t : ℤ, t =
    n - (n + c) % 86400 + (hour * 3600 + minute * 60) + days * 86400 := ⟨_, rfl⟩
  have hrange : n - 86400 < t ∧ t < n + 2 * 86400 := by omega
  have hc : offset n = c := hnear n (by omega) (by omega)
  have ht' : offset t = c := hnear t (by omega) (by omega)
  have hasked : ({ fields with mday := fields.mday + days }.atClock hour minute).wallSeconds =
      t + offset t := by
    have hwall := hshows.wallSeconds
    have hfhour := hshows.hour
    have hfmin := hshows.min
    have hfsec := hshows.sec
    rw [hc] at hwall
    simp only [Tm.wallSeconds, Tm.atClock, dayNumber_add] at hwall ⊢
    rw [ht', ht]
    omega
  obtain ⟨a, ha⟩ : ∃ a, a = libc.answer fields hour minute days := ⟨_, rfl⟩
  have hanswer : a.1 + offset a.1 = t + offset t := by
    rw [ha, ← hasked]
    exact libc.mktime_asked rfl hasked
  have hshown : a.2.Shows offset a.1 := by
    rw [ha]
    exact libc.answer_shows fields days
  -- no instant far away can show the time of this day
  have hsame : a.1 = t := by
    have hoffset := hfar a.1
    have hc' := hfar n
    have ha' : offset a.1 = c := hnear a.1 (by omega) (by omega)
    omega
  have hclock : ShowsClock offset hour minute a.1 := by
    rw [ShowsClock, hsame, ht', ht]
    omega
  obtain ⟨hshour, hsminute, hssec⟩ := (hshown.showsClock_iff (by omega) (by omega)).mp hclock
  rw [← ha]
  exact ⟨hsame.trans ht, ⟨hshour, hsminute, by omega⟩, hssec⟩

/-- **On ordinary days the deadline is right.** Where the clock is not changed within four days, the
dates around now are regular. -/
theorem regular_of_unchanged {libc : LibC offset} {now c : ℤ} {hour : Fin 24} {minute : Fin 60}
    {fields : Tm} (hfields : libc.localtimeR (now / nanosPerSecond) = some fields)
    (hepoch : 86400 ≤ now / nanosPerSecond)
    (hnear : ∀ t, now / nanosPerSecond - 4 * 86400 ≤ t → t ≤ now / nanosPerSecond + 4 * 86400 →
      offset t = c)
    (hfar : ∀ t, -86400 ≤ offset t ∧ offset t ≤ 86400) : Regular libc now hour minute := by
  obtain ⟨n, hn⟩ : ∃ n, n = now / nanosPerSecond := ⟨_, rfl⟩
  rw [← hn] at hepoch hnear
  have hshows : fields.Shows offset n := by
    rw [hn]
    exact libc.localtimeR_shows hfields
  have hhour : (hour.1 : ℤ) < 24 := by omega
  have hminute : (minute.1 : ℤ) < 60 := by omega
  obtain ⟨h0, hreached0, hsec0⟩ := answer_of_unchanged libc hour minute hshows
    (show 0 ≤ (0 : ℤ) ∧ (0 : ℤ) ≤ 1 by decide) hepoch hnear hfar
  obtain ⟨h1, hreached1, hsec1⟩ := answer_of_unchanged libc hour minute hshows
    (show 0 ≤ (1 : ℤ) ∧ (1 : ℤ) ≤ 1 by decide) hepoch hnear hfar
  refine ⟨fun _ => ⟨by simp only [nanosPerSecond] at hn; omega, fields, hfields⟩, fun f hf _ => ?_,
    fun f hf hdue => ?_, fun f _ hf _ _ => ?_, fun f _ hf _ _ _ _ => ?_⟩
  · cases hfields.symm.trans hf
    exact hreached0
  · cases hfields.symm.trans hf
    obtain ⟨t, hwindow, hclock⟩ := hdue
    have hseconds : n < t ∧ t ≤ n + 86400 := by
      rw [InWindow] at hwindow
      simp only [nanosPerSecond] at hwindow hn
      omega
    rw [ShowsClock, hnear t (by omega) (by omega)] at hclock
    rw [h0, h1]
    by_cases hlater : n < n - (n + c) % 86400 + (hour * 3600 + minute * 60)
    · refine Or.inl ?_
      have : t = n - (n + c) % 86400 + (hour * 3600 + minute * 60) + 0 * 86400 := by omega
      rw [← this]
      exact hwindow
    · refine Or.inr ⟨hreached1, ?_⟩
      have : t = n - (n + c) % 86400 + (hour * 3600 + minute * 60) + 1 * 86400 := by omega
      rw [← this]
      exact hwindow
  · cases hfields.symm.trans hf
    exact hsec0
  · cases hfields.symm.trans hf
    exact hsec1

end Right

end Ladon.ApprovalLifetime
