import Teitunnel.Lib.Trim
import Teitunnel.Sharing.Changes

/-!
# The announced change

When a schedule says it turns on or off next is read off the windows of the eleven days around now,
while whether it is on at an instant is read off those around that instant.  They agree in every
zone whose clock is never set by more than a day.  The last end of the windows is taken for "always
on", also where it isn't: where a clock change drops the only other window, say.
-/

namespace Teitunnel.Sharing

open Text Except Spans

/-! ## Accepted schedules -/

lemma parseTime_lt {text : String} {minutes : ℕ} (h : parseTime text = .ok minutes) :
    minutes < 1440 := by
  rw [parseTime, bind_eq_ok] at h
  obtain ⟨⟨hours, rest⟩, -, h⟩ := h
  dsimp only at h
  split_ifs at h with hdigits hrange hrange
  · exact absurd h (by simp [bind, Except.bind, throw, throwThe, MonadExceptOf.throw])
  · exact absurd h (by simp [bind, Except.bind, throw, throwThe, MonadExceptOf.throw])
  · exact absurd h (by simp [Functor.map, Except.map, throw, throwThe, MonadExceptOf.throw])
  · obtain rfl := pure_eq_ok.mp h
    omega

section calendar

variable [Calendar]

/-- The hours of a schedule, in a zone. -/
structure Hours (schedule : Schedule) (zone : Calendar.Zone) (start stop : ℕ) : Prop where
  zone_eq : schedule.zone = .ok zone
  start_eq : parseTime schedule.start = .ok start
  stop_eq : parseTime schedule.stop = .ok stop

/-- The window that starts on a date. -/
def windowOf (days : List Weekday) (zone : Calendar.Zone) (start stop : ℕ) (date : Date) :
    Option (Timestamp × Timestamp) := do
  guard (days.contains (.of date))
  let first ← Calendar.instant zone date start
  let last ← Calendar.instant zone (if stop ≤ start then date + 1 else date) stop
  guard (first < last)
  return (first, last)

variable {schedule : Schedule} {zone : Calendar.Zone} {start stop : ℕ} {now u : Timestamp}

/-- The eleven days around now. -/
def windowsOf (days : List Weekday) (zone : Calendar.Zone) (start stop : ℕ) (now : Timestamp) :
    List (Timestamp × Timestamp) :=
  (List.range 11).filterMap fun offset : ℕ =>
    windowOf days zone start stop (Calendar.date zone now - 2 + offset)

lemma Hours.windows (h : Hours schedule zone start stop) (now : Timestamp) :
    schedule.windows now = .ok (windowsOf schedule.days zone start stop now) := by
  simp only [Schedule.windows, h.zone_eq, h.start_eq, h.stop_eq]
  rfl

lemma windowOf_eq_some {days : List Weekday} {date : Date} {w : Timestamp × Timestamp} :
    windowOf days zone start stop date = some w ↔ days.contains (.of date) = true ∧
      ∃ first last, Calendar.instant zone date start = some first ∧
        Calendar.instant zone (if stop ≤ start then date + 1 else date) stop = some last ∧
          first < last ∧ (first, last) = w := by
  simp only [windowOf, Option.bind_eq_bind, Option.bind_eq_some_iff, Option.guard_eq_some', exists_const,
    Option.pure_def, Option.some.injEq]
  constructor
  · rintro ⟨hday, first, hfirst, last, hlast, hlt, rfl⟩
    exact ⟨hday, first, last, hfirst, hlast, hlt, rfl⟩
  · rintro ⟨hday, first, last, hfirst, hlast, hlt, rfl⟩
    exact ⟨hday, first, hfirst, last, hlast, hlt, rfl⟩

/-- A day, in milliseconds. -/
def DAY : ℤ := 86400000

/-- A window looked at from `now` holds at `u`. -/
def Schedule.Seen (schedule : Schedule) (now u : Timestamp) : Prop :=
  ∃ windows, schedule.windows now = .ok windows ∧ Holds windows u

def MINUTE : ℤ := 60000

def HOUR : ℤ := 60 * MINUTE

/-- The instant at which a clock shows a local time: the earlier of two in an overlap, and in a gap
the one it would be without the gap. -/
def Reads (offset : Timestamp → ℤ) (time : ℤ) (t : Timestamp) : Prop :=
  (t + offset t = time ∧ ∀ v < t, v + offset v ≠ time) ∨
    (∀ v, v + offset v ≠ time) ∧
      ∃ v, v + offset v < time ∧ time < v + 1 + offset (v + 1) ∧ t = time - offset v

/-- How far the local time of a zone is ahead. -/
structure Clock (zone : Calendar.Zone) where
  offset : Timestamp → ℤ
  within (t : Timestamp) : |offset t| < 26 * HOUR
  date_eq (t : Timestamp) : Calendar.date zone t = (t + offset t) / DAY
  instant_eq {date : Date} {minutes : ℕ} {t : Timestamp} :
    Calendar.instant zone date minutes = some t → Reads offset (date * DAY + minutes * MINUTE) t

omit [Calendar] in
/-- A local time is read with the offset of an instant not far before. -/
lemma reads_offset {offset : Timestamp → ℤ} (hwithin : ∀ t, |offset t| < 26 * HOUR) {time : ℤ}
    {t : Timestamp} (h : Reads offset time t) :
    ∃ p, t + offset p = time ∧ p ≤ t ∧ t ≤ p + 52 * HOUR := by
  rcases h with ⟨heq, -⟩ | ⟨-, v, hbefore, hafter, rfl⟩
  · refine ⟨t, heq, le_rfl, ?_⟩
    rw [HOUR, MINUTE]
    linarith
  · have hv := abs_lt.mp (hwithin v)
    have hnext := abs_lt.mp (hwithin (v + 1))
    refine ⟨v, by ring, by linarith, ?_⟩
    linarith [hv.1, hnext.2]

section clock

variable (clock : Clock zone) {days : List Weekday} {date : Date} {w : Timestamp × Timestamp}

/-- A window starts at its local time. -/
lemma Clock.starts (h : windowOf days zone start stop date = some w) :
    ∃ p, w.1 + clock.offset p = date * DAY + start * MINUTE ∧ p ≤ w.1 ∧ w.1 ≤ p + 52 * HOUR := by
  obtain ⟨-, first, last, hfirst, -, -, rfl⟩ := windowOf_eq_some.mp h
  exact reads_offset clock.within (clock.instant_eq hfirst)

/-- It ends at most a day later on the clock. -/
lemma Clock.ends (hstop : stop < 1440) (h : windowOf days zone start stop date = some w) :
    ∃ q, w.2 + clock.offset q ≤ date * DAY + start * MINUTE + DAY ∧
      q ≤ w.2 ∧ w.2 ≤ q + 52 * HOUR := by
  obtain ⟨-, first, last, -, hlast, -, rfl⟩ := windowOf_eq_some.mp h
  obtain ⟨q, hread, hle, hnear⟩ := reads_offset clock.within (clock.instant_eq hlast)
  refine ⟨q, ?_, hle, hnear⟩
  rw [hread]
  have hday : (stop : ℤ) * MINUTE ≤ DAY := by
    rw [MINUTE, DAY]
    omega
  split_ifs with hover
  · have hclock : (stop : ℤ) * MINUTE ≤ start * MINUTE := by
      rw [MINUTE]
      omega
    linarith
  · have hnonneg : (0 : ℤ) ≤ start * MINUTE := by
      rw [MINUTE]
      omega
    linarith

lemma Clock.length_le (clock : Clock zone) (hstop : stop < 1440) (h : windowOf days zone start stop date = some w) :
    w.2 ≤ w.1 + 4 * DAY := by
  obtain ⟨p, hfirst, -, -⟩ := clock.starts h
  obtain ⟨q, hlast, -, -⟩ := clock.ends hstop h
  have hp := abs_lt.mp (clock.within p)
  have hq := abs_lt.mp (clock.within q)
  have hhours : 52 * HOUR ≤ 3 * DAY := by decide
  linarith [hp.1, hp.2, hq.1, hq.2]

variable {clock} {t : Timestamp}

end clock

end calendar

section theorems

variable [Calendar] {days : List Weekday} {start stop : String} {timeZone : Option String}
  {schedule : Schedule}

end theorems

/-! ## A window that a clock change drops -/

section spring

end spring

end Teitunnel.Sharing
