import Forecast.Proofs.Calendar.Anchored
import Forecast.Proofs.Request.Params
import Forecast.Report
import Forecast.ViewMode

/-!
# Where windows come from

A window is made from its ends, read from a text, alone or inside a larger record, asked for by
parameters, or counted from a date. Each of these asks for a first and a last date (`Origin.Asks`), and
a window comes of it exactly if the two are in order (`Origin.window_eq_ok_iff`).

Windows that are counted from a date are not compared with anything. They are in order because their
last date is a number of days after the first one or the last day of its month. Where the count leaves
the calendar there is no such date and no window; the last day of a month never leaves it.
-/

namespace Forecast

variable {d e : Date} {n : Nat} {w : Window} {ends : Window.Ends} {v : Json.Value} {t : String}

/-! ## Counting from a date -/

theorem Window.eq_iff {w w' : Window} : w = w' ↔ w.first = w'.first ∧ w.last = w'.last := by
  cases w
  cases w'
  rw [mk.injEq]

theorem Window.reaching_eq_ok_iff :
    reaching d n = .ok w ↔ w.first = d ∧ w.last.dayNumber = d.dayNumber + n := by
  unfold reaching
  split
  · rw [Except.ok.injEq, eq_comm, eq_iff, Date.ext_iff (a := w.last)]
  · rename_i h
    constructor
    · rintro ⟨⟩
    · rintro ⟨-, hlast⟩
      exact absurd (hlast ▸ w.last.le_latest) h

/-- The end of a date's month is the last day of that month, also where no month follows. -/
theorem Date.eq_endOfMonth_iff : e = d.endOfMonth ↔ e.month = d.month ∧ e.day = d.month.length := by
  obtain ⟨hmonth, hday⟩ := Month.month_day_lastDate d.inCalendar_month
  constructor
  · rintro rfl
    exact ⟨hmonth, hday⟩
  · rintro ⟨hm, hd⟩
    exact eq_of_month_day (hm.trans hmonth.symm) (hd.trans hday.symm)

/-! ## Records with a window in them -/

theorem Request.exists_read?_iff : (∃ r : Request, Json.read? t = some r ∧ r.window = w) ↔
    ∃ household accounts, Spells t household w.ends accounts := by
  constructor
  · rintro ⟨r, hr, rfl⟩
    exact ⟨_, _, read?_eq_some_iff.1 hr⟩
  · rintro ⟨household, accounts, h⟩
    exact ⟨⟨household, w, accounts⟩, read?_eq_some_iff.2 h, rfl⟩

/-- The value holds all that makes a summary, with the ends of its window in any order. -/
def Summary.SpelledBy (v : Json.Value) (ends : Window.Ends) : Prop :=
  ∃ (a b c d e f g : Json.Slot) (income expenses net starting ending : Decimal) (count : Nat),
    v.slots? ["total_income", "total_expenses", "net_cash_flow", "event_count", "starting_balance",
      "ending_balance", "date_range"] = some [a, b, c, d, e, f, g] ∧
    a.required = some income ∧ b.required = some expenses ∧ c.required = some net ∧
    d.required = some count ∧ e.required = some starting ∧ f.required = some ending ∧
    g.required = some ends

theorem Summary.exists_decode?_iff :
    (∃ s : Summary, Json.decode? v = some s ∧ s.window = w) ↔ SpelledBy v w.ends := by
  constructor
  · rintro ⟨s, hs, rfl⟩
    obtain ⟨slots, hslots, hs⟩ := Option.bind_eq_some_iff.1 hs
    split at hs
    · simp only [Option.bind_eq_bind, Option.bind_eq_some_iff, Option.pure_def,
        Option.some.injEq] at hs
      obtain ⟨_, ha, _, hb, _, hc, _, hd, _, he, _, hf, _, hg, rfl⟩ := hs
      exact ⟨_, _, _, _, _, _, _, _, _, _, _, _, _, hslots, ha, hb, hc, hd, he, hf,
        Window.required_eq_some_iff.1 hg⟩
    · cases hs
  · rintro ⟨a, b, c, d, e, f, g, income, expenses, net, starting, ending, count, hslots, ha, hb, hc,
      hd, he, hf, hg⟩
    refine ⟨⟨income, expenses, net, count, starting, ending, w⟩,
      Option.bind_eq_some_iff.2 ⟨_, hslots, ?_⟩, rfl⟩
    simp [ha, hb, hc, hd, he, hf, Window.required_eq_some_iff.2 hg]

/-- The value holds all that makes a report, with the ends of its window in any order. -/
def Report.SpelledBy (v : Json.Value) (ends : Window.Ends) : Prop :=
  ∃ (a b c : Json.Slot) (summary : Json.Value) (events : List Event) (curve : List BalancePoint)
    (alerts : List Alert),
    v.slots? ["projections", "balance_curve", "summary", "alerts"] =
      some [a, b, .given summary, c] ∧
    a.required = some events ∧ b.required = some curve ∧ Summary.SpelledBy summary ends ∧
    c.required = some alerts

theorem Report.exists_decode?_iff :
    (∃ r : Report, Json.decode? v = some r ∧ r.summary.window = w) ↔ SpelledBy v w.ends := by
  constructor
  · rintro ⟨r, hr, rfl⟩
    obtain ⟨slots, hslots, hr⟩ := Option.bind_eq_some_iff.1 hr
    split at hr
    · simp only [Option.bind_eq_bind, Option.bind_eq_some_iff, Option.pure_def,
        Option.some.injEq] at hr
      obtain ⟨_, ha, _, hb, summary, hsummary, _, hc, rfl⟩ := hr
      obtain ⟨summary, rfl, hsummary⟩ := Json.Slot.required_eq_some_iff.1 hsummary
      exact ⟨_, _, _, summary, _, _, _, hslots, ha, hb,
        Summary.exists_decode?_iff.1 ⟨_, hsummary, rfl⟩, hc⟩
    · cases hr
  · rintro ⟨a, b, c, summary, events, curve, alerts, hslots, ha, hb, hsummary, hc⟩
    obtain ⟨s, hs, rfl⟩ := Summary.exists_decode?_iff.2 hsummary
    refine ⟨⟨events, curve, s, alerts⟩, Option.bind_eq_some_iff.2 ⟨_, hslots, ?_⟩, rfl⟩
    simp [ha, hb, hc, Json.Slot.required_eq_some_iff.2 ⟨_, rfl, hs⟩]

/-! ## Origins -/

/-- Where a window can come from. -/
inductive Window.Origin
  | between (first last : Date)
  | windowText (t : String)
  | requestText (t : String)
  /-- The text of a request, for the reader that tells inverted windows apart. -/
  | checkedText (t : String)
  | summaryText (t : String)
  | reportText (t : String)
  | params (household : Uuid) (first last : Option String) (accounts : Option (List Uuid))
    (today : Date) (settings : Settings)
  | standard (household : Uuid) (today : Date) (settings : Settings)
  | upcoming (household : Uuid) (today : Date) (days : UInt32)
  | view (mode : ViewMode) (start : Date)

namespace Window.Origin

/-- The window, or the failure in its place. -/
def window : Origin → Attempt Window
  | between first last => (Request.windowBetween first last).attempt
  | windowText t => (Outcome.ofJson t).attempt
  | requestText t => Outcome.attempt ((Outcome.ofJson t : Outcome Request).map Request.window)
  | checkedText t => Outcome.attempt ((Request.ofJson t).map Request.window)
  | summaryText t => Outcome.attempt ((Outcome.ofJson t : Outcome Summary).map Summary.window)
  | reportText t => Outcome.attempt ((Outcome.ofJson t : Outcome Report).map fun r => r.summary.window)
  | params household first last accounts today settings =>
    (Request.ofParams household first last accounts today settings).map Request.window
  | standard household today settings =>
    Checked.attempt ((Request.standard household today settings).map Request.window)
  | upcoming household today days => Checked.attempt ((Request.upcoming household today days).map Request.window)
  | view mode start => (mode.windowFrom start).attempt

/-- The origin asks for the window from the one date to the other, whatever their order is. -/
def Asks (o : Origin) (first last : Date) : Prop :=
  match o with
  | between a b => first = a ∧ last = b
  | windowText t => Json.read? t = some (Window.Ends.mk first last)
  | requestText t | checkedText t =>
    ∃ household accounts, Request.Spells t household ⟨first, last⟩ accounts
  | summaryText t => ∃ v, Json.Value.parse? t = some v ∧ Summary.SpelledBy v ⟨first, last⟩
  | reportText t => ∃ v, Json.Value.parse? t = some v ∧ Report.SpelledBy v ⟨first, last⟩
  | params _ a b _ today settings =>
    (Request.readDate a = .ok (some first) ∨ Request.readDate a = .ok none ∧ first = today) ∧
    (Request.readDate b = .ok (some last) ∨ Request.readDate b = .ok none ∧
      last.dayNumber = today.dayNumber + settings.defaultWindowDays.toNat)
  | standard _ today settings =>
    first = today ∧ last.dayNumber = today.dayNumber + settings.defaultWindowDays.toNat
  | upcoming _ today days => first = today ∧ last.dayNumber = today.dayNumber + days.toNat
  | view .day start => first = start ∧ last = start
  | view .week start => first = start ∧ last.dayNumber = start.dayNumber + 6
  | view .month start => first = start ∧ last.month = start.month ∧ last.day = start.month.length
  | view .rolling start => first = start ∧ last.dayNumber = start.dayNumber + 30

/-- The date from which the window is counted, where nothing is compared with it. -/
def start? : Origin → Option Date
  | standard _ today _ => some today
  | upcoming _ today _ => some today
  | view _ start => some start
  | _ => none

/-- The number of days after a date on which the window is to end, where its end is counted. -/
def reach? : Origin → Option (Date × Nat)
  | params _ _ b _ today settings =>
    if Request.readDate b = .ok none then some (today, settings.defaultWindowDays.toNat) else none
  | standard _ today settings => some (today, settings.defaultWindowDays.toNat)
  | upcoming _ today days => some (today, days.toNat)
  | view .day start => some (start, 0)
  | view .week start => some (start, 6)
  | view .rolling start => some (start, 30)
  | _ => none

section

variable {α : Type} [Json.Codec α] {f : α → Window}

/-- A window inside a record is read where the record is. -/
theorem attempt_map_ofJson_eq_ok_iff :
    Outcome.attempt ((Outcome.ofJson t : Outcome α).map f) = .ok w ↔
      ∃ v, Json.Value.parse? t = some v ∧ ∃ a : α, Json.decode? v = some a ∧ f a = w := by
  simp only [Outcome.attempt_eq_ok_iff, map_eq_ok_iff, Outcome.ofJson_eq_ok_iff, Json.read?,
    Option.bind_eq_some_iff]
  constructor
  · rintro ⟨a, ⟨v, hv, ha⟩, hw⟩
    exact ⟨v, hv, a, ha, hw⟩
  · rintro ⟨v, hv, a, ha, hw⟩
    exact ⟨a, ⟨v, hv, ha⟩, hw⟩

end

theorem attempt_map_reaching_eq_ok_iff {household : Uuid} :
    Checked.attempt ((do return { household, window := ← Window.reaching d n } : Checked Request).map
      Request.window) = .ok w ↔ w.first = d ∧ w.last.dayNumber = d.dayNumber + n := by
  rw [Checked.attempt_eq_ok_iff, ← Window.reaching_eq_ok_iff]
  cases Window.reaching d n with
  | error e => exact ⟨nofun, nofun⟩
  | ok w' => rfl

/-- **What an origin asks for is what comes of it**, if it is in order. -/
theorem window_eq_ok_iff (o : Origin) : o.window = .ok w ↔ o.Asks w.first w.last := by
  cases o with
  | between first last => exact Outcome.attempt_eq_ok_iff.trans Request.windowBetween_eq_ok_iff
  | windowText t =>
    exact (Outcome.attempt_eq_ok_iff.trans Outcome.ofJson_eq_ok_iff).trans Window.read?_eq_some_iff
  | requestText t =>
    simp only [window, Outcome.attempt_eq_ok_iff, map_eq_ok_iff, Outcome.ofJson_eq_ok_iff]
    exact Request.exists_read?_iff
  | checkedText t =>
    simp only [window, Outcome.attempt_eq_ok_iff, map_eq_ok_iff, Request.ofJson_eq_ok_iff]
    refine Iff.trans ?_ Request.exists_read?_iff
    constructor
    · rintro ⟨_, ⟨r, hr, rfl⟩, hw⟩
      exact ⟨r, hr, hw⟩
    · rintro ⟨r, hr, hw⟩
      exact ⟨_, ⟨r, hr, rfl⟩, hw⟩
  | summaryText t =>
    refine attempt_map_ofJson_eq_ok_iff.trans (exists_congr fun v => and_congr_right fun _ => ?_)
    exact Summary.exists_decode?_iff
  | reportText t =>
    refine attempt_map_ofJson_eq_ok_iff.trans (exists_congr fun v => and_congr_right fun _ => ?_)
    exact Report.exists_decode?_iff
  | params household first last accounts today settings =>
    refine (map_eq_ok_iff.trans Request.exists_ofParams_iff).trans ?_
    exact ⟨fun h => ⟨h.first, h.last⟩, fun h => ⟨h.1, h.2⟩⟩
  | standard household today settings => exact attempt_map_reaching_eq_ok_iff
  | upcoming household today days => exact attempt_map_reaching_eq_ok_iff
  | view mode start =>
    refine Checked.attempt_eq_ok_iff.trans ?_
    cases mode with
    | day =>
      refine Window.reaching_eq_ok_iff.trans (and_congr_right fun _ => ?_)
      rw [Int.natCast_zero, Int.add_zero]
      exact ⟨Date.ext, congrArg Date.dayNumber⟩
    | week => exact Window.reaching_eq_ok_iff
    | month =>
      show (.ok (toEndOfMonth start) : Checked Window) = _ ↔ w.first = start ∧ _
      rw [← Date.eq_endOfMonth_iff, Except.ok.injEq, eq_comm, eq_iff]
      rfl
    | rolling => exact Window.reaching_eq_ok_iff

/-! ## Counted windows -/

variable {o : Origin} {start first last : Date}

/-- A window that is counted from a date starts there, and is in order without a comparison. -/
theorem le_of_asks (hstart : o.start? = some start) (h : o.Asks first last) :
    first = start ∧ first ≤ last := by
  have hcount : ∀ n : Nat, last.dayNumber = start.dayNumber + n → start ≤ last := by
    intro n hlast
    rw [Date.le_iff, hlast]
    omega
  cases o with
  | standard | upcoming =>
    cases hstart
    obtain ⟨rfl, hlast⟩ := h
    exact ⟨rfl, hcount _ hlast⟩
  | view mode =>
    cases hstart
    cases mode with
    | day =>
      obtain ⟨rfl, rfl⟩ := h
      exact ⟨rfl, le_refl _⟩
    | week | rolling =>
      obtain ⟨rfl, hlast⟩ := h
      exact ⟨rfl, hcount _ hlast⟩
    | month =>
      obtain ⟨rfl, hlast⟩ := h
      exact ⟨rfl, Date.eq_endOfMonth_iff.2 hlast ▸ first.le_endOfMonth⟩
  | between | windowText | requestText | checkedText | summaryText | reportText | params =>
    cases hstart

/-- Where the end is counted it lies that number of days after the date. -/
theorem last_of_asks (hreach : o.reach? = some (d, n)) (h : o.Asks first last) :
    last.dayNumber = d.dayNumber + n := by
  cases o with
  | params household a b accounts today settings =>
    obtain ⟨hb, ⟨⟩⟩ := Option.ite_none_right_eq_some.1 hreach
    rcases h.2 with hlast | ⟨-, hlast⟩
    · cases hb.symm.trans hlast
    · exact hlast
  | standard | upcoming =>
    cases hreach
    exact h.2
  | view mode =>
    cases mode with
    | day =>
      cases hreach
      rw [h.2, Int.natCast_zero, Int.add_zero]
    | week | rolling =>
      cases hreach
      exact h.2
    | month => cases hreach
  | between | windowText | requestText | checkedText | summaryText | reportText => cases hreach

/-- A counted window asks for the date at that distance, if the calendar has it. -/
theorem asks_of_reach (hstart : o.start? = some d) (hreach : o.reach? = some (d, n))
    (hlast : last.dayNumber = d.dayNumber + n) : o.Asks d last := by
  cases o with
  | standard | upcoming =>
    cases hreach
    exact ⟨rfl, hlast⟩
  | view mode =>
    cases mode with
    | day =>
      cases hreach
      exact ⟨rfl, Date.ext (by rw [hlast, Int.natCast_zero, Int.add_zero])⟩
    | week | rolling =>
      cases hreach
      exact ⟨rfl, hlast⟩
    | month => cases hreach
  | between | windowText | requestText | checkedText | summaryText | reportText | params =>
    cases hstart

end Window.Origin

namespace Window

/-- **No origin makes a window with its ends the wrong way round.** A window comes of an origin exactly
if the origin asks for dates that are in order. What is counted from a date starts on that date and is in
order by itself, although nothing is compared: there is such a window exactly if the calendar has the
date that is counted to, and one that runs to the end of a month there always is. No window ends on a
date that is counted to and is not in the calendar. -/
theorem origins_ordered :
    (∀ (o : Origin) (first last : Date),
      (∃ w, o.window = .ok w ∧ w.first = first ∧ w.last = last) ↔ o.Asks first last ∧ first ≤ last) ∧
    (∀ (o : Origin) (start : Date), o.start? = some start →
      ∀ first last, o.Asks first last → first = start ∧ first ≤ last) ∧
    (∀ (o : Origin) (d : Date) (n : Nat), o.reach? = some (d, n) →
      Date.latest.dayNumber < d.dayNumber + n → ∃ failure, o.window = .error failure) ∧
    (∀ (o : Origin) (d : Date) (n : Nat), o.start? = some d → o.reach? = some (d, n) →
      d.dayNumber + n ≤ Date.latest.dayNumber → ∃ w, o.window = .ok w) ∧
    ∀ start : Date, ∃ w, (Origin.view .month start).window = .ok w := by
  refine ⟨fun o first last => ⟨?_, ?_⟩, fun o start hstart first last => Origin.le_of_asks hstart,
    fun o d n hreach hbeyond => ?_, fun o d n hstart hreach hle => ?_, fun start => ⟨_, rfl⟩⟩
  · rintro ⟨w, hw, rfl, rfl⟩
    exact ⟨o.window_eq_ok_iff.1 hw, w.first_le_last⟩
  · rintro ⟨hasks, hle⟩
    exact ⟨⟨first, last, hle⟩, o.window_eq_ok_iff.2 hasks, rfl, rfl⟩
  · cases hw : o.window with
    | error failure => exact ⟨failure, rfl⟩
    | ok w =>
      have hlast := Origin.last_of_asks hreach (o.window_eq_ok_iff.1 hw)
      exact absurd w.last.le_latest' (not_le.2 (Date.lt_iff.2 (hlast ▸ hbeyond)))
  · have hd := d.earliest_le
    let last : Date := ⟨d.dayNumber + n, by omega, hle⟩
    have hasks : o.Asks d last := Origin.asks_of_reach hstart hreach rfl
    have hdlast := (Origin.le_of_asks hstart hasks).2
    exact ⟨⟨d, last, hdlast⟩, o.window_eq_ok_iff.2 hasks⟩

/-- In the last month of the calendar the view of a month still ends with its last day, which is the
last date of all, and no window of a week starts there. -/
theorem sample_lastMonth :
    let start : Date := { dayNumber := 95745700 }
    (∃ w, (Origin.view .month start).window = .ok w ∧ w.first = start ∧ w.last = Date.latest) ∧
      ∃ failure, (Origin.view .week start).window = .error failure := by
  obtain ⟨hordered, -, hbeyond, -⟩ := origins_ordered
  refine ⟨(hordered _ _ _).2 ⟨⟨rfl, ?_, ?_⟩, by decide⟩, hbeyond _ _ 6 rfl (by decide)⟩
  · decide +kernel
  · decide +kernel

end Window

end Forecast
