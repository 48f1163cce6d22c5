import Forecast.Proofs.Request.Decoding

/-!
# Requests from parameters

Parameters are answered in a fixed order (`Request.Answered`). A text that is no date is reported, the
one for the first day before the one for the last. Then the two days that are asked for are compared: an
inverted range is reported, and of days in order there is a request, in which an empty list of accounts
is no filter.

This needs the two days to be dates. A last day that is not named is counted from today, and the
settings can put it behind the end of the calendar, whatever they are checked for. Parameters that
overreach so have no answer, and all others do (`Request.answered_iff`).
-/

namespace Forecast

variable {d e : Date} {n : Nat} {fault : Fault}

theorem Date.addDays_eq_ok_iff : d.addDays n = .ok e ↔ e.dayNumber = d.dayNumber + n := by
  rw [addDays, Checked.ofOption_eq_ok_iff]
  constructor
  · exact dayNumber_of_ofDayNumber?
  · intro h
    rw [← h, ofDayNumber?_dayNumber]

/-- Days are counted from a date as far as the calendar goes. -/
theorem Date.exists_addDays_iff :
    (∃ e, d.addDays n = .ok e) ↔ d.dayNumber + n ≤ latest.dayNumber := by
  simp only [addDays_eq_ok_iff]
  constructor
  · rintro ⟨e, he⟩
    exact he ▸ e.le_latest
  · intro h
    have := d.earliest_le
    exact ⟨⟨d.dayNumber + n, by omega, h⟩, rfl⟩

theorem Date.addDays_eq_error (h : latest.dayNumber < d.dayNumber + n) :
    d.addDays n = .error .dateAddition := by
  have hnone : ofDayNumber? (d.dayNumber + n) = none :=
    dif_neg fun hin => not_le_of_gt h hin.2
  rw [addDays, hnone, Checked.ofOption_none]

namespace Request

variable {household : Uuid} {a b raw : Option String} {accounts : Option (List Uuid)} {today : Date}
  {settings : Settings} {x y : Option Date} {p : Problem} {first last : Date}

/-! ## One parameter -/

/-- What is read of a parameter: the text without the blanks around it. -/
def paramChars (raw : Option String) : List Char :=
  Text.trim (raw.getD "").toList

/-- The problem is a flaw that keeps the parameter from being a date, and names the text. -/
def IsFlawOf (raw : Option String) (p : Problem) : Prop :=
  ∃ flaw, paramChars raw ≠ [] ∧ Date.readChars false (paramChars raw) = .error flaw ∧
    p = .badDate (String.ofList (paramChars raw)) flaw

theorem readDate_eq_error_iff : readDate raw = .error p ↔ IsFlawOf raw p := by
  unfold IsFlawOf readDate
  dsimp only
  rw [← paramChars]
  by_cases hblank : paramChars raw = []
  · simp [hblank]
  · rw [if_neg (by simpa using hblank)]
    cases Date.readChars false (paramChars raw) with
    | ok d => simp
    | error flaw => simp [hblank, eq_comm]

/-! ## Two dates -/

/-- The request for the days from one date to another, as parameters and texts make it. -/
def between (household : Uuid) (first last : Date) (accounts : Option (List Uuid)) :
    Outcome Request :=
  (windowBetween first last).map fun window =>
    ({ household, window : Request }).withAccounts (accounts.getD [])

theorem between_of_le (h : first ≤ last) : between household first last accounts =
    .ok (normal { household, window := ⟨first, last, h⟩, accounts }) := by
  have hw : windowBetween first last = .ok ⟨first, last, h⟩ := windowBetween_eq_ok_iff.2 ⟨rfl, rfl⟩
  rw [between, hw, Except.map, withAccounts_getD]

theorem between_of_lt (h : last < first) : between household first last accounts =
    .error (.invertedRange first last) := by
  rw [between, windowBetween_eq_error_iff.2 ⟨h, rfl⟩]
  rfl

/-! ## Both parameters -/

/-- The days that parameters ask for are those that they name, or else today and the day at the default
distance from today, whatever the order of the two. -/
structure AskFor (a b : Option String) (today : Date) (settings : Settings) (first last : Date) :
    Prop where
  first : readDate a = .ok (some first) ∨ readDate a = .ok none ∧ first = today
  last : readDate b = .ok (some last) ∨ readDate b = .ok none ∧
    last.dayNumber = today.dayNumber + settings.defaultWindowDays.toNat

/-- The last day is not named, nothing else is wrong, and the calendar ends before it. -/
def Overreach (a b : Option String) (today : Date) (settings : Settings) : Prop :=
  (∃ x, readDate a = .ok x) ∧ readDate b = .ok none ∧
    Date.latest.dayNumber < today.dayNumber + settings.defaultWindowDays.toNat

theorem ofParams_of_bad_first (ha : readDate a = .error p) :
    ofParams household a b accounts today settings = .error (.problem p) := by
  show (readDate a).attempt >>= _ = _
  rw [ha]
  rfl

theorem ofParams_of_bad_last (ha : readDate a = .ok x) (hb : readDate b = .error p) :
    ofParams household a b accounts today settings = .error (.problem p) := by
  show (readDate a).attempt >>= _ = _
  rw [ha]
  show (readDate b).attempt >>= _ = _
  rw [hb]
  rfl

/-- The last day, which is counted from today if it is not named. -/
def lastDay (y : Option Date) (today : Date) (settings : Settings) : Checked Date :=
  match y with
  | some d => .ok d
  | none => today.addDays settings.defaultWindowDays.toNat

/-- Of two texts that are no flawed dates there is the request between the first day and the last one, if
there is such a last day. -/
theorem ofParams_eq_bind (ha : readDate a = .ok x) (hb : readDate b = .ok y) :
    ofParams household a b accounts today settings = ((lastDay y today settings).attempt >>= fun last =>
      (between household (x.getD today) last accounts).attempt) := by
  have hbetween : ∀ last, (windowBetween (x.getD today) last).attempt >>= (fun window =>
      pure (({ household, window : Request }).withAccounts (accounts.getD []))) =
        (between household (x.getD today) last accounts).attempt := by
    intro last
    unfold between
    cases windowBetween (x.getD today) last <;> rfl
  show (readDate a).attempt >>= _ = _
  rw [ha]
  show (readDate b).attempt >>= _ = _
  rw [hb]
  simp only [← hbetween]
  cases y <;> rfl

/-- Of the days that are asked for there is the request between them. -/
theorem AskFor.ofParams_eq (h : AskFor a b today settings first last) :
    ofParams household a b accounts today settings =
      (between household first last accounts).attempt := by
  obtain ⟨x, ha, hfirst⟩ : ∃ x, readDate a = .ok x ∧ x.getD today = first := by
    rcases h.first with ha | ⟨ha, hfirst⟩
    · exact ⟨_, ha, rfl⟩
    · exact ⟨_, ha, hfirst.symm⟩
  obtain ⟨y, hb, hlast⟩ : ∃ y, readDate b = .ok y ∧ lastDay y today settings = .ok last := by
    rcases h.last with hb | ⟨hb, hlast⟩
    · exact ⟨_, hb, rfl⟩
    · exact ⟨_, hb, Date.addDays_eq_ok_iff.2 hlast⟩
  rw [ofParams_eq_bind ha hb, hlast, hfirst]
  rfl

theorem Overreach.ofParams_eq (h : Overreach a b today settings) :
    ofParams household a b accounts today settings = .error (.fault .dateAddition) := by
  obtain ⟨⟨x, ha⟩, hb, hlast⟩ := h
  have hfault : lastDay none today settings = .error .dateAddition := Date.addDays_eq_error hlast
  rw [ofParams_eq_bind ha hb, hfault]
  rfl

/-- Texts that are no flawed dates ask for two days, unless they overreach. -/
theorem exists_askFor (ha : readDate a = .ok x) (hb : readDate b = .ok y)
    (h : ¬ Overreach a b today settings) : ∃ first last, AskFor a b today settings first last := by
  obtain ⟨first, hfirst⟩ : ∃ first,
      readDate a = .ok (some first) ∨ readDate a = .ok none ∧ first = today := by
    cases x with
    | some d => exact ⟨d, .inl ha⟩
    | none => exact ⟨today, .inr ⟨ha, rfl⟩⟩
  cases y with
  | some d => exact ⟨first, d, hfirst, .inl hb⟩
  | none =>
    have hle : today.dayNumber + settings.defaultWindowDays.toNat ≤ Date.latest.dayNumber :=
      not_lt.1 fun hlt => h ⟨⟨x, ha⟩, hb, hlt⟩
    obtain ⟨last, hlast⟩ := Date.exists_addDays_iff.2 hle
    exact ⟨first, last, hfirst, .inr ⟨hb, Date.addDays_eq_ok_iff.1 hlast⟩⟩

/-- A request comes of parameters for the window that they ask for, and for no other. -/
theorem exists_ofParams_iff {w : Window} :
    (∃ r, ofParams household a b accounts today settings = .ok r ∧ r.window = w) ↔
      AskFor a b today settings w.first w.last := by
  constructor
  · rintro ⟨r, hr, rfl⟩
    cases ha : readDate a with
    | error p => cases hr.symm.trans (ofParams_of_bad_first ha)
    | ok x =>
      cases hb : readDate b with
      | error p => cases hr.symm.trans (ofParams_of_bad_last ha hb)
      | ok y =>
        have hover : ¬ Overreach a b today settings :=
          fun h => by cases hr.symm.trans h.ofParams_eq
        obtain ⟨first, last, hask⟩ := exists_askFor ha hb hover
        have hbetween : between household first last accounts = .ok r :=
          Outcome.attempt_eq_ok_iff.1 (hask.ofParams_eq.symm.trans hr)
        rcases lt_or_ge last first with hlt | hle
        · cases hbetween.symm.trans (between_of_lt hlt)
        · cases hbetween.symm.trans (between_of_le hle)
          exact hask
  · intro h
    refine ⟨normal { household, window := w, accounts }, ?_, rfl⟩
    rw [h.ofParams_eq, between_of_le w.first_le_last]
    rfl

/-- What a caller gets for parameters: the first flaw in the order of the two texts, or else the days
that are asked for, as an inverted range or as the window of a request. -/
structure Answered (household : Uuid) (a b : Option String) (accounts : Option (List Uuid))
    (today : Date) (settings : Settings) : Prop where
  badFirst : ∀ p, readDate a = .error p → IsFlawOf a p ∧
    ofParams household a b accounts today settings = .error (.problem p)
  badLast : ∀ x p, readDate a = .ok x → readDate b = .error p → IsFlawOf b p ∧
    ofParams household a b accounts today settings = .error (.problem p)
  dates : ∀ x y, readDate a = .ok x → readDate b = .ok y →
    ∃ first last, AskFor a b today settings first last ∧
      (last < first → ofParams household a b accounts today settings =
        .error (.problem (.invertedRange first last))) ∧
      (first ≤ last → ∃ r, ofParams household a b accounts today settings = .ok r ∧
        r.household = household ∧ r.window.first = first ∧ r.window.last = last ∧
        r.accounts = if accounts = some [] then none else accounts)

/-- **When parameters are answered.** Whatever the settings are, parameters are answered in the order of
their texts, ranges and requests exactly if they do not overreach. If they do there is the fault of a
date addition. -/
theorem answered_iff (household : Uuid) (a b : Option String) (accounts : Option (List Uuid))
    (today : Date) (settings : Settings) :
    (Answered household a b accounts today settings ↔ ¬ Overreach a b today settings) ∧
    (Overreach a b today settings →
      ofParams household a b accounts today settings = .error (.fault .dateAddition)) := by
  refine ⟨⟨?_, ?_⟩, Overreach.ofParams_eq⟩
  · rintro hanswered hover
    obtain ⟨⟨x, ha⟩, hb, hlast⟩ := hover
    obtain ⟨first, last, hask, -⟩ := hanswered.dates x none ha hb
    rcases hask.last with hnamed | ⟨-, hcounted⟩
    · cases hb.symm.trans hnamed
    · have := last.le_latest'
      rw [Date.le_iff] at this
      omega
  · intro hover
    refine ⟨?_, ?_, ?_⟩
    · intro p ha
      exact ⟨readDate_eq_error_iff.1 ha, ofParams_of_bad_first ha⟩
    · intro x p ha hb
      exact ⟨readDate_eq_error_iff.1 hb, ofParams_of_bad_last ha hb⟩
    · intro x y ha hb
      obtain ⟨first, last, hask⟩ := exists_askFor ha hb hover
      refine ⟨first, last, hask, ?_, ?_⟩
      · intro hlt
        rw [hask.ofParams_eq, between_of_lt hlt]
        rfl
      · intro hle
        rw [hask.ofParams_eq, between_of_le hle]
        exact ⟨_, rfl, rfl, rfl, rfl, rfl⟩

/-- A hundred million days pass the check of the settings, and there is no date that many days after
the first of June 2025. -/
theorem distant_default_faults :
    let settings : Settings := { defaultWindowDays := 100000000 }
    let today : Date := { dayNumber := 739708 }
    settings.check = .ok () ∧ today.toText = "2025-06-01" ∧
      ofParams { value := 1 } none none none today settings = .error (.fault .dateAddition) := by
  decide +kernel

end Request

end Forecast
