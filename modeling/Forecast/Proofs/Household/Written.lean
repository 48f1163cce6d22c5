import Forecast.Household.Snapshot
import Forecast.Proofs.Calendar.Written
import Forecast.Proofs.Decimal.Written
import Forecast.Proofs.Json.Slots
import Forecast.Proofs.Uuid
import Forecast.Request
import Forecast.ViewMode

/-!
# Written records

The records of a household, requests and settings have faithful codecs. What is said of each type is
which of its fields are settled when it comes back: the decimals, and what holds decimals.
-/

namespace Forecast

open Json

/-! ## Windows and requests -/

instance : LawfulNamed ViewMode := ⟨fun a => by cases a <;> decide⟩

instance : Settles Window.Ends where

instance : AlwaysFits Window.Ends := ⟨fun _ => trivial⟩
instance : Unsigned Window.Ends := ⟨fun _ => rfl⟩

instance : Faithful Window.Ends where
  decode?_encode _ := by
    refine bind_slots?_record rfl (by decide) ?_
    simp
  settled _ := .of_unsigned _

instance : Settles Window where

instance : AlwaysFits Window := ⟨fun _ => trivial⟩
instance : Unsigned Window := ⟨fun _ => rfl⟩

instance : Faithful Window where
  decode?_encode {w} _ := by
    show (decode? (encode (Window.Ends.mk w.first w.last))).bind _ = _
    rw [decode?_encode (fits _), Option.bind_some]
    exact Window.make?_eq_some_iff.2 ⟨rfl, rfl⟩
  settled _ := .of_unsigned _

instance : Settles Request where

instance : AlwaysFits Request := ⟨fun _ => trivial⟩
instance : Unsigned Request := ⟨fun _ => rfl⟩

instance : Faithful Request where
  decode?_encode _ := by
    refine bind_slots?_record rfl (by decide) ?_
    simp
  settled _ := .of_unsigned _

/-! ## Accounts, entries and definitions -/

instance : LawfulNamed AccountClass := ⟨fun a => by cases a <;> decide⟩
instance : LawfulNamed AccountStatus := ⟨fun a => by cases a <;> decide⟩
instance : LawfulNamed Flow := ⟨fun a => by cases a <;> decide⟩
instance : LawfulNamed RecurringStatus := ⟨fun a => by cases a <;> decide⟩

instance : Settles Account where
  settle a := { a with balance := settle a.balance }

instance : AlwaysFits Account := ⟨fun _ => trivial⟩

theorem Account.settle_eq (a : Account) : settle a = { a with balance := settle a.balance } := rfl

instance : Faithful Account where
  decode?_encode _ := by
    refine bind_slots?_record rfl (by decide) ?_
    simp [Account.settle_eq]
  settled h := by
    refine settled_of_slots h fun slots h hclean => ?_
    split at h
    · simp only [Option.bind_eq_bind, Option.bind_eq_some_iff, Option.pure_def,
        Option.some.injEq] at h
      obtain ⟨_, -, _, -, _, -, _, -, _, -, _, hbalance, _, -, rfl⟩ := h
      have hbalance := Slot.required_settled hbalance fun hv => hclean hv _ (by simp)
      exact ⟨trivial, fun hv => by simp only [Account.settle_eq, hbalance.settle_eq hv]⟩
    · cases h

instance : Settles Entry where
  settle e := { e with amount := settle e.amount }

instance : AlwaysFits Entry := ⟨fun _ => trivial⟩

theorem Entry.settle_eq (e : Entry) : settle e = { e with amount := settle e.amount } := rfl

instance : Faithful Entry where
  decode?_encode _ := by
    refine bind_slots?_record rfl (by decide) ?_
    simp [Entry.settle_eq]
  settled h := by
    refine settled_of_slots h fun slots h hclean => ?_
    split at h
    · simp only [Option.bind_eq_bind, Option.bind_eq_some_iff, Option.pure_def,
        Option.some.injEq] at h
      obtain ⟨_, -, _, -, _, -, _, -, _, -, _, -, _, hamount, _, -, rfl⟩ := h
      have hamount := Slot.required_settled hamount fun hv => hclean hv _ (by simp)
      exact ⟨trivial, fun hv => by simp only [Entry.settle_eq, hamount.settle_eq hv]⟩
    · cases h

instance : Settles Recurring where
  settle r :=
    { r with
      amount := settle r.amount, average := settle r.average, least := settle r.least,
      greatest := settle r.greatest, confidence := settle r.confidence }

instance : AlwaysFits Recurring := ⟨fun _ => trivial⟩

theorem Recurring.settle_eq (r : Recurring) : settle r =
    { r with
      amount := settle r.amount, average := settle r.average, least := settle r.least,
      greatest := settle r.greatest, confidence := settle r.confidence } := rfl

instance : Faithful Recurring where
  decode?_encode _ := by
    refine bind_slots?_record rfl (by decide) ?_
    simp [Recurring.settle_eq]
  settled h := by
    refine settled_of_slots h fun slots h hclean => ?_
    split at h
    · -- fifteen fields are too many to be taken apart in one step
      iterate 4 obtain ⟨_, -, h⟩ := Option.bind_eq_some_iff.1 h
      obtain ⟨_, hamount, h⟩ := Option.bind_eq_some_iff.1 h
      iterate 5 obtain ⟨_, -, h⟩ := Option.bind_eq_some_iff.1 h
      obtain ⟨_, haverage, h⟩ := Option.bind_eq_some_iff.1 h
      obtain ⟨_, hleast, h⟩ := Option.bind_eq_some_iff.1 h
      obtain ⟨_, hgreatest, h⟩ := Option.bind_eq_some_iff.1 h
      obtain ⟨_, hconfidence, h⟩ := Option.bind_eq_some_iff.1 h
      obtain ⟨_, -, h⟩ := Option.bind_eq_some_iff.1 h
      cases h
      have hamount := Slot.required_settled hamount fun hv => hclean hv _ (by simp)
      have haverage := Slot.optional_settled haverage fun hv => hclean hv _ (by simp)
      have hleast := Slot.optional_settled hleast fun hv => hclean hv _ (by simp)
      have hgreatest := Slot.optional_settled hgreatest fun hv => hclean hv _ (by simp)
      have hconfidence := Slot.optional_settled hconfidence fun hv => hclean hv _ (by simp)
      refine ⟨trivial, fun hv => ?_⟩
      simp only [Recurring.settle_eq, hamount.settle_eq hv, haverage.settle_eq hv,
        hleast.settle_eq hv, hgreatest.settle_eq hv, hconfidence.settle_eq hv]
    · cases h

instance : Settles Snapshot where
  settle s :=
    { s with
      accounts := settle s.accounts, entries := settle s.entries, recurring := settle s.recurring }

instance : AlwaysFits Snapshot := ⟨fun _ => trivial⟩

theorem Snapshot.settle_eq (s : Snapshot) : settle s =
    { s with
      accounts := settle s.accounts, entries := settle s.entries,
      recurring := settle s.recurring } := rfl

instance : Faithful Snapshot where
  decode?_encode _ := by
    refine bind_slots?_record rfl (by decide) ?_
    simp [Snapshot.settle_eq]
  settled h := by
    refine settled_of_slots h fun slots h hclean => ?_
    split at h
    · simp only [Option.bind_eq_bind, Option.bind_eq_some_iff, Option.pure_def,
        Option.some.injEq] at h
      obtain ⟨_, -, _, -, _, haccounts, _, hentries, _, hrecurring, rfl⟩ := h
      have haccounts := Slot.defaulted_settled haccounts (fun hv => hclean hv _ (by simp)) .nil
      have hentries := Slot.defaulted_settled hentries (fun hv => hclean hv _ (by simp)) .nil
      have hrecurring := Slot.defaulted_settled hrecurring (fun hv => hclean hv _ (by simp)) .nil
      refine ⟨trivial, fun hv => ?_⟩
      simp only [Snapshot.settle_eq, haccounts.settle_eq hv, hentries.settle_eq hv,
        hrecurring.settle_eq hv]
    · cases h

/-! ## Settings -/

instance : Settles ConfidenceSettings where
  settle c :=
    { c with
      pending := settle c.pending, autoRecurring := settle c.autoRecurring,
      manualRecurring := settle c.manualRecurring, newRecurring := settle c.newRecurring,
      decayPerDay := settle c.decayPerDay, floor := settle c.floor }

instance : AlwaysFits ConfidenceSettings := ⟨fun _ => trivial⟩

theorem ConfidenceSettings.settle_eq (c : ConfidenceSettings) : settle c =
    { c with
      pending := settle c.pending, autoRecurring := settle c.autoRecurring,
      manualRecurring := settle c.manualRecurring, newRecurring := settle c.newRecurring,
      decayPerDay := settle c.decayPerDay, floor := settle c.floor } := rfl

instance : Faithful ConfidenceSettings where
  decode?_encode _ := by
    refine bind_slots?_record rfl (by decide) ?_
    simp [ConfidenceSettings.settle_eq]
  settled h := by
    refine settled_of_slots h fun slots h hclean => ?_
    split at h
    · simp only [Option.bind_eq_bind, Option.bind_eq_some_iff, Option.pure_def,
        Option.some.injEq] at h
      obtain ⟨_, hpending, _, hautoRecurring, _, hmanualRecurring, _, hnewRecurring, _, -, _,
        hdecayPerDay, _, hfloor, rfl⟩ := h
      have hpending := Slot.defaulted_settled hpending
        (fun hv => hclean hv _ (by simp)) ⟨trivial, fun _ => rfl⟩
      have hautoRecurring := Slot.defaulted_settled hautoRecurring
        (fun hv => hclean hv _ (by simp)) ⟨trivial, fun _ => rfl⟩
      have hmanualRecurring := Slot.defaulted_settled hmanualRecurring
        (fun hv => hclean hv _ (by simp)) ⟨trivial, fun _ => rfl⟩
      have hnewRecurring := Slot.defaulted_settled hnewRecurring
        (fun hv => hclean hv _ (by simp)) ⟨trivial, fun _ => rfl⟩
      have hdecayPerDay := Slot.defaulted_settled hdecayPerDay
        (fun hv => hclean hv _ (by simp)) ⟨trivial, fun _ => rfl⟩
      have hfloor := Slot.defaulted_settled hfloor
        (fun hv => hclean hv _ (by simp)) ⟨trivial, fun _ => rfl⟩
      refine ⟨trivial, fun hv => ?_⟩
      simp only [ConfidenceSettings.settle_eq, hpending.settle_eq hv, hautoRecurring.settle_eq hv,
        hmanualRecurring.settle_eq hv, hnewRecurring.settle_eq hv, hdecayPerDay.settle_eq hv,
        hfloor.settle_eq hv]
    · cases h

instance : Settles Settings where
  settle s :=
    { s with
      lowBalanceThreshold := settle s.lowBalanceThreshold, confidence := settle s.confidence }

instance : AlwaysFits Settings := ⟨fun _ => trivial⟩

theorem Settings.settle_eq (s : Settings) : settle s =
    { s with
      lowBalanceThreshold := settle s.lowBalanceThreshold,
      confidence := settle s.confidence } := rfl

instance : Faithful Settings where
  decode?_encode _ := by
    refine bind_slots?_record rfl (by decide) ?_
    simp [Settings.settle_eq]
  settled h := by
    refine settled_of_slots h fun slots h hclean => ?_
    split at h
    · simp only [Option.bind_eq_bind, Option.bind_eq_some_iff, Option.pure_def,
        Option.some.injEq] at h
      obtain ⟨_, hlowBalanceThreshold, _, -, _, -, _, -, _, hconfidence, rfl⟩ := h
      have hlowBalanceThreshold := Slot.defaulted_settled hlowBalanceThreshold
        (fun hv => hclean hv _ (by simp)) ⟨trivial, fun _ => rfl⟩
      have hconfidence := Slot.defaulted_settled hconfidence
        (fun hv => hclean hv _ (by simp)) ⟨trivial, fun _ => rfl⟩
      refine ⟨trivial, fun hv => ?_⟩
      simp only [Settings.settle_eq, hlowBalanceThreshold.settle_eq hv, hconfidence.settle_eq hv]
    · cases h

end Forecast
