import Forecast.Proofs.Scenario.Written
import Forecast.Proofs.Source.Memory

/-!
# Round trips

Every type that is written as JSON survives the way through a text, in either layout
(`every_type_roundTrips`): what is read back is the value that was written, each decimal with the
mantissa, the scale and the sign it had, but a zero without its sign. So a value that was read from
a text comes back from its own text as it was, unless it holds a negative zero.

A negative zero can be read, though only from a number in scientific form that is rounded to zero.
It is written with its sign, and the sign is gone when the text is read again (`reread_debt`).
-/

namespace Forecast

open Json

/-- The values of the type go through texts. -/
structure RoundTrips (α : Type) [Codec α] [Settles α] : Prop where
  /-- A value is read from its texts as it was, with no sign on a zero. -/
  written (a : α) (h : Fits a) :
    read? (write a) = some (settle a) ∧ read? (writeLines a) = some (settle a)
  /-- The same holds of any value that was read. -/
  read (t : String) (a : α) (h : read? t = some a) :
    read? (write a) = some (settle a) ∧ read? (writeLines a) = some (settle a)
  /-- It comes back exactly as it was read if no text in the JSON it was read from is read as a
  negative zero. -/
  exact_of_isClean (t : String) (v : Value) (a : α) (hv : Value.parse? t = some v)
    (hclean : v.IsClean) (h : read? t = some a) :
    read? (write a) = some a ∧ read? (writeLines a) = some a

theorem roundTrips (α : Type) [Codec α] [Settles α] [Faithful α] : RoundTrips α where
  written a h := ⟨read?_write h, read?_writeLines h⟩
  read t a h := by
    obtain ⟨v, -, hdecode⟩ := Option.bind_eq_some_iff.1 h
    have hfits := (settled hdecode).fits
    exact ⟨read?_write hfits, read?_writeLines hfits⟩
  exact_of_isClean t v a hv hclean h := by
    rw [read?, hv, Option.bind_some] at h
    have hsettled := settled h
    have hsame := hsettled.settle_eq hclean
    have hfits := hsettled.fits
    exact ⟨(read?_write hfits).trans (congrArg some hsame),
      (read?_writeLines hfits).trans (congrArg some hsame)⟩

/-- Every type that is written as JSON goes through texts, and numbers in plain form are never read
as a negative zero. -/
theorem every_type_roundTrips :
    (RoundTrips Account ∧ RoundTrips Entry ∧ RoundTrips Recurring ∧ RoundTrips Snapshot ∧
      RoundTrips Settings ∧ RoundTrips Window ∧ RoundTrips Request ∧ RoundTrips ViewMode ∧
      RoundTrips Event ∧ RoundTrips BalancePoint ∧ RoundTrips ScenarioPoint ∧
      RoundTrips DayStatus ∧ RoundTrips Alert ∧ RoundTrips ConfidenceLevel ∧ RoundTrips Plan ∧
      RoundTrips Comparison ∧ RoundTrips WhatIf ∧ RoundTrips Summary ∧ RoundTrips Report ∧
      RoundTrips Upcoming) ∧
    ∀ cs d, Decimal.ofPlain? cs = some d → d.clearZeroSign = d :=
  ⟨⟨roundTrips _, roundTrips _, roundTrips _, roundTrips _, roundTrips _, roundTrips _,
    roundTrips _, roundTrips _, roundTrips _, roundTrips _, roundTrips _, roundTrips _,
    roundTrips _, roundTrips _, roundTrips _, roundTrips _, roundTrips _, roundTrips _,
    roundTrips _, roundTrips _⟩, fun _ _ => Decimal.clearZeroSign_of_ofPlain?⟩

namespace Sample

/-- A point at which a debt has been paid to the cent, with the sign of the debt. -/
def settledPoint : BalancePoint :=
  { date := date 2 29, balance := -.hundredths 0
    confidence := .hundredths 95, netChange := .hundredths 1250, eventCount := 3 }

/-- An account that owes so little that nothing of it is left at the last place. -/
def debtText : String :=
  "\x7b\"id\":\"00000000-0000-0000-0000-000000000001\"," ++
  "\"family_id\":\"00000000-0000-0000-0000-000000000002\",\"name\":\"n\"," ++
  "\"classification\":\"asset\",\"status\":\"active\",\"balance\":\"-0.1e-28\"\x7d"

end Sample

/-- A point with a negative zero comes back with a zero of the same scale. -/
theorem sample_point_returns :
    Fits Sample.settledPoint ∧ read? (write Sample.settledPoint) =
      some { Sample.settledPoint with balance := .hundredths 0 } := by
  have hfits : Fits Sample.settledPoint := show (3 : Nat) < UInt64.size by decide
  obtain ⟨-, -, -, -, -, -, -, -, -, hpoint, -⟩ := every_type_roundTrips.1
  exact ⟨hfits, (hpoint.written Sample.settledPoint hfits).1⟩

/-- The debt is read as a negative zero, is written as one, and is then read as zero: what is read
from the text of what was read is something else. -/
theorem reread_debt : ∃ a b : Account,
    read? Sample.debtText = some a ∧ read? (write a) = some b ∧ b ≠ a := by
  refine ⟨{
    id := { value := 1 }, household := { value := 2 }, name := "n", classification := .asset
    balance := { negative := true, mantissa := 0, scale := 28 } }, _, ?_, read?_write trivial, ?_⟩
  · decide +kernel
  · decide

end Forecast
