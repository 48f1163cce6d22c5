import Forecast.Proofs.Report.Written
import Forecast.Scenario.Comparison
import Forecast.Scenario.Plan

/-!
# Written scenarios

Plans and what is answered to them have faithful codecs. A plan is read only from a value that is
sound as a whole, and the value it is written as is.
-/

namespace Forecast

open Json

instance : LawfulNamed Impact := ⟨fun a => by cases a <;> decide⟩

/-! ## Comparisons -/

instance : Settles Comparison where
  settle c :=
    { c with
      expected := settle c.expected, scenario := settle c.scenario,
      difference := settle c.difference }

instance : AlwaysFits Comparison := ⟨fun _ => trivial⟩

instance : NeverNull Comparison := ⟨fun _ => record_ne_null _⟩

theorem Comparison.settle_eq (c : Comparison) : settle c =
    { c with
      expected := settle c.expected, scenario := settle c.scenario,
      difference := settle c.difference } := rfl

instance : Faithful Comparison where
  decode?_encode _ := by
    refine bind_slots?_record rfl (by decide) ?_
    simp [Comparison.settle_eq]
  settled h := by
    refine settled_of_slots h fun slots h hclean => ?_
    split at h
    · simp only [Option.bind_eq_bind, Option.bind_eq_some_iff, Option.pure_def,
        Option.some.injEq] at h
      obtain ⟨_, hexpected, _, hscenario, _, hdifference, _, -, rfl⟩ := h
      have hexpected := Slot.required_settled hexpected fun hv => hclean hv _ (by simp)
      have hscenario := Slot.required_settled hscenario fun hv => hclean hv _ (by simp)
      have hdifference := Slot.required_settled hdifference fun hv => hclean hv _ (by simp)
      refine ⟨trivial, fun hv => ?_⟩
      simp only [Comparison.settle_eq, hexpected.settle_eq hv, hscenario.settle_eq hv,
        hdifference.settle_eq hv]
    · cases h

instance : Settles WhatIf where
  settle w :=
    { w with
      expected := settle w.expected, scenario := settle w.scenario,
      comparison := settle w.comparison }
  Fits w := Fits w.expected ∧ Fits w.scenario

theorem WhatIf.settle_eq (w : WhatIf) : settle w =
    { w with
      expected := settle w.expected, scenario := settle w.scenario,
      comparison := settle w.comparison } := rfl

instance : Faithful WhatIf where
  decode?_encode {w} h := by
    obtain ⟨hexpected, hscenario⟩ := h
    refine bind_slots?_record rfl (by decide) ?_
    simp [WhatIf.settle_eq, hexpected, hscenario]
  settled h := by
    refine settled_of_slots h fun slots h hclean => ?_
    split at h
    · simp only [Option.bind_eq_bind, Option.bind_eq_some_iff, Option.pure_def,
        Option.some.injEq] at h
      obtain ⟨_, hexpected, _, hscenario, _, hcomparison, rfl⟩ := h
      have hexpected := Slot.required_settled hexpected fun hv => hclean hv _ (by simp)
      have hscenario := Slot.required_settled hscenario fun hv => hclean hv _ (by simp)
      have hcomparison := Slot.positional_settled hcomparison fun hv => hclean hv _ (by simp)
      refine ⟨⟨hexpected.fits, hscenario.fits⟩, fun hv => ?_⟩
      simp only [WhatIf.settle_eq, hexpected.settle_eq hv, hscenario.settle_eq hv,
        hcomparison.settle_eq hv]
    · cases h

/-! ## Plans -/

instance : Settles Plan where
  settle
    | .addTransaction amount date flow description =>
      .addTransaction (settle amount) date flow description
    | p => p

namespace Plan

/-- A record of texts is sound. -/
theorem isSound_record {fields : List (String × Option Value)}
    (h : ∀ f ∈ fields, ∃ s, f.2 = some (.ofString s)) :
    (Value.record fields).isSound 127 = true := by
  show Value.areSoundMembers 126 (Slot.members fields) = true
  induction fields with
  | nil => rfl
  | cons f fs ih =>
    obtain ⟨s, hs⟩ := h f List.mem_cons_self
    have hmembers : Slot.members (f :: fs) = (some f.1, .ofString s) :: Slot.members fs := by
      simp [Slot.members, hs]
    rw [hmembers, Value.areSoundMembers, ih fun g hg => h g (List.mem_cons_of_mem _ hg)]
    rfl

/-- A plan is read from a sound object by its kind. -/
theorem decode?_record (fields : List (String × Option Value)) (kind : String)
    (hsound : (Value.record fields).isSound 127 = true) (hd : (fields.map Prod.fst).Nodup)
    (hkind : field "type" kind ∈ fields) :
    decode? (Value.record fields) = ofFields? kind (.record fields) := by
  have htype : Slot.ofMembers? (Slot.members fields) "type" =
      some (.given (.text (some kind))) := Slot.ofMembers?_members hd hkind
  show (if (Value.record fields).isSound 127 then _ else _) = _
  rw [if_pos hsound]
  simp only [Value.record, htype]

theorem ofFields?_settled {kind : String} {fields : Value} {p : Plan}
    (h : ofFields? kind fields = some p) : Settled fields.IsClean p := by
  unfold ofFields? at h
  split at h
  · refine settled_of_slots h fun slots h hclean => ?_
    split at h
    · simp only [Option.bind_eq_bind, Option.bind_eq_some_iff, Option.pure_def,
        Option.some.injEq] at h
      obtain ⟨_, -, _, hamount, _, -, _, -, _, -, rfl⟩ := h
      have hamount := Slot.required_settled hamount fun hv => hclean hv _ (by simp)
      refine ⟨trivial, fun hv => ?_⟩
      exact congrArg (addTransaction · _ _ _) (hamount.settle_eq hv)
    · cases h
  · refine settled_of_slots h fun slots h hclean => ?_
    split at h
    · obtain ⟨definition, -, h⟩ := Option.bind_eq_some_iff.1 h
      cases h
      exact ⟨trivial, fun _ => rfl⟩
    · cases h
  · obtain ⟨slots, -, rfl⟩ := Option.map_eq_some_iff.1 h
    exact ⟨trivial, fun _ => rfl⟩
  · cases h

theorem decode?_addTransaction (amount : Decimal) (date : Date) (flow : Flow)
    (description : String) : decode? (encode (addTransaction amount date flow description)) =
      some (addTransaction (settle amount) date flow description) := by
  refine (decode?_record _ "add_transaction" (isSound_record ?_) (by simp [field])
    (by simp)).trans ?_
  · simp only [List.forall_mem_cons]
    exact ⟨⟨_, rfl⟩, ⟨amount.toText, rfl⟩, ⟨date.toText, rfl⟩, ⟨Named.name flow, rfl⟩,
      ⟨description, rfl⟩, nofun⟩
  · have hflow : Slot.written (field "kind" flow).2 = .given (.ofString (Named.name flow)) := rfl
    have hname : (Value.ofString (Named.name flow)).choiceName?
        (fun v => v.isNull || v.isEmptyObject) = some (Named.name flow) := rfl
    rw [ofFields?]
    refine bind_slots?_part rfl (List.subset_cons_self _ _) (by simp [field]) ?_
    simp [hflow, hname, LawfulNamed.ofName?_name]

theorem decode?_removeRecurring (definition : Uuid) :
    decode? (encode (removeRecurring definition)) = some (removeRecurring definition) := by
  refine (decode?_record _ "remove_recurring" (isSound_record ?_) (by simp [field])
    (by simp)).trans ?_
  · simp only [List.forall_mem_cons]
    exact ⟨⟨_, rfl⟩, ⟨definition.toText, rfl⟩, nofun⟩
  · rw [ofFields?]
    refine bind_slots?_part rfl (List.subset_cons_self _ _) (by simp [field]) ?_
    simp

theorem decode?_baseline : decode? (encode baseline) = some baseline := by
  refine (decode?_record _ "baseline" (isSound_record ?_) (by simp [field]) (by simp)).trans ?_
  · simp only [List.forall_mem_cons]
    exact ⟨⟨_, rfl⟩, nofun⟩
  · rfl

instance : Faithful Plan where
  decode?_encode {p} _ := by
    cases p with
    | addTransaction amount date flow description => exact decode?_addTransaction _ _ _ _
    | removeRecurring definition => exact decode?_removeRecurring definition
    | baseline => exact decode?_baseline
  settled {v p} h := by
    have hsound : (if v.isSound 127 then _ else _) = some p := h
    split at hsound
    · split at hsound
      · split at hsound
        · exact ofFields?_settled hsound
        · cases hsound
      · rename_i kind fields _
        have hsettled := ofFields?_settled hsound
        -- the fields are what stands behind the kind
        have htail (hv : Value.IsClean (.array (.text (some kind) :: fields))) :
            Value.IsClean (.array fields) := by
          rintro s (_ | ⟨hw, hs⟩)
          exact hv s (.item (List.mem_cons_of_mem _ hw) hs)
        exact ⟨trivial, fun hv => hsettled.settle_eq (htail hv)⟩
      · cases hsound
    · cases hsound

end Plan

end Forecast
