import Forecast.Proofs.Household.Written
import Forecast.Proofs.Request.Params

/-!
# Printed dates in parameters and in JSON

A printed date is read by either reader of dates as the date it is, with a signed year and with more than
four digits too, and in a parameter also with blanks around it (`Date.IsPrintedIn.readDate_eq`).

A request can therefore be asked for in two ways: with the two dates as parameters, or with the same dates,
the household and the accounts in an object (`Request.IsPrintedIn`). Both ways end in `Request.between`, so
that they have the same outcome for dates in any order (`Request.params_and_text_agree`).
-/

namespace Forecast

variable {d : Date} {s t : String} {cs : List Char}

/-! ## Blanks -/

/-- A text with no blank in it is what remains when blanks stand on both sides of it. -/
theorem Text.trim_of_not_blank {before after : List Char} (hne : cs ≠ [])
    (h : ∀ c ∈ cs, isBlank c = false) (hbefore : ∀ c ∈ before, isBlank c = true)
    (hafter : ∀ c ∈ after, isBlank c = true) : trim (before ++ cs ++ after) = cs := by
  have hstart : trimStart (before ++ cs ++ after) = cs ++ after := by
    rw [List.append_assoc, trimStart_append_of_blank hbefore, Date.trimStart_of_not_blank h hne]
  have hend : trimStart (after.reverse ++ cs.reverse) = cs.reverse := by
    rw [trimStart_append_of_blank fun c hc => hafter c (List.mem_reverse.1 hc)]
    have := Date.trimStart_of_not_blank (fun c hc => h c (List.mem_reverse.1 hc))
      (List.reverse_ne_nil_iff.2 hne) []
    rwa [List.append_nil] at this
  rw [trim, hstart, trimEnd, List.reverse_append, hend, List.reverse_reverse]

/-! ## Printed dates -/

namespace Date

/-- A date is printed with digits and signs. -/
theorem isBlank_of_mem_chars {c : Char} (h : c ∈ d.chars) : Text.isBlank c = false := by
  have hdigits : ∀ width n, c ∈ Text.paddedDigits width n → Text.isBlank c = false :=
    fun _ _ hc => isBlank_of_isDigit (Text.isDigit_of_mem_paddedDigits hc)
  have hyear : c ∈ yearChars d.year → Text.isBlank c = false := by
    intro hc
    unfold yearChars at hc
    dsimp only at hc
    split at hc
    · exact hdigits _ _ hc
    · split at hc
      · rcases List.mem_cons.1 hc with rfl | hc
        · decide
        · exact hdigits _ _ hc
      · rcases List.mem_cons.1 hc with rfl | hc
        · decide
        · exact hdigits _ _ hc
  rw [chars, List.mem_append, List.mem_append, List.mem_cons, List.mem_cons] at h
  rcases h with (hc | rfl | hc) | rfl | hc
  · exact hyear hc
  · decide
  · exact hdigits _ _ hc
  · decide
  · exact hdigits _ _ hc

theorem chars_ne_nil : d.chars ≠ [] := by
  simp [chars]

/-- The text is the printed date with blanks of any kind on either side. -/
def IsPrintedIn (d : Date) (s : String) : Prop :=
  ∃ before after, (∀ c ∈ before, Text.isBlank c = true) ∧ (∀ c ∈ after, Text.isBlank c = true) ∧
    s.toList = before ++ d.toText.toList ++ after

theorem isPrintedIn_toText (d : Date) : d.IsPrintedIn d.toText :=
  ⟨[], [], fun _ h => absurd h List.not_mem_nil, fun _ h => absurd h List.not_mem_nil, by simp⟩

/-- A printed date is read as the date, whatever blanks surround it. -/
theorem IsPrintedIn.readDate_eq (h : d.IsPrintedIn s) :
    Request.readDate (some s) = .ok (some d) := by
  obtain ⟨before, after, hbefore, hafter, hs⟩ := h
  have hchars : Request.paramChars (some s) = d.chars := by
    rw [Request.paramChars, Option.getD_some, hs, toText, String.toList_ofList]
    exact Text.trim_of_not_blank chars_ne_nil (fun _ => isBlank_of_mem_chars) hbefore hafter
  unfold Request.readDate
  dsimp only
  rw [← Request.paramChars, hchars, if_neg (by simpa using chars_ne_nil), readChars_chars]

end Date

/-! ## Requests with printed dates -/

namespace Request

open Json

variable {household : Uuid} {first last : Date} {accounts : Option (List Uuid)}

/-- The text is an object with the household, a window whose ends are the printed dates and the accounts,
which may be left out if there are none. The members may stand in any order and among others. -/
def IsPrintedIn (household : Uuid) (first last : Date) (accounts : Option (List Uuid)) (t : String) :
    Prop :=
  ∃ v h w a, Value.parse? t = some v ∧
    v.HasFields [("family_id", some h), ("window", some w), ("account_ids", a)] ∧
    decode? h = some household ∧
    w.HasFields [("start", some (.ofString first.toText)), ("end", some (.ofString last.toText))] ∧
    (Slot.written a).optional = some accounts

/-- The draft of a request, written in either layout, is such a text. -/
theorem isPrintedIn_write (household : Uuid) (first last : Date) (accounts : Option (List Uuid)) :
    let draft : Draft := ⟨household, ⟨first, last⟩, accounts⟩
    IsPrintedIn household first last accounts (write draft) ∧
      IsPrintedIn household first last accounts (writeLines draft) := by
  have hfields : (encode (⟨household, ⟨first, last⟩, accounts⟩ : Draft)).HasFields
      [("family_id", some (encode household)), ("window", some (encode (Window.Ends.mk first last))),
        ("account_ids", accounts.map encode)] := hasFields_record _
  have hends : (encode (Window.Ends.mk first last)).HasFields
      [("start", some (.ofString first.toText)), ("end", some (.ofString last.toText))] :=
    hasFields_record _
  have hhousehold : decode? (encode household) = some household := decode?_encode (fits _)
  have haccounts : (Slot.written (accounts.map encode)).optional = some accounts := by
    have := Slot.optional_fieldIfSome "account_ids" (fits accounts)
    rwa [settle_eq_self] at this
  exact ⟨⟨_, _, _, _, Value.parse?_compact _, hfields, hhousehold, hends, haccounts⟩,
    ⟨_, _, _, _, Value.parse?_indented _, hfields, hhousehold, hends, haccounts⟩⟩

/-- Printed dates are the ends of the window in JSON as well. -/
theorem IsPrintedIn.spells (h : IsPrintedIn household first last accounts t) :
    Spells t household ⟨first, last⟩ accounts := by
  obtain ⟨v, h, w, a, hv, hfields, hhousehold, hwindow, haccounts⟩ := h
  have hdate : ∀ d : Date, decode? (.ofString d.toText) = some d := fun d => decode?_encode (fits d)
  have hends : decode? w = some (⟨first, last⟩ : Window.Ends) := by
    refine Option.bind_eq_some_iff.2 ⟨_, hwindow.slots?_eq rfl (by decide), ?_⟩
    show (do return (⟨← decode? _, ← decode? _⟩ : Window.Ends)) = some _
    rw [hdate, hdate]
    rfl
  exact ⟨v, _, _, _, hv, hfields.slots?_eq rfl (by decide), hhousehold, hends, haccounts⟩

theorem IsPrintedIn.ofJson_eq (h : IsPrintedIn household first last accounts t) :
    ofJson t = between household first last accounts := by
  have hdraft : Outcome.ofJson t = .ok (⟨household, ⟨first, last⟩, accounts⟩ : Draft) :=
    Outcome.ofJson_eq_ok_iff.2 (read?_draft_iff.2 h.spells)
  unfold ofJson between
  rw [hdraft, ok_bind]
  cases windowBetween first last <;> rfl

/-- Printed dates are the days that parameters ask for. -/
theorem askFor_printed {a b : String} {today : Date} {settings : Settings} (ha : first.IsPrintedIn a)
    (hb : last.IsPrintedIn b) : AskFor (some a) (some b) today settings first last :=
  ⟨.inl ha.readDate_eq, .inl hb.readDate_eq⟩

/-- **Parameters and JSON denote the same dates.** A printed date is read from a parameter, with blanks
around it or without. Two printed dates as parameters have the same outcome as a text that holds them with
the same household and accounts: the same request if they are in order, and the same inverted range if
they are not. Such a text is written for any two dates. -/
theorem params_and_text_agree (household : Uuid) (first last : Date) (accounts : Option (List Uuid))
    (today : Date) (settings : Settings) :
    (∀ s, first.IsPrintedIn s → readDate (some s) = .ok (some first)) ∧
    (∀ a b t, first.IsPrintedIn a → last.IsPrintedIn b →
      IsPrintedIn household first last accounts t →
      ofParams household (some a) (some b) accounts today settings = (ofJson t).attempt ∧
      (first ≤ last → ∃ r, ofJson t = .ok r ∧ r.household = household ∧ r.window.first = first ∧
        r.window.last = last ∧ r.accounts = if accounts = some [] then none else accounts) ∧
      (last < first → ofJson t = .error (.invertedRange first last))) ∧
    first.IsPrintedIn first.toText ∧
    IsPrintedIn household first last accounts (write (⟨household, ⟨first, last⟩, accounts⟩ : Draft)) ∧
    IsPrintedIn household first last accounts
      (writeLines (⟨household, ⟨first, last⟩, accounts⟩ : Draft)) := by
  refine ⟨fun s hs => hs.readDate_eq, ?_, first.isPrintedIn_toText, isPrintedIn_write _ _ _ _⟩
  intro a b t ha hb ht
  rw [(askFor_printed ha hb).ofParams_eq, ht.ofJson_eq]
  refine ⟨rfl, ?_, fun hlt => between_of_lt hlt⟩
  intro hle
  exact ⟨_, between_of_le hle, rfl, rfl, rfl, rfl⟩

end Request

namespace Sample

/-- A day of the year before zero. -/
def early : Date := { dayNumber := -366 }

/-- A day of a year with five digits. -/
def late : Date := { dayNumber := 4509016 }

/-- A window with its last day first. -/
def turnedWindow : Json.Value :=
  .object [(some "end", .ofString late.toText), (some "start", .ofString early.toText)]

/-- A request with its members turned around and a note among them. -/
def turnedRequest : Json.Value :=
  .object [(some "note", .null), (some "account_ids", .array []), (some "window", turnedWindow),
    (some "family_id", Json.encode ({ value := 7 } : Uuid))]

end Sample

namespace Request

open Json

/-- Years with signs are read by both readers, and the members of the object in any order. -/
theorem sample_signedYears :
    Sample.early.toText = "-0001-03-01" ∧ Sample.late.toText = "+12345-06-07" ∧
    Sample.early.IsPrintedIn "\u3000-0001-03-01 \n" ∧
    IsPrintedIn { value := 7 } Sample.early Sample.late (some []) Sample.turnedRequest.compact ∧
    ofParams { value := 7 } (some "\u3000-0001-03-01 \n") (some "+12345-06-07") (some []) Sample.late {} =
      (ofJson Sample.turnedRequest.compact).attempt := by
  have hearly : Sample.early.toText = "-0001-03-01" := by decide +kernel
  have hlate : Sample.late.toText = "+12345-06-07" := by decide +kernel
  have hspaced : Sample.early.IsPrintedIn "\u3000-0001-03-01 \n" := by
    refine ⟨['\u3000'], [' ', '\n'], List.all_eq_true.1 (by decide), List.all_eq_true.1 (by decide), ?_⟩
    rw [hearly]
    rfl
  have hwindow : Sample.turnedWindow.HasFields
      [("start", some (.ofString Sample.early.toText)), ("end", some (.ofString Sample.late.toText))] :=
    ⟨_, [], rfl, .swap _ _ _, fun _ h => absurd h List.not_mem_nil⟩
  have hrequest : Sample.turnedRequest.HasFields
      [("family_id", some (encode ({ value := 7 } : Uuid))), ("window", some Sample.turnedWindow),
        ("account_ids", some (.array []))] := by
    refine ⟨_, [(some "note", .null)], rfl, List.reverse_perm [(some "family_id", _),
      (some "window", _), (some "account_ids", _), (some "note", _)], ?_⟩
    intro m hm
    rw [List.mem_singleton.1 hm]
    exact ⟨"note", rfl, by decide⟩
  have htext : IsPrintedIn { value := 7 } Sample.early Sample.late (some [])
      Sample.turnedRequest.compact :=
    ⟨_, _, _, _, Value.parse?_compact _, hrequest, decode?_encode (fits _), hwindow, rfl⟩
  exact ⟨hearly, hlate, hspaced, htext, ((params_and_text_agree _ _ _ _ _ _).2.1 _ _ _ hspaced
    (hlate ▸ Sample.late.isPrintedIn_toText) htext).1⟩

end Request

end Forecast
