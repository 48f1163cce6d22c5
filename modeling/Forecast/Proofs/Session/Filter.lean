import Forecast.Proofs.Request.Decoding
import Forecast.Proofs.Session.Runs
import Forecast.Proofs.Source.Memory
import Forecast.Storage.SnapshotStore

/-!
# Equivalent filters

A filter shows itself only in what it admits. Two filters that admit the same accounts lead to the
same events, the same starting balance and so to the same answers, over every source whose entries
they select alike (`Session.transcript_withFilter`). A source in memory and a store are such sources.

An empty list and no list at all are two such filters, which is why the two readers of a request, of
which only one tells them apart, are the same to whoever asks a session (`Request.readers_agree`).
-/

namespace Forecast

variable {filter filter' : Option (List Uuid)}

/-! ## What a filter is looked up for -/

theorem Snapshot.entriesWithin_congr (h : ∀ id, admits filter id = admits filter' id)
    (snap : Snapshot) (w : Window) : snap.entriesWithin w filter = snap.entriesWithin w filter' := by
  simp only [entriesWithin, Entry.isWithin, h]

theorem Account.holdings_congr (h : ∀ id, admits filter id = admits filter' id)
    (accounts : List Account) : holdings accounts filter = holdings accounts filter' := by
  simp only [holdings, balancesOf, h]

theorem Memory.entries_congr (h : ∀ id, admits filter id = admits filter' id) (household : Uuid)
    (w : Window) : source.entries household w filter = source.entries household w filter' := by
  funext m
  show (m.entries household w filter, m) = (m.entries household w filter', m)
  simp only [entries, Snapshot.entriesWithin_congr h]

theorem SnapshotStore.entries_congr (h : ∀ id, admits filter id = admits filter' id)
    (store : SnapshotStore) (household : Uuid) (w : Window) :
    store.source.entries household w filter = store.source.entries household w filter' := by
  funext t
  show ((store.records t).entries household w filter, t) =
    ((store.records t).entries household w filter', t)
  simp only [records, Snapshot.entriesWithin_congr h]

/-! ## Sessions -/

namespace Session

variable {σ : Type} {s : Session} {source : Source σ}

/-- The session with another filter. -/
def withFilter (s : Session) (filter : Option (List Uuid)) : Session :=
  { s with request := { s.request with accounts := filter } }

section Lookup

variable (hadmits : ∀ id, admits filter id = admits s.request.accounts id)

include hadmits

theorem events_withFilter (entries : List Entry) (definitions : List Recurring) :
    (s.withFilter filter).outlook.events entries definitions =
      s.outlook.events entries definitions := by
  have hpending : (s.withFilter filter).outlook.pendingEvents entries =
      s.outlook.pendingEvents entries := by
    show (entries.filter fun e => e.pending && (s.request.window.contains e.date &&
        admits filter e.account)).map _ = _
    simp only [hadmits]
    rfl
  unfold Outlook.events
  rw [hpending]
  rfl

theorem startingBalance_withFilter :
    (s.withFilter filter).startingBalance source = s.startingBalance source := by
  unfold startingBalance
  simp only [withFilter, Account.holdings_congr hadmits]

variable (hentries : source.entries s.request.household s.request.window filter =
  source.entries s.request.household s.request.window s.request.accounts)

include hentries

theorem projections_withFilter :
    (s.withFilter filter).projections source = s.projections source := by
  unfold projections
  simp only [events_withFilter hadmits]
  simp only [withFilter, hentries]

/-- Every operation is the same. -/
theorem answer_withFilter (q : Inquiry) :
    (s.withFilter filter).answer source q = s.answer source q := by
  have hevents : (s.withFilter filter).eventsFor source q = s.eventsFor source q := by
    unfold eventsFor
    rw [projections_withFilter hadmits hentries]
  have hbalance : (s.withFilter filter).balanceFor source q = s.balanceFor source q := by
    unfold balanceFor
    rw [startingBalance_withFilter hadmits]
  have htold : ∀ events start, (s.withFilter filter).told events start q = s.told events start q := by
    intro events start
    cases q with
    | run plan => cases plan <;> rfl
    | _ => rfl
  simp only [answer_eq, hevents, hbalance, htold]

theorem transcript_withFilter (st : Memo × σ) (run : List Inquiry) :
    (s.withFilter filter).transcript source st run = s.transcript source st run := by
  induction run generalizing st with
  | nil => rfl
  | cons q run ih =>
    unfold transcript
    rw [answer_withFilter hadmits hentries, ih]

end Lookup

end Session

/-! ## Two readers of a request -/

theorem Request.admits_normal (r : Request) (id : Uuid) :
    admits r.normal.accounts id = admits r.accounts id := by
  unfold normal
  split
  · rename_i h
    rw [h]
    rfl
  · rfl

namespace Request

/-- **The two readers of a request agree.** The codec takes a text for a request exactly if it spells
one with its window in order. `ofJson` takes the same texts, for the same household and window and the
same accounts, except that an empty list becomes absent; it reports an inverted window exactly if all
else is in place, and any other text that it refuses is malformed to it. Sessions on the two requests
give the same answers in every run of inquiries, over any records in memory and any files. -/
theorem readers_agree (t : String) :
    (∀ r : Request, Json.read? t = some r ↔ Spells t r.household r.window.ends r.accounts) ∧
    (∀ r', ofJson t = .ok r' ↔ ∃ r : Request, Json.read? t = some r ∧
      r'.household = r.household ∧ r'.window = r.window ∧
      r'.accounts = if r.accounts = some [] then none else r.accounts) ∧
    (∀ p, ofJson t = .error p ↔
      (∃ household first last accounts, Spells t household ⟨first, last⟩ accounts ∧ last < first ∧
        p = .invertedRange first last) ∨
      (∀ household ends accounts, ¬ Spells t household ends accounts) ∧ p = .malformed) ∧
    ∀ r r' : Request, Json.read? t = some r → ofJson t = .ok r' →
      ∀ (settings : Settings) (today : Date) (run : List Inquiry),
        (∀ m, Session.transcript ⟨r, settings, today⟩ Memory.source ({}, m) run =
          Session.transcript ⟨r', settings, today⟩ Memory.source ({}, m) run) ∧
        ∀ (store : SnapshotStore) files,
          Session.transcript ⟨r, settings, today⟩ store.source ({}, files) run =
            Session.transcript ⟨r', settings, today⟩ store.source ({}, files) run := by
  refine ⟨fun r => read?_eq_some_iff, fun r' => ?_, fun p => ofJson_eq_error_iff, ?_⟩
  · rw [ofJson_eq_ok_iff]
    refine exists_congr fun r => and_congr_right fun _ => ?_
    cases r'
    simp only [normal, mk.injEq]
  · intro r r' hr hr' settings today run
    obtain ⟨_, hread, rfl⟩ := ofJson_eq_ok_iff.1 hr'
    obtain rfl := Option.some.inj (hr.symm.trans hread)
    have hadmits := r.admits_normal
    have hsession : (⟨r.normal, settings, today⟩ : Session) =
        (⟨r, settings, today⟩ : Session).withFilter r.normal.accounts := rfl
    rw [hsession]
    constructor
    · intro m
      exact (Session.transcript_withFilter hadmits (Memory.entries_congr hadmits _ _) _ run).symm
    · intro store files
      exact (Session.transcript_withFilter hadmits (store.entries_congr hadmits _ _) _ run).symm

end Request

namespace Sample

/-- A request as an array, with an empty list of accounts. -/
def unfilteredText : String :=
  "[\"00000000-0000-0000-0000-000000000001\",[\"2024-02-28\",\"2024-03-01\"],[]]"

def unfiltered : Request := { household := home, window, accounts := some [] }

set_option maxRecDepth 100000 in
theorem read?_unfilteredText : Json.read? unfilteredText = some unfiltered := by
  decide +kernel

end Sample

namespace Request

/-- The empty list of the text is kept by the one reader and forgotten by the other, and no run of
inquiries over the sample records tells the two requests apart. -/
theorem sample_unfiltered : Json.read? Sample.unfilteredText = some Sample.unfiltered ∧
    ofJson Sample.unfilteredText = .ok Sample.session.request ∧
    ∀ run, Session.transcript ⟨Sample.unfiltered, {}, Sample.session.today⟩ Memory.source
        ({}, Sample.memory) run =
      Session.transcript Sample.session Memory.source ({}, Sample.memory) run := by
  obtain ⟨-, haccepts, -, hsessions⟩ := readers_agree Sample.unfilteredText
  have hread := Sample.read?_unfilteredText
  have htaken : ofJson Sample.unfilteredText = .ok Sample.session.request :=
    (haccepts _).2 ⟨_, hread, rfl, rfl, rfl⟩
  exact ⟨hread, htaken, fun run => (hsessions _ _ hread htaken _ _ run).1 Sample.memory⟩

end Request

end Forecast
