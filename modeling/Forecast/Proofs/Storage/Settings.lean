import Forecast.Proofs.Confidence.Check
import Forecast.Proofs.Json.Keys
import Forecast.Proofs.Storage.Saved
import Forecast.Storage.SettingsFile

/-!
# Settings are kept

Settings with a flaw are refused before a file is touched, and all others replace what the settings file
held. After any number of saves the file thus holds the last settings that were accepted
(`SettingsFile.Holds`, `SettingsFile.holds_afterSaves`), and loading gives them back, the same in every
field (`Settings.Same`).

Whatever else is in the file, what is loaded passed the check. It is made of what stands under the keys
of the text, with the standard settings for the keys that are missing (`Settings.ReadFrom`).
-/

namespace Forecast

open Json

/-! ## The same in every field -/

/-- The same confidence settings, with the same decimals. -/
structure ConfidenceSettings.Same (s s' : ConfidenceSettings) : Prop where
  pending : s.pending.Same s'.pending
  autoRecurring : s.autoRecurring.Same s'.autoRecurring
  manualRecurring : s.manualRecurring.Same s'.manualRecurring
  newRecurring : s.newRecurring.Same s'.newRecurring
  establishedOccurrences : s.establishedOccurrences = s'.establishedOccurrences
  decayPerDay : s.decayPerDay.Same s'.decayPerDay
  floor : s.floor.Same s'.floor

/-- The same settings, with the same decimals. -/
structure Settings.Same (s s' : Settings) : Prop where
  lowBalanceThreshold : s.lowBalanceThreshold.Same s'.lowBalanceThreshold
  defaultWindowDays : s.defaultWindowDays = s'.defaultWindowDays
  upcomingDays : s.upcomingDays = s'.upcomingDays
  upcomingLimit : s.upcomingLimit = s'.upcomingLimit
  confidence : s.confidence.Same s'.confidence

theorem ConfidenceSettings.same_settle (s : ConfidenceSettings) : s.Same (settle s) where
  pending := Decimal.same_settle _
  autoRecurring := Decimal.same_settle _
  manualRecurring := Decimal.same_settle _
  newRecurring := Decimal.same_settle _
  establishedOccurrences := rfl
  decayPerDay := Decimal.same_settle _
  floor := Decimal.same_settle _

theorem Settings.same_settle (s : Settings) : s.Same (settle s) where
  lowBalanceThreshold := Decimal.same_settle _
  defaultWindowDays := rfl
  upcomingDays := rfl
  upcomingLimit := rfl
  confidence := s.confidence.same_settle

theorem Decimal.Same.le_iff {d d' c : Decimal} (h : d.Same d') : d ≤ c ↔ d' ≤ c := by
  rw [le_iff_units_le, le_iff_units_le, h.1]

theorem Decimal.Same.ge_iff {d d' c : Decimal} (h : d.Same d') : c ≤ d ↔ c ≤ d' := by
  rw [le_iff_units_le, le_iff_units_le, h.1]

/-- Settings that are the same as settings without a flaw have none. -/
theorem ConfidenceSettings.Same.flaw?_eq_none {s s' : ConfidenceSettings} (h : s.Same s')
    (hs : s.flaw? = none) : s'.flaw? = none := by
  obtain ⟨hscores, hfloor, hdecay⟩ := flaw?_eq_none_iff.1 hs
  have hsame : List.Forall₂ (fun a a' => a.2.Same a'.2) s.scores s'.scores :=
    .cons h.pending <| .cons h.autoRecurring <| .cons h.manualRecurring <| .cons h.newRecurring <|
      .cons h.floor .nil
  refine flaw?_eq_none_iff.2 ⟨fun score' hscore' => ?_, h.floor.ge_iff.1 hfloor,
    h.decayPerDay.ge_iff.1 hdecay⟩
  obtain ⟨score, hscore, hvalue⟩ := exists_of_mem_right hsame hscore'
  obtain ⟨hzero, hone⟩ := hscores score hscore
  exact ⟨hvalue.ge_iff.1 hzero, hvalue.le_iff.1 hone⟩

theorem Settings.Same.check_eq_ok {s s' : Settings} (h : s.Same s') (hs : s.check = .ok ()) :
    s'.check = .ok () := by
  obtain ⟨hthreshold, hconfidence⟩ := check_eq_ok_iff.1 hs
  exact check_eq_ok_iff.2 ⟨h.lowBalanceThreshold.ge_iff.1 hthreshold,
    h.confidence.flaw?_eq_none hconfidence⟩

/-! ## Settings that are read from a value -/

/-- The keys of confidence settings, in order. -/
def ConfidenceSettings.keys : List String :=
  ["pending", "auto_recurring", "manual_recurring", "new_recurring", "established_occurrences",
    "decay_per_day", "floor"]

/-- The keys of settings, in order. -/
def Settings.keys : List String :=
  ["low_balance_threshold", "default_window_days", "upcoming_days", "upcoming_limit", "confidence"]

/-- Confidence settings as a value gives them: what stands under a key, and the standard setting where
a key is missing. -/
structure ConfidenceSettings.ReadFrom (v : Value) (s : ConfidenceSettings) : Prop where
  pending : v.Fills keys "pending" ({} : ConfidenceSettings).pending s.pending
  autoRecurring : v.Fills keys "auto_recurring" ({} : ConfidenceSettings).autoRecurring s.autoRecurring
  manualRecurring :
    v.Fills keys "manual_recurring" ({} : ConfidenceSettings).manualRecurring s.manualRecurring
  newRecurring : v.Fills keys "new_recurring" ({} : ConfidenceSettings).newRecurring s.newRecurring
  establishedOccurrences : v.Fills keys "established_occurrences"
    ({} : ConfidenceSettings).establishedOccurrences s.establishedOccurrences
  decayPerDay : v.Fills keys "decay_per_day" ({} : ConfidenceSettings).decayPerDay s.decayPerDay
  floor : v.Fills keys "floor" ({} : ConfidenceSettings).floor s.floor

/-- Settings as a value gives them. The confidence settings are read from what stands under their
key in the same way. -/
structure Settings.ReadFrom (v : Value) (s : Settings) : Prop where
  lowBalanceThreshold :
    v.Fills keys "low_balance_threshold" ({} : Settings).lowBalanceThreshold s.lowBalanceThreshold
  defaultWindowDays :
    v.Fills keys "default_window_days" ({} : Settings).defaultWindowDays s.defaultWindowDays
  upcomingDays : v.Fills keys "upcoming_days" ({} : Settings).upcomingDays s.upcomingDays
  upcomingLimit : v.Fills keys "upcoming_limit" ({} : Settings).upcomingLimit s.upcomingLimit
  confidence : v.Fills keys "confidence" {} s.confidence
  within : ∀ w, v.under? keys "confidence" = some w → s.confidence.ReadFrom w

theorem ConfidenceSettings.readFrom_of_decode? {v : Value} {s : ConfidenceSettings}
    (h : decode? v = some s) : s.ReadFrom v := by
  obtain ⟨slots, hslots, h⟩ := Option.bind_eq_some_iff.1 h
  have hgiven := map_given?_of_slots? (by decide) hslots
  split at h
  · simp only [Option.bind_eq_bind, Option.bind_eq_some_iff, Option.pure_def,
      Option.some.injEq] at h
    obtain ⟨_, hpending, _, hautoRecurring, _, hmanualRecurring, _, hnewRecurring, _,
      hestablishedOccurrences, _, hdecayPerDay, _, hfloor, rfl⟩ := h
    simp only [List.map_cons, List.cons.injEq] at hgiven
    obtain ⟨gpending, gautoRecurring, gmanualRecurring, gnewRecurring, gestablishedOccurrences,
      gdecayPerDay, gfloor, -⟩ := hgiven
    exact ⟨.of_slot gpending hpending, .of_slot gautoRecurring hautoRecurring,
      .of_slot gmanualRecurring hmanualRecurring, .of_slot gnewRecurring hnewRecurring,
      .of_slot gestablishedOccurrences hestablishedOccurrences,
      .of_slot gdecayPerDay hdecayPerDay, .of_slot gfloor hfloor⟩
  · cases h

theorem Settings.readFrom_of_decode? {v : Value} {s : Settings} (h : decode? v = some s) :
    s.ReadFrom v := by
  obtain ⟨slots, hslots, h⟩ := Option.bind_eq_some_iff.1 h
  have hgiven := map_given?_of_slots? (by decide) hslots
  split at h
  · simp only [Option.bind_eq_bind, Option.bind_eq_some_iff, Option.pure_def,
      Option.some.injEq] at h
    obtain ⟨_, hlowBalanceThreshold, _, hdefaultWindowDays, _, hupcomingDays, _, hupcomingLimit, _,
      hconfidence, rfl⟩ := h
    simp only [List.map_cons, List.cons.injEq] at hgiven
    obtain ⟨glowBalanceThreshold, gdefaultWindowDays, gupcomingDays, gupcomingLimit, gconfidence, -⟩ :=
      hgiven
    have hread := Value.Fills.of_slot gconfidence hconfidence
    exact ⟨.of_slot glowBalanceThreshold hlowBalanceThreshold,
      .of_slot gdefaultWindowDays hdefaultWindowDays, .of_slot gupcomingDays hupcomingDays,
      .of_slot gupcomingLimit hupcomingLimit, hread,
      fun w hw => ConfidenceSettings.readFrom_of_decode? (hread.given w hw)⟩
  · cases h

/-! ## The settings file -/

/-- The last of the settings that has no flaw. -/
def Settings.lastAccepted (saved : List Settings) : Option Settings :=
  saved.reverse.find? fun s => s.flaw?.isNone

namespace SettingsFile

open FileAction FileTree

variable {root : Path} {t t' : FileTree} {held : Option Settings} {s : Settings}

/-- The name of the staging file. -/
def stagingName : String := "config.tmp"

theorem staging_path (root : Path) :
    (Route.ofPath (path root)).staging = .ofPath (root ++ [stagingName]) := by
  have hname : fileName = String.ofList ("config".toList ++ '.' :: "json".toList) := by decide
  rw [path, hname]
  exact Route.staging_ofPath root (by decide) (by decide) (by decide) (by decide)

/-- The settings file is not there yet and can be written: the names on the way are names of folders, no
file is in the way, and no folder is where the staging file goes. -/
structure IsFresh (root : Path) (t : FileTree) : Prop where
  names : ∀ name ∈ root, Route.isName name = true
  top : t.node? [] = some .folder
  free : ∀ r, r <+: root → ∀ c, t.node? r ≠ some (.file c)
  missing : t.node? (path root) = none
  staging : t.node? (root ++ [stagingName]) ≠ some .folder

/-- The settings file holds the settings, which have no flaw, or is missing. -/
structure Holds (root : Path) (t : FileTree) (held : Option Settings) : Prop where
  names : ∀ name ∈ root, Route.isName name = true
  folders : t.HasFolders root
  file : t.node? (path root) = held.map fun s => .file (.text (writeLines s))
  staging : t.node? (root ++ [stagingName]) ≠ some .folder
  accepted : ∀ s ∈ held, s.check = .ok ()

theorem holds_prepare (h : IsFresh root t) :
    ∃ t', (prepare root).runOn t = (.ok (), t') ∧ Holds root t' none := by
  obtain ⟨t', hrun, hfolders, hrest⟩ := exists_runOn_ensureFolder h.names h.top h.free
  have hothers : ∀ name, t'.node? (root ++ [name]) = t.node? (root ++ [name]) :=
    fun name => hrest _ (not_concat_prefix_self root name)
  refine ⟨t', hrun, h.names, hfolders, ?_, ?_, nofun⟩
  · rw [path, hothers]
    exact h.missing
  · rw [hothers]
    exact h.staging

/-! ## Loading -/

/-- Settings are read from the text of the file and checked. -/
theorem runOn_load_of_read {text : String} (hfile : t.contains (path root) = true)
    (hread : (read (.ofPath (path root))).runOn t = (.ok text, t)) :
    (load root).runOn t =
      ((do let s : Settings ← Outcome.ofJson text; s.check; return s), t) := by
  unfold load
  rw [runOn_bind_of_ok (runOn_get t), if_pos hfile, runOn_bind_of_ok hread, runOn_bind,
    runOn_ofOutcome]
  cases (Outcome.ofJson text : Outcome Settings) with
  | error e => rfl
  | ok s =>
    dsimp only
    rw [runOn_bind, runOn_ofOutcome, ok_bind]
    cases s.check <;> rfl

theorem runOn_load_of_missing (h : t.contains (path root) = false) :
    (load root).runOn t = (.ok {}, t) := by
  unfold load
  rw [runOn_bind_of_ok (runOn_get t), if_neg (by simp [h])]
  rfl

/-- What is loaded passed the check. It is the standard settings if there is no file, and is otherwise
read from the text of the file. Loading changes no file. -/
theorem of_runOn_load (h : (load root).runOn t = (.ok s, t')) :
    t' = t ∧ s.check = .ok () ∧ (t.contains (path root) = false ∧ s = {} ∨
      ∃ text v, (read (.ofPath (path root))).runOn t = (.ok text, t) ∧
        Value.parse? text = some v ∧ s.ReadFrom v) := by
  cases hfile : t.contains (path root) with
  | false =>
    rw [runOn_load_of_missing hfile] at h
    cases h
    exact ⟨rfl, by decide, .inl ⟨rfl, rfl⟩⟩
  | true =>
    rcases runOn_read_cases (.ofPath (path root)) t with ⟨text, hread⟩ | hread
    · rw [runOn_load_of_read hfile hread, Prod.mk.injEq] at h
      obtain ⟨s', hjson, hrest⟩ := bind_eq_ok_iff.1 h.1
      obtain ⟨⟨⟩, hcheck, hs⟩ := bind_eq_ok_iff.1 hrest
      obtain rfl := pure_eq_ok_iff.1 hs
      obtain ⟨v, hv, hdecode⟩ := Option.bind_eq_some_iff.1 (Outcome.ofJson_eq_ok_iff.1 hjson)
      exact ⟨h.2.symm, hcheck, .inr ⟨text, v, hread, hv, Settings.readFrom_of_decode? hdecode⟩⟩
    · unfold load at h
      rw [runOn_bind_of_ok (runOn_get t), if_pos hfile, runOn_bind, hread] at h
      cases h

/-! ## Saving -/

/-- Settings with a flaw are refused. No file changes. -/
theorem runOn_save_of_flaw {p : Problem} (h : s.check = .error p) (t : FileTree) :
    (save root s).runOn t = (.error p, t) := by
  unfold save
  rw [runOn_bind, runOn_ofOutcome, h]

namespace Holds

theorem runOn_load (h : Holds root t held) :
    (load root).runOn t = (.ok (held.elim {} settle), t) := by
  cases held with
  | none => exact runOn_load_of_missing (by simp [FileTree.contains, h.file])
  | some s =>
    have hfile : t.node? (path root) = some (.file (.text (writeLines s))) := h.file
    have hnames : ∀ name ∈ path root, Route.isName name = true :=
      List.forall_mem_append.2 ⟨h.names, List.forall_mem_singleton.2 (by decide)⟩
    have hread := runOn_read_ofPath hnames h.folders hfile
    have hcheck := s.same_settle.check_eq_ok (h.accepted s rfl)
    rw [runOn_load_of_read (by simp [FileTree.contains, hfile]) hread,
      Outcome.ofJson_eq_ok_iff.2 (read?_writeLines (fits s)), ok_bind, hcheck]
    rfl

/-- Saving gives the outcome of the check. Settings that pass it are held from then on. -/
theorem save (h : Holds root t held) (s : Settings) :
    ∃ t', (SettingsFile.save root s).runOn t = (s.check, t') ∧
      Holds root t' (if s.flaw?.isNone then some s else held) := by
  cases hflaw : s.flaw? with
  | some flaw =>
    have hcheck : s.check = .error (.badSettings flaw) := by rw [Settings.check, hflaw]
    exact ⟨t, by rw [runOn_save_of_flaw hcheck, hcheck], h⟩
  | none =>
    have hcheck : s.check = .ok () := by rw [Settings.check, hflaw]
    have hfile : t.node? (path root) ≠ some .folder := by simp [h.file]
    refine ⟨t.written root fileName stagingName (.text (writeLines s)), ?_, h.names,
      h.folders.written, node?_written_self, ?_, ?_⟩
    · unfold SettingsFile.save
      rw [runOn_bind, runOn_ofOutcome, hcheck]
      exact runOn_writeAtomic (writeLines s) h.names (by decide) (by decide) (by decide)
        (staging_path root) h.folders hfile h.staging
    · rw [written, node?_put_of_ne _ _ (by simp [stagingName, fileName]), node?_erase,
        if_pos (List.prefix_refl _)]
      simp
    · rintro _ ⟨⟩
      exact hcheck

end Holds

/-! ## Any number of saves -/

/-- What is left of a tree after each of the settings was saved or refused. -/
def afterSaves (root : Path) (saved : List Settings) (t : FileTree) : FileTree :=
  saved.foldl (fun t s => ((save root s).runOn t).2) t

theorem holds_afterSaves (h : Holds root t none) (saved : List Settings) :
    Holds root (afterSaves root saved t) (Settings.lastAccepted saved) := by
  induction saved using List.reverseRecOn with
  | nil => exact h
  | append_singleton saved s ih =>
    obtain ⟨t', hrun, hholds⟩ := ih.save s
    have hlast : Settings.lastAccepted (saved ++ [s]) =
        if s.flaw?.isNone then some s else Settings.lastAccepted saved := by
      unfold Settings.lastAccepted
      rw [List.reverse_concat, List.find?_cons]
      cases s.flaw? <;> rfl
    unfold afterSaves
    rw [List.foldl_concat, hlast]
    show Holds root ((save root s).runOn (afterSaves root saved t)).2 _
    rw [hrun]
    exact hholds

/-- **Settings are kept as they were accepted.** However many settings are saved where no settings file
is yet, a save gives the outcome of the check, and what is loaded is the last settings that were
accepted, the same in every field, or the standard settings if none were. Settings that are refused
change no file. Whatever the files hold, only settings that pass the check are loaded, and a key that is
missing from the text of the file has its standard setting. -/
theorem accepted_settings_kept (h : IsFresh root t) :
    ∃ t₀, (prepare root).runOn t = (.ok (), t₀) ∧
      (∀ saved s, ((save root s).runOn (afterSaves root saved t₀)).1 = s.check) ∧
      (∀ saved, ∃ loaded, (load root).runOn (afterSaves root saved t₀) =
          (.ok loaded, afterSaves root saved t₀) ∧
        match Settings.lastAccepted saved with
        | some s => s.Same loaded
        | none => loaded = {}) ∧
      (∀ files s p, s.check = .error p → (save root s).runOn files = (.error p, files)) ∧
      ∀ files files' s, (load root).runOn files = (.ok s, files') →
        files' = files ∧ s.check = .ok () ∧ (files.contains (path root) = false ∧ s = {} ∨
          ∃ text v, (read (.ofPath (path root))).runOn files = (.ok text, files) ∧
            Value.parse? text = some v ∧ s.ReadFrom v) := by
  obtain ⟨t₀, hprepare, h₀⟩ := holds_prepare h
  refine ⟨t₀, hprepare, fun saved s => ?_, fun saved => ?_, fun files s p hcheck => ?_,
    fun files files' s hload => of_runOn_load hload⟩
  · obtain ⟨t', hrun, -⟩ := (holds_afterSaves h₀ saved).save s
    rw [hrun]
  · refine ⟨_, (holds_afterSaves h₀ saved).runOn_load, ?_⟩
    cases Settings.lastAccepted saved with
    | none => rfl
    | some s => exact s.same_settle
  · exact runOn_save_of_flaw hcheck files

end SettingsFile

namespace Sample

/-- Settings that differ from the standard ones in the window and in the floor. -/
def cautious : Settings where
  defaultWindowDays := 30
  confidence := { floor := .hundredths 35 }

/-- Settings with a floor below the lowest one. -/
def floorless : Settings where
  confidence := { floor := .tenths 2 }

/-- A settings file with two keys, one of them within the confidence settings. -/
def cautiousFiles : FileTree :=
  ⟨[([], .folder), (["data"], .folder), (SettingsFile.path ["data"], .file (.text
    "\x7b\"default_window_days\":30,\"confidence\":\x7b\"floor\":\"0.35\"\x7d\x7d"))]⟩

theorem isFresh_data : SettingsFile.IsFresh ["data"] disk where
  names := by decide
  top := by decide
  free := by
    intro r hr c
    have hinits : r ∈ [[], ["data"]] := (List.mem_inits r _).2 hr
    rcases List.mem_pair.1 hinits with rfl | rfl <;> simp [disk, FileTree.node?]
  missing := by decide
  staging := by decide

theorem load_cautiousFiles :
    (SettingsFile.load ["data"]).runOn cautiousFiles = (.ok cautious, cautiousFiles) := by
  decide +kernel

end Sample

/-- Settings that are refused do not replace the ones that were accepted before. Two keys are read, and
the others are standard. -/
theorem SettingsFile.sample_cautious : SettingsFile.IsFresh ["data"] Sample.disk ∧
    (SettingsFile.load ["data"]).runOn Sample.cautiousFiles =
      (.ok Sample.cautious, Sample.cautiousFiles) ∧
    ∃ t₀, (SettingsFile.prepare ["data"]).runOn Sample.disk = (.ok (), t₀) ∧
      ((SettingsFile.save ["data"] Sample.floorless).runOn
          (SettingsFile.afterSaves ["data"] [Sample.cautious] t₀)).1 =
        .error (.badSettings (.floorTooLow (.tenths 2))) ∧
      (∃ loaded, (SettingsFile.load ["data"]).runOn
          (SettingsFile.afterSaves ["data"] [Sample.cautious, Sample.floorless] t₀) =
            (.ok loaded, SettingsFile.afterSaves ["data"] [Sample.cautious, Sample.floorless] t₀) ∧
        Sample.cautious.Same loaded) ∧
      Sample.cautious.check = .ok () ∧
      ∃ text v, (FileAction.read (.ofPath (path ["data"]))).runOn Sample.cautiousFiles =
          (.ok text, Sample.cautiousFiles) ∧
        Value.parse? text = some v ∧ Sample.cautious.ReadFrom v := by
  obtain ⟨t₀, hprepare, hsave, hload, -, hread⟩ :=
    SettingsFile.accepted_settings_kept Sample.isFresh_data
  obtain ⟨-, hcheck, ⟨hmissing, -⟩ | hfile⟩ := hread _ _ _ Sample.load_cautiousFiles
  · exact absurd hmissing (by decide)
  · refine ⟨Sample.isFresh_data, Sample.load_cautiousFiles, t₀, hprepare, ?_, ?_, hcheck, hfile⟩
    · rw [hsave]
      decide
    · obtain ⟨loaded, hrun, hlast⟩ := hload [Sample.cautious, Sample.floorless]
      exact ⟨loaded, hrun, hlast⟩

end Forecast
