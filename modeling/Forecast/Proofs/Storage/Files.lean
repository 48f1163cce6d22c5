import Forecast.Proofs.Success
import Forecast.Storage.FileTree

/-!
# Actions on files

What stands in a tree after something was put into it or erased, and what the actions come to where all
the folders on the way are there. Writing through a staging file then replaces the file, leaves no
staging file behind and touches nothing else (`FileAction.runOn_writeAtomic`).

The folders that are missing on the way are made without touching anything else, unless a file is in
the way (`FileAction.exists_runOn_ensureFolder`).
-/

namespace Forecast

/-! ## Trees -/

namespace FileTree

variable {t : FileTree} {p q : Path} {n : Node} {name : String}

/-- The tree of the paths that pass a test. -/
def keep (t : FileTree) (test : Path → Bool) : FileTree :=
  ⟨t.nodes.filter fun entry => test entry.1⟩

theorem node?_keep (test : Path → Bool) :
    (t.keep test).node? q = if test q = true then t.node? q else none := by
  unfold node? keep
  rw [List.find?_filter]
  split
  · rename_i h
    congr 2
    funext entry
    by_cases he : entry.1 = q
    · simp [he, h]
    · simp [he]
  · rename_i h
    rw [List.find?_eq_none.2, Option.map_none]
    intro entry _
    by_cases he : entry.1 = q
    · simp [he, h]
    · simp [he]

theorem node?_erase : (t.erase p).node? q = if p <+: q then none else t.node? q := by
  show (t.keep fun q => !p.isPrefixOf q).node? q = _
  rw [node?_keep]
  by_cases h : p <+: q
  · simp [h]
  · simp [h]

/-- What was put where all is erased is erased as well. -/
theorem erase_put : (t.put p n).erase p = t.erase p := by
  unfold put erase
  rw [mk.injEq, List.filter_cons, if_neg (by simp), List.filter_filter]
  refine List.filter_congr fun entry _ => ?_
  by_cases h : p <+: entry.1
  · simp [h]
  · have hne : entry.1 ≠ p := by
      rintro rfl
      exact h (List.prefix_refl _)
    simp [hne]

/-- The name that a path has directly below another one. -/
theorem nameBelow_eq_some_iff :
    (if q.dropLast == p && q != [] then q.getLast? else none) = some name ↔ q = p ++ [name] := by
  rw [Option.ite_none_right_eq_some, List.getLast?_eq_some_iff]
  constructor
  · rintro ⟨hp, ys, rfl⟩
    simp only [List.dropLast_concat, Bool.and_eq_true, beq_iff_eq] at hp
    rw [hp.1]
  · rintro rfl
    exact ⟨by simp, p, rfl⟩

/-- A name is below a path if something stands there. -/
theorem mem_namesIn : name ∈ t.namesIn p ↔ (t.node? (p ++ [name])).isSome = true := by
  unfold namesIn node?
  rw [List.mem_filterMap, Option.isSome_map, List.find?_isSome]
  refine exists_congr fun entry => and_congr_right fun _ => ?_
  rw [nameBelow_eq_some_iff, beq_iff_eq]

/-- The names of the paths that pass a test. -/
theorem namesIn_keep (test : Path → Bool) :
    (t.keep test).namesIn p = (t.namesIn p).filter fun name => test (p ++ [name]) := by
  unfold namesIn keep
  rw [List.filterMap_filter, List.filter_filterMap]
  refine List.filterMap_congr fun entry _ => ?_
  cases h : (if entry.1.dropLast == p && entry.1 != [] then entry.1.getLast? else none) with
  | none => simp
  | some name =>
    rw [nameBelow_eq_some_iff] at h
    rw [h, Option.filter_some]

theorem namesIn_put :
    (t.put (p ++ [name]) n).namesIn p = name :: (t.namesIn p).filter (· != name) := by
  have hnew : (t.put (p ++ [name]) n).namesIn p =
      name :: (t.keep fun q => q != p ++ [name]).namesIn p := by
    simp [put, keep, namesIn]
  rw [hnew, namesIn_keep]
  refine congrArg (name :: ·) (List.filter_congr fun other _ => ?_)
  simp [bne]

theorem namesIn_erase : (t.erase (p ++ [name])).namesIn p = (t.namesIn p).filter (· != name) := by
  refine (namesIn_keep fun q => !(p ++ [name]).isPrefixOf q).trans (List.filter_congr fun other _ => ?_)
  have hbelow : (p ++ [name]).isPrefixOf (p ++ [other]) = (other == name) := by
    rw [Bool.eq_iff_iff, List.isPrefixOf_iff_prefix, List.prefix_append_right_inj, beq_iff_eq]
    simp [List.prefix_cons_iff, eq_comm]
  rw [hbelow, bne]

/-! ## Folders on the way -/

/-- The path and all above it are folders. -/
def HasFolders (t : FileTree) (p : Path) : Prop :=
  ∀ r, r <+: p → t.node? r = some .folder

theorem HasFolders.take (h : t.HasFolders p) (k : Nat) : t.node? (p.take k) = some .folder :=
  h _ (List.take_prefix k p)

/-- A path in a folder can be the place of a file, unless it is itself a folder. -/
theorem filePlace?_ofPath (hnames : ∀ n ∈ p ++ [name], Route.isName n = true) (h : t.HasFolders p)
    (hfile : t.node? (p ++ [name]) ≠ some .folder) :
    t.filePlace? (.ofPath (p ++ [name])) = some (p ++ [name]) := by
  have hplace : t.place? (.ofPath (p ++ [name])) = some (p ++ [name]) := by
    refine t.place?_ofPath hnames fun k hk => ?_
    rw [List.length_append, List.length_singleton] at hk
    rw [List.take_append_of_le_length (by omega)]
    exact h.take k
  show (t.place? _).filter _ = _
  rw [hplace, Option.filter_some, if_pos (bne_iff_ne.2 hfile)]

/-- Names that can be followed lead straight down, and all above the last one are folders. -/
theorem of_follow_eq_some {names : List String} (hnames : ∀ n ∈ names, Route.isName n = true)
    (h : t.follow p names = some q) :
    q = p ++ names ∧ ∀ r, r <+: names → r ≠ names → t.node? (p ++ r) = some .folder := by
  induction names generalizing p with
  | nil =>
    refine ⟨?_, fun r hr hne => absurd (List.prefix_nil.1 hr) hne⟩
    rw [List.append_nil]
    exact (Option.some.inj h).symm
  | cons name names ih =>
    unfold follow at h
    rw [Route.stepFrom?_of_isName p (hnames name List.mem_cons_self)] at h
    split at h
    · rename_i q' hfolder hstep
      cases hstep
      obtain ⟨rfl, hfolders⟩ := ih (fun n hn => hnames n (List.mem_cons_of_mem _ hn)) h
      refine ⟨(List.append_cons p name names).symm, fun r hr hne => ?_⟩
      rcases List.prefix_cons_iff.1 hr with rfl | ⟨r, rfl, hbelow⟩
      · rwa [List.append_nil]
      · rw [List.append_cons]
        exact hfolders r hbelow fun heq => hne (congrArg (name :: ·) heq)
    · cases h

/-- What can be reached is a file, or a folder in folders. -/
theorem hasFolders_of_reaches (hnames : ∀ n ∈ p, Route.isName n = true)
    (h : t.reaches (.ofPath p) = true) (hfree : ∀ c, t.node? p ≠ some (.file c)) :
    t.HasFolders p := by
  have hplace : t.place? (.ofPath p) = t.follow [] p := if_pos (Route.isUsable_ofPath hnames)
  unfold reaches at h
  rw [hplace] at h
  cases hfollow : t.follow [] p with
  | none =>
    rw [hfollow] at h
    cases h
  | some q =>
    obtain ⟨hq, hfolders⟩ := of_follow_eq_some hnames hfollow
    rw [hfollow, hq] at h
    intro r hr
    by_cases hne : r = p
    · cases hnode : t.node? p with
      | none => simp [hnode] at h
      | some n =>
        cases n with
        | folder => rw [hne, hnode]
        | file c => exact absurd hnode (hfree c)
    · exact hfolders r hr hne

theorem not_concat_prefix_self (p : Path) (name : String) : ¬ p ++ [name] <+: p := by
  intro h
  have := h.length_le
  simp at this

theorem HasFolders.put (h : t.HasFolders p) (n : Node) : (t.put (p ++ [name]) n).HasFolders p := by
  intro r hr
  have hne : r ≠ p ++ [name] := by
    rintro rfl
    exact not_concat_prefix_self p name hr
  rw [node?_put_of_ne t n hne]
  exact h r hr

theorem HasFolders.erase (h : t.HasFolders p) : (t.erase (p ++ [name])).HasFolders p := by
  intro r hr
  rw [node?_erase, if_neg fun hle => not_concat_prefix_self p name (hle.trans hr)]
  exact h r hr

/-! ## Files written through a staging file -/

/-- The tree after a file was written through a staging file beside it. -/
def written (t : FileTree) (p : Path) (name tmp : String) (content : Content) : FileTree :=
  (t.erase (p ++ [tmp])).put (p ++ [name]) (.file content)

variable {tmp other : String} {content : Content}

theorem HasFolders.written (h : t.HasFolders p) : (t.written p name tmp content).HasFolders p :=
  h.erase.put _

theorem node?_written_self :
    (t.written p name tmp content).node? (p ++ [name]) = some (.file content) :=
  node?_put_self _ _ _

/-- What has another name stays as it is. -/
theorem node?_written_of_ne (hname : other ≠ name) (htmp : other ≠ tmp) :
    (t.written p name tmp content).node? (p ++ [other]) = t.node? (p ++ [other]) := by
  have hne : p ++ [other] ≠ p ++ [name] := by simp [hname]
  have hnot : ¬ p ++ [tmp] <+: p ++ [other] := by
    simp [List.prefix_append_right_inj, List.prefix_cons_iff, Ne.symm htmp]
  rw [written, node?_put_of_ne _ _ hne, node?_erase, if_neg hnot]

theorem namesIn_written : (t.written p name tmp content).namesIn p =
    name :: ((t.namesIn p).filter (· != tmp)).filter (· != name) := by
  rw [written, namesIn_put, namesIn_erase]

end FileTree

/-! ## Runs of actions -/

namespace FileAction

open FileTree

variable {α β : Type} {t t' : FileTree} {p q : Path} {r source target : Route} {content : Content}
  {name tmp : String} {names : List String}

/-- The result of an action on a tree, with the tree it leaves. -/
def runOn (action : FileAction α) (t : FileTree) : Outcome α × FileTree :=
  action.run.run t

theorem runOn_bind (x : FileAction α) (f : α → FileAction β) (t : FileTree) :
    (x >>= f).runOn t =
      match x.runOn t with
      | (.ok a, t') => (f a).runOn t'
      | (.error e, t') => (.error e, t') := by
  unfold runOn
  rw [ExceptT.run_bind, StateT.run_bind]
  cases h : x.run.run t with
  | mk r t' => cases r <;> rfl

/-- An action goes on where the one before it left the tree. -/
theorem runOn_bind_of_ok {x : FileAction α} {a : α} (h : x.runOn t = (.ok a, t'))
    (f : α → FileAction β) : (x >>= f).runOn t = (f a).runOn t' := by
  rw [runOn_bind, h]

theorem runOn_get (t : FileTree) : (get : FileAction FileTree).runOn t = (.ok t, t) := rfl

theorem runOn_ofOutcome (r : Outcome α) (t : FileTree) : (ofOutcome r).runOn t = (r, t) := rfl

/-- A file is read where it stands. -/
theorem runOn_read {s : String} (hplace : t.filePlace? r = some p)
    (hfile : t.node? p = some (.file (.text s))) : (read r).runOn t = (.ok s, t) := by
  unfold read
  rw [runOn_bind_of_ok (runOn_get t), hplace, Option.bind_some, hfile]
  rfl

/-- A file is read in a folder that is there. -/
theorem runOn_read_ofPath {s : String} (hnames : ∀ n ∈ p ++ [name], Route.isName n = true)
    (h : t.HasFolders p) (hfile : t.node? (p ++ [name]) = some (.file (.text s))) :
    (read (.ofPath (p ++ [name]))).runOn t = (.ok s, t) :=
  runOn_read (filePlace?_ofPath hnames h (by simp [hfile])) hfile

/-- Reading gives a text or is refused. It changes nothing. -/
theorem runOn_read_cases (r : Route) (t : FileTree) :
    (∃ s, (read r).runOn t = (.ok s, t)) ∨ (read r).runOn t = (.error (.storage .files), t) := by
  unfold read
  rw [runOn_bind_of_ok (runOn_get t)]
  split
  · exact .inl ⟨_, rfl⟩
  · exact .inr rfl

theorem runOn_write (hplace : t.filePlace? r = some p) :
    (write r content).runOn t = (.ok (), t.put p (.file content)) := by
  unfold write
  rw [runOn_bind_of_ok (runOn_get t), hplace]
  rfl

theorem runOn_move (hsource : t.filePlace? source = some p) (htarget : t.filePlace? target = some q)
    (hfile : t.node? p = some (.file content)) :
    (move source target).runOn t = (.ok (), (t.erase p).put q (.file content)) := by
  unfold move
  rw [runOn_bind_of_ok (runOn_get t), hsource, htarget]
  dsimp only
  rw [hfile]
  rfl

/-! ## Making folders -/

theorem runOn_makeBelow_of_folder (hname : Route.isName name = true)
    (h : t.node? (p ++ [name]) = some .folder) :
    (makeBelow p (name :: names)).runOn t = (makeBelow (p ++ [name]) names).runOn t := by
  rw [makeBelow, Route.stepFrom?_of_isName p hname]
  dsimp only
  rw [runOn_bind_of_ok (runOn_get t), h]

theorem runOn_makeBelow_of_none (hname : Route.isName name = true)
    (h : t.node? (p ++ [name]) = none) :
    (makeBelow p (name :: names)).runOn t =
      (makeBelow (p ++ [name]) names).runOn (t.put (p ++ [name]) .folder) := by
  rw [makeBelow, Route.stepFrom?_of_isName p hname]
  dsimp only
  rw [runOn_bind_of_ok (runOn_get t), h]
  rfl

/-- Folders that are there are left as they are. -/
theorem runOn_makeBelow (hnames : ∀ n ∈ names, Route.isName n = true)
    (h : ∀ r, r <+: names → t.node? (p ++ r) = some .folder) :
    (makeBelow p names).runOn t = (.ok (), t) := by
  induction names generalizing p with
  | nil => rfl
  | cons name names ih =>
    rw [runOn_makeBelow_of_folder (hnames _ List.mem_cons_self) (h [name] ⟨names, rfl⟩)]
    refine ih (fun n hn => hnames n (List.mem_cons_of_mem _ hn)) fun r hr => ?_
    have hstep := h (name :: r) (List.cons_prefix_cons.2 ⟨rfl, hr⟩)
    rwa [List.append_cons] at hstep

/-- Folders that are missing are made. All else stays as it is. -/
theorem exists_runOn_makeBelow (hnames : ∀ n ∈ names, Route.isName n = true)
    (htop : t.node? p = some .folder)
    (hfree : ∀ r, r <+: names → ∀ c, t.node? (p ++ r) ≠ some (.file c)) :
    ∃ t', (makeBelow p names).runOn t = (.ok (), t') ∧
      (∀ r, r <+: names → t'.node? (p ++ r) = some .folder) ∧
      ∀ q, (∀ r, r <+: names → q ≠ p ++ r) → t'.node? q = t.node? q := by
  induction names generalizing p t with
  | nil =>
    refine ⟨t, rfl, fun r hr => ?_, fun q _ => rfl⟩
    rw [List.prefix_nil.1 hr, List.append_nil]
    exact htop
  | cons name names ih =>
    -- the folder of the first name is there after one step, and nothing else has changed
    obtain ⟨t₁, hrun, hfolder, hothers⟩ : ∃ t₁, (makeBelow p (name :: names)).runOn t =
        (makeBelow (p ++ [name]) names).runOn t₁ ∧ t₁.node? (p ++ [name]) = some .folder ∧
        ∀ q, q ≠ p ++ [name] → t₁.node? q = t.node? q := by
      have hname := hnames name List.mem_cons_self
      cases hnode : t.node? (p ++ [name]) with
      | none =>
        exact ⟨_, runOn_makeBelow_of_none hname hnode, node?_put_self _ _ _,
          fun q hq => node?_put_of_ne _ _ hq⟩
      | some n =>
        cases n with
        | folder => exact ⟨t, runOn_makeBelow_of_folder hname hnode, hnode, fun q _ => rfl⟩
        | file c => exact absurd hnode (hfree [name] ⟨names, rfl⟩ c)
    have hfree₁ : ∀ r, r <+: names → ∀ c, t₁.node? (p ++ [name] ++ r) ≠ some (.file c) := by
      intro r hr c
      by_cases hr0 : r = []
      · rw [hr0, List.append_nil, hfolder]
        nofun
      · rw [hothers _ (by simp [hr0]), ← List.append_cons]
        exact hfree (name :: r) (List.cons_prefix_cons.2 ⟨rfl, hr⟩) c
    obtain ⟨t', ht', hfolders, hrest⟩ :=
      ih (fun n hn => hnames n (List.mem_cons_of_mem _ hn)) hfolder hfree₁
    refine ⟨t', hrun.trans ht', fun r hr => ?_, fun q hq => ?_⟩
    · rcases List.prefix_cons_iff.1 hr with rfl | ⟨r, rfl, hr'⟩
      · rw [List.append_nil, hrest p (by simp), hothers p (by simp), htop]
      · rw [List.append_cons]
        exact hfolders r hr'
    · rw [hrest q, hothers q]
      · exact hq [name] ⟨names, rfl⟩
      · intro r hr
        rw [← List.append_cons]
        exact hq (name :: r) (List.cons_prefix_cons.2 ⟨rfl, hr⟩)

theorem runOn_makeFolders (hnames : ∀ n ∈ p, Route.isName n = true) (h : t.HasFolders p) :
    (makeFolders (.ofPath p)).runOn t = (.ok (), t) := by
  unfold makeFolders
  rw [if_pos (Route.isUsable_ofPath hnames)]
  exact runOn_makeBelow hnames h

theorem exists_runOn_makeFolders (hnames : ∀ n ∈ p, Route.isName n = true)
    (htop : t.node? [] = some .folder) (hfree : ∀ r, r <+: p → ∀ c, t.node? r ≠ some (.file c)) :
    ∃ t', (makeFolders (.ofPath p)).runOn t = (.ok (), t') ∧ t'.HasFolders p ∧
      ∀ q, ¬ q <+: p → t'.node? q = t.node? q := by
  obtain ⟨t', hrun, hfolders, hrest⟩ := exists_runOn_makeBelow hnames htop hfree
  refine ⟨t', ?_, hfolders, fun q hq => hrest q fun r hr heq => hq (heq ▸ hr)⟩
  unfold makeFolders
  rw [if_pos (Route.isUsable_ofPath hnames)]
  exact hrun

/-- Whatever is there is left as it is, a file too. -/
theorem runOn_ensureFolder_eq (r : Route) (t : FileTree) :
    (ensureFolder r).runOn t = if t.reaches r then (.ok (), t) else (makeFolders r).runOn t := by
  unfold ensureFolder
  rw [runOn_bind_of_ok (runOn_get t)]
  split <;> rfl

/-- Where no file stands, a folder is made as all folders are. -/
theorem runOn_ensureFolder_of_free (hnames : ∀ n ∈ p, Route.isName n = true)
    (hfree : ∀ c, t.node? p ≠ some (.file c)) :
    (ensureFolder (.ofPath p)).runOn t = (makeFolders (.ofPath p)).runOn t := by
  rw [runOn_ensureFolder_eq]
  split
  · rename_i hreaches
    exact (runOn_makeFolders hnames (hasFolders_of_reaches hnames hreaches hfree)).symm
  · rfl

theorem runOn_ensureFolder (hnames : ∀ n ∈ p, Route.isName n = true) (h : t.HasFolders p) :
    (ensureFolder (.ofPath p)).runOn t = (.ok (), t) := by
  rw [runOn_ensureFolder_of_free hnames (by simp [h p (List.prefix_refl p)]),
    runOn_makeFolders hnames h]

/-- Folders that are missing are made, unless a file is in the way. All else stays as it is. -/
theorem exists_runOn_ensureFolder (hnames : ∀ n ∈ p, Route.isName n = true)
    (htop : t.node? [] = some .folder) (hfree : ∀ r, r <+: p → ∀ c, t.node? r ≠ some (.file c)) :
    ∃ t', (ensureFolder (.ofPath p)).runOn t = (.ok (), t') ∧ t'.HasFolders p ∧
      ∀ q, ¬ q <+: p → t'.node? q = t.node? q := by
  rw [runOn_ensureFolder_of_free hnames (hfree p (List.prefix_refl p))]
  exact exists_runOn_makeFolders hnames htop hfree

/-! ## Writing through a staging file -/

/-- Writing a file into a folder that is there replaces what the file held. The staging file beside it
is gone. -/
theorem runOn_writeAtomic (text : String) (hnames : ∀ n ∈ p, Route.isName n = true)
    (hname : Route.isName name = true) (htmp : Route.isName tmp = true) (hne : tmp ≠ name)
    (hstaging : (Route.ofPath (p ++ [name])).staging = .ofPath (p ++ [tmp]))
    (h : t.HasFolders p) (hfile : t.node? (p ++ [name]) ≠ some .folder)
    (hfree : t.node? (p ++ [tmp]) ≠ some .folder) :
    (writeAtomic (.ofPath (p ++ [name])) text).runOn t =
      (.ok (), t.written p name tmp (.text text)) := by
  have hnames' : ∀ n, Route.isName n = true → ∀ m ∈ p ++ [n], Route.isName m = true :=
    fun n hn => List.forall_mem_append.2 ⟨hnames, List.forall_mem_singleton.2 hn⟩
  have hdistinct : p ++ [name] ≠ p ++ [tmp] := by simp [Ne.symm hne]
  have hstaged : (t.put (p ++ [tmp]) (.file (.text text))).HasFolders p := h.put _
  unfold writeAtomic
  rw [Route.parent_ofPath, List.dropLast_concat, runOn_bind_of_ok (runOn_ensureFolder hnames h), hstaging,
    runOn_bind_of_ok (runOn_write (filePlace?_ofPath (hnames' tmp htmp) h hfree)),
    runOn_move (filePlace?_ofPath (hnames' tmp htmp) hstaged (by rw [node?_put_self]; nofun))
      (filePlace?_ofPath (hnames' name hname) hstaged (by rwa [node?_put_of_ne _ _ hdistinct]))
      (node?_put_self _ _ _), erase_put]
  rfl

end FileAction

end Forecast
