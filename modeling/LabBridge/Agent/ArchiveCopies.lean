import LabBridge.Agent.ArchivePaths

/-!
# Copies into the archive

What the steps of an archive do to the tree, and when the whole of it succeeds: exactly when its
directories can be made, its destination and its temporary name are free, the system takes the
temporary name, and the file it is told to copy has the recorded size and hash.
-/

namespace LabBridge.Agent

open ByteText FileTree Interaction Program

variable {source : LocalFileMetadata} {process reached : Process} {path directory : Path}

/-- Syncing changes nothing. -/
theorem run_syncDirectoryChain (directories : List Path) (process : Process) :
    (syncDirectoryChain directories).run fileHandler process = (.ok (), process) := by
  induction directories with
  | nil => rfl
  | cons directory rest ih =>
    rw [syncDirectoryChain, perform_bind, run_sync]
    exact ih

theorem requireFits_of_fits (h : path.fits = true) : requireFits path = Program.ret () := if_pos h

theorem requireFits_of_not (h : path.fits ≠ true) :
    requireFits path = Program.stop (filesystemError "File name too long") := if_neg h

/-- A path that is looked up fits. -/
theorem run_requireFits_eq_ok :
    (requireFits path).run fileHandler process = (.ok (), reached) ↔
      path.fits = true ∧ process = reached := by
  by_cases h : path.fits = true
  · rw [requireFits_of_fits h]
    simp [h]
  · rw [requireFits_of_not h]
    simp [h]

/-! ## Directories -/

/-- The directories below one of them, down to the end of some names. -/
def Between (made : Path) (names : List Name) (path : Path) : Prop :=
  ∃ initial, initial ≠ [] ∧ initial <+: names ∧ path = made ++ initial

/-- Making sure of a directory succeeds where nothing else stands. -/
theorem run_ensureDirectory (hentry : process.tree.IsEntry directory = true) :
    (ensureDirectory directory).run fileHandler process =
      if process.tree directory = none then (.ok (), process.put directory (some .directory))
      else if process.tree directory = some .directory then (.ok (), process)
      else (.error (filesystemError "cannot create directories"), process) := by
  rw [ensureDirectory, perform_bind, run_lookup]
  rcases h : process.tree directory with _ | (content | _ | _)
  · rw [if_pos rfl, perform_bind, run_createDirectory, if_pos ⟨h, hentry⟩]
    rfl
  · rfl
  · rfl
  · rfl

/-- A directory one name further lies between, and so do those below it. -/
theorem between_cons {made : Path} {name : Name} {rest : List Name} :
    Between made (name :: rest) path ↔
      path = made ++ [name] ∨ Between (made ++ [name]) rest path := by
  constructor
  · rintro ⟨initial, hne, hprefix, rfl⟩
    cases initial with
    | nil => exact absurd rfl hne
    | cons first later =>
      obtain ⟨rfl, hlater⟩ := List.cons_prefix_cons.mp hprefix
      by_cases hend : later = []
      · subst hend
        exact .inl rfl
      · exact .inr ⟨later, hend, hlater, by simp⟩
  · rintro (rfl | ⟨initial, hne, hprefix, rfl⟩)
    · exact ⟨[name], by simp, by simp, rfl⟩
    · exact ⟨name :: initial, by simp, List.cons_prefix_cons.mpr ⟨rfl, hprefix⟩, by simp⟩

theorem ne_of_between {made : Path} {names : List Name} (h : Between made names path) :
    path ≠ made := by
  obtain ⟨initial, hne, -, rfl⟩ := h
  intro heq
  exact hne (List.append_right_eq_self.mp heq)

/-- The next directory of a path that fits can be made in the one before. -/
theorem isEntry_of_prefix {made : Path} {name : Name} {rest : List Name}
    (hmade : made = [] ∨ process.tree made = some .directory)
    (hfits : Path.fits (made ++ name :: rest) = true) :
    process.tree.IsEntry (made ++ [name]) = true := by
  have hnext : Path.fits (made ++ [name]) = true :=
    fits_of_prefix ⟨rest, by simp⟩ hfits
  simpa [Tree.IsEntry, hnext] using hmade

/-- The directories are made when each is there or nothing stands in its place; nothing else
changes. -/
theorem run_createDirectories {made : Path} {names : List Name}
    (hfits : Path.fits (made ++ names) = true)
    (hmade : made = [] ∨ process.tree made = some .directory)
    (h : ∀ path, Between made names path →
      process.tree path = none ∨ process.tree path = some .directory) :
    ∃ reached, (createDirectories made names).run fileHandler process = (.ok (), reached) ∧
      reached.sequence = process.sequence ∧
      (∀ path, Between made names path → reached.tree path = some .directory) ∧
      ∀ path, ¬Between made names path → reached.tree path = process.tree path := by
  induction names generalizing made process with
  | nil =>
    refine ⟨process, rfl, rfl, ?_, fun _ _ => rfl⟩
    rintro path ⟨initial, hne, hprefix, -⟩
    exact absurd (List.prefix_nil.mp hprefix) hne
  | cons name rest ih =>
    have hlonger : (made ++ [name]) ++ rest = made ++ name :: rest := by simp
    have hentry := isEntry_of_prefix hmade hfits
    rw [← hlonger] at hfits
    obtain ⟨next, hnext, hsequence, hname, hother⟩ : ∃ next,
        (ensureDirectory (made ++ [name])).run fileHandler process = (.ok (), next) ∧
          next.sequence = process.sequence ∧ next.tree (made ++ [name]) = some .directory ∧
          ∀ path, path ≠ made ++ [name] → next.tree path = process.tree path := by
      rw [run_ensureDirectory hentry]
      rcases h _ (between_cons.mpr (.inl rfl)) with hnone | hthere
      · rw [if_pos hnone]
        exact ⟨_, rfl, rfl, put_tree_self _ _ _, fun path hne => put_tree_of_ne _ _ hne⟩
      · rw [if_neg (by simp [hthere]), if_pos hthere]
        exact ⟨_, rfl, rfl, hthere, fun _ _ => rfl⟩
    obtain ⟨reached, hreached, hcount, hmadeAll, hrest⟩ := ih hfits (.inr hname) fun path hpath => by
      rw [hother path (ne_of_between hpath)]
      exact h path (between_cons.mpr (.inr hpath))
    refine ⟨reached, ?_, hcount.trans hsequence, ?_, ?_⟩
    · rw [createDirectories, run_bind, hnext]
      exact hreached
    · intro path hpath
      rcases between_cons.mp hpath with rfl | hlater
      · rw [hrest _ fun hself => ne_of_between hself rfl]
        exact hname
      · exact hmadeAll path hlater
    · intro path hpath
      rw [between_cons, not_or] at hpath
      rw [hrest path hpath.2, hother path hpath.1]

/-- Where something else stands in the place of a directory, making them fails. -/
theorem between_of_run_createDirectories {made : Path} {names : List Name}
    (hfits : Path.fits (made ++ names) = true)
    (hmade : made = [] ∨ process.tree made = some .directory)
    (h : (createDirectories made names).run fileHandler process = (.ok (), reached)) :
    ∀ path, Between made names path →
      process.tree path = none ∨ process.tree path = some .directory := by
  induction names generalizing made process with
  | nil =>
    rintro path ⟨initial, hne, hprefix, -⟩
    exact absurd (List.prefix_nil.mp hprefix) hne
  | cons name rest ih =>
    have hlonger : (made ++ [name]) ++ rest = made ++ name :: rest := by simp
    have hentry := isEntry_of_prefix hmade hfits
    rw [← hlonger] at hfits
    rw [createDirectories, run_bind, run_ensureDirectory hentry] at h
    intro path hpath
    by_cases hnone : process.tree (made ++ [name]) = none
    · rw [if_pos hnone] at h
      rcases between_cons.mp hpath with rfl | hlater
      · exact .inl hnone
      · have hkept := ih hfits (.inr (put_tree_self _ _ _)) h path hlater
        rwa [put_tree_of_ne _ _ (ne_of_between hlater)] at hkept
    · rw [if_neg hnone] at h
      by_cases hthere : process.tree (made ++ [name]) = some .directory
      · rw [if_pos hthere] at h
        rcases between_cons.mp hpath with rfl | hlater
        · exact .inr hthere
        · exact ih hfits (.inr hthere) h path hlater
      · rw [if_neg hthere] at h
        cases h

/-! ## One copy -/

section Copies

variable {inputPath temporary destination : Path} {content stored : Bytes}

/-- Written bytes stand behind those already there. -/
theorem run_writeContent (content : Bytes) :
    ∀ {process : Process} {stored : Bytes}, process.tree path = some (.file stored) →
      (writeContent path content).run fileHandler process =
        (.ok (), process.put path (some (.file (stored ++ content)))) := by
  induction content with
  | nil =>
    intro process stored h
    have hsame : process.put path (some (.file (stored ++ []))) = process := by
      rw [List.append_nil, ← h]
      simp [Process.put]
    rw [writeContent, hsame]
    rfl
  | cons b rest ih =>
    intro process stored h
    rw [writeContent, perform_bind, run_append h, ih (put_tree_self _ _ _), put_put,
      List.append_assoc, List.singleton_append]

/-- A file is copied exactly when it is there and its copy would be new. -/
theorem run_copyFile_eq_ok : (copyFile inputPath temporary).run fileHandler process =
      (.ok (), reached) ↔
    ∃ content, process.tree inputPath = some (.file content) ∧ process.tree temporary = none ∧
      process.tree.IsEntry temporary = true ∧
      reached = process.put temporary (some (.file content)) := by
  rw [copyFile, perform_bind, run_lookup]
  rcases h : process.tree inputPath with _ | (content | _ | _)
  · simp
  · dsimp only
    rw [perform_bind, run_createFile]
    by_cases hfree : process.tree temporary = none ∧ process.tree.IsEntry temporary = true
    · rw [if_pos hfree, if_pos rfl, run_writeContent content (put_tree_self _ _ _), put_put,
        List.nil_append]
      simp [hfree, eq_comm]
    · rw [if_neg hfree]
      constructor
      · intro hstop
        cases hstop
      · rintro ⟨_, -, hnone, hentry, -⟩
        exact absurd ⟨hnone, hentry⟩ hfree
  · simp
  · simp

/-- A copy passes the check exactly when it is as recorded. -/
theorem run_verifyCopy_eq_ok : (verifyCopy source temporary).run fileHandler process =
      (.ok (), reached) ↔
    reached = process ∧ ∃ content, process.tree temporary = some (.file content) ∧
      source.describes content = true := by
  rw [verifyCopy, perform_bind, run_lookup]
  rcases h : process.tree temporary with _ | (content | _ | _)
  · simp
  · dsimp only
    by_cases hdescribed : source.describes content = true
    · rw [if_pos hdescribed]
      constructor
      · intro hpass
        cases hpass
        exact ⟨rfl, content, rfl, hdescribed⟩
      · rintro ⟨rfl, -⟩
        rfl
    · rw [if_neg hdescribed]
      constructor
      · intro hstop
        cases hstop
      · rintro ⟨-, other, hother, hyes⟩
        cases hother
        exact absurd hyes hdescribed
  · simp
  · simp

/-- A file takes its name exactly when no other thing than a file has it. -/
theorem run_renameFile_eq_ok (hsource : process.tree temporary = some (.file content))
    (htarget : process.tree destination = none) :
    (renameFile temporary destination).run fileHandler process = (.ok (), reached) ↔
      reached = (process.put destination (some (.file content))).put temporary none := by
  rw [renameFile, perform_bind, run_rename, hsource, htarget]
  simp [eq_comm]

/-- When a copy is published, and what that changes. -/
theorem run_publishCopy_eq_ok (hne : temporary ≠ destination)
    (htarget : process.tree destination = none) :
    (publishCopy source inputPath temporary destination).run fileHandler process =
        (.ok (), reached) ↔
      ∃ content, process.tree inputPath = some (.file content) ∧
        source.describes content = true ∧ process.tree temporary = none ∧
        process.tree.IsEntry temporary = true ∧
        reached = (process.put destination (some (.file content))).put temporary none := by
  have hrenamed (content : Bytes) :
      ((process.put temporary (some (.file content))).put destination
        (some (.file content))).put temporary none =
      (process.put destination (some (.file content))).put temporary none := by
    rw [put_comm _ hne, put_put]
  have hstill (content : Bytes) :
      (process.put temporary (some (.file content))).tree destination = none :=
    (put_tree_of_ne _ _ hne.symm).trans htarget
  unfold publishCopy
  constructor
  · intro h
    obtain ⟨⟨⟩, copied, hcopy, h⟩ := (run_bind_ok fileHandler).mp h
    obtain ⟨content, hinput, hfree, hentry, rfl⟩ := run_copyFile_eq_ok.mp hcopy
    obtain ⟨⟨⟩, checked, hcheck, h⟩ := (run_bind_ok fileHandler).mp h
    obtain ⟨rfl, other, hother, hdescribed⟩ := run_verifyCopy_eq_ok.mp hcheck
    rw [put_tree_self, Option.some.injEq, Node.file.injEq] at hother
    subst hother
    rw [perform_bind, run_sync] at h
    obtain ⟨⟨⟩, renamed, hrename, h⟩ := (run_bind_ok fileHandler).mp h
    rw [run_renameFile_eq_ok (put_tree_self _ _ _) (hstill content), hrenamed] at hrename
    rw [run_syncDirectoryChain] at h
    cases h
    exact ⟨content, hinput, hdescribed, hfree, hentry, hrename⟩
  · rintro ⟨content, hinput, hdescribed, hfree, hentry, rfl⟩
    refine (run_bind_ok fileHandler).mpr ⟨(), _,
      run_copyFile_eq_ok.mpr ⟨content, hinput, hfree, hentry, rfl⟩, ?_⟩
    refine (run_bind_ok fileHandler).mpr ⟨(), _,
      run_verifyCopy_eq_ok.mpr ⟨rfl, content, put_tree_self _ _ _, hdescribed⟩, ?_⟩
    rw [perform_bind, run_sync]
    refine (run_bind_ok fileHandler).mpr ⟨(), _,
      (run_renameFile_eq_ok (put_tree_self _ _ _) (hstill content)).mpr rfl, ?_⟩
    rw [run_syncDirectoryChain, hrenamed]

end Copies

/-! ## A whole archive -/

section Archives

variable {store : LocalArchiveStore} {taskId taskRunId originalName : Bytes} {ordinal : UInt64}
  {inputPath destination : Path}

/-- When a file can be archived: its directories are there or can be made, its destination and its
temporary name are free, the system takes that name, and the file is as recorded. -/
structure CanArchive (source : LocalFileMetadata) (inputPath destination : Path)
    (process : Process) : Prop where
  directories : ∀ path, Between [] destination.parent path →
    process.tree path = none ∨ process.tree path = some .directory
  free : process.tree destination = none
  temporary : process.tree (temporaryPath destination process.sequence) = none
  fits : (temporaryPath destination process.sequence).fits = true
  input : ∃ content, process.tree inputPath = some (.file content) ∧
    source.describes content = true

/-- What an archive leaves: the file under its destination, in its directories. -/
structure Archived (source : LocalFileMetadata) (destination : Path) (process reached : Process) :
    Prop where
  file : ∃ content, reached.tree destination = some (.file content) ∧
    source.describes content = true
  directories : ∀ path, Between [] destination.parent path →
    reached.tree path = some .directory
  others : ∀ path, path ≠ destination → ¬Between [] destination.parent path →
    reached.tree path = process.tree path

/-- The temporary copy stands beside its destination, under another name. -/
theorem temporaryPath_append (path : Path) (name : Name) (sequence : ℕ) :
    temporaryPath (path ++ [name]) sequence = path ++ [temporaryName name sequence] := by
  rw [temporaryPath, List.getLast?_concat, parent_append]

theorem temporaryName_ne (name : Name) (sequence : ℕ) : temporaryName name sequence ≠ name := by
  intro heq
  have hlength := congrArg (fun name : Name => name.val.length) heq
  have hlong := two_le_length_temporarySuffix sequence
  simp only [temporaryName, List.length_append] at hlength
  omega

/-- A destination fits when its temporary name does. -/
theorem fits_of_temporaryPath {path : Path} {name : Name} {sequence : ℕ}
    (h : (temporaryPath (path ++ [name]) sequence).fits = true) :
    Path.fits (path ++ [name]) = true := by
  rw [temporaryPath_append] at h
  refine fits_of_longer ?_ h
  simp [temporaryName]

/-- A planned name of more than 249 bytes leaves no room for the end of a temporary name. -/
theorem not_fits_temporaryPath {path : Path} {name : Name} (hlong : 249 < name.val.length)
    (sequence : ℕ) : (temporaryPath (path ++ [name]) sequence).fits ≠ true := by
  rw [temporaryPath_append]
  intro h
  obtain ⟨-, hlast, -⟩ := fits_append.mp h
  have hdigit := List.length_pos_iff.mpr (decimal_ne_nil sequence)
  have htext : (text ".tmp-").length = 5 := rfl
  simp only [temporaryName, temporarySuffix, List.length_append, htext, nameMax] at hlast
  omega

/-- What stands in a directory is none of those that lead to it. -/
theorem not_between_append (path : Path) (name : Name) : ¬Between [] path (path ++ [name]) := by
  rintro ⟨initial, -, hprefix, heq⟩
  have hlength := hprefix.length_le
  rw [List.nil_append] at heq
  rw [← heq, List.length_append, List.length_singleton] at hlength
  omega

/-- What does not lie on the way to a path is not between. -/
theorem not_between_of_apart {path other : Path} (h : ¬other <+: path) :
    ¬Between [] path other := by
  rintro ⟨initial, -, hprefix, rfl⟩
  exact h hprefix

/-- A directory leads to itself. -/
theorem between_self {path : Path} (h : path ≠ []) : Between [] path path :=
  ⟨path, h, List.prefix_rfl, rfl⟩

/-- A planned path stands in a directory below the root. -/
theorem exists_parent_of_planned
    (h : store.planArchivePath taskId taskRunId ordinal originalName = .ok destination) :
    ∃ (parent : Path) (name : Name), parent ≠ [] ∧ destination = parent ++ [name] := by
  obtain ⟨-, task, run, -, -, -, -, rfl⟩ := planArchivePath_eq_ok.mp h
  exact ⟨_, _, by simp, rfl⟩

/-- A file is archived under its planned path. -/
theorem archive_eq_archiveTo
    (hplan : store.planArchivePath taskId taskRunId ordinal source.originalName =
      .ok destination) :
    store.archive taskId taskRunId ordinal source inputPath =
      archiveTo source inputPath destination := by
  obtain ⟨-, -, -, -, -, htask, hrun, -⟩ := planArchivePath_eq_ok.mp hplan
  unfold LocalArchiveStore.archive
  rw [if_neg (by simp [htask, hrun]), hplan]

/-- The value of an archive comes from its directories, its free destination and its copy. -/
theorem run_archiveTo_iff {value : LocalFileMetadata × Path} :
    (archiveTo source inputPath destination).run fileHandler process = (.ok value, reached) ↔
      destination.fits = true ∧
      ∃ made, (createDirectories [] destination.parent).run fileHandler process = (.ok (), made) ∧
        made.tree destination = none ∧
        (publishCopy source inputPath (temporaryPath destination made.sequence) destination).run
          fileHandler { made with sequence := made.sequence + 1 } = (.ok (), reached) ∧
        value = (source, destination) := by
  unfold archiveTo
  constructor
  · intro h
    obtain ⟨⟨⟩, started, hstarted, h⟩ := (run_bind_ok fileHandler).mp h
    obtain ⟨-, rfl⟩ := run_requireFits_eq_ok.mp hstarted
    obtain ⟨⟨⟩, made, hmade, h⟩ := (run_bind_ok fileHandler).mp h
    obtain ⟨⟨⟩, looked, hlooked, h⟩ := (run_bind_ok fileHandler).mp h
    obtain ⟨hfits, rfl⟩ := run_requireFits_eq_ok.mp hlooked
    rw [perform_bind, run_lookup] at h
    by_cases hfree : made.tree destination = none
    · rw [if_neg (by simp [hfree]), perform_bind, run_nextSequence] at h
      obtain ⟨⟨⟩, published, hpublished, h⟩ := (run_bind_ok fileHandler).mp h
      cases h
      rcases run_rescue_eq_ok hpublished with hcopy | ⟨error, failed, -, hremoved⟩
      · exact ⟨hfits, made, hmade, hfree, hcopy, rfl⟩
      · rw [perform_bind, run_remove] at hremoved
        cases hremoved
    · rw [if_pos (Option.isSome_iff_ne_none.mpr hfree)] at h
      cases h
  · rintro ⟨hfits, made, hmade, hfree, hcopy, rfl⟩
    have hparent : destination.parent.fits = true := fits_of_prefix (List.dropLast_prefix _) hfits
    refine (run_bind_ok fileHandler).mpr ⟨(), _, run_requireFits_eq_ok.mpr ⟨hparent, rfl⟩, ?_⟩
    refine (run_bind_ok fileHandler).mpr ⟨(), made, hmade, ?_⟩
    refine (run_bind_ok fileHandler).mpr ⟨(), _, run_requireFits_eq_ok.mpr ⟨hfits, rfl⟩, ?_⟩
    rw [perform_bind, run_lookup, if_neg (by simp [hfree]), perform_bind, run_nextSequence]
    exact (run_bind_ok fileHandler).mpr ⟨(), reached, run_rescue_of_ok hcopy, rfl⟩

/-- A successful archive found that it could be made, and left its file. -/
theorem archived_of_run
    (hplan : store.planArchivePath taskId taskRunId ordinal source.originalName = .ok destination)
    {value : LocalFileMetadata × Path}
    (h : (store.archive taskId taskRunId ordinal source inputPath).run fileHandler process =
      (.ok value, reached)) :
    CanArchive source inputPath destination process ∧
      Archived source destination process reached := by
  rw [archive_eq_archiveTo hplan] at h
  obtain ⟨hfits, made, hmade, hfree, hcopy, -⟩ := run_archiveTo_iff.mp h
  obtain ⟨parent, name, hparent, rfl⟩ := exists_parent_of_planned hplan
  rw [parent_append] at hmade
  have hpaths := between_of_run_createDirectories (fits_of_append hfits) (.inl rfl) hmade
  obtain ⟨other, hother, hsequence, hdirectories, hothers⟩ :=
    run_createDirectories (fits_of_append hfits) (.inl rfl) hpaths
  rw [hmade, Prod.mk.injEq] at hother
  obtain rfl := hother.2
  rw [temporaryPath_append] at hcopy
  have hfound : (Process.mk made.tree (made.sequence + 1)).tree (parent ++ [name]) = none := hfree
  have hne : parent ++ [temporaryName name made.sequence] ≠ parent ++ [name] := by
    simp [temporaryName_ne]
  obtain ⟨content, hinput, hdescribed, htemporary, hentry, rfl⟩ :=
    (run_publishCopy_eq_ok hne hfound).mp hcopy
  rw [Tree.IsEntry, Bool.and_eq_true] at hentry
  constructor
  · refine ⟨by rwa [parent_append], ?_, ?_, ?_, content, ?_, hdescribed⟩
    · rw [← hothers _ (not_between_append _ _)]
      exact hfree
    · rw [temporaryPath_append, ← hsequence, ← hothers _ (not_between_append _ _)]
      exact htemporary
    · rw [temporaryPath_append, ← hsequence]
      exact hentry.1
    · by_cases hbetween : Between [] parent inputPath
      · dsimp only at hinput
        rw [hdirectories _ hbetween] at hinput
        cases hinput
      · rw [← hothers _ hbetween]
        exact hinput
  · have hkept : ∀ path, path ≠ parent ++ [name] →
        (((Process.mk made.tree (made.sequence + 1)).put (parent ++ [name])
          (some (.file content))).put (parent ++ [temporaryName name made.sequence]) none).tree
            path = made.tree path := by
      intro path hpath
      by_cases htmp : path = parent ++ [temporaryName name made.sequence]
      · subst htmp
        rw [put_tree_self]
        exact htemporary.symm
      · rw [put_tree_of_ne _ _ htmp, put_tree_of_ne _ _ hpath]
    refine ⟨⟨content, ?_, hdescribed⟩, ?_, ?_⟩
    · rw [put_tree_of_ne _ _ hne.symm, put_tree_self]
    · rw [parent_append]
      intro path hpath
      have hdirectory : path ≠ parent ++ [name] := by
        rintro rfl
        exact not_between_append _ _ hpath
      rw [hkept path hdirectory, hdirectories path hpath]
    · rw [parent_append]
      intro path hpath hbetween
      rw [hkept path hpath, hothers path hbetween]

/-- Once the directories of a file that can be archived are made, its destination and its temporary
name are still free, and the file is still there. -/
theorem CanArchive.made {parent : Path} {name : Name} (hparent : parent ≠ [])
    (h : CanArchive source inputPath (parent ++ [name]) process) :
    ∃ made content, (createDirectories [] parent).run fileHandler process = (.ok (), made) ∧
      made.sequence = process.sequence ∧ made.tree (parent ++ [name]) = none ∧
      made.tree (parent ++ [temporaryName name process.sequence]) = none ∧
      made.tree.IsEntry (parent ++ [temporaryName name process.sequence]) = true ∧
      process.tree inputPath = some (.file content) ∧
      made.tree inputPath = some (.file content) ∧ source.describes content = true ∧
      ∀ path, ¬Between [] parent path → made.tree path = process.tree path := by
  obtain ⟨hpaths, hfree, htemporary, hfits, content, hinput, hdescribed⟩ := h
  rw [parent_append] at hpaths
  rw [temporaryPath_append] at htemporary hfits
  obtain ⟨made, hmade, hsequence, hdirectories, hothers⟩ :=
    run_createDirectories (fits_of_append hfits) (.inl rfl) hpaths
  refine ⟨made, content, hmade, hsequence, ?_, ?_, ?_, hinput, ?_, hdescribed, hothers⟩
  · exact (hothers _ (not_between_append _ _)).trans hfree
  · exact (hothers _ (not_between_append _ _)).trans htemporary
  · simp [Tree.IsEntry, hfits, hdirectories parent (between_self hparent)]
  · rw [hothers _ ?_, hinput]
    intro hbetween
    rcases hpaths _ hbetween with hnone | hthere
    · rw [hinput] at hnone
      cases hnone
    · rw [hinput] at hthere
      cases hthere

/-- A file that can be archived is archived. -/
theorem run_archive_of_canArchive
    (hplan : store.planArchivePath taskId taskRunId ordinal source.originalName = .ok destination)
    (h : CanArchive source inputPath destination process) :
    ∃ reached, (store.archive taskId taskRunId ordinal source inputPath).run fileHandler
      process = (.ok (source, destination), reached) := by
  obtain ⟨parent, name, hparent, rfl⟩ := exists_parent_of_planned hplan
  obtain ⟨made, content, hmade, hsequence, hfree, htemporary, hentry, -, hinput, hdescribed, -⟩ :=
    h.made hparent
  have hfound : (Process.mk made.tree (made.sequence + 1)).tree (parent ++ [name]) = none := hfree
  have hdirectory : (Process.mk made.tree (made.sequence + 1)).tree.IsEntry
      (parent ++ [temporaryName name process.sequence]) = true := hentry
  have hne : parent ++ [temporaryName name process.sequence] ≠ parent ++ [name] := by
    simp [temporaryName_ne]
  have hcopy := (run_publishCopy_eq_ok hne hfound).mpr
    ⟨content, hinput, hdescribed, htemporary, hdirectory, rfl⟩
  rw [← temporaryPath_append, ← hsequence] at hcopy
  rw [← parent_append parent name] at hmade
  rw [archive_eq_archiveTo hplan]
  exact ⟨_, run_archiveTo_iff.mpr
    ⟨fits_of_temporaryPath h.fits, made, hmade, hfound, hcopy, rfl⟩⟩

end Archives

end LabBridge.Agent
