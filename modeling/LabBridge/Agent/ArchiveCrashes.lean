import LabBridge.Agent.ArchiveRecovery
import Mathlib.Logic.Relation

/-!
# Interrupted archives

Any number of processes may die while they archive a file or recover it, at any operation. What
they leave at the planned path is nothing or the whole file; but the copy of a process that died
keeps its temporary name, and a later process counts from the start again.
-/

namespace LabBridge.Agent

open ByteText FileTree Interaction Program Sha256

variable {store : LocalArchiveStore} {source : LocalFileMetadata}
  {process passed reached : Process} {inputPath destination temporary : Path}
  {taskId taskRunId originalName : Bytes} {ordinal : UInt64}

/-- Under a path is nothing, or the recorded file. -/
def NothingOrEvidence (source : LocalFileMetadata) (destination : Path) (tree : Tree) : Prop :=
  tree destination = none ∨ ∃ content, tree destination = some (.file content) ∧
    source.describes content = true

/-- What interrupted processes leave at a planned path: its directories are there or missing, and
under it is nothing or the recorded file. -/
structure Recoverable (source : LocalFileMetadata) (destination : Path) (tree : Tree) : Prop where
  directories : ∀ path, Between [] destination.parent path →
    tree path = none ∨ tree path = some .directory
  evidence : NothingOrEvidence source destination tree

/-! ## The directories of the path -/

/-- The operations that leave the directories of a path alone, but for making them. -/
def SparesDirectories (destination : Path) : ∀ β : Type, FileOperation β → Prop
  | _, .createDirectory _ => True
  | β, operation => Within (fun path => ¬Between [] destination.parent path) β operation

/-- A directory that is there or missing stays so. -/
theorem directories_step {β : Type} (operation : FileOperation β) (process : Process)
    (h : SparesDirectories destination β operation) {path : Path}
    (hbetween : Between [] destination.parent path)
    (hpath : process.tree path = none ∨ process.tree path = some .directory) :
    (fileHandler β operation process : Except AgentError β × Process).2.tree path = none ∨
      (fileHandler β operation process : Except AgentError β × Process).2.tree path =
        some .directory := by
  have hkept : Within (fun path => ¬Between [] destination.parent path) β operation →
      (fileHandler β operation process : Except AgentError β × Process).2.tree path =
        process.tree path := fun hwithin =>
    fileHandler_within hwithin process (not_not_intro hbetween)
  cases operation with
  | createDirectory made =>
    unfold fileHandler
    dsimp only
    split
    · by_cases heq : path = made
      · subst heq
        exact .inr (put_tree_self _ _ _)
      · rw [put_tree_of_ne _ _ heq]
        exact hpath
    · exact hpath
  | lookup _ => exact hpath
  | sync _ => exact hpath
  | nextSequence => exact hpath
  | createFile _ =>
    rw [hkept h]
    exact hpath
  | append _ _ =>
    rw [hkept h]
    exact hpath
  | rename _ _ =>
    rw [hkept h]
    exact hpath
  | remove _ =>
    rw [hkept h]
    exact hpath

/-! ## What the steps issue -/

section Calls

variable {allowed : ∀ β : Type, FileOperation β → Prop}

/-- Syncing directories only syncs. -/
theorem calls_syncDirectoryChain (hsync : ∀ path, allowed _ (.sync path))
    (directories : List Path) : (syncDirectoryChain directories).Calls allowed := by
  induction directories with
  | nil => trivial
  | cons directory rest ih => exact ⟨hsync directory, fun _ => ih⟩

/-- Checking a path asks for nothing. -/
theorem calls_requireFits {path : Path} : (requireFits path).Calls allowed := by
  unfold requireFits
  split <;> trivial

/-- Creating directories looks paths up and creates those in between. -/
theorem calls_createDirectories (hlookup : ∀ path, allowed _ (.lookup path)) (names : List Name) :
    ∀ {made : Path}, (∀ path, Between made names path → allowed _ (.createDirectory path)) →
      (createDirectories made names).Calls allowed := by
  induction names with
  | nil =>
    intro made _
    trivial
  | cons name rest ih =>
    intro made hcreate
    refine Calls.bind ?_ fun _ => ih fun path hpath => hcreate path (between_cons.mpr (.inr hpath))
    refine ⟨hlookup _, ?_⟩
    rintro (_ | (content | _ | _))
    · refine ⟨hcreate _ (between_cons.mpr (.inl rfl)), ?_⟩
      rintro (_ | _) <;> trivial
    · trivial
    · trivial
    · trivial

/-- A copy creates the temporary file and appends to it. -/
theorem calls_copyFile (hlookup : ∀ path, allowed _ (.lookup path))
    (hcreate : allowed _ (.createFile temporary))
    (happend : ∀ content, allowed _ (.append temporary content)) :
    (copyFile inputPath temporary).Calls allowed := by
  have hwrite : ∀ content, (writeContent temporary content).Calls allowed := by
    intro content
    induction content with
    | nil => trivial
    | cons b rest ih => exact ⟨happend [b], fun _ => ih⟩
  refine ⟨hlookup _, ?_⟩
  rintro (_ | (content | _ | _))
  · trivial
  · refine ⟨hcreate, ?_⟩
    rintro (_ | _)
    · trivial
    · exact hwrite content
  · trivial
  · trivial

/-- Verifying a copy only looks it up. -/
theorem calls_verifyCopy (hlookup : ∀ path, allowed _ (.lookup path)) :
    (verifyCopy source temporary).Calls allowed := by
  refine ⟨hlookup _, ?_⟩
  rintro (_ | (content | _ | _))
  · trivial
  · change (if source.describes content then pure () else _ : FileProgram AgentError Unit).Calls _
    split <;> trivial
  · trivial
  · trivial

/-- The last step renames the temporary file. -/
theorem calls_renameFile (hrename : allowed _ (.rename temporary destination)) :
    (renameFile temporary destination).Calls allowed := by
  refine ⟨hrename, ?_⟩
  rintro (_ | _) <;> trivial

end Calls

/-- The operations of an archive spare its directories. -/
theorem calls_archiveTo {parent : Path} {name : Name} :
    (archiveTo source inputPath (parent ++ [name])).Calls (SparesDirectories (parent ++ [name])) := by
  have htemporary (sequence : ℕ) : ¬Between [] (Path.parent (parent ++ [name]))
      (parent ++ [temporaryName name sequence]) := by
    rw [parent_append]
    exact not_between_append _ _
  have hdestination : ¬Between [] (Path.parent (parent ++ [name])) (parent ++ [name]) := by
    rw [parent_append]
    exact not_between_append _ _
  refine calls_requireFits.bind fun _ => ?_
  refine (calls_createDirectories (fun _ => trivial) _ fun _ _ => trivial).bind fun _ => ?_
  refine calls_requireFits.bind fun _ => ?_
  refine ⟨trivial, fun found => ?_⟩
  change (if found.isSome = true then _ else _ : FileProgram AgentError _).Calls _
  split
  · trivial
  · rw [perform_bind]
    refine ⟨trivial, fun sequence => ?_⟩
    refine Calls.bind (Calls.rescue ?_ fun error => ?_) fun _ => trivial
    · rw [temporaryPath_append]
      refine (calls_copyFile (fun _ => trivial) (htemporary sequence) fun _ =>
        htemporary sequence).bind fun _ => ?_
      refine (calls_verifyCopy fun _ => trivial).bind fun _ => ⟨trivial, fun _ => ?_⟩
      refine (calls_renameFile ⟨htemporary sequence, hdestination⟩).bind fun _ => ?_
      exact calls_syncDirectoryChain (fun _ => trivial) _
    · rw [temporaryPath_append]
      exact ⟨htemporary sequence, fun _ => trivial⟩

/-! ## What stands under the path -/

/-- A program that leaves a path alone leaves what stands under it. -/
theorem tree_of_passes {α : Type} {program : FileProgram AgentError α}
    (calls : program.Calls (Within (· ≠ destination)))
    (h : program.Passes fileHandler process passed) :
    passed.tree destination = process.tree destination :=
  calls.passes_related
    (fun start later : Process => later.tree destination = start.tree destination)
    (fun _ => rfl) (fun hfirst hsecond => hsecond.trans hfirst)
    (fun _ state hwithin => fileHandler_within hwithin state (not_not_intro rfl)) h

/-- A path that does not fit is refused before anything is done. -/
theorem passes_requireFits {α : Type} {path : Path} {next : Unit → FileProgram AgentError α}
    (h : (requireFits path >>= next).Passes fileHandler process passed) :
    passed = process ∨ path.fits = true ∧ (next ()).Passes fileHandler process passed := by
  by_cases hfits : path.fits = true
  · rw [requireFits_of_fits hfits, ret_bind] at h
    exact .inr ⟨hfits, h⟩
  · rw [requireFits_of_not hfits, stop_bind] at h
    exact .inl h

/-- A rename is interrupted before it is done or after. -/
theorem passes_renameFile {content : Bytes}
    (hsource : process.tree temporary = some (.file content))
    (htarget : process.tree destination = none)
    (h : (renameFile temporary destination).Passes fileHandler process passed) :
    passed = process ∨
      passed = (process.put destination (some (.file content))).put temporary none := by
  rw [renameFile, perform_bind, passes_call, fileHandler, hsource, htarget] at h
  exact h

/-- A copy is interrupted before the whole file has its final name, or after. -/
theorem nothingOrEvidence_publishCopy (hne : temporary ≠ destination)
    (hfree : process.tree destination = none)
    (h : (publishCopy source inputPath temporary destination).Passes fileHandler process passed) :
    NothingOrEvidence source destination passed.tree := by
  have hcopies : (copyFile inputPath temporary).Calls (Within (· ≠ destination)) :=
    calls_copyFile (fun _ => trivial) hne fun _ => hne
  rcases passes_bind h with hcopy | ⟨⟨⟩, copied, hcopied, hlater⟩
  · exact .inl ((tree_of_passes hcopies hcopy).trans hfree)
  · have hstill : copied.tree destination = none :=
      (tree_of_passes hcopies (passes_of_run hcopied)).trans hfree
    rcases passes_bind hlater with hcheck | ⟨⟨⟩, checked, hchecked, hsync⟩
    · exact .inl ((tree_of_passes (calls_verifyCopy fun _ => trivial) hcheck).trans hstill)
    · obtain ⟨rfl, content, hcontent, hdescribed⟩ := run_verifyCopy_eq_ok.mp hchecked
      rw [perform_bind, passes_call] at hsync
      rcases hsync with rfl | hsynced
      · exact .inl hstill
      · rcases passes_bind hsynced with hrename | ⟨⟨⟩, renamed, hrenamed, hchain⟩
        · rcases passes_renameFile hcontent hstill hrename with rfl | rfl
          · exact .inl hstill
          · refine .inr ⟨content, ?_, hdescribed⟩
            rw [put_tree_of_ne _ _ hne.symm, put_tree_self]
        · have hkept : passed.tree destination = renamed.tree destination :=
            tree_of_passes (calls_syncDirectoryChain (fun _ => trivial) _) hchain
          refine .inr ⟨content, ?_, hdescribed⟩
          rw [hkept, (run_renameFile_eq_ok hcontent hstill).mp hrenamed,
            put_tree_of_ne _ _ hne.symm, put_tree_self]

/-- A path that keeps what stands under it keeps nothing or the evidence. -/
theorem NothingOrEvidence.of_eq {before after : Tree}
    (h : NothingOrEvidence source destination before)
    (heq : after destination = before destination) :
    NothingOrEvidence source destination after := by
  unfold NothingOrEvidence
  rw [heq]
  exact h

/-- A copy that is taken away when it fails leaves nothing or the whole file. -/
theorem nothingOrEvidence_rescue {parent : Path} {name : Name} {sequence : ℕ}
    (hfree : process.tree (parent ++ [name]) = none)
    (h : ((publishCopy source inputPath (temporaryPath (parent ++ [name]) sequence)
      (parent ++ [name])).rescue fun error => (do
        .perform (.remove (temporaryPath (parent ++ [name]) sequence))
        .stop error : FileProgram AgentError Unit)).Passes fileHandler process passed) :
    NothingOrEvidence source (parent ++ [name]) passed.tree := by
  rw [temporaryPath_append] at h
  have hne : parent ++ [temporaryName name sequence] ≠ parent ++ [name] := by
    simp [temporaryName_ne]
  rcases passes_rescue h with hcopy | ⟨error, failed, hfailed, hremove⟩
  · exact nothingOrEvidence_publishCopy hne hfree hcopy
  · have hevidence : NothingOrEvidence source (parent ++ [name]) failed.tree :=
      nothingOrEvidence_publishCopy hne hfree (passes_of_run hfailed)
    rw [perform_bind, passes_remove] at hremove
    rcases hremove with rfl | hremoved
    · exact hevidence
    · obtain rfl : passed = failed.put (parent ++ [temporaryName name sequence]) none := hremoved
      exact hevidence.of_eq (put_tree_of_ne _ _ hne.symm)

/-- An interrupted archive leaves nothing or the whole file under its path. -/
theorem nothingOrEvidence_archiveTo {parent : Path} {name : Name}
    (hbefore : NothingOrEvidence source (parent ++ [name]) process.tree)
    (h : (archiveTo source inputPath (parent ++ [name])).Passes fileHandler process passed) :
    NothingOrEvidence source (parent ++ [name]) passed.tree := by
  have hmakes : (createDirectories [] (Path.parent (parent ++ [name]))).Calls
      (Within (· ≠ parent ++ [name])) := by
    apply calls_createDirectories fun _ => trivial
    rintro path hbetween rfl
    rw [parent_append] at hbetween
    exact not_between_append _ _ hbetween
  rcases passes_requireFits h with rfl | ⟨-, h⟩
  · exact hbefore
  rcases passes_bind h with hmake | ⟨⟨⟩, made, hmade, hlookup⟩
  · exact hbefore.of_eq (tree_of_passes hmakes hmake)
  · have hmadeEvidence := hbefore.of_eq (tree_of_passes hmakes (passes_of_run hmade))
    rcases passes_requireFits hlookup with rfl | ⟨-, hlookup⟩
    · exact hmadeEvidence
    rw [perform_bind, passes_lookup] at hlookup
    rcases hlookup with rfl | hfound
    · exact hmadeEvidence
    · by_cases hfree : made.tree (parent ++ [name]) = none
      · rw [if_neg (by simp [hfree]), perform_bind, passes_nextSequence] at hfound
        rcases hfound with rfl | hcount
        · exact .inl hfree
        · have hcounted : (Process.mk made.tree (made.sequence + 1)).tree (parent ++ [name]) =
              none := hfree
          rcases passes_bind hcount with hrescue | ⟨⟨⟩, published, hpublished, hend⟩
          · exact nothingOrEvidence_rescue hcounted hrescue
          · obtain rfl : passed = published := hend
            exact nothingOrEvidence_rescue hcounted (passes_of_run hpublished)
      · rw [if_pos (Option.isSome_iff_ne_none.mpr hfree)] at hfound
        obtain rfl : passed = made := hfound
        exact hmadeEvidence

/-- An interrupted archive leaves what can be recovered. -/
theorem Recoverable.archive
    (hplan : store.planArchivePath taskId taskRunId ordinal source.originalName = .ok destination)
    (hbefore : Recoverable source destination process.tree)
    (h : (store.archive taskId taskRunId ordinal source inputPath).Passes fileHandler process
      passed) : Recoverable source destination passed.tree := by
  rw [archive_eq_archiveTo hplan] at h
  obtain ⟨parent, name, -, rfl⟩ := exists_parent_of_planned hplan
  constructor
  · intro path hbetween
    exact calls_archiveTo.passes_related
      (fun start later : Process => start.tree path = none ∨ start.tree path = some .directory →
        later.tree path = none ∨ later.tree path = some .directory)
      (fun _ hstart => hstart) (fun hfirst hsecond hstart => hsecond (hfirst hstart))
      (fun operation state hspares => directories_step operation state hspares hbetween) h
      (hbefore.directories path hbetween)
  · exact nothingOrEvidence_archiveTo hbefore.evidence h

/-- A program of questions leaves the tree. -/
theorem tree_of_questions {α : Type} {program : FileProgram AgentError α}
    (calls : program.Calls IsQuestion) (h : program.Passes fileHandler process passed) :
    passed.tree = process.tree :=
  calls.passes_related (fun start later : Process => later.tree = start.tree)
    (fun _ => rfl) (fun hfirst hsecond => hsecond.trans hfirst)
    (fun _ state hquestion => fileHandler_question hquestion state) h

/-- A recovery of a path that is taken leaves the tree. -/
theorem tree_of_taken {node : Node} (hnode : process.tree destination = some node)
    (h : (store.recoverArchive source destination inputPath).Passes fileHandler process passed) :
    passed.tree = process.tree := by
  unfold LocalArchiveStore.recoverArchive at h
  rcases passes_requireFits h with rfl | ⟨-, h⟩
  · rfl
  rw [perform_bind, passes_lookup, hnode] at h
  rcases h with rfl | h
  · rfl
  · rcases node with content | _ | _
    · dsimp only at h
      by_cases hdescribed : source.describes content = true
      · rw [if_pos hdescribed] at h
        refine tree_of_questions ?_ h
        refine ⟨trivial, fun _ => ?_⟩
        exact (calls_syncDirectoryChain (fun _ => trivial) _).bind fun _ => trivial
      · rw [if_neg hdescribed] at h
        obtain rfl : passed = process := h
        rfl
    · obtain rfl : passed = process := h
      rfl
    · obtain rfl : passed = process := h
      rfl

/-- An interrupted recovery leaves what can be recovered. -/
theorem Recoverable.recoverArchive
    (hplan : store.planArchivePath taskId taskRunId ordinal source.originalName = .ok destination)
    (hbefore : Recoverable source destination process.tree)
    (h : (store.recoverArchive source destination inputPath).Passes fileHandler process passed) :
    Recoverable source destination passed.tree := by
  rcases hnode : process.tree destination with _ | node
  · unfold LocalArchiveStore.recoverArchive at h
    rcases passes_requireFits h with rfl | ⟨-, h⟩
    · exact hbefore
    rw [perform_bind, passes_lookup, hnode] at h
    rcases h with rfl | h
    · exact hbefore
    · dsimp only at h
      rw [readArchivePath_of_planned hplan] at h
      exact hbefore.archive hplan h
  · rw [tree_of_taken hnode h]
    exact hbefore

/-! ## Any number of crashes -/

/-- What happens to the tree until the last restart: a process is interrupted while it archives or
recovers the file, or others change what does not lie under the planned path, making directories
at most on the way to it. -/
inductive Interrupted (store : LocalArchiveStore) (taskId taskRunId : Bytes) (ordinal : UInt64)
    (source : LocalFileMetadata) (inputPath destination : Path) : Tree → Tree → Prop
  | archive {tree : Tree} {sequence : ℕ} {passed : Process}
      (h : (store.archive taskId taskRunId ordinal source inputPath).Passes fileHandler
        ⟨tree, sequence⟩ passed) :
      Interrupted store taskId taskRunId ordinal source inputPath destination tree passed.tree
  | recover {tree : Tree} {sequence : ℕ} {passed : Process}
      (h : (store.recoverArchive source destination inputPath).Passes fileHandler
        ⟨tree, sequence⟩ passed) :
      Interrupted store taskId taskRunId ordinal source inputPath destination tree passed.tree
  | elsewhere {tree later : Tree} (hsame : later destination = tree destination)
      (hmade : ∀ path, Between [] destination.parent path →
        later path = tree path ∨ later path = some .directory) :
      Interrupted store taskId taskRunId ordinal source inputPath destination tree later

/-- What any number of crashes leaves can be recovered. -/
theorem recoverable_of_interrupted {start tree : Tree}
    (hplan : store.planArchivePath taskId taskRunId ordinal source.originalName = .ok destination)
    (hstart : Recoverable source destination start)
    (h : Relation.ReflTransGen
      (Interrupted store taskId taskRunId ordinal source inputPath destination) start tree) :
    Recoverable source destination tree := by
  induction h with
  | refl => exact hstart
  | tail _ hstep ih =>
    cases hstep with
    | archive hpass => exact ih.archive hplan hpass
    | recover hpass => exact ih.recoverArchive hplan hpass
    | elsewhere hsame hmade =>
      constructor
      · intro path hbetween
        rcases hmade path hbetween with hkept | hdirectory
        · rw [hkept]
          exact ih.directories path hbetween
        · exact .inr hdirectory
      · exact ih.evidence.of_eq hsame

/-- When the recovery of a planned file succeeds. -/
theorem recovers_iff {sequence : ℕ} {tree : Tree} (hsized : source.IsSized)
    (hplan : store.planArchivePath taskId taskRunId ordinal source.originalName = .ok destination)
    (hrecoverable : Recoverable source destination tree)
    (hinput : ∃ content, tree inputPath = some (.file content) ∧
      source.describes content = true) :
    (∃ value reached, (store.recoverArchive source destination inputPath).run fileHandler
        ⟨tree, sequence⟩ = (.ok value, reached) ∧ HoldsEvidence source (reached.tree destination)) ↔
      (tree destination ≠ none ∧ destination.fits = true) ∨
        (tree (temporaryPath destination sequence) = none ∧
          (temporaryPath destination sequence).fits = true) := by
  by_cases hfree : tree destination = none
  · have hnone : (Process.mk tree sequence).tree destination = none := hfree
    constructor
    · rintro ⟨value, reached, hrun, -⟩
      rw [run_recoverArchive_of_free (fits_of_recovered hrun) hnone hplan] at hrun
      have hcan := (archived_of_run hplan hrun).1
      exact .inr ⟨hcan.temporary, hcan.fits⟩
    · intro h
      obtain ⟨htemporary, hfits⟩ := h.resolve_left fun htaken => htaken.1 hfree
      have hcan : CanArchive source inputPath destination ⟨tree, sequence⟩ :=
        ⟨hrecoverable.directories, hnone, htemporary, hfits, hinput⟩
      have hpath : destination.fits = true := by
        obtain ⟨parent, name, -, rfl⟩ := exists_parent_of_planned hplan
        exact fits_of_temporaryPath hfits
      obtain ⟨reached, hrun⟩ := run_archive_of_canArchive hplan hcan
      obtain ⟨content, hcontent, hdescribed⟩ := (archived_of_run hplan hrun).2.file
      rw [run_recoverArchive_of_free hpath hnone hplan]
      exact ⟨_, reached, hrun, content, hcontent, (describes_iff hsized).mp hdescribed⟩
  · obtain ⟨content, hcontent, hdescribed⟩ := hrecoverable.evidence.resolve_left hfree
    have hnode : (Process.mk tree sequence).tree destination = some (.file content) := hcontent
    constructor
    · rintro ⟨value, reached, hrun, -⟩
      exact .inl ⟨hfree, fits_of_recovered hrun⟩
    · intro h
      have hpath : destination.fits = true := by
        rcases h with ⟨-, hpath⟩ | ⟨-, hfits⟩
        · exact hpath
        · obtain ⟨parent, name, -, rfl⟩ := exists_parent_of_planned hplan
          exact fits_of_temporaryPath hfits
      refine ⟨(source, destination), ⟨tree, sequence⟩, ?_, content, hcontent,
        (describes_iff hsized).mp hdescribed⟩
      exact (run_recoverArchive_of_taken hnode).mpr ⟨hpath, rfl, rfl, content, rfl, hdescribed⟩

/-- A missing file whose planned name has more than 249 bytes is recovered by no process. -/
theorem not_recovers_of_long {parent : Path} {name : Name} {sequence : ℕ} {tree : Tree}
    (hplan : store.planArchivePath taskId taskRunId ordinal source.originalName =
      .ok (parent ++ [name]))
    (hlong : 249 < name.val.length) (hfree : tree (parent ++ [name]) = none)
    {value : LocalFileMetadata × Path} :
    (store.recoverArchive source (parent ++ [name]) inputPath).run fileHandler ⟨tree, sequence⟩ ≠
      (.ok value, reached) := by
  intro hrun
  rw [run_recoverArchive_of_free (fits_of_recovered hrun) hfree hplan] at hrun
  exact not_fits_temporaryPath hlong _ (archived_of_run hplan hrun).1.fits

/-- After any number of crashes, with the source file unchanged, a recovery by a process whose
counter stands anywhere succeeds and leaves the recorded file under the planned path exactly when
the file is there already, or no earlier copy has kept the temporary name of that counter and the
system takes a name as long. -/
theorem crashed_archive_recovers_iff {start tree : Tree} {sequence : ℕ} (hsized : source.IsSized)
    (hplan : store.planArchivePath taskId taskRunId ordinal source.originalName = .ok destination)
    (hstart : Recoverable source destination start)
    (hcrashes : Relation.ReflTransGen
      (Interrupted store taskId taskRunId ordinal source inputPath destination) start tree)
    (hinput : ∃ content, tree inputPath = some (.file content) ∧
      source.describes content = true) :
    (∃ value reached, (store.recoverArchive source destination inputPath).run fileHandler
        ⟨tree, sequence⟩ = (.ok value, reached) ∧ HoldsEvidence source (reached.tree destination)) ↔
      (tree destination ≠ none ∧ destination.fits = true) ∨
        (tree (temporaryPath destination sequence) = none ∧
          (temporaryPath destination sequence).fits = true) :=
  recovers_iff hsized hplan (recoverable_of_interrupted hplan hstart hcrashes) hinput

/-! ## A copy that keeps its temporary name -/

/-- Writing is interrupted after any beginning of the content. -/
theorem passes_writeContent {path : Path} {written content : Bytes} (h : written <+: content) :
    ∀ {process : Process} {stored : Bytes}, process.tree path = some (.file stored) →
      (writeContent path content).Passes fileHandler process
        (process.put path (some (.file (stored ++ written)))) := by
  induction content generalizing written with
  | nil =>
    intro process stored hstored
    have hsame : process.put path (some (.file (stored ++ []))) = process := by
      rw [List.append_nil, ← hstored]
      simp [Process.put]
    rw [List.prefix_nil.mp h, hsame]
    exact passes_start _ _
  | cons b rest ih =>
    intro process stored hstored
    cases written with
    | nil =>
      have hsame : process.put path (some (.file (stored ++ []))) = process := by
        rw [List.append_nil, ← hstored]
        simp [Process.put]
      rw [hsame]
      exact passes_start _ _
    | cons first later =>
      obtain ⟨rfl, hlater⟩ := List.cons_prefix_cons.mp h
      have hrest := @ih _ hlater (process.put path (some (.file (stored ++ [first])))) _
        (put_tree_self _ _ _)
      rw [put_put, List.append_assoc, List.singleton_append] at hrest
      rw [writeContent, perform_bind, passes_call, fileHandler, hstored]
      exact .inr hrest

/-- Every archive that could succeed can be interrupted so that any beginning of the content keeps
the temporary name. -/
theorem exists_leftover {parent : Path} {name : Name} {content written : Bytes}
    (hparent : parent ≠ []) (h : CanArchive source inputPath (parent ++ [name]) process)
    (hstored : process.tree inputPath = some (.file content)) (hwritten : written <+: content) :
    ∃ passed, (archiveTo source inputPath (parent ++ [name])).Passes fileHandler process passed ∧
      passed.tree (temporaryPath (parent ++ [name]) process.sequence) = some (.file written) ∧
      (∀ path, path ≠ temporaryPath (parent ++ [name]) process.sequence →
        ¬Between [] parent path → passed.tree path = process.tree path) := by
  obtain ⟨made, found, hmade, hsequence, hfree, hunused, hentry, hfound, hinput, -, hothers⟩ :=
    h.made hparent
  have hfits := fits_of_temporaryPath h.fits
  rw [hstored, Option.some.injEq, Node.file.injEq] at hfound
  subst hfound
  rw [temporaryPath_append]
  refine ⟨(Process.mk made.tree (made.sequence + 1)).put
    (parent ++ [temporaryName name process.sequence]) (some (.file written)), ?_, ?_, ?_⟩
  · rw [← parent_append parent name] at hmade
    unfold archiveTo
    rw [requireFits_of_fits (by rw [parent_append]; exact fits_of_append hfits), ret_bind]
    refine passes_bind_right hmade ?_
    rw [requireFits_of_fits hfits, ret_bind, perform_bind, passes_lookup,
      if_neg (by simp [hfree]), perform_bind, passes_nextSequence, temporaryPath_append, hsequence]
    refine .inr (.inr (passes_bind_left (passes_rescue_left (passes_bind_left ?_))))
    rw [copyFile, perform_bind, passes_lookup]
    dsimp only
    rw [hinput]
    have hempty : ((Process.mk made.tree (process.sequence + 1)).put
        (parent ++ [temporaryName name process.sequence]) (some (.file []))).tree
          (parent ++ [temporaryName name process.sequence]) = some (.file []) :=
      put_tree_self _ _ _
    have hwrite := passes_writeContent hwritten hempty
    rw [put_put, List.nil_append] at hwrite
    exact .inr (passes_createFile hunused hentry hwrite)
  · exact put_tree_self _ _ _
  · intro path hpath hbetween
    rw [put_tree_of_ne _ _ hpath]
    exact hothers path hbetween

/-- Where a file of one row lies. -/
def inboxPath : Path := [⟨text "inbox", by decide⟩]

/-- The file as it was inspected. -/
def rowSource : LocalFileMetadata where
  sourcePath := inboxPath
  originalName := text "a"
  fileHash := sha256Hex (text "7,1")
  sizeBytes := 3
  sourceMtime := []
  fingerprint := []

/-- The file beside an empty work directory. -/
def rowTree : Tree :=
  Function.update (Function.update (fun _ => none) [newName] (some .directory)) inboxPath
    (some (.file (text "7,1")))

theorem isSized_rowSource : rowSource.IsSized := by
  constructor <;> decide

theorem canArchive_row : CanArchive rowSource inboxPath (firstPath newName) ⟨rowTree, 0⟩ := by
  refine ⟨?_, by decide, by decide, by decide, text "7,1", by decide, ?_⟩
  · intro path hbetween
    have hother : path ≠ inboxPath := by
      rintro rfl
      obtain ⟨initial, -, hprefix, heq⟩ := hbetween
      rw [List.nil_append] at heq
      subst heq
      exact absurd (List.cons_prefix_cons.mp hprefix).1 (by decide)
    change rowTree path = none ∨ rowTree path = some .directory
    rw [rowTree, Function.update_of_ne hother]
    by_cases hwork : path = [newName]
    · subst hwork
      exact .inr (Function.update_self _ _ _)
    · exact .inl (Function.update_of_ne hwork _ _)
  · exact (describes_iff isSized_rowSource).mpr ⟨rfl, rfl⟩

theorem recoverable_row : Recoverable rowSource (firstPath newName) rowTree :=
  ⟨canArchive_row.directories, .inl canArchive_row.free⟩

theorem planned_row : (storeAt newName).planArchivePath (text "t") (text "r") 1
    rowSource.originalName = .ok (firstPath newName) := planned_firstPath newName

/-- A first process may die when it has written one byte of its copy. -/
theorem exists_leftover_row : ∃ tree, Interrupted (storeAt newName) (text "t") (text "r") 1
      rowSource inboxPath (firstPath newName) rowTree tree ∧
    tree (temporaryPath (firstPath newName) 0) = some (.file (text "7")) ∧
    ∀ path, path ≠ temporaryPath (firstPath newName) 0 →
      ¬Between [] (firstPath newName).parent path → tree path = rowTree path := by
  obtain ⟨parent, name, hparent, hpath⟩ := exists_parent_of_planned planned_row
  have hcan := canArchive_row
  rw [hpath] at hcan
  obtain ⟨passed, hpass, hleftover, hothers⟩ := exists_leftover hparent hcan
    (by decide : rowTree inboxPath = some (.file (text "7,1")))
    (by decide : text "7" <+: text "7,1")
  have hdirectory : (firstPath newName).parent = parent := by rw [hpath, parent_append]
  rw [← hpath] at hpass hleftover hothers
  rw [← archive_eq_archiveTo planned_row] at hpass
  rw [hdirectory]
  exact ⟨passed.tree, .archive hpass, hleftover, hothers⟩

theorem crashed_archive_recovers_iff_restarted : ∃ tree,
    tree (temporaryPath (firstPath newName) 0) = some (.file (text "7")) ∧
    tree (firstPath newName) = none ∧
    ∃ value reached, ((storeAt newName).recoverArchive rowSource (firstPath newName)
        inboxPath).run fileHandler ⟨tree, 1⟩ = (.ok value, reached) ∧
      HoldsEvidence rowSource (reached.tree (firstPath newName)) := by
  obtain ⟨tree, hcrash, hleftover, hothers⟩ := exists_leftover_row
  have hinput := hothers inboxPath (by decide) (not_between_of_apart (by decide))
  have hfree := hothers (firstPath newName) (by decide) (not_between_of_apart (by decide))
  have hunused := hothers (temporaryPath (firstPath newName) 1) (by decide)
    (not_between_of_apart (by decide))
  refine ⟨tree, hleftover, hfree.trans (by decide), ?_⟩
  refine (crashed_archive_recovers_iff isSized_rowSource planned_row recoverable_row
    (.single hcrash) ?_).mpr (.inr ⟨hunused.trans (by decide), by decide⟩)
  rw [hinput]
  exact canArchive_row.input

/-- One crash behind the first step of the copy makes the next recovery fail. -/
theorem not_crashed_archive_recovers : ¬∀ (store : LocalArchiveStore) (source : LocalFileMetadata)
    (inputPath destination : Path) (taskId taskRunId : Bytes) (ordinal : UInt64)
    (start tree : Tree), source.IsSized →
    store.planArchivePath taskId taskRunId ordinal source.originalName = .ok destination →
    Recoverable source destination start →
    Relation.ReflTransGen
      (Interrupted store taskId taskRunId ordinal source inputPath destination) start tree →
    (∃ content, tree inputPath = some (.file content) ∧ source.describes content = true) →
    ∃ value reached, (store.recoverArchive source destination inputPath).run fileHandler
      ⟨tree, 0⟩ = (.ok value, reached) ∧ HoldsEvidence source (reached.tree destination) := by
  intro claimed
  obtain ⟨tree, hcrash, hleftover, hothers⟩ := exists_leftover_row
  have hsource : ∃ content, tree inboxPath = some (.file content) ∧
      rowSource.describes content = true := by
    rw [hothers inboxPath (by decide) (not_between_of_apart (by decide))]
    exact canArchive_row.input
  have hsucceeds := claimed (storeAt newName) rowSource inboxPath (firstPath newName)
    (text "t") (text "r") 1 rowTree tree isSized_rowSource planned_row recoverable_row
    (.single hcrash) hsource
  have hrecoverable : Recoverable rowSource (firstPath newName) tree :=
    recoverable_of_interrupted planned_row recoverable_row (.single hcrash)
  rcases (recovers_iff isSized_rowSource planned_row hrecoverable hsource).mp hsucceeds with
    htaken | hunused
  · have hfree := hothers (firstPath newName) (by decide) (not_between_of_apart (by decide))
    exact htaken.1 (hfree.trans (by decide))
  · rw [hleftover] at hunused
    cases hunused.1

end LabBridge.Agent
