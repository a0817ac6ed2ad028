import LabBridge.Library.ByteText
import LabBridge.Library.Program
import Mathlib.Data.List.Infix
import Mathlib.Logic.Function.Basic

/-!
# File trees and programs over them

An absolute path is a list of names, and a tree says what lies under each path. Programs look
paths up and change one entry at a time, so the states in which they may be interrupted are the
ones a crash leaves behind.
-/

namespace FileTree

open ByteText Interaction Program

/-- The names of directory entries: not empty, without a separator or a zero byte, and none of
the two names that every directory has. -/
def IsName (name : Bytes) : Prop :=
  name ≠ [] ∧ byte '/' ∉ name ∧ 0 ∉ name ∧ name ≠ text "." ∧ name ≠ text ".."

instance : DecidablePred IsName := fun _ => inferInstanceAs (Decidable (_ ∧ _))

/-- A name. -/
abbrev Name := { name : Bytes // IsName name }

/-- An absolute path without dot segments. -/
abbrev Path := List Name

/-- The text of a path. -/
def Path.render : Path → Bytes
  | [] => [byte '/']
  | path => path.flatMap fun name => byte '/' :: name.val

/-- The name of a byte string. -/
def nameOf (name : Bytes) : Option Name := if h : IsName name then some ⟨name, h⟩ else none

/-- The path of a text: its parts between separators, when each is a name. -/
def parsePath (rendered : Bytes) : Option Path :=
  ((rendered.splitOn (byte '/')).filter fun part => !part.isEmpty).mapM nameOf

/-- The parts of a rendered path are its names behind an empty one. -/
theorem splitOn_flatMap_separator {separator : UInt8} (names : List Bytes)
    (h : ∀ name ∈ names, separator ∉ name) :
    (names.flatMap fun name => separator :: name).splitOn separator = [] :: names := by
  have hjoined : names.flatMap (fun name => separator :: name) =
      [separator].intercalate ([] :: names) := by
    clear h
    cases names with
    | nil => rfl
    | cons first rest =>
      induction rest generalizing first with
      | nil => simp [List.intercalate]
      | cons second rest ih =>
        have hrest := ih second
        simp only [List.intercalate, List.intersperse_cons_cons, List.flatten_cons,
          List.nil_append, List.flatMap_cons, List.cons_append] at hrest ⊢
        rw [hrest]
  rw [hjoined]
  apply List.splitOn_intercalate
  · intro name hname
    rcases List.mem_cons.mp hname with rfl | hmem
    · simp
    · exact h name hmem
  · simp

theorem nameOf_val (name : Name) : nameOf name.val = some name := by
  rw [nameOf, dif_pos name.property]

/-- The parts of the text of a path are its names. -/
theorem parts_render (path : Path) :
    (path.render.splitOn (byte '/')).filter (fun part => !part.isEmpty) =
      path.map Subtype.val := by
  cases path with
  | nil => decide
  | cons first rest =>
    have hflat : Path.render (first :: rest) =
        ((first :: rest).map Subtype.val).flatMap fun name => byte '/' :: name := by
      rw [List.flatMap_map]
      rfl
    rw [hflat, splitOn_flatMap_separator, List.filter_cons_of_neg (by simp)]
    · apply List.filter_eq_self.mpr
      intro name hname
      obtain ⟨named, -, rfl⟩ := List.mem_map.mp hname
      simpa using named.property.1
    · intro name hname
      obtain ⟨named, -, rfl⟩ := List.mem_map.mp hname
      exact named.property.2.1

/-- A path is read back from its text. -/
theorem parsePath_render (path : Path) : parsePath path.render = some path := by
  have hnames : nameOf ∘ Subtype.val = (pure : Name → Option Name) := by
    funext name
    exact nameOf_val name
  rw [parsePath, parts_render, List.mapM_map, hnames, List.mapM_pure, List.map_id']
  rfl

/-- Different paths have different texts. -/
theorem render_injective : Function.Injective Path.render := by
  intro first second h
  have hparsed := parsePath_render first
  rw [h, parsePath_render] at hparsed
  exact (Option.some.inj hparsed).symm

/-- `NAME_MAX`: how long a name may be that a file system takes. -/
def nameMax : ℕ := 255

/-- `PATH_MAX`: how long the text of a path may be, its closing zero included. -/
def pathMax : ℕ := 4096

/-- A path that the system takes: neither one of its names nor its text is too long. -/
def Path.fits (path : Path) : Bool :=
  path.all (fun name => decide (name.val.length ≤ nameMax)) &&
    decide (path.render.length < pathMax)

/-- `path::filename`. -/
def Path.filename (path : Path) : Bytes := (path.getLast?.map Subtype.val).getD []

/-- `path::parent_path`; the root is its own parent. -/
def Path.parent (path : Path) : Path := path.dropLast

/-- The text of a path that ends in a name. -/
theorem render_append (path : Path) (name : Name) : Path.render (path ++ [name]) =
    (path.flatMap fun name => byte '/' :: name.val) ++ byte '/' :: name.val := by
  have hflat : Path.render (path ++ [name]) =
      (path ++ [name]).flatMap fun name => byte '/' :: name.val := by
    cases path <;> rfl
  rw [hflat, List.flatMap_append, List.flatMap_singleton]

/-- The text of a path holds no zero byte. -/
theorem zero_notMem_render (path : Path) : 0 ∉ path.render := by
  have hslash : byte '/' ≠ 0 := by decide
  cases path with
  | nil => decide
  | cons first rest =>
    intro hzero
    obtain ⟨name, -, hname⟩ := List.mem_flatMap.mp hzero
    rcases List.mem_cons.mp hname with hfirst | hinside
    · exact hslash hfirst.symm
    · exact name.property.2.2.1 hinside

@[simp] theorem filename_append (path : Path) (name : Name) :
    Path.filename (path ++ [name]) = name.val := by
  simp [Path.filename]

@[simp] theorem parent_append (path : Path) (name : Name) : Path.parent (path ++ [name]) = path :=
  List.dropLast_concat

/-- When a path that ends in a name fits. -/
theorem fits_append {path : Path} {name : Name} : Path.fits (path ++ [name]) = true ↔
    (∀ other ∈ path, other.val.length ≤ nameMax) ∧ name.val.length ≤ nameMax ∧
      (path.flatMap fun name => byte '/' :: name.val).length + (name.val.length + 1) < pathMax := by
  rw [Path.fits, render_append]
  simp [and_assoc]

/-- A path fits only when the one before its last name does. -/
theorem fits_of_append {path : Path} {name : Name} (h : Path.fits (path ++ [name]) = true) :
    path.fits = true := by
  obtain ⟨hnames, -, htext⟩ := fits_append.mp h
  rw [Path.fits, Bool.and_eq_true]
  constructor
  · simpa using hnames
  · cases path with
    | nil => decide
    | cons first rest =>
      have hrender : Path.render (first :: rest) =
          (first :: rest).flatMap fun name => byte '/' :: name.val := rfl
      rw [hrender, decide_eq_true_iff]
      omega

/-- A path fits only when those that lead to it do. -/
theorem fits_of_prefix {path longer : Path} (hfront : path <+: longer)
    (h : longer.fits = true) : path.fits = true := by
  obtain ⟨rest, rfl⟩ := hfront
  induction rest using List.reverseRecOn with
  | nil => rwa [List.append_nil] at h
  | append_singleton rest name ih =>
    rw [← List.append_assoc] at h
    exact ih (fits_of_append h)

/-- A path under a longer name fits only when the same path under a shorter one does. -/
theorem fits_of_longer {path : Path} {name longer : Name}
    (hlength : name.val.length ≤ longer.val.length)
    (h : Path.fits (path ++ [longer]) = true) : Path.fits (path ++ [name]) = true := by
  obtain ⟨hnames, hlast, htext⟩ := fits_append.mp h
  exact fits_append.mpr ⟨hnames, hlength.trans hlast, by omega⟩

/-- What lies under a path. -/
inductive Node
  | file (content : Bytes)
  | directory
  | other
  deriving DecidableEq

/-- What lies under every path. -/
abbrev Tree := Path → Option Node

/-- The operations of a process on the tree, and its counter. A change answers whether it was
made. -/
inductive FileOperation : Type → Type
  | lookup (path : Path) : FileOperation (Option Node)
  | createDirectory (path : Path) : FileOperation Bool
  | createFile (path : Path) : FileOperation Bool
  | append (path : Path) (content : Bytes) : FileOperation Unit
  | rename (source target : Path) : FileOperation Bool
  | remove (path : Path) : FileOperation Unit
  | sync (path : Path) : FileOperation Unit
  | nextSequence : FileOperation ℕ

/-- A process on a tree. Its counter begins anew with every process. -/
@[ext] structure Process where
  tree : Tree
  sequence : ℕ := 0

/-- A path that the system takes and whose parent is a directory. -/
def Tree.IsEntry (tree : Tree) (path : Path) : Bool :=
  path.fits && (path.parent = [] || tree path.parent = some .directory)

/-- Put something under a path. -/
def Process.put (process : Process) (path : Path) (node : Option Node) : Process :=
  { process with tree := Function.update process.tree path node }

/-- What the operations do. -/
def fileHandler {ε : Type} : Program.Handler FileOperation ε Process
  | _, .lookup path, process => (.ok (process.tree path), process)
  | _, .createDirectory path, process =>
    if (process.tree path).isNone && process.tree.IsEntry path then
      (.ok true, process.put path (some .directory))
    else (.ok false, process)
  | _, .createFile path, process =>
    if (process.tree path).isNone && process.tree.IsEntry path then
      (.ok true, process.put path (some (.file [])))
    else (.ok false, process)
  | _, .append path content, process =>
    match process.tree path with
    | some (.file stored) => (.ok (), process.put path (some (.file (stored ++ content))))
    | _ => (.ok (), process)
  | _, .rename source target, process =>
    match process.tree source, process.tree target with
    | some (.file content), none | some (.file content), some (.file _) =>
      (.ok true, (process.put target (some (.file content))).put source none)
    | _, _ => (.ok false, process)
  | _, .remove path, process => (.ok (), process.put path none)
  | _, .sync _, process => (.ok (), process)
  | _, .nextSequence, process =>
    (.ok process.sequence, { process with sequence := process.sequence + 1 })

/-- A program over the tree. -/
abbrev FileProgram (ε α : Type) := Program FileOperation ε α

variable {ε α : Type}

/-- The operations that leave the tree as it is. -/
def IsQuestion : ∀ β : Type, FileOperation β → Prop
  | _, .lookup _ | _, .sync _ | _, .nextSequence => True
  | _, _ => False

/-- The operations on some paths. -/
def Within (paths : Path → Prop) : ∀ β : Type, FileOperation β → Prop
  | _, .lookup _ | _, .sync _ | _, .nextSequence => True
  | _, .createDirectory path | _, .createFile path | _, .append path _ | _, .remove path =>
    paths path
  | _, .rename source target => paths source ∧ paths target

@[simp] theorem put_tree_self (process : Process) (path : Path) (node : Option Node) :
    (process.put path node).tree path = node := Function.update_self ..

theorem put_tree_of_ne (process : Process) {path other : Path} (node : Option Node)
    (h : other ≠ path) : (process.put path node).tree other = process.tree other :=
  Function.update_of_ne h ..

@[simp] theorem put_put (process : Process) (path : Path) (first second : Option Node) :
    (process.put path first).put path second = process.put path second := by
  simp [Process.put]

/-- Changes of different paths may be swapped. -/
theorem put_comm (process : Process) {first second : Path} (h : first ≠ second)
    (node other : Option Node) : (process.put first node).put second other =
      (process.put second other).put first node := by
  simp [Process.put, Function.update_comm h]

/-- An operation on some paths leaves the others. -/
theorem fileHandler_within {paths : Path → Prop} {β : Type} {operation : FileOperation β}
    (h : Within paths β operation) (process : Process) {other : Path} (hother : ¬paths other) :
    (fileHandler β operation process : Except ε β × Process).2.tree other =
      process.tree other := by
  have hne : ∀ {path}, paths path → other ≠ path := fun hpath heq => hother (heq ▸ hpath)
  cases operation with
  | lookup path => rfl
  | createDirectory path =>
    unfold fileHandler
    dsimp only
    split
    · exact put_tree_of_ne _ _ (hne h)
    · rfl
  | createFile path =>
    unfold fileHandler
    dsimp only
    split
    · exact put_tree_of_ne _ _ (hne h)
    · rfl
  | append path content =>
    unfold fileHandler
    dsimp only
    split
    · exact put_tree_of_ne _ _ (hne h)
    · rfl
  | rename source target =>
    unfold fileHandler
    dsimp only
    split
    · exact (put_tree_of_ne _ _ (hne h.1)).trans (put_tree_of_ne _ _ (hne h.2))
    · exact (put_tree_of_ne _ _ (hne h.1)).trans (put_tree_of_ne _ _ (hne h.2))
    · rfl
  | remove path => exact put_tree_of_ne _ _ (hne h)
  | sync path => rfl
  | nextSequence => rfl

/-- A question leaves the tree. -/
theorem fileHandler_question {β : Type} {operation : FileOperation β}
    (h : IsQuestion β operation) (process : Process) :
    (fileHandler β operation process : Except ε β × Process).2.tree = process.tree := by
  cases operation with
  | lookup path => rfl
  | sync path => rfl
  | nextSequence => rfl
  | createDirectory path => exact h.elim
  | createFile path => exact h.elim
  | append path content => exact h.elim
  | rename source target => exact h.elim
  | remove path => exact h.elim

section Runs

variable {ε α : Type}

@[simp] theorem run_lookup (path : Path) (next : Option Node → FileProgram ε α)
    (process : Process) : (call (.lookup path) next).run fileHandler process =
      (next (process.tree path)).run fileHandler process := by
  rw [run_call]
  rfl

@[simp] theorem run_sync (path : Path) (next : Unit → FileProgram ε α) (process : Process) :
    (call (.sync path) next).run fileHandler process = (next ()).run fileHandler process := by
  rw [run_call]
  rfl

@[simp] theorem run_nextSequence (next : ℕ → FileProgram ε α) (process : Process) :
    (call .nextSequence next).run fileHandler process = (next process.sequence).run fileHandler
      { process with sequence := process.sequence + 1 } := by
  rw [run_call]
  rfl

@[simp] theorem run_remove (path : Path) (next : Unit → FileProgram ε α) (process : Process) :
    (call (.remove path) next).run fileHandler process =
      (next ()).run fileHandler (process.put path none) := by
  rw [run_call]
  rfl

theorem passes_lookup {path : Path} {next : Option Node → FileProgram ε α}
    {process passed : Process} : (call (.lookup path) next).Passes fileHandler process passed ↔
      passed = process ∨ (next (process.tree path)).Passes fileHandler process passed :=
  passes_call

theorem passes_nextSequence {next : ℕ → FileProgram ε α} {process passed : Process} :
    (call .nextSequence next).Passes fileHandler process passed ↔ passed = process ∨
      (next process.sequence).Passes fileHandler
        { process with sequence := process.sequence + 1 } passed :=
  passes_call

theorem passes_remove {path : Path} {next : Unit → FileProgram ε α} {process passed : Process} :
    (call (.remove path) next).Passes fileHandler process passed ↔
      passed = process ∨ (next ()).Passes fileHandler (process.put path none) passed :=
  passes_call

/-- A directory is made where nothing stands in an existing directory. -/
theorem run_createDirectory (path : Path) (next : Bool → FileProgram ε α) (process : Process) :
    (call (.createDirectory path) next).run fileHandler process =
      if process.tree path = none ∧ process.tree.IsEntry path = true then
        (next true).run fileHandler (process.put path (some .directory))
      else (next false).run fileHandler process := by
  rw [run_call, fileHandler]
  by_cases h : process.tree path = none ∧ process.tree.IsEntry path = true
  · rw [if_pos h, if_pos (by simp [h.1, h.2])]
  · rw [if_neg h, if_neg (by simpa using h)]

/-- A file is made where nothing stands in an existing directory. -/
theorem run_createFile (path : Path) (next : Bool → FileProgram ε α) (process : Process) :
    (call (.createFile path) next).run fileHandler process =
      if process.tree path = none ∧ process.tree.IsEntry path = true then
        (next true).run fileHandler (process.put path (some (.file [])))
      else (next false).run fileHandler process := by
  rw [run_call, fileHandler]
  by_cases h : process.tree path = none ∧ process.tree.IsEntry path = true
  · rw [if_pos h, if_pos (by simp [h.1, h.2])]
  · rw [if_neg h, if_neg (by simpa using h)]

/-- A run that makes a file may be interrupted wherever what follows may. -/
theorem passes_createFile {path : Path} {next : Bool → FileProgram ε α}
    {process passed : Process} (hfree : process.tree path = none)
    (hentry : process.tree.IsEntry path = true)
    (h : (next true).Passes fileHandler (process.put path (some (.file []))) passed) :
    (call (.createFile path) next).Passes fileHandler process passed := by
  rw [passes_call, fileHandler, if_pos (by simp [hfree, hentry])]
  exact .inr h

/-- Appending to a file. -/
theorem run_append {path : Path} {stored content : Bytes} {process : Process}
    (h : process.tree path = some (.file stored)) (next : Unit → FileProgram ε α) :
    (call (.append path content) next).run fileHandler process =
      (next ()).run fileHandler (process.put path (some (.file (stored ++ content)))) := by
  rw [run_call, fileHandler, h]

/-- A file takes a free name, or that of another file. -/
theorem run_rename (source target : Path) (next : Bool → FileProgram ε α) (process : Process) :
    (call (.rename source target) next).run fileHandler process =
      match process.tree source, process.tree target with
      | some (.file content), none | some (.file content), some (.file _) =>
        (next true).run fileHandler
          ((process.put target (some (.file content))).put source none)
      | _, _ => (next false).run fileHandler process := by
  rw [run_call, fileHandler]
  rcases process.tree source with _ | (content | _ | _) <;>
    rcases process.tree target with _ | (stored | _ | _) <;> rfl

end Runs

end FileTree
