import LabBridge.Library.Fallible
import LabBridge.Library.FileTree

/-!
# File systems with symbolic links

A path text is resolved part by part from the root or the working directory: a link is replaced
by the path it points to, and two dots lead to the directory above the place that was reached.
What is missing or takes too many links ends the walk. Texts go to the system as zero-terminated
strings.
-/

namespace LinkedTree

open ByteText FileTree

/-- What stands under a name of a directory. -/
inductive Entry
  | file (content : Bytes) (lastWriteTime : ℤ)
  | directory
  | link (target : Bytes)
  | other
  deriving DecidableEq

/-- A symbolic link. -/
def Entry.isLink : Entry → Bool
  | .link _ => true
  | _ => false

/-- A path as it is spelled: the parts between separators, and an empty part for a separator at
its end. -/
structure PathText where
  absolute : Bool
  parts : List Bytes
  deriving DecidableEq

/-- The path that a text spells. -/
def pathText (value : Bytes) : PathText :=
  let names := (value.splitOn (byte '/')).filter fun part => !part.isEmpty
  { absolute := value.head? == some (byte '/')
    parts := if names ≠ [] ∧ value.getLast? = some (byte '/') then names ++ [[]] else names }

namespace PathText

/-- The text of a path. -/
def render (path : PathText) : Bytes :=
  (if path.absolute then [byte '/'] else []) ++ [byte '/'].intercalate path.parts

/-- A place as a path. -/
def ofPath (place : Path) : PathText := ⟨true, place.map Subtype.val⟩

/-- `operator/` with a file name. -/
def append (path : PathText) (name : Bytes) : PathText :=
  { path with parts :=
      (if path.parts.getLast? = some [] then path.parts.dropLast else path.parts) ++ [name] }

/-- The components of a path, of which the root directory is one. -/
def components (path : PathText) : List Bytes :=
  (if path.absolute then [[byte '/']] else []) ++ path.parts

end PathText

/-- The parts that a zero-terminated string keeps. -/
def cutParts : List Bytes → List Bytes
  | [] => []
  | part :: rest => if 0 ∈ part then [part.takeWhile fun b => b != 0] else part :: cutParts rest

/-- A file system: what stands at every place, the names in a directory, and the directory that
relative paths start from. -/
structure FileSystem where
  entry : Path → Option Entry
  names : Path → List Name
  workingDirectory : Path
  root : entry [] = some .directory
  mem_names : ∀ {place : Path} {name : Name},
    name ∈ names place ↔ (entry (place ++ [name])).isSome
  working : ∀ front, front <+: workingDirectory → entry front = some .directory

/-- Why a path resolves to nothing. -/
inductive WalkError
  | missing
  | loop
  deriving DecidableEq

/-- A walk up to the next link that is followed. -/
inductive Stride
  | ends (result : Except WalkError Path)
  | follows (place : Path) (parts : List Bytes)

/-- The links the system follows for one path. -/
def maximumLinks : ℕ := 40

namespace FileSystem

variable (fs : FileSystem)

/-- Walk some parts up to the next link; a link in the last place may be what is asked for. -/
def stride (follow : Bool) : Path → List Bytes → Stride
  | place, [] => .ends (.ok place)
  | place, part :: rest =>
    if fs.entry place ≠ some .directory then .ends (.error .missing)
    else if part = [] ∨ part = text "." then stride follow place rest
    else if part = text ".." then stride follow place.parent rest
    else
      match nameOf part with
      | none => .ends (.error .missing)
      | some name =>
        match fs.entry (place ++ [name]) with
        | none => .ends (.error .missing)
        | some (.link target) =>
          if rest = [] ∧ follow = false then .ends (.ok (place ++ [name]))
          else .follows (if (pathText target).absolute then [] else place)
            ((pathText target).parts ++ rest)
        | some _ => stride follow (place ++ [name]) rest

/-- Walk some parts; the place comes with the number of links that may still be followed. -/
def walk (follow : Bool) : ℕ → Path → List Bytes → Except WalkError (Path × ℕ)
  | 0, place, parts =>
    match fs.stride follow place parts with
    | .ends result => result.map fun found => (found, 0)
    | .follows _ _ => .error .loop
  | links + 1, place, parts =>
    match fs.stride follow place parts with
    | .ends result => result.map fun found => (found, links + 1)
    | .follows place parts => walk follow links place parts

/-- The place a path starts from. -/
def startOf (path : PathText) : Path := if path.absolute then [] else fs.workingDirectory

/-- The place of a path. -/
def resolve (follow : Bool) (path : PathText) : Except WalkError Path :=
  let parts := cutParts path.parts
  if path.absolute = false ∧ parts.all List.isEmpty then .error .missing
  else (fs.walk follow maximumLinks (fs.startOf path) parts).map Prod.fst

/-- What is found under a path; nothing where the path is missing. -/
def lookup (follow : Bool) (path : PathText) : Except WalkError (Option Entry) :=
  match fs.resolve follow path with
  | .ok place => .ok (fs.entry place)
  | .error .missing => .ok none
  | .error .loop => .error .loop

/-- One part of a path in normal form: the names kept so far in reverse, and whether a separator
ends them. -/
def normalStep (absolute : Bool) (kept : List Bytes × Bool) (part : Bytes) : List Bytes × Bool :=
  if part = [] ∨ part = text "." then (kept.1, true)
  else if part = text ".." then
    match kept.1 with
    | [] => if absolute then ([], true) else ([part], false)
    | last :: rest => if last = text ".." then (part :: kept.1, false) else (rest, true)
  else (part :: kept.1, false)

/-- `lexically_normal`. -/
def lexicallyNormal (path : PathText) : PathText :=
  let kept := path.parts.foldl (normalStep path.absolute) ([], false)
  let names := kept.1.reverse
  if path.parts = [] then path
  else if names = [] then ⟨path.absolute, if path.absolute then [] else [text "."]⟩
  else if kept.2 = true ∧ names.getLast? ≠ some (text "..") then ⟨path.absolute, names ++ [[]]⟩
  else ⟨path.absolute, names⟩

/-- The leading parts of a path that exist, and the others. -/
def leadingParts (absolute : Bool) : List Bytes → List Bytes →
    Except WalkError (List Bytes × List Bytes)
  | leading, [] => .ok (leading, [])
  | leading, part :: rest =>
    match fs.resolve true ⟨absolute, leading ++ [part]⟩ with
    | .ok _ => leadingParts absolute (leading ++ [part]) rest
    | .error .missing => .ok (leading, part :: rest)
    | .error .loop => .error .loop

/-- `weakly_canonical`: what exists of a path is resolved, and the rest only normalized. -/
def weaklyCanonical (path : PathText) : Except WalkError PathText :=
  match fs.resolve true path with
  | .ok place => .ok (.ofPath place)
  | .error .loop => .error .loop
  | .error .missing => do
    let (leading, rest) ← fs.leadingParts path.absolute [] path.parts
    if path.absolute = false ∧ leading = [] then pure (lexicallyNormal ⟨false, rest⟩)
    else
      let place ← fs.resolve true ⟨path.absolute, leading⟩
      pure (lexicallyNormal ⟨true, place.map Subtype.val ++ rest⟩)

end FileSystem

/-- A path lies within another, component by component. -/
def isWithin (path root : PathText) : Bool := root.components.isPrefixOf path.components

/-! ## Texts of places -/

/-- The text of a place begins with a separator. -/
theorem head?_render (place : Path) : place.render.head? = some (byte '/') := by
  cases place <;> rfl

/-- The text of a place ends with a separator for the root only. -/
theorem getLast?_render {place : Path} (h : place ≠ []) :
    place.render.getLast? ≠ some (byte '/') := by
  obtain ⟨front, last, rfl⟩ := (List.eq_nil_or_concat' place).resolve_left h
  intro hlast
  rw [render_append, List.append_cons, List.getLast?_append] at hlast
  cases hval : last.val.getLast? with
  | none => exact last.property.1 (List.getLast?_eq_none_iff.mp hval)
  | some b =>
    rw [hval, Option.some_or] at hlast
    cases hlast
    exact last.property.2.1 (List.mem_of_getLast? hval)

/-- The text of a place spells the place. -/
theorem pathText_render (place : Path) : pathText place.render = .ofPath place := by
  unfold pathText PathText.ofPath
  dsimp only
  rw [parts_render, head?_render, beq_self_eq_true]
  by_cases h : place = []
  · subst h
    rfl
  · rw [if_neg (not_and.mpr fun _ => getLast?_render h)]

/-- The path of a place has the text of the place. -/
theorem render_ofPath (place : Path) : (PathText.ofPath place).render = place.render := by
  cases place with
  | nil => rfl
  | cons first rest =>
    have hrest : ∀ names : List Bytes, names ≠ [] → byte '/' :: [byte '/'].intercalate names =
        names.flatMap fun name => byte '/' :: name := by
      intro names hne
      induction names with
      | nil => exact absurd rfl hne
      | cons name others ih =>
        cases others with
        | nil => simp [List.intercalate]
        | cons next others =>
          have hothers := ih (List.cons_ne_nil next others)
          simp only [List.intercalate, List.intersperse_cons_cons, List.flatten_cons,
            List.flatMap_cons, List.cons_append, List.nil_append] at hothers ⊢
          rw [hothers]
    have hnames := hrest ((first :: rest).map Subtype.val) (by simp)
    rw [List.flatMap_map] at hnames
    exact hnames

/-- Different places have different paths. -/
theorem ofPath_injective : Function.Injective PathText.ofPath := by
  intro first second h
  apply render_injective
  rw [← render_ofPath, ← render_ofPath, h]

/-- A name is not cut. -/
theorem cutParts_names (names : List Name) :
    cutParts (names.map Subtype.val) = names.map Subtype.val := by
  induction names with
  | nil => rfl
  | cons name rest ih => rw [List.map_cons, cutParts, if_neg name.property.2.2.1, ih]

/-- A part behind others is kept unless one of them is cut. -/
theorem cutParts_append (parts more : List Bytes) : cutParts (parts ++ more) =
    if ∃ part ∈ parts, 0 ∈ part then cutParts parts else parts ++ cutParts more := by
  induction parts with
  | nil => simp
  | cons part rest ih =>
    by_cases hzero : 0 ∈ part
    · simp [cutParts, hzero]
    · rw [List.cons_append, cutParts, cutParts, if_neg hzero, if_neg hzero, ih]
      by_cases hrest : ∃ part ∈ rest, 0 ∈ part
      · rw [if_pos hrest, if_pos (by simpa [hzero] using hrest)]
      · rw [if_neg hrest, if_neg (by simpa [hzero] using hrest), List.cons_append]

/-- A path that holds no zero byte is not cut. -/
theorem cutParts_eq_self {parts : List Bytes} (h : ¬∃ part ∈ parts, 0 ∈ part) :
    cutParts parts = parts := by
  have happend := cutParts_append parts []
  rw [if_neg h, List.append_nil] at happend
  exact happend.trans (List.append_nil parts)

namespace FileSystem

variable {fs : FileSystem} {follow : Bool} {place found : Path} {links left : ℕ}

/-! ## Walks in a row -/

/-- Parts in front of others are walked first, and a link in their last place is followed. -/
theorem stride_append {parts more : List Bytes} (hmore : more ≠ []) :
    fs.stride follow place (parts ++ more) =
      match fs.stride true place parts with
      | .ends (.ok mid) => fs.stride follow mid more
      | .ends (.error error) => .ends (.error error)
      | .follows next rest => .follows next (rest ++ more) := by
  induction parts generalizing place with
  | nil => rfl
  | cons part rest ih =>
    rw [List.cons_append, stride, stride]
    split
    · rfl
    split
    · exact ih
    split
    · exact ih
    cases hname : nameOf part with
    | none => rfl
    | some name =>
      dsimp only
      cases hentry : fs.entry (place ++ [name]) with
      | none => rfl
      | some entry =>
        cases entry with
        | link target =>
          have hbefore : ¬(rest = [] ∧ true = false) := fun h => absurd h.2 (by decide)
          have hbehind : ¬(rest ++ more = [] ∧ follow = false) :=
            fun h => hmore (List.append_eq_nil_iff.mp h.1).2
          dsimp only
          rw [if_neg hbehind, if_neg hbefore, ← List.append_assoc]
        | file content time => exact ih
        | directory => exact ih
        | other => exact ih

/-- A walk over parts in front of others goes on from where it ends. -/
theorem walk_append {parts more : List Bytes} (hmore : more ≠ []) :
    fs.walk follow links place (parts ++ more) =
      fs.walk true links place parts >>= fun mid => fs.walk follow mid.2 mid.1 more := by
  induction links generalizing place parts with
  | zero =>
    rw [walk, walk, stride_append hmore]
    cases fs.stride true place parts with
    | ends result =>
      cases result with
      | error error => rfl
      | ok mid => rfl
    | follows next rest => rfl
  | succ links ih =>
    rw [walk, walk, stride_append hmore]
    cases fs.stride true place parts with
    | ends result =>
      cases result with
      | error error => rfl
      | ok mid => rfl
    | follows next rest => exact ih

/-! ## Places that are reached -/

/-- Something stands at a place, under directories only. -/
structure Stands (fs : FileSystem) (place : Path) : Prop where
  above : ∀ front, front <+: place → front ≠ place → fs.entry front = some .directory
  stored : (fs.entry place).isSome

/-- A place of something that is no link. -/
structure Settled (fs : FileSystem) (place : Path) : Prop extends Stands fs place where
  noLink : ∀ entry, fs.entry place = some entry → entry.isLink = false

/-- A directory under directories is settled. -/
theorem settled_of_directories
    (h : ∀ front, front <+: place → fs.entry front = some .directory) : Settled fs place where
  above front hfront _ := h front hfront
  stored := by rw [h place (List.prefix_refl place)]; rfl
  noLink entry hentry := by
    rw [h place (List.prefix_refl place), Option.some.injEq] at hentry
    rw [← hentry]
    rfl

/-- The root is settled. -/
theorem settled_root : Settled fs [] := by
  apply settled_of_directories
  intro front hfront
  rw [List.prefix_nil.mp hfront]
  exact fs.root

/-- The working directory is settled. -/
theorem settled_workingDirectory : Settled fs fs.workingDirectory :=
  settled_of_directories fs.working

/-- What lies above a place that stands is a directory. -/
theorem Stands.directories (h : Stands fs place) (hdirectory : fs.entry place = some .directory)
    {front : Path} (hfront : front <+: place) : fs.entry front = some .directory := by
  by_cases hsame : front = place
  · rw [hsame]
    exact hdirectory
  · exact h.above front hfront hsame

/-- The beginning of a place that stands is settled, unless it is the place itself. -/
theorem Stands.settled_of_prefix (h : Stands fs place) {front : Path} (hfront : front <+: place)
    (hne : front ≠ place) : Settled fs front := by
  apply settled_of_directories
  intro before hbefore
  apply h.above before (hbefore.trans hfront)
  rintro rfl
  exact hne (hfront.eq_of_length_le hbefore.length_le)

/-- The directory above a settled place is settled. -/
theorem Settled.parent (h : Settled fs place) : Settled fs place.parent := by
  by_cases hsame : place.parent = place
  · rw [hsame]
    exact h
  · exact h.toStands.settled_of_prefix (List.dropLast_prefix place) hsame

/-- What a directory contains stands. -/
theorem Stands.append (h : Stands fs place) (hdirectory : fs.entry place = some .directory)
    {name : Name} (hentry : (fs.entry (place ++ [name])).isSome) : Stands fs (place ++ [name]) where
  above front hfront hne := by
    apply h.directories hdirectory
    rcases List.prefix_concat_iff.mp hfront with hsame | hbefore
    · exact absurd hsame hne
    · exact hbefore
  stored := hentry

/-- Where a stride from a settled place leads; only a link that is not followed is not settled. -/
def Lands (fs : FileSystem) (follow : Bool) : Stride → Prop
  | .ends (.ok found) => Stands fs found ∧ (follow = true → Settled fs found)
  | .ends (.error _) => True
  | .follows next _ => Settled fs next

/-- A stride from a settled place lands. -/
theorem Settled.stride (h : Settled fs place) (parts : List Bytes) :
    Lands fs follow (fs.stride follow place parts) := by
  induction parts generalizing place with
  | nil => exact ⟨h.toStands, fun _ => h⟩
  | cons part rest ih =>
    rw [FileSystem.stride]
    split
    · trivial
    rename_i hdirectory
    rw [not_not] at hdirectory
    split
    · exact ih h
    split
    · exact ih h.parent
    cases hname : nameOf part with
    | none => trivial
    | some name =>
      dsimp only
      cases hentry : fs.entry (place ++ [name]) with
      | none => trivial
      | some entry =>
        have hstands : Stands fs (place ++ [name]) :=
          h.toStands.append hdirectory (by rw [hentry]; rfl)
        have hsettled (hlink : entry.isLink = false) : Settled fs (place ++ [name]) := by
          refine ⟨hstands, fun stored hstored => ?_⟩
          rw [hentry, Option.some.injEq] at hstored
          rw [← hstored]
          exact hlink
        cases entry with
        | link target =>
          dsimp only
          split
          · rename_i hlast
            exact ⟨hstands, fun hfollow => absurd (hlast.2.symm.trans hfollow) (by decide)⟩
          · change Settled fs (if _ then [] else place)
            split
            · exact settled_root
            · exact h
        | file content time => exact ih (hsettled rfl)
        | directory => exact ih (hsettled rfl)
        | other => exact ih (hsettled rfl)

/-- A walk from a settled place ends at a place that stands, and settled if links are followed. -/
theorem Settled.walk (h : Settled fs place) {parts : List Bytes}
    (hwalk : fs.walk follow links place parts = .ok (found, left)) :
    Stands fs found ∧ (follow = true → Settled fs found) := by
  induction links generalizing place parts with
  | zero =>
    have hlands : Lands fs follow (fs.stride follow place parts) := h.stride parts
    rw [FileSystem.walk] at hwalk
    cases hstride : fs.stride follow place parts with
    | ends result =>
      rw [hstride] at hwalk hlands
      cases result with
      | error error => cases hwalk
      | ok reached =>
        cases hwalk
        exact hlands
    | follows next rest =>
      rw [hstride] at hwalk
      cases hwalk
  | succ links ih =>
    have hlands : Lands fs follow (fs.stride follow place parts) := h.stride parts
    rw [FileSystem.walk] at hwalk
    cases hstride : fs.stride follow place parts with
    | ends result =>
      rw [hstride] at hwalk hlands
      cases result with
      | error error => cases hwalk
      | ok reached =>
        cases hwalk
        exact hlands
    | follows next rest =>
      rw [hstride] at hwalk hlands
      exact ih hlands hwalk

/-- The place a path starts from is settled. -/
theorem settled_startOf (path : PathText) : Settled fs (fs.startOf path) := by
  unfold startOf
  split
  · exact settled_root
  · exact settled_workingDirectory

/-- What a path resolves to is where the walk over its parts ends. -/
theorem resolve_eq_ok {path : PathText} : fs.resolve follow path = .ok found ↔
    ¬(path.absolute = false ∧ (cutParts path.parts).all List.isEmpty = true) ∧
      ∃ left, fs.walk follow maximumLinks (fs.startOf path) (cutParts path.parts) =
        .ok (found, left) := by
  unfold resolve
  dsimp only
  split
  · rename_i hempty
    simp [hempty]
  · rename_i hpath
    cases fs.walk follow maximumLinks (fs.startOf path) (cutParts path.parts) with
    | error error => simp [Except.map]
    | ok reached =>
      rw [Except.map, Except.ok.injEq]
      constructor
      · rintro rfl
        exact ⟨hpath, reached.2, rfl⟩
      · rintro ⟨-, left, h⟩
        rw [Except.ok.inj h]

/-- What a path resolves to is settled, when links are followed. -/
theorem settled_of_resolve {path : PathText} (h : fs.resolve true path = .ok found) :
    Settled fs found := by
  obtain ⟨-, left, hwalk⟩ := resolve_eq_ok.mp h
  exact ((settled_startOf path).walk hwalk).2 rfl

/-! ## Canonical paths -/

/-- The names below a settled place are walked straight on. -/
theorem stride_names {names : List Name} (h : Settled fs (place ++ names)) :
    fs.stride follow place (names.map Subtype.val) = .ends (.ok (place ++ names)) := by
  induction names generalizing place with
  | nil => rw [List.map_nil, stride, List.append_nil]
  | cons name rest ih =>
    have hdirectory : fs.entry place = some .directory := by
      apply h.above place (List.prefix_append place _)
      intro hsame
      exact absurd (List.self_eq_append_right.mp hsame) (List.cons_ne_nil name rest)
    have hassoc : place ++ name :: rest = place ++ [name] ++ rest := by simp
    have hplain : ¬(name.val = [] ∨ name.val = text ".") :=
      not_or.mpr ⟨name.property.1, name.property.2.2.2.1⟩
    have hsettled : Settled fs (place ++ [name]) := by
      cases rest with
      | nil => exact h
      | cons next rest =>
        apply h.toStands.settled_of_prefix
        · rw [hassoc]
          exact List.prefix_append _ _
        · rw [hassoc]
          intro hsame
          exact absurd (List.self_eq_append_right.mp hsame) (List.cons_ne_nil next rest)
    obtain ⟨entry, hentry⟩ := Option.isSome_iff_exists.mp hsettled.stored
    have hlink := hsettled.noLink entry hentry
    rw [List.map_cons, stride, if_neg (not_not.mpr hdirectory), if_neg hplain,
      if_neg name.property.2.2.2.2, nameOf_val, hassoc]
    dsimp only
    rw [hentry]
    rw [hassoc] at h
    cases entry with
    | link target => cases hlink
    | file content time => exact ih h
    | directory => exact ih h
    | other => exact ih h

/-- The path of a settled place resolves to the place. -/
theorem resolve_ofPath (h : Settled fs place) :
    fs.resolve follow (.ofPath place) = .ok place := by
  apply resolve_eq_ok.mpr
  refine ⟨fun hempty => absurd hempty.1 (by simp [PathText.ofPath]), maximumLinks, ?_⟩
  have hstart : fs.startOf (.ofPath place) = [] := rfl
  rw [hstart, PathText.ofPath, cutParts_names, maximumLinks, walk]
  have hstride : fs.stride follow [] (place.map Subtype.val) = .ends (.ok place) := stride_names h
  rw [hstride]
  rfl

/-- Strides that follow a last link and those that do not differ where they find one. -/
theorem stride_link (place : Path) (parts : List Bytes) :
    fs.stride false place parts = fs.stride true place parts ∨
      ∃ found entry, fs.stride false place parts = .ends (.ok found) ∧
        fs.entry found = some entry ∧ entry.isLink = true := by
  induction parts generalizing place with
  | nil => exact .inl rfl
  | cons part rest ih =>
    rw [stride, stride]
    split
    · exact .inl rfl
    split
    · exact ih place
    split
    · exact ih place.parent
    cases nameOf part with
    | none => exact .inl rfl
    | some name =>
      dsimp only
      cases hentry : fs.entry (place ++ [name]) with
      | none => exact .inl rfl
      | some entry =>
        cases entry with
        | link target =>
          dsimp only
          have hfollowed : ¬(rest = [] ∧ true = false) := fun h => absurd h.2 (by decide)
          rw [if_neg hfollowed]
          by_cases hlast : rest = [] ∧ false = false
          · rw [if_pos hlast]
            exact .inr ⟨_, _, rfl, hentry, rfl⟩
          · rw [if_neg hlast]
            exact .inl rfl
        | file content time => exact ih (place ++ [name])
        | directory => exact ih (place ++ [name])
        | other => exact ih (place ++ [name])

/-- Walks that follow a last link and those that do not differ where they find one. -/
theorem walk_link (links : ℕ) (place : Path) (parts : List Bytes) :
    fs.walk false links place parts = fs.walk true links place parts ∨
      ∃ found left entry, fs.walk false links place parts = .ok (found, left) ∧
        fs.entry found = some entry ∧ entry.isLink = true := by
  induction links generalizing place parts with
  | zero =>
    rw [walk, walk]
    rcases fs.stride_link place parts with hsame | ⟨found, entry, hfound, hentry, hlink⟩
    · rw [hsame]
      exact .inl rfl
    · rw [hfound]
      exact .inr ⟨found, 0, entry, rfl, hentry, hlink⟩
  | succ links ih =>
    rw [walk, walk]
    rcases fs.stride_link place parts with hsame | ⟨found, entry, hfound, hentry, hlink⟩
    · rw [hsame]
      cases fs.stride true place parts with
      | ends result => exact .inl rfl
      | follows next rest => exact ih next rest
    · rw [hfound]
      exact .inr ⟨found, links + 1, entry, rfl, hentry, hlink⟩

/-- A path that names no link resolves alike whether or not a last link is followed. -/
theorem resolve_true_of_false {path : PathText} {entry : Entry}
    (h : fs.resolve false path = .ok found) (hentry : fs.entry found = some entry)
    (hlink : entry.isLink = false) : fs.resolve true path = .ok found := by
  obtain ⟨hpath, left, hwalk⟩ := resolve_eq_ok.mp h
  apply resolve_eq_ok.mpr
  refine ⟨hpath, left, ?_⟩
  rcases fs.walk_link maximumLinks (fs.startOf path) (cutParts path.parts) with
    hsame | ⟨other, left', otherEntry, hother, hotherEntry, hotherLink⟩
  · rw [← hsame]
    exact hwalk
  · rw [hwalk] at hother
    cases hother
    rw [hentry] at hotherEntry
    cases hotherEntry
    rw [hlink] at hotherLink
    cases hotherLink

/-- A path that resolves names its place, or a link. -/
theorem resolve_false_of_true {path : PathText} (h : fs.resolve true path = .ok found) :
    fs.resolve false path = .ok found ∨ ∃ place entry, fs.resolve false path = .ok place ∧
      fs.entry place = some entry ∧ entry.isLink = true := by
  obtain ⟨hpath, left, hwalk⟩ := resolve_eq_ok.mp h
  rcases fs.walk_link maximumLinks (fs.startOf path) (cutParts path.parts) with
    hsame | ⟨other, left', entry, hother, hentry, hlink⟩
  · left
    exact resolve_eq_ok.mpr ⟨hpath, left, hsame.trans hwalk⟩
  · right
    exact ⟨other, entry, resolve_eq_ok.mpr ⟨hpath, left', hother⟩, hentry, hlink⟩

/-- Something is found under a path that resolves to its place. -/
theorem lookup_eq_some {path : PathText} {entry : Entry} :
    fs.lookup follow path = .ok (some entry) ↔
      ∃ place, fs.resolve follow path = .ok place ∧ fs.entry place = some entry := by
  unfold lookup
  cases fs.resolve follow path with
  | error error => cases error <;> simp
  | ok place => simp

/-- A normal form starts where the path does. -/
theorem lexicallyNormal_absolute (path : PathText) :
    (lexicallyNormal path).absolute = path.absolute := by
  unfold lexicallyNormal
  dsimp only
  split
  · rfl
  split
  · rfl
  split
  · rfl
  · rfl

/-- The canonical form of an absolute path is absolute. -/
theorem weaklyCanonical_absolute {path canonical : PathText} (hpath : path.absolute = true)
    (h : fs.weaklyCanonical path = .ok canonical) : canonical.absolute = true := by
  rw [weaklyCanonical, hpath] at h
  split at h
  · cases h
    rfl
  · cases h
  · obtain ⟨parts, -, h⟩ := Fallible.bind_eq_ok.mp h
    dsimp only at h
    rw [if_neg (by simp)] at h
    obtain ⟨place, -, h⟩ := Fallible.bind_eq_ok.mp h
    cases h
    rw [lexicallyNormal_absolute]

/-- A path that resolves is replaced by the path of its place. -/
theorem weaklyCanonical_of_resolve {path : PathText} (h : fs.resolve true path = .ok found) :
    fs.weaklyCanonical path = .ok (.ofPath found) := by
  rw [weaklyCanonical, h]

/-- A path within a settled place, component by component, is within it on the file system. -/
theorem prefix_of_isWithin {root : PathText} (hroot : root.absolute = true)
    (h : isWithin (.ofPath place) root = true) :
    ∃ front, root = .ofPath front ∧ front <+: place := by
  obtain ⟨absolute, parts⟩ := root
  cases hroot
  have hprefix : parts <+: place.map Subtype.val := by
    simpa [isWithin, PathText.components, PathText.ofPath] using h
  obtain ⟨front, hfront, hparts⟩ := List.prefix_map_iff.mp hprefix
  exact ⟨front, by rw [PathText.ofPath, hparts], hfront⟩

/-! ## The names in a directory -/

/-- The last part of a path is walked from where the others end. -/
theorem walk_last {parts : List Bytes} {part : Bytes}
    (h : fs.walk follow links place (parts ++ [part]) = .ok (found, left)) :
    ∃ mid rest, fs.walk true links place parts = .ok (mid, rest) ∧
      fs.walk follow rest mid [part] = .ok (found, left) := by
  rw [walk_append (List.cons_ne_nil part [])] at h
  cases hmid : fs.walk true links place parts with
  | error error =>
    rw [hmid] at h
    cases h
  | ok mid =>
    rw [hmid] at h
    exact ⟨mid.1, mid.2, rfl, h⟩

/-- A walk over one part that takes no link is one stride. -/
theorem walk_of_ends {parts : List Bytes} {result : Except WalkError Path}
    (h : fs.stride follow place parts = .ends result) :
    fs.walk follow links place parts = result.map fun found => (found, links) := by
  cases links <;> rw [walk, h]

/-- A separator at the end of a path stays in the directory before it. -/
theorem walk_separator (h : fs.walk follow links place [[]] = .ok (found, left)) :
    found = place := by
  have hstride : fs.stride follow place [[]] =
      .ends (if fs.entry place = some .directory then .ok place else .error .missing) := by
    rw [stride]
    by_cases hdirectory : fs.entry place = some .directory
    · rw [if_neg (not_not.mpr hdirectory), if_pos (.inl rfl), if_pos hdirectory, stride]
    · rw [if_pos hdirectory, if_neg hdirectory]
  rw [walk_of_ends hstride] at h
  split at h
  · cases h
    rfl
  · cases h

/-- A name is found in the directory it is looked up in, if a link is not followed. -/
theorem walk_name {name : Name} (h : fs.walk false links place [name.val] = .ok (found, left)) :
    found = place ++ [name] := by
  have hplain : ¬(name.val = [] ∨ name.val = text ".") :=
    not_or.mpr ⟨name.property.1, name.property.2.2.2.1⟩
  have hstride : ∃ result, fs.stride false place [name.val] = .ends result ∧
      ∀ reached, result = .ok reached → reached = place ++ [name] := by
    rw [stride, if_neg hplain, if_neg name.property.2.2.2.2, nameOf_val]
    split
    · exact ⟨_, rfl, by simp⟩
    · dsimp only
      cases fs.entry (place ++ [name]) with
      | none => exact ⟨_, rfl, by simp⟩
      | some entry =>
        cases entry with
        | link target =>
          dsimp only
          rw [if_pos ⟨rfl, rfl⟩]
          exact ⟨_, rfl, by simp⟩
        | file content time => exact ⟨_, rfl, by simp⟩
        | directory => exact ⟨_, rfl, by simp⟩
        | other => exact ⟨_, rfl, by simp⟩
  obtain ⟨result, hends, hresult⟩ := hstride
  rw [walk_of_ends hends] at h
  cases result with
  | error error => cases h
  | ok reached =>
    cases h
    exact hresult _ rfl

/-- What the path of a directory entry names, without a link, lies below the directory. -/
theorem prefix_of_append {root : PathText} {rootPlace : Path} {name : Name} {entry : Entry}
    (hroot : fs.resolve true root = .ok rootPlace)
    (h : fs.resolve false (root.append name.val) = .ok found)
    (hentry : fs.entry found = some entry) (hlink : entry.isLink = false) :
    rootPlace <+: found := by
  have hcut : cutParts [name.val] = [name.val] := cutParts_names [name]
  -- The parts of the directory without a separator at their end.
  obtain ⟨base, hparts, hbase⟩ : ∃ base, (root.append name.val).parts = base ++ [name.val] ∧
      (root.parts = base ∨ root.parts = base ++ [[]]) := by
    unfold PathText.append
    by_cases hlast : root.parts.getLast? = some []
    · refine ⟨root.parts.dropLast, by rw [if_pos hlast], .inr ?_⟩
      exact (List.dropLast_append_getLast? [] hlast).symm
    · exact ⟨root.parts, by rw [if_neg hlast], .inl rfl⟩
  by_cases hzero : ∃ part ∈ base, 0 ∈ part
  · -- The name is cut off, so the directory itself is named.
    have hsameCut : cutParts root.parts = cutParts (root.append name.val).parts := by
      rw [hparts, cutParts_append, if_pos hzero]
      rcases hbase with hbase | hbase
      · rw [hbase]
      · rw [hbase, cutParts_append, if_pos hzero]
    have hsame : fs.resolve false root = .ok found := by
      rw [← h]
      unfold resolve startOf
      rw [hsameCut]
      rfl
    have hfound := resolve_true_of_false hsame hentry hlink
    rw [hroot] at hfound
    cases hfound
    exact List.prefix_refl _
  · obtain ⟨-, left, hwalk⟩ := resolve_eq_ok.mp h
    obtain ⟨-, left', hwalkRoot⟩ := resolve_eq_ok.mp hroot
    have hstart : fs.startOf (root.append name.val) = fs.startOf root := rfl
    rw [hparts, cutParts_append, if_neg hzero, hcut, hstart] at hwalk
    obtain ⟨mid, rest, hmid, hname⟩ := walk_last hwalk
    have hsame : rootPlace = mid := by
      rcases hbase with hbase | hbase
      · rw [hbase, cutParts_eq_self hzero, hmid] at hwalkRoot
        cases hwalkRoot
        rfl
      · have hseparator : cutParts [[]] = [[]] := rfl
        rw [hbase, cutParts_append, if_neg hzero, hseparator] at hwalkRoot
        obtain ⟨mid', rest', hmid', hend⟩ := walk_last hwalkRoot
        rw [hmid] at hmid'
        cases hmid'
        exact walk_separator hend
    rw [hsame, walk_name hname]
    exact List.prefix_append mid [name]

end FileSystem

/-! ## File systems from lists -/

/-- The entry that a list gives a place. -/
def listedEntry (entries : List (Path × Entry)) (place : Path) : Option Entry :=
  if place = [] then some .directory else entries.lookup place

/-- The file system of a list of places, with the root as the working directory. -/
def FileSystem.ofEntries (entries : List (Path × Entry)) : FileSystem where
  entry := listedEntry entries
  names place := entries.filterMap fun listed =>
    listed.1.getLast?.filter fun name => listed.1 == place ++ [name]
  workingDirectory := []
  root := rfl
  mem_names := by
    intro place name
    have hne : place ++ [name] ≠ [] := by simp
    rw [listedEntry, if_neg hne, List.lookup_isSome_iff, List.mem_filterMap]
    constructor
    · rintro ⟨listed, hlisted, hname⟩
      obtain ⟨-, hsame⟩ := Option.filter_eq_some_iff.mp hname
      exact ⟨listed, hlisted, beq_iff_eq.mpr (beq_iff_eq.mp hsame).symm⟩
    · rintro ⟨listed, hlisted, hsame⟩
      have hplace : listed.1 = place ++ [name] := (beq_iff_eq.mp hsame).symm
      refine ⟨listed, hlisted, Option.filter_eq_some_iff.mpr ⟨?_, ?_⟩⟩
      · rw [hplace, List.getLast?_concat]
      · exact beq_iff_eq.mpr hplace
  working := by
    intro front hfront
    rw [List.prefix_nil.mp hfront]
    rfl

end LinkedTree
