import LabBridge.Console.PagedList

/-!
# The pages that a paged list shows

What a user of a paged list expects is a number of pages from the first one on and the request
that is under way: a new request supersedes the one before it, and only the answer of the latest
one changes what is shown. The list with its generations does exactly that.
-/

namespace LabBridge.Console

variable {α Cursor Failure : Type}

/-! ## What is expected -/

/-- What a request is for. -/
inductive Purpose
  | refresh
  | loadMore
  deriving DecidableEq

/-- The pages that are shown, none before the first refresh is applied; the request that no
later call superseded, with its number; and how many requests were started. -/
structure Viewer where
  shown : ℕ := 0
  outstanding : Option (ℕ × Purpose) := none
  started : ℕ := 0
  deriving DecidableEq

namespace Viewer

/-- How many pages are shown after the answer to the request under way. -/
def shownAfter (shown : ℕ) : Purpose → Outcome Failure → ℕ
  | .refresh, .response => 1
  | .loadMore, .response => shown + 1
  | _, _ => shown

/-- One event, for a list with a number of pages. -/
def step (pageCount : ℕ) (viewer : Viewer) (event : Event Failure) : Viewer :=
  match event with
  | .refresh =>
    { viewer with outstanding := some (viewer.started, .refresh), started := viewer.started + 1 }
  | .loadMore =>
    if viewer.outstanding = none ∧ 0 < viewer.shown ∧ viewer.shown < pageCount then
      { viewer with
        outstanding := some (viewer.started, .loadMore), started := viewer.started + 1 }
    else viewer
  | .abort => { viewer with outstanding := none }
  | .arrive number outcome =>
    match viewer.outstanding with
    | some (current, purpose) =>
      if number = current then
        { viewer with outstanding := none, shown := shownAfter viewer.shown purpose outcome }
      else viewer
    | none => viewer

/-- The events of a run in order. -/
def run (pageCount : ℕ) (viewer : Viewer) (events : List (Event Failure)) : Viewer :=
  events.foldl (step pageCount) viewer

end Viewer

/-- The cursor of a page; the first page has none. -/
def cursorAt (cursorOf : ℕ → Cursor) : ℕ → Option Cursor
  | 0 => none
  | number + 1 => some (cursorOf (number + 1))

/-- The server answers every cursor with the next page of a fixed list, and says of each page
whether more follow. -/
structure Serves (answer : Option Cursor → Page α Cursor) (pages : List (List α))
    (cursorOf : ℕ → Cursor) : Prop where
  pages_pos : 0 < pages.length
  items : ∀ number (h : number < pages.length),
    (answer (cursorAt cursorOf number)).items = pages[number]
  hasMore : ∀ number, number < pages.length →
    (answer (cursorAt cursorOf number)).hasMore = decide (number + 1 < pages.length)
  nextCursor : ∀ number, number + 1 < pages.length →
    (answer (cursorAt cursorOf number)).nextCursor = some (cursorOf (number + 1))

/-! ## How the list follows -/

/-- What a request that is under way keeps for its rest. -/
def Keeps (pages : List (List α)) (cursorOf : ℕ → Cursor) (shown : ℕ) :
    Request α Cursor → Purpose → Prop
  | .refresh _, .refresh => True
  | .loadMore cursor previous _, .loadMore => 0 < shown ∧ shown < pages.length ∧
      cursor = cursorOf shown ∧ previous = (pages.take shown).flatten
  | _, _ => False

/-- The list shows what is expected. -/
structure Follows (pages : List (List α)) (cursorOf : ℕ → Cursor) (viewer : Viewer)
    (session : ListSession α Cursor Failure) : Prop where
  items : session.list.items = (pages.take viewer.shown).flatten
  shown_le : viewer.shown ≤ pages.length
  hasMore : session.list.hasMore = decide (0 < viewer.shown ∧ viewer.shown < pages.length)
  nextCursor : 0 < viewer.shown → viewer.shown < pages.length →
    session.list.nextCursor = some (cursorOf viewer.shown)
  loading : session.list.loading = viewer.outstanding.any fun request => request.2 = .refresh
  loadingMore : session.list.loadingMore =
    viewer.outstanding.any fun request => request.2 = .loadMore
  started : session.requests.length = viewer.started
  outstanding : ∀ number purpose, viewer.outstanding = some (number, purpose) →
    ∃ request, session.requests[number]? = some (some request) ∧
      request.current = session.list.generation ∧ Keeps pages cursorOf viewer.shown request purpose
  pending : ∀ number request, session.requests[number]? = some (some request) →
    request.current ≤ session.list.generation ∧ (request.current = session.list.generation →
      ∃ purpose, viewer.outstanding = some (number, purpose))

section Steps

variable {answer : Option Cursor → Page α Cursor} {pages : List (List α)} {cursorOf : ℕ → Cursor}
variable {viewer : Viewer} {session : ListSession α Cursor Failure}

/-- Before the first event nothing is shown. -/
theorem follows_start : Follows pages cursorOf {} ({} : ListSession α Cursor Failure) where
  items := rfl
  shown_le := Nat.zero_le _
  hasMore := by simp
  nextCursor h := absurd h (Nat.lt_irrefl 0)
  loading := rfl
  loadingMore := rfl
  started := rfl
  outstanding _ _ h := by cases h
  pending _ _ h := by cases h

/-- A request that was pending before a new one is of an earlier generation. -/
theorem Follows.pending_begun (h : Follows pages cursorOf viewer session)
    {begun request : Request α Cursor} {number : ℕ}
    (hcurrent : begun.current = session.list.generation + 1)
    (hpending : (session.requests ++ [some begun])[number]? = some (some request)) :
    request.current ≤ session.list.generation + 1 ∧
      (request.current = session.list.generation + 1 → number = viewer.started) := by
  rcases Nat.lt_trichotomy number session.requests.length with hold | hnew | hlate
  · rw [List.getElem?_append_left hold] at hpending
    have hbefore := (h.pending number request hpending).1
    omega
  · subst hnew
    rw [List.getElem?_concat_length, Option.some.injEq, Option.some.injEq] at hpending
    rw [← hpending, hcurrent]
    exact ⟨Nat.le_refl _, fun _ => h.started⟩
  · rw [List.getElem?_eq_none (by simp; omega)] at hpending
    cases hpending

/-- A refresh supersedes the request before it. -/
theorem Follows.refresh (h : Follows pages cursorOf viewer session) :
    Follows pages cursorOf
      { viewer with outstanding := some (viewer.started, .refresh), started := viewer.started + 1 }
      ⟨session.list.refresh.1, session.requests ++ [some session.list.refresh.2]⟩ where
  items := h.items
  shown_le := h.shown_le
  hasMore := h.hasMore
  nextCursor := h.nextCursor
  loading := rfl
  loadingMore := rfl
  started := by rw [List.length_append, List.length_singleton, h.started]
  outstanding number purpose houtstanding := by
    injection houtstanding with houtstanding
    injection houtstanding with hnumber hpurpose
    subst hnumber hpurpose
    refine ⟨session.list.refresh.2, ?_, rfl, trivial⟩
    rw [← h.started, List.getElem?_concat_length]
  pending number request hpending := by
    have hbegun := h.pending_begun rfl hpending
    exact ⟨hbegun.1, fun hcurrent => ⟨.refresh, by rw [hbegun.2 hcurrent]⟩⟩

/-- More is loaded exactly when nothing is under way and a shown page is not the last one. -/
theorem Follows.loadMore_eq (h : Follows pages cursorOf viewer session) :
    session.list.loadMore =
      if viewer.outstanding = none ∧ 0 < viewer.shown ∧ viewer.shown < pages.length then
        some ({ session.list.beginRequest with loadingMore := true },
          .loadMore (cursorOf viewer.shown) session.list.items (session.list.generation + 1))
      else none := by
  rw [PagedList.loadMore, h.loading, h.loadingMore, h.hasMore]
  cases houtstanding : viewer.outstanding with
  | some request =>
    obtain ⟨number, purpose⟩ := request
    cases purpose <;> simp
  | none =>
    by_cases hmore : 0 < viewer.shown ∧ viewer.shown < pages.length
    · rw [h.nextCursor hmore.1 hmore.2]
      simp [hmore, PagedList.beginRequest]
    · simp [hmore]

/-- Loading more supersedes nothing and asks for the page behind the shown ones. -/
theorem Follows.loadMore (h : Follows pages cursorOf viewer session)
    (hmore : viewer.outstanding = none ∧ 0 < viewer.shown ∧ viewer.shown < pages.length) :
    Follows pages cursorOf
      { viewer with outstanding := some (viewer.started, .loadMore), started := viewer.started + 1 }
      ⟨{ session.list.beginRequest with loadingMore := true }, session.requests ++
        [some (.loadMore (cursorOf viewer.shown) session.list.items
          (session.list.generation + 1))]⟩ where
  items := h.items
  shown_le := h.shown_le
  hasMore := h.hasMore
  nextCursor := h.nextCursor
  loading := rfl
  loadingMore := rfl
  started := by rw [List.length_append, List.length_singleton, h.started]
  outstanding number purpose houtstanding := by
    injection houtstanding with houtstanding
    injection houtstanding with hnumber hpurpose
    subst hnumber hpurpose
    refine ⟨.loadMore (cursorOf viewer.shown) session.list.items (session.list.generation + 1),
      ?_, rfl, hmore.2.1, hmore.2.2, rfl, h.items⟩
    rw [← h.started, List.getElem?_concat_length]
  pending number request hpending := by
    have hbegun := h.pending_begun rfl hpending
    exact ⟨hbegun.1, fun hcurrent => ⟨.loadMore, by rw [hbegun.2 hcurrent]⟩⟩

/-- Aborting drops the request under way. -/
theorem Follows.abort (h : Follows pages cursorOf viewer session) :
    Follows pages cursorOf { viewer with outstanding := none }
      { session with list := session.list.abort } where
  items := h.items
  shown_le := h.shown_le
  hasMore := h.hasMore
  nextCursor := h.nextCursor
  loading := rfl
  loadingMore := rfl
  started := h.started
  outstanding _ _ houtstanding := by cases houtstanding
  pending number request hpending := by
    have hbefore := (h.pending number request hpending).1
    have hlater : session.list.abort.generation = session.list.generation + 1 := rfl
    dsimp only
    rw [hlater]
    exact ⟨by omega, fun hcurrent => by omega⟩

/-- A pending request that is not current is not the one under way. -/
theorem Follows.ne_of_not_current (h : Follows pages cursorOf viewer session) {number : ℕ}
    {request : Request α Cursor} (hpending : session.requests[number]? = some (some request))
    (hcurrent : request.current ≠ session.list.generation) {other : ℕ} {purpose : Purpose}
    (houtstanding : viewer.outstanding = some (other, purpose)) : number ≠ other := by
  intro heq
  obtain ⟨found, hfound, hgeneration, -⟩ := h.outstanding other purpose houtstanding
  rw [← heq, hpending, Option.some.injEq, Option.some.injEq] at hfound
  exact hcurrent (hfound ▸ hgeneration)

/-- A superseded answer changes nothing that is shown. -/
theorem Follows.arrive_superseded (h : Follows pages cursorOf viewer session) {number : ℕ}
    {request : Request α Cursor} (hpending : session.requests[number]? = some (some request))
    (hcurrent : request.current ≠ session.list.generation) :
    Follows pages cursorOf viewer { session with requests := session.requests.set number none } where
  items := h.items
  shown_le := h.shown_le
  hasMore := h.hasMore
  nextCursor := h.nextCursor
  loading := h.loading
  loadingMore := h.loadingMore
  started := by rw [List.length_set, h.started]
  outstanding other purpose houtstanding := by
    obtain ⟨found, hfound, hkeeps⟩ := h.outstanding other purpose houtstanding
    refine ⟨found, ?_, hkeeps⟩
    rw [List.getElem?_set_ne (h.ne_of_not_current hpending hcurrent houtstanding), hfound]
  pending other found hfound := by
    apply h.pending other found
    by_cases heq : number = other
    · subst heq
      rw [List.getElem?_set_self'] at hfound
      cases hlookup : session.requests[number]? <;> simp [hlookup] at hfound
    · rwa [List.getElem?_set_ne heq] at hfound

/-- What a list shows after the answer to the request under way. -/
theorem Follows.arrive_current (h : Follows pages cursorOf viewer session) {number shown : ℕ}
    {request : Request α Cursor} {purpose : Purpose} {list : PagedList α Cursor Failure}
    (hpending : session.requests[number]? = some (some request))
    (houtstanding : viewer.outstanding = some (number, purpose))
    (hgeneration : list.generation = session.list.generation)
    (hloading : list.loading = false ∧ list.loadingMore = false)
    (hitems : list.items = (pages.take shown).flatten) (hshown : shown ≤ pages.length)
    (hmore : list.hasMore = decide (0 < shown ∧ shown < pages.length))
    (hcursor : 0 < shown → shown < pages.length → list.nextCursor = some (cursorOf shown)) :
    Follows pages cursorOf { viewer with outstanding := none, shown := shown }
      ⟨list, session.requests.set number none⟩ where
  items := hitems
  shown_le := hshown
  hasMore := hmore
  nextCursor := hcursor
  loading := hloading.1
  loadingMore := hloading.2
  started := by rw [List.length_set, h.started]
  outstanding _ _ hnone := by cases hnone
  pending other found hfound := by
    have hne : number ≠ other := by
      intro heq
      subst heq
      rw [List.getElem?_set_self', hpending] at hfound
      simp at hfound
    rw [List.getElem?_set_ne hne] at hfound
    have hbefore := h.pending other found hfound
    dsimp only
    rw [hgeneration]
    apply And.intro hbefore.1
    intro hcurrent
    -- Only the request under way is of the generation of the list.
    obtain ⟨purpose', hother⟩ := hbefore.2 hcurrent
    rw [houtstanding] at hother
    injection hother with hother
    injection hother with heq
    exact absurd heq hne

/-- A request that fails leaves what is shown. -/
theorem Follows.arrive_failed (h : Follows pages cursorOf viewer session) {number : ℕ}
    {request : Request α Cursor} {purpose : Purpose} {list : PagedList α Cursor Failure}
    (hpending : session.requests[number]? = some (some request))
    (houtstanding : viewer.outstanding = some (number, purpose))
    (hgeneration : list.generation = session.list.generation)
    (hloading : list.loading = false ∧ list.loadingMore = false)
    (hitems : list.items = session.list.items) (hmore : list.hasMore = session.list.hasMore)
    (hcursor : list.nextCursor = session.list.nextCursor) :
    Follows pages cursorOf { viewer with outstanding := none }
      ⟨list, session.requests.set number none⟩ := by
  apply h.arrive_current hpending houtstanding hgeneration hloading
  · rw [hitems, h.items]
  · exact h.shown_le
  · rw [hmore, h.hasMore]
  · rw [hcursor]
    exact h.nextCursor

/-- The answer to a refresh shows the first page. -/
theorem Follows.settle_refresh (hserves : Serves answer pages cursorOf)
    (h : Follows pages cursorOf viewer session) {number current : ℕ} (outcome : Outcome Failure)
    (hpending : session.requests[number]? = some (some (.refresh current)))
    (houtstanding : viewer.outstanding = some (number, .refresh))
    (hcurrent : session.list.isCurrent current = true) :
    Follows pages cursorOf
      { viewer with
        outstanding := none, shown := Viewer.shownAfter viewer.shown .refresh outcome }
      ⟨(session.list.settle (.refresh current) (answer none) outcome).finish (.refresh current),
        session.requests.set number none⟩ := by
  have hidle : session.list.loadingMore = false := by
    rw [h.loadingMore, houtstanding]
    rfl
  have hfinish (list : PagedList α Cursor Failure)
      (hgeneration : list.generation = session.list.generation) :
      list.finish (.refresh current) = { list with loading := false } := by
    have hsame : list.isCurrent current = true := by
      rw [PagedList.isCurrent, hgeneration]
      exact hcurrent
    simp [PagedList.finish, Request.current, hsame]
  cases outcome with
  | response =>
    have hsettle : session.list.settle (.refresh current) (answer none) .response =
        session.list.apply (answer none) (answer none).items := by
      simp [PagedList.settle, Request.current, hcurrent]
    have hpos := hserves.pages_pos
    have hitems := hserves.items 0 hpos
    have hmore : (answer none).hasMore = decide (0 + 1 < pages.length) := hserves.hasMore 0 hpos
    have hfirst : pages.take 1 = [pages[0]] := by
      rw [List.take_one, List.head?_eq_getElem?, List.getElem?_eq_getElem hpos]
      rfl
    rw [hsettle, hfinish (session.list.apply (answer none) (answer none).items) rfl]
    apply h.arrive_current hpending houtstanding
    · rfl
    · exact ⟨rfl, hidle⟩
    · change (answer none).items = (pages.take 1).flatten
      rw [hfirst, List.flatten_singleton]
      exact hitems
    · exact hpos
    · change (answer none).hasMore = decide (0 < 1 ∧ 1 < pages.length)
      simpa using hmore
    · exact fun _ => hserves.nextCursor 0
  | error failure =>
    have hsettle : session.list.settle (.refresh current) (answer none) (.error failure) =
        { session.list with error := some failure } := by
      simp [PagedList.settle, Request.current, hcurrent]
    rw [hsettle, hfinish { session.list with error := some failure } rfl]
    exact h.arrive_failed hpending houtstanding rfl ⟨rfl, hidle⟩ rfl rfl rfl
  | canceled =>
    rw [PagedList.settle, hfinish _ rfl]
    exact h.arrive_failed hpending houtstanding rfl ⟨rfl, hidle⟩ rfl rfl rfl

/-- The answer to loading more shows the next page behind the others. -/
theorem Follows.settle_loadMore (hserves : Serves answer pages cursorOf)
    (h : Follows pages cursorOf viewer session) {number current : ℕ} (outcome : Outcome Failure)
    (hpending : session.requests[number]? =
      some (some (.loadMore (cursorOf viewer.shown) (pages.take viewer.shown).flatten current)))
    (houtstanding : viewer.outstanding = some (number, .loadMore))
    (hcurrent : session.list.isCurrent current = true)
    (hshown : 0 < viewer.shown ∧ viewer.shown < pages.length) :
    Follows pages cursorOf
      { viewer with
        outstanding := none, shown := Viewer.shownAfter viewer.shown .loadMore outcome }
      ⟨(session.list.settle
        (.loadMore (cursorOf viewer.shown) (pages.take viewer.shown).flatten current)
        (answer (some (cursorOf viewer.shown))) outcome).finish
          (.loadMore (cursorOf viewer.shown) (pages.take viewer.shown).flatten current),
        session.requests.set number none⟩ := by
  have hidle : session.list.loading = false := by
    rw [h.loading, houtstanding]
    rfl
  have hfinish (list : PagedList α Cursor Failure)
      (hgeneration : list.generation = session.list.generation) :
      list.finish (.loadMore (cursorOf viewer.shown) (pages.take viewer.shown).flatten current) =
        { list with loadingMore := false } := by
    have hsame : list.isCurrent current = true := by
      rw [PagedList.isCurrent, hgeneration]
      exact hcurrent
    simp [PagedList.finish, Request.current, hsame]
  cases outcome with
  | response =>
    have hcursor : cursorAt cursorOf viewer.shown = some (cursorOf viewer.shown) := by
      obtain ⟨shown, hsucc⟩ := Nat.exists_eq_succ_of_ne_zero (Nat.pos_iff_ne_zero.mp hshown.1)
      rw [hsucc]
      rfl
    have hitems := hserves.items viewer.shown hshown.2
    have hmore := hserves.hasMore viewer.shown hshown.2
    have hnext := hserves.nextCursor viewer.shown
    rw [hcursor] at hitems hmore hnext
    simp only [PagedList.settle, Request.current, hcurrent, if_true]
    rw [hfinish (session.list.apply _ _) rfl]
    apply h.arrive_current hpending houtstanding
    · rfl
    · exact ⟨hidle, rfl⟩
    · change (pages.take viewer.shown).flatten ++ (answer (some (cursorOf viewer.shown))).items =
        (pages.take (viewer.shown + 1)).flatten
      rw [List.take_add_one, List.getElem?_eq_getElem hshown.2, hitems, List.flatten_append]
      simp
    · exact hshown.2
    · change (answer (some (cursorOf viewer.shown))).hasMore =
        decide (0 < viewer.shown + 1 ∧ viewer.shown + 1 < pages.length)
      simpa using hmore
    · exact fun _ => hnext
  | error failure =>
    simp only [PagedList.settle, Request.current, hcurrent, if_true]
    rw [hfinish { session.list with error := some failure } rfl]
    exact h.arrive_failed hpending houtstanding rfl ⟨hidle, rfl⟩ rfl rfl rfl
  | canceled =>
    rw [PagedList.settle, hfinish _ rfl]
    exact h.arrive_failed hpending houtstanding rfl ⟨hidle, rfl⟩ rfl rfl rfl

/-- The answer to a request of an earlier generation changes nothing. -/
theorem finish_settle_superseded {list : PagedList α Cursor Failure} {request : Request α Cursor}
    (hcurrent : list.isCurrent request.current = false) (page : Page α Cursor)
    (outcome : Outcome Failure) : (list.settle request page outcome).finish request = list := by
  cases outcome <;> simp [PagedList.settle, PagedList.finish, hcurrent]

/-- Every answer keeps what is shown as expected. -/
theorem Follows.arrive (hserves : Serves answer pages cursorOf)
    (h : Follows pages cursorOf viewer session) {number : ℕ} {request : Request α Cursor}
    (hpending : session.requests[number]? = some (some request)) (outcome : Outcome Failure) :
    Follows pages cursorOf (viewer.step pages.length (.arrive number outcome))
      ⟨(session.list.settle request (answer request.cursor) outcome).finish request,
        session.requests.set number none⟩ := by
  by_cases hcurrent : session.list.isCurrent request.current = true
  · have hgeneration : request.current = session.list.generation := by
      simpa [PagedList.isCurrent] using hcurrent
    obtain ⟨purpose, houtstanding⟩ := (h.pending number request hpending).2 hgeneration
    obtain ⟨found, hfound, -, hkeeps⟩ := h.outstanding number purpose houtstanding
    rw [hpending, Option.some.injEq, Option.some.injEq] at hfound
    subst hfound
    simp only [Viewer.step, houtstanding, if_true]
    cases request with
    | refresh current =>
      cases purpose with
      | refresh => exact h.settle_refresh hserves outcome hpending houtstanding hcurrent
      | loadMore => cases hkeeps
    | loadMore cursor previous current =>
      cases purpose with
      | refresh => cases hkeeps
      | loadMore =>
        obtain ⟨hpos, hless, rfl, rfl⟩ := hkeeps
        exact h.settle_loadMore hserves outcome hpending houtstanding hcurrent ⟨hpos, hless⟩
  · rw [Bool.not_eq_true] at hcurrent
    have hgeneration : request.current ≠ session.list.generation := by
      simpa [PagedList.isCurrent] using hcurrent
    rw [finish_settle_superseded hcurrent]
    have hsame : viewer.step pages.length (.arrive number outcome) = viewer := by
      rw [Viewer.step]
      cases houtstanding : viewer.outstanding with
      | none => rfl
      | some other =>
        have hne := h.ne_of_not_current hpending hgeneration houtstanding
        simp [hne]
    rw [hsame]
    exact h.arrive_superseded hpending hgeneration

/-- Every event keeps what is shown as expected. -/
theorem Follows.step (hserves : Serves answer pages cursorOf)
    (h : Follows pages cursorOf viewer session) {event : Event Failure}
    {next : ListSession α Cursor Failure} (hstep : session.step answer event = some next) :
    Follows pages cursorOf (viewer.step pages.length event) next := by
  cases event with
  | refresh =>
    injection hstep with hstep
    exact hstep ▸ h.refresh
  | loadMore =>
    rw [ListSession.step, h.loadMore_eq] at hstep
    rw [Viewer.step]
    split_ifs at hstep ⊢ with hmore
    · injection hstep with hstep
      exact hstep ▸ h.loadMore hmore
    · injection hstep with hstep
      exact hstep ▸ h
  | abort =>
    injection hstep with hstep
    exact hstep ▸ h.abort
  | arrive number outcome =>
    rw [ListSession.step] at hstep
    cases hpending : session.requests[number]?.join with
    | none =>
      rw [hpending] at hstep
      cases hstep
    | some request =>
      rw [hpending] at hstep
      injection hstep with hstep
      exact hstep ▸ h.arrive hserves (Option.join_eq_some_iff.mp hpending) outcome

/-- Every run keeps what is shown as expected. -/
theorem Follows.run (hserves : Serves answer pages cursorOf)
    (h : Follows pages cursorOf viewer session) {events : List (Event Failure)}
    {last : ListSession α Cursor Failure} (hrun : session.run answer events = some last) :
    Follows pages cursorOf (viewer.run pages.length events) last := by
  induction events generalizing viewer session with
  | nil =>
    injection hrun with hrun
    exact hrun ▸ h
  | cons event events ih =>
    rw [ListSession.run, List.foldlM_cons, Option.bind_eq_bind, Option.bind_eq_some_iff] at hrun
    obtain ⟨next, hstep, hrest⟩ := hrun
    exact ih (h.step hserves hstep) hrest

end Steps

/-- In every run the list shows the pages from the first one on that are expected, and it is
loading exactly what is under way: nothing where no request is, and never both. -/
theorem paged_list_consistent {answer : Option Cursor → Page α Cursor} {pages : List (List α)}
    {cursorOf : ℕ → Cursor} (hserves : Serves answer pages cursorOf)
    {events : List (Event Failure)} {session : ListSession α Cursor Failure}
    (hrun : ListSession.run answer {} events = some session) :
    let viewer := Viewer.run pages.length {} events
    session.list.items = (pages.take viewer.shown).flatten ∧ viewer.shown ≤ pages.length ∧
      (session.list.loading = true ↔ ∃ number, viewer.outstanding = some (number, .refresh)) ∧
      (session.list.loadingMore = true ↔
        ∃ number, viewer.outstanding = some (number, .loadMore)) ∧
      (viewer.outstanding = none →
        session.list.loading = false ∧ session.list.loadingMore = false) ∧
      ¬(session.list.loading = true ∧ session.list.loadingMore = true) := by
  have h := follows_start.run hserves hrun
  intro viewer
  have hloading := h.loading
  have hloadingMore := h.loadingMore
  change session.list.loading = viewer.outstanding.any _ at hloading
  change session.list.loadingMore = viewer.outstanding.any _ at hloadingMore
  refine ⟨h.items, h.shown_le, ?_⟩
  rw [hloading, hloadingMore]
  cases viewer.outstanding with
  | none => simp
  | some request =>
    obtain ⟨number, purpose⟩ := request
    cases purpose <;> simp

/-- A list of two pages. -/
def twoPages : Option ℕ → Page ℕ ℕ
  | none => ⟨[1, 2], some 1, true⟩
  | some _ => ⟨[3], none, false⟩

theorem serves_twoPages : Serves twoPages [[1, 2], [3]] id where
  pages_pos := by decide
  items := by decide
  hasMore := by decide
  nextCursor := by
    intro number h
    have hless : number + 1 < 2 := h
    have hzero : number = 0 := by omega
    rw [hzero]
    rfl

/-- A refresh that supersedes another one, whose answer comes late, and the next page. -/
theorem paged_list_consistent_late :
    let events : List (Event ℕ) := [.refresh, .refresh, .arrive 1 .response, .loadMore,
      .arrive 0 .response, .arrive 2 .response]
    let viewer := Viewer.run 2 {} events
    ∃ session : ListSession ℕ ℕ ℕ, ListSession.run twoPages {} events = some session ∧
      session.list.items = ([[1, 2], [3]].take viewer.shown).flatten ∧ viewer.shown ≤ 2 ∧
      (session.list.loading = true ↔ ∃ number, viewer.outstanding = some (number, .refresh)) ∧
      (session.list.loadingMore = true ↔
        ∃ number, viewer.outstanding = some (number, .loadMore)) ∧
      (viewer.outstanding = none →
        session.list.loading = false ∧ session.list.loadingMore = false) ∧
      ¬(session.list.loading = true ∧ session.list.loadingMore = true) :=
  ⟨_, rfl, paged_list_consistent serves_twoPages rfl⟩

end LabBridge.Console
