import Mathlib.Data.List.Basic

/-!
# The paged list of the console

`usePagedList` keeps the items of a list that is fetched page by page. The calls of its user run
to the point where they await the fetcher, and every answer runs the rest of its call, so that
an interleaving of calls and answers is a list of events. Aborting a request only asks its
fetcher to reject: an aborted request may still be answered in any way.
-/

namespace LabBridge.Console

variable {α Cursor Failure : Type}

/-- A page that the server answers. -/
structure Page (α Cursor : Type) where
  items : List α
  nextCursor : Option Cursor
  hasMore : Bool
  deriving DecidableEq

/-- The refs and the variables that the calls share. -/
structure PagedList (α Cursor Failure : Type) where
  items : List α := []
  loading : Bool := false
  loadingMore : Bool := false
  error : Option Failure := none
  hasMore : Bool := false
  generation : ℕ := 0
  nextCursor : Option Cursor := none

/-- A call that awaits its fetcher: the page it asked for and what it keeps for its rest. -/
inductive Request (α Cursor : Type)
  | refresh (current : ℕ)
  | loadMore (cursor : Cursor) (previous : List α) (current : ℕ)

namespace Request

/-- The generation that a request was begun with. -/
def current : Request α Cursor → ℕ
  | .refresh current => current
  | .loadMore _ _ current => current

/-- The cursor that a request sends. -/
def cursor : Request α Cursor → Option Cursor
  | .refresh _ => none
  | .loadMore cursor _ _ => some cursor

end Request

/-- How the fetcher of a request settles. -/
inductive Outcome (Failure : Type)
  | response
  | error (failure : Failure)
  | canceled
  deriving DecidableEq

namespace PagedList

variable (list : PagedList α Cursor Failure)

/-- `beginRequest`: a new generation, with nothing loading and no error. -/
def beginRequest : PagedList α Cursor Failure :=
  { list with
    generation := list.generation + 1
    loading := false
    loadingMore := false
    error := none }

/-- `isCurrent`. -/
def isCurrent (requestGeneration : ℕ) : Bool := requestGeneration == list.generation

/-- `refresh` up to the point where it awaits. -/
def refresh : PagedList α Cursor Failure × Request α Cursor :=
  let begun := list.beginRequest
  ({ begun with loading := true }, .refresh begun.generation)

/-- `loadMore` up to the point where it awaits; nothing is fetched while something is loading or
where there is no more. -/
def loadMore : Option (PagedList α Cursor Failure × Request α Cursor) :=
  if list.loading || list.loadingMore || !list.hasMore then none
  else
    match list.nextCursor with
    | none => none
    | some cursor =>
      let begun := list.beginRequest
      some ({ begun with loadingMore := true }, .loadMore cursor list.items begun.generation)

/-- `abort`. -/
def abort : PagedList α Cursor Failure :=
  { list with generation := list.generation + 1, loading := false, loadingMore := false }

/-- Take the page of a current request over, with the items that are then shown. -/
def apply (page : Page α Cursor) (items : List α) : PagedList α Cursor Failure :=
  { list with nextCursor := page.nextCursor, hasMore := page.hasMore, items := items }

/-- The part of a call behind its `await`, up to its `finally`. -/
def settle (request : Request α Cursor) (page : Page α Cursor) (outcome : Outcome Failure) :
    PagedList α Cursor Failure :=
  match outcome with
  | .response =>
    if list.isCurrent request.current then
      match request with
      | .refresh _ => list.apply page page.items
      | .loadMore _ previous _ => list.apply page (previous ++ page.items)
    else list
  | .canceled => list
  | .error failure =>
    if list.isCurrent request.current then { list with error := some failure } else list

/-- The `finally` of a call. -/
def finish (request : Request α Cursor) : PagedList α Cursor Failure :=
  if list.isCurrent request.current then
    match request with
    | .refresh _ => { list with loading := false }
    | .loadMore _ _ _ => { list with loadingMore := false }
  else list

end PagedList

/-- What happens: a call of the user, or the answer to the request of a number. -/
inductive Event (Failure : Type)
  | refresh
  | loadMore
  | abort
  | arrive (number : ℕ) (outcome : Outcome Failure)
  deriving DecidableEq

/-- A list with all requests that were started; an answered one is none. -/
structure ListSession (α Cursor Failure : Type) where
  list : PagedList α Cursor Failure := {}
  requests : List (Option (Request α Cursor)) := []

namespace ListSession

variable (answer : Option Cursor → Page α Cursor)

/-- One event; there is none for the answer to a request that is not pending. -/
def step (session : ListSession α Cursor Failure) (event : Event Failure) :
    Option (ListSession α Cursor Failure) :=
  match event with
  | .refresh =>
    let begun := session.list.refresh
    some ⟨begun.1, session.requests ++ [some begun.2]⟩
  | .loadMore =>
    match session.list.loadMore with
    | some begun => some ⟨begun.1, session.requests ++ [some begun.2]⟩
    | none => some session
  | .abort => some { session with list := session.list.abort }
  | .arrive number outcome =>
    match session.requests[number]?.join with
    | none => none
    | some request =>
      let settled := session.list.settle request (answer request.cursor) outcome
      some ⟨settled.finish request, session.requests.set number none⟩

/-- The events of a run in order. -/
def run (session : ListSession α Cursor Failure) (events : List (Event Failure)) :
    Option (ListSession α Cursor Failure) :=
  events.foldlM (step answer) session

end ListSession

end LabBridge.Console
