import Mathlib.Data.List.Forall2

/-!
# Computations that may fail

How the value of a sequence of fallible computations comes about, step by step and item by
item.
-/

namespace Fallible

variable {ε α β : Type}

/-- A value is handed to what follows. -/
theorem ok_bind (value : α) (next : α → Except ε β) :
    (Except.ok value >>= next) = next value := rfl

/-- The value of a sequence comes from both parts succeeding in turn. -/
theorem bind_eq_ok {first : Except ε α} {next : α → Except ε β} {result : β} :
    (first >>= next) = .ok result ↔ ∃ value, first = .ok value ∧ next value = .ok result := by
  cases first with
  | error error => simp [bind, Except.bind]
  | ok value => simp [bind, Except.bind]

/-- The value of a computation behind a step that answers nothing. -/
theorem unit_bind_eq_ok {first : Except ε Unit} {next : Unit → Except ε β} {result : β} :
    (first >>= next) = .ok result ↔ first = .ok () ∧ next () = .ok result := by
  cases first with
  | error error => simp [bind, Except.bind]
  | ok value => simp [bind, Except.bind]

/-- A value that is returned is the value of the computation. -/
theorem pure_eq_ok {value result : α} :
    (pure value : Except ε α) = .ok result ↔ value = result := by
  simp [pure, Except.pure]

/-- A computation that succeeds has the value that is taken out of it. -/
theorem eq_ok_getD {first : Except ε α} {default : α} (h : first.toOption.isSome = true) :
    first = .ok (first.toOption.getD default) := by
  cases first with
  | error error => cases h
  | ok value => rfl

/-- What is said of the value of a computation, if it has one, can be decided. -/
instance decidableOfOk (result : Except ε α) (p : α → Prop) [∀ value, Decidable (p value)] :
    Decidable (∀ value, result = .ok value → p value) :=
  match result with
  | .ok value => decidable_of_iff (p value)
      ⟨fun h _ heq => Except.ok.inj heq ▸ h, fun h => h value rfl⟩
  | .error _ => .isTrue fun _ h => by cases h

/-- What is said of a value, if there is one, can be decided. -/
instance decidableOfSome (found : Option α) (p : α → Prop) [∀ value, Decidable (p value)] :
    Decidable (∀ value, found = some value → p value) :=
  match found with
  | some value => decidable_of_iff (p value)
      ⟨fun h _ heq => Option.some.inj heq ▸ h, fun h => h value rfl⟩
  | none => .isTrue fun _ h => by cases h

/-- The value of a mapped computation. -/
theorem map_eq_ok {first : Except ε α} {f : α → β} {result : β} :
    (f <$> first) = .ok result ↔ ∃ value, first = .ok value ∧ f value = result := by
  cases first with
  | error error => simp [Functor.map, Except.map]
  | ok value => simp [Functor.map, Except.map]

/-- An exception that is raised is no value. -/
theorem throw_ne_ok {error : ε} {result : α} : (throw error : Except ε α) ≠ .ok result := by
  simp [throw, throwThe, MonadExceptOf.throw]

/-- A computation behind a check has a value when the check passes. -/
theorem check_eq_ok {refused : Prop} [Decidable refused] {error : ε} {rest : β → Except ε α}
    {next : Except ε α} {result : α} :
    (if refused then throw error >>= rest else next) = .ok result ↔
      ¬refused ∧ next = .ok result := by
  by_cases h : refused
  · simp [h, bind_eq_ok, throw_ne_ok]
  · simp [h]

/-- The values of a list of computations are the values of its items in order. -/
theorem mapM_eq_ok {f : α → Except ε β} {items : List α} {results : List β} :
    items.mapM f = .ok results ↔ List.Forall₂ (fun item result => f item = .ok result)
      items results := by
  induction items generalizing results with
  | nil =>
    rw [List.mapM_nil, pure_eq_ok, List.forall₂_nil_left_iff, eq_comm]
  | cons item rest ih =>
    rw [List.mapM_cons]
    simp only [bind_eq_ok, pure_eq_ok, ih]
    constructor
    · rintro ⟨value, hitem, values, hrest, rfl⟩
      exact .cons hitem hrest
    · intro h
      cases h with
      | cons hitem hrest => exact ⟨_, hitem, _, hrest, rfl⟩

/-- A list of computations has values when each of its items has one. -/
theorem exists_mapM_eq_ok {f : α → Except ε β} {items : List α} :
    (∃ results, items.mapM f = .ok results) ↔ ∀ item ∈ items, ∃ result, f item = .ok result := by
  simp only [mapM_eq_ok]
  induction items with
  | nil => simp
  | cons item rest ih =>
    rw [List.forall_mem_cons, ← ih]
    constructor
    · rintro ⟨results, h⟩
      cases h with
      | cons hitem hrest => exact ⟨⟨_, hitem⟩, _, hrest⟩
    · rintro ⟨⟨result, hitem⟩, results, hrest⟩
      exact ⟨result :: results, .cons hitem hrest⟩

/-- Reading back a list that was written item by item. -/
theorem mapM_map_eq_ok {read : β → Except ε α} {write : α → β} {items : List α} :
    (items.map write).mapM read = .ok items ↔ ∀ item ∈ items, read (write item) = .ok item := by
  rw [mapM_eq_ok, List.forall₂_map_left_iff, List.forall₂_same]

/-- What stands on the right of related lists is related to something on the left. -/
theorem exists_left {related : α → β → Prop} {items : List α} {results : List β} {result : β}
    (h : List.Forall₂ related items results) (hresult : result ∈ results) :
    ∃ item ∈ items, related item result := by
  induction h with
  | nil => cases hresult
  | cons hfirst _ ih =>
    rcases List.mem_cons.mp hresult with rfl | hrest
    · exact ⟨_, List.mem_cons_self, hfirst⟩
    · obtain ⟨item, hitem, hrelated⟩ := ih hrest
      exact ⟨item, List.mem_cons_of_mem _ hitem, hrelated⟩

/-- What stands on the left of related lists is related to something on the right. -/
theorem exists_right {related : α → β → Prop} {items : List α} {results : List β} {item : α}
    (h : List.Forall₂ related items results) (hitem : item ∈ items) :
    ∃ result ∈ results, related item result :=
  exists_left (List.Forall₂.flip h) hitem

/-- Related lists agree in what related members agree in. -/
theorem map_eq_of_forall₂ {γ : Type*} {related : α → β → Prop} {items : List α}
    {results : List β} {left : α → γ} {right : β → γ} (h : List.Forall₂ related items results)
    (hsame : ∀ item ∈ items, ∀ result, related item result → right result = left item) :
    results.map right = items.map left := by
  induction h with
  | nil => rfl
  | cons hfirst _ ih =>
    rw [List.map_cons, List.map_cons, hsame _ List.mem_cons_self _ hfirst,
      ih fun item hitem => hsame item (List.mem_cons_of_mem _ hitem)]

/-- Every value of a list of computations is the value of one of them. -/
theorem exists_of_mem_mapM {f : α → Except ε β} {items : List α} {results : List β} {result : β}
    (h : items.mapM f = .ok results) (hmem : result ∈ results) :
    ∃ item ∈ items, f item = .ok result := by
  obtain ⟨item, hitem, hresult⟩ := exists_left (mapM_eq_ok.mp h) hmem
  exact ⟨item, hitem, hresult⟩

/-- The optional values of a list are there when those of its items are, in order. -/
theorem mapM_eq_some {f : α → Option β} {items : List α} {results : List β} :
    items.mapM f = some results ↔ List.Forall₂ (fun item result => f item = some result)
      items results := by
  induction items generalizing results with
  | nil =>
    rw [List.mapM_nil, List.forall₂_nil_left_iff, eq_comm]
    exact Option.some_inj
  | cons item rest ih =>
    rw [List.mapM_cons]
    simp only [Option.bind_eq_bind, Option.bind_eq_some_iff, Option.pure_def, Option.some_inj, ih]
    constructor
    · rintro ⟨value, hitem, values, hrest, rfl⟩
      exact .cons hitem hrest
    · intro h
      cases h with
      | cons hitem hrest => exact ⟨_, hitem, _, hrest, rfl⟩

/-- A list of optional values is there when each of them is. -/
theorem exists_mapM_eq_some {f : α → Option β} {items : List α}
    (h : ∀ item ∈ items, ∃ result, f item = some result) :
    ∃ results, items.mapM f = some results := by
  simp only [mapM_eq_some]
  induction items with
  | nil => exact ⟨[], .nil⟩
  | cons item rest ih =>
    obtain ⟨result, hresult⟩ := h item List.mem_cons_self
    obtain ⟨results, hresults⟩ := ih fun other hother => h other (List.mem_cons_of_mem _ hother)
    exact ⟨result :: results, .cons hresult hresults⟩

/-- What is kept of related lists is related, when all of it is kept. -/
theorem forall₂_filterMap {γ : Type*} {related : α → β → Prop} {found : α → γ → Prop}
    {f : β → Option γ} {items : List α} {results : List β} (h : List.Forall₂ related items results)
    (each : ∀ item ∈ items, ∀ result ∈ results, related item result →
      ∃ value, f result = some value ∧ found item value) :
    List.Forall₂ found items (results.filterMap f) := by
  induction h with
  | nil => exact .nil
  | cons hfirst _ ih =>
    obtain ⟨value, hvalue, hfound⟩ := each _ List.mem_cons_self _ List.mem_cons_self hfirst
    rw [List.filterMap_cons_some hvalue]
    exact .cons hfound (ih fun item hitem result hresult =>
      each item (List.mem_cons_of_mem _ hitem) result (List.mem_cons_of_mem _ hresult))

/-- What is kept of related lists stands for the items that are selected. -/
theorem filterMap_eq_map_filter {γ : Type*} {related : α → β → Prop} {selected : α → Bool}
    {f : β → Option γ} {value : α → γ} {items : List α} {results : List β}
    (h : List.Forall₂ related items results)
    (each : ∀ item ∈ items, ∀ result, related item result →
      f result = if selected item then some (value item) else none) :
    results.filterMap f = (items.filter selected).map value := by
  induction h with
  | nil => rfl
  | @cons item result _ _ hfirst _ ih =>
    have hrest := ih fun other hother => each other (List.mem_cons_of_mem _ hother)
    rw [List.filterMap_cons, each _ List.mem_cons_self _ hfirst, List.filter_cons]
    cases selected item with
    | true => rw [if_pos rfl, if_pos rfl, List.map_cons, hrest]
    | false => exact hrest

/-- The value of a sequence, when only its presence counts. -/
theorem toOption_bind {first : Except ε α} {next : α → Except ε β} :
    (first >>= next).toOption = first.toOption.bind fun value => (next value).toOption := by
  cases first <;> rfl

/-- A list of computations has a value when each item passes a check. -/
theorem toOption_mapM {γ : Type} {related : α → β → Prop} {passes : α → Bool}
    {f : β → Except ε γ} {value : α → γ} {items : List α} {results : List β}
    (h : List.Forall₂ related items results)
    (each : ∀ item ∈ items, ∀ result, related item result →
      (f result).toOption = if passes item then some (value item) else none) :
    (results.mapM f).toOption = if items.all passes then some (items.map value) else none := by
  induction h with
  | nil => rfl
  | @cons item result rest _ hfirst _ ih =>
    have hitem := each item List.mem_cons_self result hfirst
    have hrest := ih fun other hother => each other (List.mem_cons_of_mem _ hother)
    rw [List.mapM_cons, toOption_bind, hitem, List.all_cons]
    cases passes item with
    | false => rfl
    | true =>
      simp only [if_true, Option.bind_some, toOption_bind, hrest, Bool.true_and]
      cases rest.all passes <;> rfl

/-- What every step of a fold keeps holds of its value. -/
theorem foldlM_keeps {f : β → α → Except ε β} {items : List α} {holds : β → Prop}
    (hstep : ∀ {state item next}, holds state → f state item = .ok next → holds next) :
    ∀ {start last : β}, holds start → items.foldlM f start = .ok last → holds last := by
  induction items with
  | nil =>
    intro start last hstart h
    cases h
    exact hstart
  | cons item rest ih =>
    intro start last hstart h
    rw [List.foldlM_cons, bind_eq_ok] at h
    obtain ⟨next, hnext, hrest⟩ := h
    exact ih (hstep hstart hnext) hrest

/-- The value of a fold whose steps compute it when they succeed. -/
theorem foldl_of_foldlM {f : β → α → Except ε β} {step : β → α → β} {items : List α}
    (hstep : ∀ state item next, f state item = .ok next → next = step state item) :
    ∀ {start last : β}, items.foldlM f start = .ok last → last = items.foldl step start := by
  induction items with
  | nil =>
    intro start last h
    cases h
    rfl
  | cons item rest ih =>
    intro start last h
    rw [List.foldlM_cons, bind_eq_ok] at h
    obtain ⟨next, hnext, hrest⟩ := h
    rw [List.foldl_cons, ← hstep start item next hnext]
    exact ih hrest

end Fallible
