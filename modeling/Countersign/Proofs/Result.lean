/-!
Sequences of computations that may fail.
-/

namespace Countersign.Result

variable {ε α β : Type}

@[simp]
theorem ok_bind (value : α) (next : α → Except ε β) :
    (.ok value : Except ε α) >>= next = next value :=
  rfl

@[simp]
theorem throw_bind (error : ε) (next : α → Except ε β) :
    (throw error : Except ε α) >>= next = .error error :=
  rfl

/-- A sequence that yields something has gone through its first part. -/
theorem bind_eq_ok {first : Except ε α} {next : α → Except ε β} {value : β}
    (done : first >>= next = .ok value) :
    ∃ between, first = .ok between ∧ next between = .ok value := by
  cases first with
  | error error => cases done
  | ok between => exact ⟨between, rfl, done⟩

theorem map_eq_ok {f : α → β} {first : Except ε α} {value : β}
    (done : first.map f = .ok value) : ∃ between, first = .ok between ∧ f between = value := by
  cases first with
  | error error => cases done
  | ok between =>
      cases done
      exact ⟨between, rfl, rfl⟩

/-- What yields something after a refusal was possible was not refused. -/
theorem guard_eq_ok {refused : Prop} [Decidable refused] {error : ε} {next : Unit → Except ε β}
    {value : β} (done : (if refused then throw error >>= next else next ()) = .ok value) :
    ¬ refused ∧ next () = .ok value := by
  by_cases holds : refused
  · rw [if_pos holds] at done
    cases done
  · rw [if_neg holds] at done
    exact ⟨holds, done⟩

theorem eq_ok_of_toBool {result : Except ε α} (succeeds : result.toBool = true) :
    ∃ value, result = .ok value := by
  cases result with
  | error error => cases succeeds
  | ok value => exact ⟨value, rfl⟩

theorem mapM_congr {first second : α → Except ε β} {items : List α}
    (same : ∀ item ∈ items, first item = second item) : items.mapM first = items.mapM second := by
  induction items with
  | nil => rfl
  | cons item rest inductionHypothesis =>
      obtain ⟨here, later⟩ := List.forall_mem_cons.mp same
      rw [List.mapM_cons, List.mapM_cons, here, inductionHypothesis later]

/-- What yields something for each of many yields all of it. -/
theorem mapM_of_forall_ok {step : α → Except ε β} {result : α → β} {items : List α}
    (each : ∀ item ∈ items, step item = .ok (result item)) :
    items.mapM step = .ok (items.map result) := by
  rw [mapM_congr each]
  exact List.mapM_pure

/-- What is made of each of many and undone for each is undone for all. -/
theorem exists_mapM {γ : Type} {make : α → Except ε β} {undo : β → Except ε γ} {result : α → γ}
    {items : List α}
    (each : ∀ item ∈ items, ∃ made, make item = .ok made ∧ undo made = .ok (result item)) :
    ∃ all, items.mapM make = .ok all ∧ all.mapM undo = .ok (items.map result) := by
  induction items with
  | nil => exact ⟨[], rfl, rfl⟩
  | cons item rest inductionHypothesis =>
      obtain ⟨here, later⟩ := List.forall_mem_cons.mp each
      obtain ⟨first, firstMade, firstUndone⟩ := here
      obtain ⟨others, othersMade, othersUndone⟩ := inductionHypothesis later
      refine ⟨first :: others, ?_, ?_⟩
      · rw [List.mapM_cons, firstMade, othersMade]
        rfl
      · rw [List.mapM_cons, firstUndone, othersUndone]
        rfl

theorem length_of_mapM {make : α → Except ε β} {items : List α} {all : List β}
    (made : items.mapM make = .ok all) : all.length = items.length := by
  induction items generalizing all with
  | nil =>
      cases made
      rfl
  | cons item rest inductionHypothesis =>
      rw [List.mapM_cons] at made
      obtain ⟨first, _, made⟩ := bind_eq_ok made
      obtain ⟨others, othersMade, made⟩ := bind_eq_ok made
      cases made
      rw [List.length_cons, List.length_cons, inductionHypothesis othersMade]

/-- The result at a place is made of the item at that place. -/
theorem getElem?_mapM {make : α → Except ε β} {items : List α} {all : List β}
    (made : items.mapM make = .ok all) {place : Nat} {item : α}
    (here : items[place]? = some item) :
    ∃ value, make item = .ok value ∧ all[place]? = some value := by
  induction items generalizing all place with
  | nil => cases here
  | cons first rest inductionHypothesis =>
      rw [List.mapM_cons] at made
      obtain ⟨value, firstMade, made⟩ := bind_eq_ok made
      obtain ⟨others, othersMade, made⟩ := bind_eq_ok made
      cases made
      cases place with
      | zero =>
          cases here
          exact ⟨value, firstMade, rfl⟩
      | succ place => exact inductionHypothesis othersMade here

/-- Each of the results is made of one of the items. -/
theorem exists_of_mem_mapM {make : α → Except ε β} {items : List α} {all : List β}
    (made : items.mapM make = .ok all) {value : β} (among : value ∈ all) :
    ∃ item ∈ items, make item = .ok value := by
  induction items generalizing all with
  | nil =>
      cases made
      cases among
  | cons item rest inductionHypothesis =>
      rw [List.mapM_cons] at made
      obtain ⟨first, firstMade, made⟩ := bind_eq_ok made
      obtain ⟨others, othersMade, made⟩ := bind_eq_ok made
      cases made
      rcases List.mem_cons.mp among with rfl | later
      · exact ⟨item, List.mem_cons_self, firstMade⟩
      · obtain ⟨other, inRest, otherMade⟩ := inductionHypothesis othersMade later
        exact ⟨other, List.mem_cons_of_mem _ inRest, otherMade⟩

/-- What fails for many fails for one of them, with the same error. -/
theorem exists_of_mapM_eq_error {make : α → Except ε β} {items : List α} {error : ε}
    (failed : items.mapM make = .error error) : ∃ item ∈ items, make item = .error error := by
  induction items with
  | nil => cases failed
  | cons item rest inductionHypothesis =>
      rw [List.mapM_cons] at failed
      cases first : make item with
      | error stopped =>
          rw [first] at failed
          cases failed
          exact ⟨item, List.mem_cons_self, first⟩
      | ok value =>
          rw [first, ok_bind] at failed
          cases later : rest.mapM make with
          | error stopped =>
              rw [later] at failed
              cases failed
              obtain ⟨other, inRest, otherFailed⟩ := inductionHypothesis later
              exact ⟨other, List.mem_cons_of_mem _ inRest, otherFailed⟩
          | ok others =>
              rw [later] at failed
              cases failed

variable {ε' : Type} {change : ε → ε'}

theorem mapError_bind (first : Except ε α) (next : α → Except ε β) :
    (first >>= next).mapError change =
      first.mapError change >>= fun value => (next value).mapError change := by
  cases first with
  | error error => rfl
  | ok value => rfl

theorem mapError_mapM (step : α → Except ε β) (items : List α) :
    (items.mapM step).mapError change = items.mapM fun item => (step item).mapError change := by
  induction items with
  | nil => rfl
  | cons item rest inductionHypothesis =>
      simp only [List.mapM_cons, mapError_bind, inductionHypothesis]
      rfl

end Countersign.Result
