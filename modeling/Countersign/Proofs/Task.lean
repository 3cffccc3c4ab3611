import Countersign.Proofs.Result
import Countersign.Task
import Mathlib.Logic.Relation

/-!
What a task does to a state, step by step of its text; and tasks as runs of a step relation, so
that what one step keeps is kept by every task that is made of such steps. Guarded steps have their
results where the numbers and places are in range.
-/

namespace Countersign.Task

variable {σ α β : Type}

@[simp] theorem fail_apply (error : Error) (state : σ) :
    (fail error : Task σ α) state = (.error (.failure error), state) := rfl

@[simp] theorem get_apply (state : σ) :
    (get : Task σ σ) state = (.ok state, state) := rfl

@[simp] theorem modify_apply (change : σ → σ) (state : σ) :
    (modify change : Task σ Unit) state = (.ok (), change state) := rfl

@[simp] theorem ofExcept_ok_apply (value : α) (state : σ) :
    (ofExcept (.ok value) : Task σ α) state = (.ok value, state) := rfl

@[simp] theorem ofExcept_error_apply (error : Error) (state : σ) :
    (ofExcept (.error error) : Task σ α) state = (.error (.failure error), state) := rfl

theorem ofExcept_still (result : Except Error α) (state : σ) :
    ((ofExcept result : Task σ α) state).2 = state := by
  cases result with
  | ok value => rfl
  | error error => rfl

section Sequence

variable {ε : Type}

theorem bind_apply (task : ExceptT ε (StateM σ) α) (next : α → ExceptT ε (StateM σ) β)
    (state : σ) :
    (task >>= next) state = ExceptT.bindCont next (task state).1 (task state).2 := rfl

theorem bind_ok {task : ExceptT ε (StateM σ) α} {next : α → ExceptT ε (StateM σ) β}
    {state later : σ} {value : α} (done : task state = (.ok value, later)) :
    (task >>= next) state = next value later := by
  rw [bind_apply, done]
  rfl

theorem bind_error {task : ExceptT ε (StateM σ) α} {next : α → ExceptT ε (StateM σ) β}
    {state later : σ} {error : ε} (ended : task state = (.error error, later)) :
    (task >>= next) state = (.error error, later) := by
  rw [bind_apply, ended]
  rfl

theorem adapt_apply {ε' : Type} (f : ε → ε') (task : ExceptT ε (StateM σ) α) (state : σ) :
    ExceptT.adapt f task state = ((task state).1.mapError f, (task state).2) := rfl

/-- An action that cannot fail. -/
theorem lift_apply (action : StateM σ α) (state : σ) :
    (liftM action : ExceptT ε (StateM σ) α) state =
      (.ok (action state).1, (action state).2) := rfl

/-- An action that cannot fail, as the first part of a sequence. -/
theorem bind_lift (action : StateM σ α) (next : α → ExceptT ε (StateM σ) β) (state : σ) :
    ((liftM action : ExceptT ε (StateM σ) α) >>= next) state =
      next (action state).1 (action state).2 := rfl

end Sequence

@[simp] theorem action_pure_apply (value : α) (state : σ) :
    (pure value : StateM σ α) state = (value, state) := rfl

@[simp] theorem action_bind_apply (action : StateM σ α) (next : α → StateM σ β) (state : σ) :
    (action >>= next) state = next (action state).1 (action state).2 := rfl

/-- A sequence of two tasks that yields something has gone through both. -/
theorem bind_eq_ok {task : Task σ α} {next : α → Task σ β} {state : σ} {value : β}
    (done : ((task >>= next) state).1 = .ok value) :
    ∃ between later, task state = (.ok between, later) ∧ (next between later).1 = .ok value := by
  rcases reached : task state with ⟨halt | between, later⟩
  · rw [bind_error reached] at done
    cases done
  · rw [bind_ok reached] at done
    exact ⟨between, later, rfl, done⟩

theorem ofExcept_eq_ok {result : Except Error α} {state later : σ} {value : α}
    (done : (ofExcept result : Task σ α) state = (.ok value, later)) : result = .ok value := by
  cases result with
  | error error => cases done
  | ok found =>
      cases done
      rfl

theorem map_eq_bind (f : α → β) (task : Task σ α) :
    f <$> task = task >>= fun value => pure (f value) := by
  exact map_eq_pure_bind f task

theorem map_apply (f : α → β) (task : Task σ α) (state : σ) :
    (f <$> task) state = ((task state).1.map f, (task state).2) := by
  rw [map_eq_bind]
  rcases reached : task state with ⟨halt | value, later⟩
  · rw [bind_error reached]
    rfl
  · rw [bind_ok reached]
    rfl

/-- From every state of a kind, the task is a run of steps; if it yields something, the state that
it leaves is of another kind. -/
def Runs (step : σ → σ → Prop) (before : σ → Prop) (task : Task σ α)
    (after : α → σ → Prop) : Prop :=
  ∀ state, before state →
    Relation.ReflTransGen step state (task state).2 ∧
      ∀ value, (task state).1 = .ok value → after value (task state).2

section Runs

variable {step : σ → σ → Prop} {before : σ → Prop}

theorem runs_pure (value : α) : Runs step before (pure value : Task σ α) fun _ => before := by
  intro state start
  exact ⟨.refl, fun _ _ => start⟩

theorem runs_fail (error : Error) {after : α → σ → Prop} :
    Runs step before (fail error : Task σ α) after := by
  intro state _
  refine ⟨.refl, ?_⟩
  intro value yields
  cases yields

theorem runs_ofExcept (result : Except Error α) :
    Runs step before (ofExcept result) fun _ => before := by
  cases result with
  | ok value => exact runs_pure value
  | error error => exact runs_fail error

theorem runs_bind {task : Task σ α} {next : α → Task σ β} {between : α → σ → Prop}
    {after : β → σ → Prop} (first : Runs step before task between)
    (second : ∀ value, Runs step (between value) (next value) after) :
    Runs step before (task >>= next) after := by
  intro state start
  obtain ⟨path, kept⟩ := first state start
  rcases reached : task state with ⟨halt | value, later⟩
  · rw [reached] at path
    rw [bind_error reached]
    refine ⟨path, ?_⟩
    intro value yields
    cases yields
  · rw [reached] at path kept
    rw [bind_ok reached]
    obtain ⟨rest, keptLater⟩ := second value later (kept value rfl)
    exact ⟨path.trans rest, keptLater⟩

theorem runs_map {task : Task σ α} {after : σ → Prop} (f : α → β)
    (first : Runs step before task fun _ => after) :
    Runs step before (f <$> task) fun _ => after := by
  rw [map_eq_bind]
  exact runs_bind first fun value => runs_pure (f value)

theorem Runs.weaken {task : Task σ α} {narrower : σ → Prop} {after wider : α → σ → Prop}
    (runs : Runs step before task after) (narrow : ∀ state, narrower state → before state)
    (widen : ∀ value state, after value state → wider value state) :
    Runs step narrower task wider := by
  intro state start
  obtain ⟨path, kept⟩ := runs state (narrow state start)
  exact ⟨path, fun value yields => widen value _ (kept value yields)⟩

end Runs

/-- From every state of a kind, the task leaves a state of another kind if it yields something, and
of a third kind if it halts. -/
def Ends (before : σ → Prop) (task : Task σ α) (after : α → σ → Prop)
    (halted : Halt → σ → Prop) : Prop :=
  ∀ state, before state →
    (∀ value, (task state).1 = .ok value → after value (task state).2) ∧
      ∀ halt, (task state).1 = .error halt → halted halt (task state).2

section Ends

variable {before : σ → Prop} {halted : Halt → σ → Prop}

theorem ends_pure {value : α} {after : α → σ → Prop}
    (kept : ∀ state, before state → after value state) :
    Ends before (pure value : Task σ α) after halted := by
  intro state start
  refine ⟨?_, ?_⟩
  · intro found yields
    cases yields
    exact kept state start
  · intro halt ended
    cases ended

theorem ends_fail {error : Error} {after : α → σ → Prop}
    (blamed : ∀ state, before state → halted (.failure error) state) :
    Ends before (fail error : Task σ α) after halted := by
  intro state start
  refine ⟨?_, ?_⟩
  · intro value yields
    cases yields
  · intro halt ended
    cases ended
    exact blamed state start

theorem ends_ofExcept {result : Except Error α}
    (blamed : ∀ error, result = .error error →
      ∀ state, before state → halted (.failure error) state) :
    Ends before (ofExcept result) (fun value state => before state ∧ result = .ok value)
      halted := by
  cases result with
  | ok value =>
      intro state start
      refine ⟨?_, ?_⟩
      · intro found yields
        cases yields
        exact ⟨start, rfl⟩
      · intro halt ended
        cases ended
  | error error => exact ends_fail (blamed error rfl)

theorem ends_bind {task : Task σ α} {next : α → Task σ β} {between : α → σ → Prop}
    {after : β → σ → Prop} (first : Ends before task between halted)
    (second : ∀ value, Ends (between value) (next value) after halted) :
    Ends before (task >>= next) after halted := by
  intro state start
  obtain ⟨kept, ended⟩ := first state start
  rcases reached : task state with ⟨halt | value, later⟩
  · rw [reached] at ended
    rw [bind_error reached]
    refine ⟨?_, ?_⟩
    · intro value yields
      cases yields
    · intro _ same
      cases same
      exact ended halt rfl
  · rw [reached] at kept
    rw [bind_ok reached]
    exact second value later (kept value rfl)

theorem Ends.weaken {task : Task σ α} {narrower : σ → Prop} {after wider : α → σ → Prop}
    (ends : Ends before task after halted) (narrow : ∀ state, narrower state → before state)
    (widen : ∀ value state, after value state → wider value state) :
    Ends narrower task wider halted := by
  intro state start
  obtain ⟨kept, ended⟩ := ends state (narrow state start)
  exact ⟨fun value yields => widen value _ (kept value yields), ended⟩

end Ends

end Countersign.Task

namespace Countersign.Attempt

variable {σ α : Type}

theorem orUse_apply (attempt : Attempt σ α) (replacement : α) (state : σ) :
    attempt.orUse replacement state =
      ((attempt state).1.toOption.getD replacement, (attempt state).2) := by
  rcases reached : attempt state with ⟨error | value, later⟩ <;>
    simp [orUse, ExceptT.run, Except.toOption, reached]

section Signing

variable {task : Task σ α} {state later : σ}

theorem ofSigning_ok {value : α} (done : task state = (.ok value, later)) :
    ofSigning task state = (.ok value, later) := by
  simp [ofSigning, done]

theorem ofSigning_failure {error : Error}
    (failed : task state = (.error (.failure error), later)) :
    ofSigning task state = (.error error, later) := by
  simp [ofSigning, failed]

theorem ofSigning_crash (crashed : task state = (.error .crash, later)) :
    ofSigning task state = (.error (.signing .crashed), later) := by
  simp [ofSigning, crashed]

end Signing

end Countersign.Attempt

namespace Countersign.Guarded

theorem sum64_of_fits {left right : UInt64} (fits : left.toNat + right.toNat < UInt64.size) :
    sum64 left right = .ok (left + right) ∧ (left + right).toNat = left.toNat + right.toNat := by
  refine ⟨if_pos fits, ?_⟩
  rw [UInt64.toNat_add]
  exact Nat.mod_eq_of_lt fits

theorem sum64_of_exceeds {left right : UInt64} (exceeds : UInt64.size ≤ left.toNat + right.toNat) :
    sum64 left right = .error .crash :=
  if_neg (Nat.not_lt.mpr exceeds)

theorem sum32_of_fits {left right : UInt32} (fits : left.toNat + right.toNat < UInt32.size) :
    sum32 left right = .ok (left + right) :=
  if_pos fits

theorem difference32_of_le {left right : UInt32} (least : right.toNat ≤ left.toNat) :
    difference32 left right = .ok (left - right) :=
  if_pos least

theorem shiftLeft32_of_lt {places : UInt32} (few : places.toNat < 32) (word : UInt32) :
    shiftLeft32 word places = .ok (word <<< places) :=
  if_pos few

theorem shiftRight32_of_lt {places : UInt32} (few : places.toNat < 32) (word : UInt32) :
    shiftRight32 word places = .ok (word >>> places) :=
  if_pos few

theorem sliceFrom_of_le {buffer : Bytes} {start : Nat} (inside : start ≤ buffer.length) :
    sliceFrom buffer start = .ok (buffer.drop start) := by
  rw [sliceFrom, slice, if_pos ⟨inside, Nat.le_refl _⟩, List.take_length]

theorem slice_of_le {buffer : Bytes} {start stop : Nat} (ordered : start ≤ stop)
    (inside : stop ≤ buffer.length) :
    slice buffer start stop = .ok ((buffer.take stop).drop start) :=
  if_pos ⟨ordered, inside⟩

end Countersign.Guarded
