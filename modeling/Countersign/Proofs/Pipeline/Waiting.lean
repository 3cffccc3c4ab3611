import Countersign.Proofs.Pipeline.Execution
import Mathlib.Algebra.Order.Floor.Div

/-!
The wait for a receipt, by any clock that keeps its pauses. It has an end; until then receipts are
looked for at most once for every interval that the timeout has begun, and once more; and it ends
with the first look that finds one, or with one after which the deadline has come.
-/

namespace Countersign

namespace Pipeline

variable {ω : Type}

/-- How many ticks a clock has for a millisecond, and by how many it moves on while some go by. -/
structure Clock where
  ticks : Nat
  passing : Nat → Nat

namespace Clock

/-- The clock that a pipeline runs on. -/
def running : Clock :=
  ⟨1, (min · longestWait)⟩

/-- A clock that misses nothing. -/
def exact (ticks : Nat) : Clock :=
  ⟨ticks, id⟩

variable (clock : Clock) (poll : Poll)

def interval : Nat :=
  clock.ticks * poll.interval.toNat

def deadline : Nat :=
  clock.ticks * poll.timeout.toNat

/-- When to look next if it is now so late and there is no receipt yet. -/
def next? (now : Nat) : Option Nat :=
  if clock.deadline poll ≤ now then
    none
  else
    some (now + clock.passing (min (clock.interval poll) (clock.deadline poll - now)))

/-- The clock moves on by exactly as much as a pipeline pauses. -/
def KeepsPauses : Prop :=
  ∀ pause, pause ≤ clock.interval poll → pause ≤ clock.deadline poll → clock.passing pause = pause

@[simp] theorem running_passing (span : Nat) : running.passing span = min span longestWait := rfl

@[simp] theorem running_interval : running.interval poll = poll.interval.toNat :=
  Nat.one_mul _

@[simp] theorem running_deadline : running.deadline poll = poll.timeout.toNat :=
  Nat.one_mul _

theorem keepsPauses_exact (ticks : Nat) (poll : Poll) : (exact ticks).KeepsPauses poll :=
  fun _ _ _ => rfl

theorem keepsPauses_running {poll : Poll}
    (short : poll.interval.toNat ≤ longestWait ∨ poll.timeout.toNat ≤ longestWait) :
    running.KeepsPauses poll := by
  intro pause interval deadline
  rw [running_interval] at interval
  rw [running_deadline] at deadline
  rw [running_passing]
  omega

variable {clock poll} {now next : Nat}

theorem next?_eq_none_iff : clock.next? poll now = none ↔ clock.deadline poll ≤ now := by
  by_cases late : clock.deadline poll ≤ now <;> simp [next?, late]

theorem next?_eq_some (keeps : clock.KeepsPauses poll) (later : clock.next? poll now = some next) :
    now < clock.deadline poll ∧
      next = now + min (clock.interval poll) (clock.deadline poll - now) := by
  by_cases late : clock.deadline poll ≤ now
  · simp [next?, late] at later
  · have kept := keeps (min (clock.interval poll) (clock.deadline poll - now))
      (Nat.min_le_left _ _) (by omega)
    simp only [next?, late, if_false, kept, Option.some.injEq] at later
    exact ⟨Nat.not_le.mp late, later.symm⟩

end Clock

/-- A look for a receipt: when it starts, its answer, and by how much the clock has moved on when
the answer is there. -/
structure Look where
  start : Nat
  answer : Except Error (Option Receipt)
  duration : Nat

namespace Look

def receipt? (look : Look) : Option Receipt :=
  look.answer.toOption.join

def finish (look : Look) : Nat :=
  look.start + look.duration

/-- What a wait comes to that ends with this look. -/
def outcome (look : Look) (id : Hash) : Outcome :=
  look.receipt?.elim (.pending id) .included

end Look

def look (pipeline : Pipeline ω) (clock : Clock) (id : Hash) (start : Nat) : StateM ω Look := do
  let (answer, duration) ← pipeline.services.receipt id start
  return ⟨start, answer, clock.passing duration⟩

/-- The wait for a receipt as any clock tells it. -/
def pollBy (pipeline : Pipeline ω) (clock : Clock) (id : Hash) :
    Nat → Nat → StateM ω (Outcome × Nat)
  | 0, now => return (.pending id, now)
  | rounds + 1, start => do
      let look ← pipeline.look clock id start
      match look.receipt?, clock.next? pipeline.config.poll look.finish with
      | none, some next => pipeline.pollBy clock id rounds next
      | _, _ => return (look.outcome id, look.finish)

section Steps

variable {pipeline : Pipeline ω} {clock : Clock} {id : Hash} {start next : Nat} {before after : ω}
  {look : Look}

theorem look_apply {answer : Except Error (Option Receipt)} {duration : Nat}
    (answered : pipeline.services.receipt id start before = ((answer, duration), after)) :
    pipeline.look clock id start before = (⟨start, answer, clock.passing duration⟩, after) := by
  simp [Pipeline.look, answered]

theorem look_start (looked : pipeline.look clock id start before = (look, after)) :
    look.start = start := by
  have started : (pipeline.look clock id start before).1.start = start := rfl
  rw [← started, looked]

theorem start_le_finish (looked : pipeline.look clock id start before = (look, after)) :
    start ≤ look.finish := by
  rw [Look.finish, look_start looked]
  exact Nat.le_add_right _ _

theorem look_recorded (looked : pipeline.look clock id start before = (look, after))
    (events : List PipelineCall) :
    pipeline.recorded.look clock id start ⟨before, events⟩ =
      (look, ⟨after, events ++ [.receipt id look.start]⟩) := by
  rcases answered : pipeline.services.receipt id start before with ⟨⟨answer, duration⟩, later⟩
  rw [look_apply answered, Prod.mk.injEq] at looked
  obtain ⟨rfl, rfl⟩ := looked
  have noted : pipeline.recorded.services.receipt id start ⟨before, events⟩ =
      ((answer, duration), ⟨later, events ++ [.receipt id start]⟩) :=
    Recorded.note_of_eq (fun _ => PipelineCall.receipt id start) events answered
  exact look_apply noted

theorem pollBy_last (rounds : Nat) (looked : pipeline.look clock id start before = (look, after))
    (final : look.receipt? ≠ none ∨ clock.next? pipeline.config.poll look.finish = none) :
    pipeline.pollBy clock id (rounds + 1) start before =
      ((look.outcome id, look.finish), after) := by
  rw [pollBy, Task.action_bind_apply, looked]
  rcases found : look.receipt? with _ | receipt
  · have late := final.resolve_left (· found)
    simp [late]
  · simp

theorem pollBy_more (rounds : Nat) (looked : pipeline.look clock id start before = (look, after))
    (missing : look.receipt? = none)
    (later : clock.next? pipeline.config.poll look.finish = some next) :
    pipeline.pollBy clock id (rounds + 1) start before =
      pipeline.pollBy clock id rounds next after := by
  rw [pollBy, Task.action_bind_apply, looked]
  simp only [missing, later]

end Steps

theorem pollBy_running (pipeline : Pipeline ω) (id : Hash) (rounds start : Nat) :
    pipeline.pollBy .running id rounds start = pipeline.pollFrom id rounds start := by
  induction rounds generalizing start with
  | zero => rfl
  | succ rounds inductionHypothesis =>
      funext before
      rcases answered : pipeline.services.receipt id start before with ⟨⟨answer, duration⟩, after⟩
      have looked : pipeline.look .running id start before =
          (⟨start, answer, min duration longestWait⟩, after) :=
        look_apply answered
      rw [pollBy, Task.action_bind_apply, looked, pollFrom_succ, answered]
      by_cases late : pipeline.config.poll.timeout.toNat ≤ start + min duration longestWait <;>
        rcases answer with error | (_ | receipt) <;>
          simp [afterLook, Clock.next?, Look.receipt?, Look.finish, Look.outcome, Except.toOption,
            late, inductionHypothesis]

/-- The pipeline with failed looks taken for looks that come too early. -/
def overlooking (pipeline : Pipeline ω) : Pipeline ω :=
  { pipeline with
    services := { pipeline.services with
      receipt := fun id time before =>
        let ((answer, duration), after) := pipeline.services.receipt id time before
        ((.ok answer.toOption.join, duration), after) } }

theorem pollBy_overlooking (pipeline : Pipeline ω) (clock : Clock) (id : Hash)
    (rounds start : Nat) :
    pipeline.overlooking.pollBy clock id rounds start = pipeline.pollBy clock id rounds start := by
  induction rounds generalizing start with
  | zero => rfl
  | succ rounds inductionHypothesis =>
      funext before
      rcases answered : pipeline.services.receipt id start before with ⟨⟨answer, duration⟩, after⟩
      have overlooked : pipeline.overlooking.services.receipt id start before =
          ((.ok answer.toOption.join, duration), after) := by
        simp [overlooking, answered]
      have rules : pipeline.overlooking.config = pipeline.config := rfl
      rw [pollBy, pollBy, Task.action_bind_apply, Task.action_bind_apply, look_apply answered,
        look_apply overlooked, rules]
      rcases answer with error | (_ | receipt) <;>
        simp only [Look.receipt?, Look.finish, Look.outcome, Except.toOption, Option.join_some,
          Option.join_none, inductionHypothesis]

/-! ## Waits -/

/-- A wait from some time on: the looks after which it goes on, and its last one. Each look is
answered in the state that the one before it has left. -/
inductive Wait (pipeline : Pipeline ω) (clock : Clock) (id : Hash) :
    Nat → ω → List Look → Look → ω → Prop
  | last {start : Nat} {before after : ω} {look : Look}
      (looked : pipeline.look clock id start before = (look, after))
      (final : look.receipt? ≠ none ∨ clock.next? pipeline.config.poll look.finish = none) :
      Wait pipeline clock id start before [] look after
  | more {start next : Nat} {before between after : ω} {look last : Look} {earlier : List Look}
      (looked : pipeline.look clock id start before = (look, between))
      (missing : look.receipt? = none)
      (later : clock.next? pipeline.config.poll look.finish = some next)
      (rest : Wait pipeline clock id next between earlier last after) :
      Wait pipeline clock id start before (look :: earlier) last after

theorem ceilDiv_sub_add_one {remaining interval : Nat} (spaced : 0 < interval)
    (left : 0 < remaining) :
    (remaining - interval) ⌈/⌉ interval + 1 = remaining ⌈/⌉ interval := by
  have shifted : remaining ⌈/⌉ interval = (remaining - 1) / interval + 1 := by
    rw [Nat.ceilDiv_eq_add_pred_div, ← Nat.add_div_right _ spaced]
    congr 1
    omega
  rw [shifted, Nat.ceilDiv_eq_add_pred_div]
  by_cases long : interval ≤ remaining
  · rw [Nat.sub_add_cancel long]
  · rw [Nat.div_eq_of_lt (by omega), Nat.div_eq_of_lt (by omega)]

namespace Wait

variable {pipeline : Pipeline ω} {clock : Clock} {id : Hash} {start : Nat} {before after : ω}
  {earlier : List Look} {last : Look}

theorem pollBy_eq (wait : pipeline.Wait clock id start before earlier last after) {rounds : Nat}
    (enough : earlier.length < rounds) :
    pipeline.pollBy clock id rounds start before = ((last.outcome id, last.finish), after) := by
  induction wait generalizing rounds with
  | last looked final =>
      obtain ⟨rounds, rfl⟩ := Nat.exists_eq_add_of_lt enough
      exact pollBy_last _ looked final
  | more looked missing later rest inductionHypothesis =>
      obtain ⟨rounds, rfl⟩ := Nat.exists_eq_succ_of_ne_zero (Nat.ne_zero_of_lt enough)
      rw [pollBy_more rounds looked missing later]
      exact inductionHypothesis (Nat.lt_of_succ_lt_succ enough)

theorem recorded (wait : pipeline.Wait clock id start before earlier last after)
    (events : List PipelineCall) :
    pipeline.recorded.Wait clock id start ⟨before, events⟩ earlier last
      ⟨after, events ++ (earlier ++ [last]).map (.receipt id ·.start)⟩ := by
  induction wait generalizing events with
  | last looked final =>
      exact .last (look_recorded looked events) final
  | @more _ _ _ _ _ look _ _ looked missing later rest inductionHypothesis =>
      have whole := inductionHypothesis (events ++ [.receipt id look.start])
      rw [List.append_assoc] at whole
      exact .more (look_recorded looked events) missing later whole

theorem missing (wait : pipeline.Wait clock id start before earlier last after) :
    ∀ look ∈ earlier, look.receipt? = none := by
  induction wait with
  | last => simp
  | more looked missing later rest inductionHypothesis =>
      exact List.forall_mem_cons.mpr ⟨missing, inductionHypothesis⟩

theorem expired (wait : pipeline.Wait clock id start before earlier last after)
    (missing : last.receipt? = none) : clock.deadline pipeline.config.poll ≤ last.finish := by
  induction wait with
  | last looked final => exact Clock.next?_eq_none_iff.mp (final.resolve_left (· missing))
  | more looked earlierMissing later rest inductionHypothesis => exact inductionHypothesis missing

section Pauses

variable (keeps : clock.KeepsPauses pipeline.config.poll)
include keeps

theorem start_le (wait : pipeline.Wait clock id start before earlier last after)
    (inTime : start ≤ clock.deadline pipeline.config.poll) :
    ∀ look ∈ earlier ++ [last], look.start ≤ clock.deadline pipeline.config.poll := by
  induction wait with
  | last looked final =>
      rw [List.nil_append, List.forall_mem_singleton, look_start looked]
      exact inTime
  | more looked missing later rest inductionHypothesis =>
      obtain ⟨early, rfl⟩ := Clock.next?_eq_some keeps later
      rw [List.cons_append, List.forall_mem_cons, look_start looked]
      exact ⟨inTime, inductionHypothesis (by omega)⟩

theorem length_le (spaced : 0 < clock.interval pipeline.config.poll)
    (wait : pipeline.Wait clock id start before earlier last after) :
    earlier.length ≤
      (clock.deadline pipeline.config.poll - start) ⌈/⌉ clock.interval pipeline.config.poll := by
  induction wait with
  | last => exact Nat.zero_le _
  | more looked missing later rest inductionHypothesis =>
      obtain ⟨early, rfl⟩ := Clock.next?_eq_some keeps later
      have sooner := start_le_finish looked
      rw [List.length_cons,
        ← ceilDiv_sub_add_one spaced (Nat.sub_pos_of_lt (sooner.trans_lt early))]
      refine Nat.succ_le_succ (inductionHypothesis.trans ((gc_mul_ceilDiv spaced).monotone_l ?_))
      omega

theorem length_eq (spaced : 0 < clock.interval pipeline.config.poll)
    (inTime : start ≤ clock.deadline pipeline.config.poll)
    (wait : pipeline.Wait clock id start before earlier last after)
    (idle : ∀ look ∈ earlier ++ [last], look.duration = 0 ∧ look.receipt? = none) :
    earlier.length =
        (clock.deadline pipeline.config.poll - start) ⌈/⌉ clock.interval pipeline.config.poll ∧
      last.start = clock.deadline pipeline.config.poll := by
  induction wait with
  | @last start _ _ look looked final =>
      obtain ⟨instant, missing⟩ := idle look (by simp)
      have late := Clock.next?_eq_none_iff.mp (final.resolve_left (· missing))
      rw [Look.finish, look_start looked, instant] at late
      have same : start = clock.deadline pipeline.config.poll := Nat.le_antisymm inTime late
      rw [look_start looked, same, Nat.sub_self, zero_ceilDiv]
      exact ⟨rfl, rfl⟩
  | @more start _ _ _ _ look _ _ looked missing later rest inductionHypothesis =>
      obtain ⟨early, rfl⟩ := Clock.next?_eq_some keeps later
      obtain ⟨instant, _⟩ := idle look (by simp)
      have finish : look.finish = start := by
        rw [Look.finish, look_start looked, instant, Nat.add_zero]
      rw [finish] at early inductionHypothesis
      obtain ⟨count, deadline⟩ := inductionHypothesis (by omega)
        fun look member => idle look (List.mem_cons_of_mem _ member)
      refine ⟨?_, deadline⟩
      rw [List.length_cons, count, ← ceilDiv_sub_add_one spaced (Nat.sub_pos_of_lt early)]
      congr 2
      omega

end Pauses

end Wait

theorem exists_wait {pipeline : Pipeline ω} {clock : Clock}
    (keeps : clock.KeepsPauses pipeline.config.poll)
    (spaced : 0 < clock.interval pipeline.config.poll) (id : Hash) (start : Nat) (before : ω) :
    ∃ earlier last after, pipeline.Wait clock id start before earlier last after := by
  induction left : clock.deadline pipeline.config.poll - start using Nat.strong_induction_on
    generalizing start before with
  | _ left inductionHypothesis =>
      rcases looked : pipeline.look clock id start before with ⟨look, between⟩
      by_cases missing : look.receipt? = none
      · rcases later : clock.next? pipeline.config.poll look.finish with _ | next
        · exact ⟨[], look, between, .last looked (.inr later)⟩
        · obtain ⟨early, onward⟩ := Clock.next?_eq_some keeps later
          have sooner := start_le_finish looked
          obtain ⟨earlier, last, after, rest⟩ := inductionHypothesis
            (clock.deadline pipeline.config.poll - next) (by omega) next between rfl
          exact ⟨look :: earlier, last, after, .more looked missing later rest⟩
      · exact ⟨[], look, between, .last looked (.inl missing)⟩

theorem ceilDiv_interval {clock : Clock} {poll : Poll} (ticking : 0 < clock.ticks)
    (spaced : 0 < poll.interval.toNat) :
    clock.deadline poll ⌈/⌉ clock.interval poll = poll.timeout.toNat ⌈/⌉ poll.interval.toNat := by
  refine eq_of_forall_ge_iff fun count => ?_
  rw [Clock.deadline, Clock.interval, ceilDiv_le_iff_le_mul (Nat.mul_pos ticking spaced),
    ceilDiv_le_iff_le_mul spaced, Nat.mul_assoc, Nat.mul_le_mul_left_iff ticking]

/-- How a wait goes that starts when the clock is at zero. -/
structure BoundedWait (pipeline : Pipeline ω) (clock : Clock) (id : Hash) (before : ω)
    (earlier : List Look) (last : Look) (after : ω) : Prop where
  looks : pipeline.Wait clock id 0 before earlier last after
  first_receipt : ∀ look ∈ earlier, look.receipt? = none
  expired : last.receipt? = none → clock.deadline pipeline.config.poll ≤ last.finish
  in_time : ∀ look ∈ earlier ++ [last], look.start ≤ clock.deadline pipeline.config.poll
  bounded : (earlier ++ [last]).length ≤
    pipeline.config.poll.timeout.toNat ⌈/⌉ pipeline.config.poll.interval.toNat + 1
  exhausted : (∀ look ∈ earlier ++ [last], look.duration = 0 ∧ look.receipt? = none) →
    (earlier ++ [last]).length =
        pipeline.config.poll.timeout.toNat ⌈/⌉ pipeline.config.poll.interval.toNat + 1 ∧
      last.start = clock.deadline pipeline.config.poll
  runs : ∀ rounds, earlier.length < rounds →
    pipeline.pollBy clock id rounds 0 before = ((last.outcome id, last.finish), after)
  recorded : ∀ rounds, earlier.length < rounds →
    pipeline.recorded.pollBy clock id rounds 0 (.start before) =
      ((last.outcome id, last.finish), ⟨after, (earlier ++ [last]).map (.receipt id ·.start)⟩)
  running : clock = .running →
    pipeline.poll id before = ((last.outcome id, last.finish), after) ∧
      pipeline.recorded.poll id (.start before) =
        ((last.outcome id, last.finish), ⟨after, (earlier ++ [last]).map (.receipt id ·.start)⟩)
  failures : ∀ rounds,
    pipeline.overlooking.pollBy clock id rounds 0 = pipeline.pollBy clock id rounds 0

theorem ceilDiv_lt_pollRounds {poll : Poll} (spaced : 0 < poll.interval.toNat) :
    poll.timeout.toNat ⌈/⌉ poll.interval.toNat < pollRounds poll := by
  have most : poll.timeout.toNat ⌈/⌉ poll.interval.toNat ≤ poll.timeout.toNat :=
    (ceilDiv_le_iff_le_mul spaced).mpr (Nat.le_mul_of_pos_left _ spaced)
  rw [pollRounds]
  omega

/-- By a clock that keeps the pauses, every wait is bounded and ends with the first receipt. -/
theorem wait_bounded {pipeline : Pipeline ω} {clock : Clock} (ticking : 0 < clock.ticks)
    (keeps : clock.KeepsPauses pipeline.config.poll)
    (spaced : 0 < pipeline.config.poll.interval) (id : Hash) (before : ω) :
    ∃ earlier last after, pipeline.BoundedWait clock id before earlier last after := by
  have interval : 0 < pipeline.config.poll.interval.toNat := UInt64.lt_iff_toNat_lt.mp spaced
  have apart : 0 < clock.interval pipeline.config.poll := Nat.mul_pos ticking interval
  obtain ⟨earlier, last, after, wait⟩ := exists_wait keeps apart id 0 before
  have most := wait.length_le keeps apart
  rw [Nat.sub_zero, ceilDiv_interval ticking interval] at most
  have enough := most.trans_lt (ceilDiv_lt_pollRounds interval)
  refine ⟨earlier, last, after, {
    looks := wait
    first_receipt := wait.missing
    expired := wait.expired
    in_time := wait.start_le keeps (Nat.zero_le _)
    bounded := by simpa using most
    exhausted := ?_
    runs := fun rounds => wait.pollBy_eq
    recorded := fun rounds => (wait.recorded []).pollBy_eq
    running := ?_
    failures := fun rounds => pollBy_overlooking pipeline clock id rounds 0 }⟩
  · intro idle
    obtain ⟨count, deadline⟩ := wait.length_eq keeps apart (Nat.zero_le _) idle
    rw [Nat.sub_zero, ceilDiv_interval ticking interval] at count
    exact ⟨by simpa using count, deadline⟩
  · rintro rfl
    rw [poll, poll, ← pollBy_running, ← pollBy_running]
    exact ⟨wait.pollBy_eq enough, (wait.recorded []).pollBy_eq enough⟩

/-- A pipeline that is never answered and looks for a receipt every two seconds, for three. -/
def unanswered : Pipeline Unit where
  signer := { algorithm := .mlDsa44, sign := fun _ _ _ => .fail (.rpc "no answer") }
  services := {
    nonce := fun _ _ => throw (.rpc "no answer")
    fees := throw (.rpc "no answer")
    estimate := fun _ _ => throw (.rpc "no answer")
    send := fun _ _ => throw (.rpc "no answer")
    receipt := fun _ _ => return (.error (.rpc "no answer"), 0) }
  config := { Config.standard with poll := ⟨2000, 3000⟩ }

theorem wait_bounded_unanswered :
    (∃ earlier last after,
        unanswered.BoundedWait .running (Octets.ofNat 32 0x43) () earlier last after) ∧
      ∃ earlier last after,
        unanswered.BoundedWait (.exact 1000000) (Octets.ofNat 32 0x43) () earlier last after :=
  ⟨wait_bounded (by decide) (Clock.keepsPauses_running (.inl (by decide))) (by decide) _ (),
    wait_bounded (by decide) (Clock.keepsPauses_exact 1000000 _) (by decide) _ ()⟩

example :
    (unanswered.recorded.poll (Octets.ofNat 32 0x43) (.start ())).2.events =
      [0, 2000, 3000].map (.receipt (Octets.ofNat 32 0x43)) := by
  decide +kernel

end Pipeline

end Countersign
