import Countersign.Pipeline.Recorded
import Countersign.Proofs.Pipeline.Building

/-!
What a pipeline asks for, in order, on the whole way from a request to the outcome. What is written
down changes nothing, so that a written-down run tells about every run.
-/

namespace Countersign

variable {ω : Type}

theorem Recorded.note_of_eq {σ ε α : Type} (event : α → ε) {action : StateM σ α}
    {before after : σ} {result : α} (events : List ε) (done : action before = (result, after)) :
    note event action ⟨before, events⟩ = (result, ⟨after, events ++ [event result]⟩) := by
  simp only [note, done]

namespace Answers

variable {answers : Answers} {pipeline : Pipeline ω} {request : Request} {before after : ω}

/-- The questions that the answers are given to. -/
def questions (answers : Answers) (pipeline : Pipeline ω) (request : Request) :
    List PipelineCall :=
  [.nonce request.sender request.nonceKey, .fees,
    .estimate (answers.draft pipeline request) pipeline.config.entryPoint,
    .sign (answers.unsigned pipeline request)]

theorem GivenBy.recorded (given : answers.GivenBy pipeline request before after)
    (events : List PipelineCall) :
    answers.GivenBy pipeline.recorded request ⟨before, events⟩
      ⟨after, events ++ answers.questions pipeline request⟩ := by
  obtain ⟨afterNonce, afterFees, afterEstimate, nonce, fees, estimate, signing⟩ := given
  let first : PipelineCall := .nonce request.sender request.nonceKey
  let third : PipelineCall :=
    .estimate (answers.draft pipeline request) pipeline.config.entryPoint
  let fourth : PipelineCall := .sign (answers.unsigned pipeline request)
  have inOrder : events ++ answers.questions pipeline request =
      events ++ [first] ++ [.fees] ++ [third] ++ [fourth] := by
    simp [questions, first, third, fourth]
  rw [inOrder]
  exact ⟨_, _, _, Recorded.note_of_eq (fun _ => first) events nonce,
    Recorded.note_of_eq (fun _ => PipelineCall.fees) _ fees,
    Recorded.note_of_eq (fun _ => third) _ estimate,
    Recorded.note_of_eq (fun _ => fourth) _ signing⟩

end Answers

namespace Pipeline

variable {pipeline : Pipeline ω}

/-- What follows a look for a receipt: an end of the wait, or the time of the next look. -/
def afterLook (poll : Poll) (id : Hash) (start : Nat) :
    Except Error (Option Receipt) × Nat → (Outcome × Nat) ⊕ Nat
  | (answer, duration) =>
      let now := start + min duration longestWait
      match answer with
      | .ok (some receipt) => .inl (.included receipt, now)
      | .ok none | .error _ =>
          if poll.timeout.toNat ≤ now then
            .inl (.pending id, now)
          else
            .inr (now + min (min poll.interval.toNat (poll.timeout.toNat - now)) longestWait)

theorem pollFrom_succ (pipeline : Pipeline ω) (id : Hash) (rounds start : Nat) (state : ω) :
    pipeline.pollFrom id (rounds + 1) start state =
      match afterLook pipeline.config.poll id start (pipeline.services.receipt id start state).1 with
      | .inl ending => (ending, (pipeline.services.receipt id start state).2)
      | .inr next =>
          pipeline.pollFrom id rounds next (pipeline.services.receipt id start state).2 := by
  rcases looked : pipeline.services.receipt id start state with ⟨⟨answer, duration⟩, later⟩
  by_cases late : pipeline.config.poll.timeout.toNat ≤ start + min duration longestWait <;>
    rcases answer with error | (_ | receipt) <;>
      simp [pollFrom, afterLook, looked, late]

/-- Looks for a receipt are all for one operation, and writing them down changes nothing. -/
theorem pollFrom_recorded (pipeline : Pipeline ω) (id : Hash) (rounds start : Nat) (state : ω)
    (events : List PipelineCall) :
    ∃ times : List Nat,
      pipeline.recorded.pollFrom id rounds start ⟨state, events⟩ =
        ((pipeline.pollFrom id rounds start state).1,
          ⟨(pipeline.pollFrom id rounds start state).2, events ++ times.map (.receipt id)⟩) := by
  induction rounds generalizing start state events with
  | zero => exact ⟨[], by simp [pollFrom]⟩
  | succ rounds inductionHypothesis =>
      have looked : pipeline.recorded.services.receipt id start ⟨state, events⟩ =
          ((pipeline.services.receipt id start state).1,
            ⟨(pipeline.services.receipt id start state).2, events ++ [.receipt id start]⟩) :=
        rfl
      have rules : pipeline.recorded.config = pipeline.config := rfl
      rw [pollFrom_succ, pollFrom_succ, looked, rules]
      dsimp only
      rcases afterLook pipeline.config.poll id start (pipeline.services.receipt id start state).1
        with ending | next
      · exact ⟨[start], rfl⟩
      · obtain ⟨times, rest⟩ := inductionHypothesis next
          (pipeline.services.receipt id start state).2 (events ++ [.receipt id start])
        refine ⟨start :: times, ?_⟩
        dsimp only
        rw [rest, List.append_assoc]
        rfl

theorem poll_recorded (pipeline : Pipeline ω) (id : Hash) (state : ω)
    (events : List PipelineCall) :
    ∃ times : List Nat,
      pipeline.recorded.poll id ⟨state, events⟩ =
        ((pipeline.poll id state).1,
          ⟨(pipeline.poll id state).2, events ++ times.map (.receipt id)⟩) := by
  rw [poll, poll]
  exact pollFrom_recorded pipeline id (pollRounds pipeline.config.poll) 0 state events

/-- A failure to send as it is reported: it keeps its kind if it says that the operation was refused
or that the service was not reached, and is a refusal in its own words otherwise. -/
def SendingReported (error reported : Error) : Prop :=
  ((∃ text, error = .submission text) ∨ (∃ text, error = .rpc text)) ∧ reported = error ∨
    (∀ text, error ≠ .submission text) ∧ (∀ text, error ≠ .rpc text) ∧
      reported = .submission error.message

theorem sendingReported (error : Error) : SendingReported error (submissionError error) := by
  cases error with
  | submission text => exact .inl ⟨.inl ⟨text, rfl⟩, rfl⟩
  | rpc text => exact .inl ⟨.inr ⟨text, rfl⟩, rfl⟩
  | _ => exact .inr ⟨nofun, nofun, rfl⟩

theorem submit_ok {signed : SignedOperation} {before after : ω} {id : Hash}
    (sent : pipeline.services.send signed.operation signed.entryPoint before = (.ok id, after)) :
    pipeline.submit signed before = (.ok id, after) := by
  rw [submit, Task.adapt_apply, sent]
  rfl

theorem submit_error {signed : SignedOperation} {before after : ω} {error : Error}
    (failed : pipeline.services.send signed.operation signed.entryPoint before =
      (.error error, after)) :
    pipeline.submit signed before = (.error (submissionError error), after) := by
  rw [submit, Task.adapt_apply, failed]
  rfl

section Ends

variable {request : Request} {before after last : ω} {signed : SignedOperation}

theorem execute_of_unbuilt {error : Error}
    (built : pipeline.build request before = (.error error, after)) :
    pipeline.execute request before = (.error error, after) := by
  rw [execute, Task.bind_error built]

theorem execute_of_unsent {error : Error}
    (built : pipeline.build request before = (.ok signed, after))
    (failed : pipeline.services.send signed.operation signed.entryPoint after =
      (.error error, last)) :
    pipeline.execute request before = (.error (submissionError error), last) := by
  rw [execute, Task.bind_ok built, Task.bind_error (submit_error failed)]

theorem execute_of_sent {id : Hash}
    (built : pipeline.build request before = (.ok signed, after))
    (taken : pipeline.services.send signed.operation signed.entryPoint after = (.ok id, last)) :
    pipeline.execute request before =
      (.ok (pipeline.poll id last).1, (pipeline.poll id last).2) := by
  rw [execute, Task.bind_ok built, Task.bind_ok (submit_ok taken), Task.lift_apply]

end Ends

/-- How the way from a request ends, in which state of those who are asked, and what they have been
asked for by then. -/
inductive Course (pipeline : Pipeline ω) (request : Request) (before : ω) :
    Except Error (Outcome × Nat) → ω → List PipelineCall → Prop
  /-- The signer fails. -/
  | unsigned {answers : Answers} {after : ω} {error : Error}
      (given : answers.GivenBy pipeline request before after)
      (failed : answers.signing = .error (.failure error)) :
      Course pipeline request before (.error error) after (answers.questions pipeline request)
  /-- The signer crashes. -/
  | crashed {answers : Answers} {after : ω}
      (given : answers.GivenBy pipeline request before after)
      (crashed : answers.signing = .error .crash) :
      Course pipeline request before (.error (.signing .crashed)) after
        (answers.questions pipeline request)
  /-- The operation is signed but not taken. -/
  | unsent {answers : Answers} {after last : ω} {signed : SignedOperation}
      {error reported : Error} (given : answers.GivenBy pipeline request before after)
      (built : pipeline.build request before = (.ok signed, after))
      (failed : pipeline.services.send signed.operation signed.entryPoint after =
        (.error error, last))
      (report : SendingReported error reported) :
      Course pipeline request before (.error reported) last
        (answers.questions pipeline request ++ [.send signed.operation signed.entryPoint])
  /-- The operation is taken, and receipts are looked for under the name that it was given. -/
  | sent {answers : Answers} {after afterSend last : ω} {signed : SignedOperation} {id : Hash}
      {outcome : Outcome × Nat} {times : List Nat}
      (given : answers.GivenBy pipeline request before after)
      (built : pipeline.build request before = (.ok signed, after))
      (taken : pipeline.services.send signed.operation signed.entryPoint after =
        (.ok id, afterSend))
      (waited : pipeline.poll id afterSend = (outcome, last)) :
      Course pipeline request before (.ok outcome) last
        (answers.questions pipeline request ++
          (.send signed.operation signed.entryPoint :: times.map (.receipt id)))

/-- The whole way is one of these courses, and writing down what is asked for changes nothing. -/
theorem execute_follows_course (pipeline : Pipeline ω) (request : Request) (before : ω) :
    ∃ result last events,
      pipeline.recorded.execute request (.start before) = (result, ⟨last, events⟩) ∧
        pipeline.execute request before = (result, last) ∧
        pipeline.Course request before result last events := by
  obtain ⟨answers, after, given⟩ := Answers.exists_givenBy pipeline request before
  have built := build_apply given
  have builtRecorded := build_apply (given.recorded [])
  have same : answers.outcome pipeline.recorded request = answers.outcome pipeline request := rfl
  rw [same, List.nil_append] at builtRecorded
  rcases answer : answers.signing with (error | _) | signature
  · rw [Answers.outcome, answer] at built builtRecorded
    exact ⟨_, _, _, execute_of_unbuilt builtRecorded, execute_of_unbuilt built,
      .unsigned given answer⟩
  · rw [Answers.outcome, answer] at built builtRecorded
    exact ⟨_, _, _, execute_of_unbuilt builtRecorded, execute_of_unbuilt built,
      .crashed given answer⟩
  · rw [Answers.outcome, answer] at built builtRecorded
    let signed := answers.signed pipeline request signature
    let asked := answers.questions pipeline request
    let sending := PipelineCall.send signed.operation signed.entryPoint
    rcases reply : pipeline.services.send signed.operation signed.entryPoint after with
      ⟨error | id, afterSend⟩
    · have replyRecorded : pipeline.recorded.services.send signed.operation signed.entryPoint
          ⟨after, asked⟩ = (.error error, ⟨afterSend, asked ++ [sending]⟩) :=
        Recorded.note_of_eq (fun _ => sending) asked reply
      exact ⟨_, _, _, execute_of_unsent builtRecorded replyRecorded, execute_of_unsent built reply,
        .unsent given built reply (sendingReported error)⟩
    · have replyRecorded : pipeline.recorded.services.send signed.operation signed.entryPoint
          ⟨after, asked⟩ = (.ok id, ⟨afterSend, asked ++ [sending]⟩) :=
        Recorded.note_of_eq (fun _ => sending) asked reply
      obtain ⟨times, waited⟩ := poll_recorded pipeline id afterSend (asked ++ [sending])
      rcases ending : pipeline.poll id afterSend with ⟨outcome, last⟩
      rw [ending] at waited
      have whole := execute_of_sent built reply
      have wholeRecorded := execute_of_sent builtRecorded replyRecorded
      rw [ending] at whole
      rw [waited, List.append_assoc] at wholeRecorded
      exact ⟨_, _, _, wholeRecorded, whole, .sent given built reply ending⟩

end Pipeline

end Countersign
