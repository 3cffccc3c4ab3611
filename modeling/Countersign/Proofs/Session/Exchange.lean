import Countersign.Proofs.Task
import Countersign.Proofs.Wire
import Countersign.Session.Recorded

/-!
What it does to a session to send a command. Every task on a session sends its commands by
`transmit`, so that what is said here is all that a channel ever sees.
-/

namespace Countersign

/-- The command with an instruction, whose data fit. -/
def Instruction.command (instruction : Instruction) (p1 p2 : UInt8) (data : Bytes)
    (fits : data.length ≤ 255) : Command :=
  ⟨Session.commandClass, instruction.code, p1, p2, data, fits⟩

theorem Instruction.code_injective {left right : Instruction} (same : left.code = right.code) :
    left = right := by
  revert same
  cases left <;> cases right <;> decide

/-- The data of a raw response, which has to be a success. -/
def Response.read (raw : Bytes) : Except Error Bytes :=
  match Response.ofBytes raw with
  | .error error => .error error
  | .ok response => response.check.map fun _ => response.data

namespace Response

theorem read_of_parsed {raw : Bytes} {response : Response}
    (parsed : ofBytes raw = .ok response) :
    read raw = if response.status = success then .ok response.data
      else .error (.status response.status) := by
  unfold Response.read
  rw [parsed]
  by_cases succeeds : response.status = success
  · simp [check, isSuccess, succeeds, Except.map]
  · simp [check, isSuccess, succeeds, Except.map]

/-- Only a response with the status word of success is read as data. -/
theorem read_eq_ok {raw data : Bytes} (yields : read raw = .ok data) :
    ofBytes raw = .ok ⟨data, success⟩ := by
  cases parsed : ofBytes raw with
  | error error =>
      unfold Response.read at yields
      rw [parsed] at yields
      cases yields
  | ok response =>
      obtain ⟨found, status⟩ := response
      rw [read_of_parsed parsed] at yields
      by_cases succeeds : status = success
      · subst succeeds
        rw [if_pos rfl] at yields
        cases yields
        rfl
      · rw [if_neg succeeds] at yields
        cases yields

@[simp] theorem read_success (data : Bytes) : read (toBytes ⟨data, success⟩) = .ok data := by
  rw [read_of_parsed (ofBytes_toBytes _), if_pos rfl]

theorem read_refusal {response : Response} (refused : response.status ≠ success) :
    read response.toBytes = .error (.status response.status) := by
  rw [read_of_parsed (ofBytes_toBytes _), if_neg refused]

end Response

namespace Session

variable {σ : Type}

/-- What comes of a command. -/
def reply (transport : Transport σ) (command : Command) (session : Session σ) :
    Except Halt Bytes :=
  (transport.exchange command.toBytes session.channel).1

/-- The session after a command. -/
def sent (transport : Transport σ) (command : Command) (session : Session σ) : Session σ :=
  { session with channel := (transport.exchange command.toBytes session.channel).2 }

/-- What the sender makes of what comes of a command. -/
def received : Except Halt Bytes → Except Halt Bytes
  | .error halt => .error halt
  | .ok raw =>
      match Response.read raw with
      | .ok data => .ok data
      | .error error => .error (.failure error)

section Transmit

variable (transport : Transport σ) (instruction : Instruction) (p1 p2 : UInt8) (data : Bytes)
  {session : Session σ}

theorem transmit_closed (closed : session.closed = true) :
    transmit transport instruction p1 p2 data session =
      (.error (.failure (.channel .closed)), session) := by
  unfold transmit
  rw [Task.bind_ok (Task.get_apply session), if_pos closed, Task.fail_apply]

theorem transmit_tooLong (isOpen : session.closed = false) (long : ¬ data.length ≤ 255) :
    transmit transport instruction p1 p2 data session =
      (.error (.failure (.validation (.payloadTooLong data.length))), session) := by
  have refused : Command.make commandClass instruction.code p1 p2 data =
      .error (.validation (.payloadTooLong data.length)) := dif_neg long
  unfold transmit
  rw [Task.bind_ok (Task.get_apply session), isOpen, refused]
  simp only [Bool.false_eq_true, if_false]
  rw [Task.bind_error (Task.ofExcept_error_apply _ session)]

private theorem read_apply (raw : Bytes) (later : Session σ) :
    (do
      let response ← Task.ofExcept (Response.ofBytes raw)
      Task.ofExcept response.check
      return response.data : Task (Session σ) Bytes) later = (received (.ok raw), later) := by
  unfold received Response.read
  dsimp only
  cases Response.ofBytes raw with
  | error error => rfl
  | ok response =>
      rw [Task.bind_ok (Task.ofExcept_ok_apply response later)]
      dsimp only
      cases response.check with
      | error error => rfl
      | ok _ => rfl

theorem transmit_sent (isOpen : session.closed = false) (fits : data.length ≤ 255) :
    transmit transport instruction p1 p2 data session =
      (received (session.reply transport (instruction.command p1 p2 data fits)),
        session.sent transport (instruction.command p1 p2 data fits)) := by
  have made : Command.make commandClass instruction.code p1 p2 data =
      .ok (instruction.command p1 p2 data fits) := Command.make_of_fits fits
  generalize instruction.command p1 p2 data fits = command at made ⊢
  have focused : Task.focus channel setChannel (transport.exchange command.toBytes) session =
      (session.reply transport command, session.sent transport command) := rfl
  unfold transmit
  rw [Task.bind_ok (Task.get_apply session), isOpen, made]
  simp only [Bool.false_eq_true, if_false]
  rw [Task.bind_ok (Task.ofExcept_ok_apply command session)]
  cases answered : session.reply transport command with
  | error halt =>
      rw [answered] at focused
      rw [Task.bind_error focused]
      rfl
  | ok raw =>
      rw [answered] at focused
      rw [Task.bind_ok focused]
      exact read_apply raw _

end Transmit

/-- A command that is answered with data was granted by the other side. -/
theorem received_eq_ok {reply : Except Halt Bytes} {data : Bytes}
    (yields : received reply = .ok data) :
    ∃ raw, reply = .ok raw ∧ Response.ofBytes raw = .ok ⟨data, Response.success⟩ := by
  cases reply with
  | error halt => cases yields
  | ok raw =>
      refine ⟨raw, rfl, ?_⟩
      cases read : Response.read raw with
      | error error =>
          simp only [received, read] at yields
          cases yields
      | ok found =>
          simp only [received, read] at yields
          cases yields
          exact Response.read_eq_ok read

/-- What was done with the channel of a session. -/
def log (session : Session (Recorded σ ChannelEvent)) : List ChannelEvent :=
  session.channel.events

theorem log_sent (transport : Transport σ) (command : Command)
    (session : Session (Recorded σ ChannelEvent)) :
    (session.sent transport.recorded command).log =
      session.log ++
        [.exchanged command.toBytes (session.reply transport.recorded command)] := rfl

end Session

/-- An element that gives the responses it was told to give, and then none. -/
def scripted : Transport (List Bytes) where
  exchange _ := fun responses =>
    match responses with
    | [] => (.error (.failure (.channel .closed)), [])
    | response :: later => (.ok response, later)
  isConnected _ := true
  release responses := responses

end Countersign
