import Countersign.Apdu
import Countersign.Path
import Countersign.Proofs.Bytes

/-!
The wire forms of commands, responses and derivation paths are read back as what was written, and
which byte strings are commands and responses. A command is told by its fifth byte, which counts
what is behind it; of a response only the last two bytes matter, whatever stands before them.
-/

namespace Countersign

theorem Command.make_of_fits {cla ins p1 p2 : UInt8} {data : Bytes} (fits : data.length ≤ 255) :
    Command.make cla ins p1 p2 data = .ok ⟨cla, ins, p1, p2, data, fits⟩ := by
  unfold Command.make
  rw [dif_pos fits]

/-- The byte that counts the data of a command does count them. -/
theorem Command.declared_eq (command : Command) :
    (UInt8.ofNat command.data.length).toNat = command.data.length := by
  have fits := command.length_le
  rw [UInt8.toNat_ofNat']
  omega

@[simp] theorem Command.ofBytes_toBytes (command : Command) :
    Command.ofBytes command.toBytes = .ok command := by
  unfold Command.toBytes Command.ofBytes
  dsimp only
  rw [if_pos command.declared_eq, Command.make_of_fits command.length_le]

@[simp] theorem Response.ofBytes_toBytes (response : Response) :
    Response.ofBytes response.toBytes = .ok response := by
  have whole : response.toBytes.length - 2 = response.data.length := by
    simp [Response.toBytes]
  have long : ¬ response.toBytes.length < 2 := by
    simp [Response.toBytes]
  have status : UInt16.ofNat (Bytes.toNatBE (Bytes.ofNatBE 2 response.status.toNat)) =
      response.status := by
    have small : response.status.toNat < 256 ^ 2 := response.status.toNat_lt
    rw [Bytes.toNatBE_ofNatBE, Nat.mod_eq_of_lt small, UInt16.ofNat_toNat]
  unfold Response.ofBytes
  simp only [if_neg long, whole]
  rw [Response.toBytes, List.take_left, List.drop_left, status]

theorem Response.toBytes_of_ofBytes {raw : Bytes} {response : Response}
    (parsed : Response.ofBytes raw = .ok response) : response.toBytes = raw := by
  rw [Response.ofBytes] at parsed
  split at parsed
  · cases parsed
  · rename_i long
    cases parsed
    have two : (raw.drop (raw.length - 2)).length = 2 := by
      rw [List.length_drop]
      omega
    have word := Bytes.ofNatBE_toNatBE (raw.drop (raw.length - 2))
    have below := Bytes.toNatBE_lt (raw.drop (raw.length - 2))
    rw [two] at word below
    rw [Response.toBytes, UInt16.toNat_ofNat_of_lt' below, word, List.take_append_drop]

namespace Path

/-- The path without components. -/
def root : Path :=
  ⟨[], Nat.zero_le 10⟩

theorem length_flatMap_componentBytes (components : List UInt32) :
    (components.flatMap componentBytes).length = components.length * 4 := by
  induction components with
  | nil => rfl
  | cons component rest inductionHypothesis =>
      rw [List.flatMap_cons, List.length_append, inductionHypothesis, List.length_cons,
        componentBytes, Bytes.length_ofNatBE]
      omega

theorem length_toPayload (path : Path) :
    path.toPayload.length = 1 + 4 * path.components.length := by
  rw [toPayload, List.length_cons, length_flatMap_componentBytes]
  omega

theorem length_toPayload_le (path : Path) : path.toPayload.length ≤ 41 := by
  have shallow := path.depth_le
  rw [length_toPayload]
  omega

theorem readComponent_componentBytes (component : UInt32) :
    readComponent (componentBytes component) = component := by
  have small : component.toNat < 256 ^ 4 := component.toNat_lt
  unfold readComponent componentBytes
  rw [Bytes.toNatBE_ofNatBE, Nat.mod_eq_of_lt small, UInt32.ofNat_toNat]

theorem readComponents_flatMap (components : List UInt32) :
    (Bytes.pieces 4 (components.flatMap componentBytes)).map readComponent = components := by
  have full : ∀ block ∈ components.map componentBytes, block.length = 4 := by
    intro block member
    obtain ⟨component, _, rfl⟩ := List.mem_map.mp member
    exact Bytes.length_ofNatBE 4 component.toNat
  rw [List.flatMap_def, Bytes.pieces_flatten (by decide) full, List.map_map]
  have same : readComponent ∘ componentBytes = id := funext readComponent_componentBytes
  rw [same, List.map_id]

/-- The wire form of a path tells where it ends. -/
theorem ofPayload_toPayload_append (path : Path) (rest : Bytes) :
    ofPayload (path.toPayload ++ rest) = .ok (path, rest) := by
  have shallow := path.depth_le
  have declared : (UInt8.ofNat path.components.length).toNat * 4 =
      (path.components.flatMap componentBytes).length := by
    rw [length_flatMap_componentBytes, UInt8.toNat_ofNat']
    omega
  have available : ¬ (path.components.flatMap componentBytes ++ rest).length <
      (path.components.flatMap componentBytes).length := by
    rw [List.length_append]
    omega
  rw [toPayload, List.cons_append, ofPayload]
  simp only [declared, if_neg available, List.take_left, List.drop_left]
  rw [readComponents_flatMap, ofComponents, dif_pos shallow]
  rfl

theorem ofPayload_toPayload (path : Path) : ofPayload path.toPayload = .ok (path, []) := by
  have read := ofPayload_toPayload_append path []
  rwa [List.append_nil] at read

end Path

namespace Command

variable {bytes : Bytes} {command : Command}

/-- There are five bytes at least, and the fifth of them counts those behind it. -/
def Announced (bytes : Bytes) : Prop :=
  5 ≤ bytes.length ∧ bytes[4]?.map UInt8.toNat = some (bytes.length - 5)

/-- What is behind a byte that counts it fits a command. -/
theorem length_le_of_counted {declared : UInt8} {data : Bytes}
    (counted : declared.toNat = data.length) : data.length ≤ 255 := by
  have byte := declared.toNat_lt
  omega

/-- Bytes are read as the command that is written as them, or they break the rules of the protocol;
they are never refused for too much data. -/
theorem ofBytes_cases (bytes : Bytes) :
    (∃ command, ofBytes bytes = .ok command ∧ command.toBytes = bytes) ∨
      ∃ violation, ofBytes bytes = .error (.protocol violation) := by
  unfold ofBytes
  split
  case h_1 cla ins p1 p2 declared data =>
    split
    case isTrue counted =>
      have fits := length_le_of_counted counted
      refine .inl ⟨_, make_of_fits fits, ?_⟩
      simp only [toBytes, ← counted, UInt8.ofNat_toNat]
    case isFalse => exact .inr ⟨_, rfl⟩
  case h_2 => exact .inr ⟨_, rfl⟩

theorem ofBytes_eq_ok_iff : ofBytes bytes = .ok command ↔ command.toBytes = bytes := by
  constructor
  · intro read
    rcases ofBytes_cases bytes with ⟨found, readFound, written⟩ | ⟨violation, refused⟩
    · rw [readFound] at read
      cases read
      exact written
    · rw [refused] at read
      cases read
  · rintro rfl
    exact ofBytes_toBytes command

theorem announced_toBytes (command : Command) : Announced command.toBytes := by
  constructor
  · simp [toBytes]
  · simp [toBytes, command.declared_eq]

theorem exists_of_announced (announced : Announced bytes) :
    ∃ command : Command, command.toBytes = bytes := by
  obtain ⟨long, counted⟩ := announced
  match bytes, long with
  | cla :: ins :: p1 :: p2 :: declared :: data, _ =>
      have length : declared.toNat = data.length := by simpa using counted
      refine ⟨⟨cla, ins, p1, p2, data, length_le_of_counted length⟩, ?_⟩
      simp only [toBytes, ← length, UInt8.ofNat_toNat]

theorem exists_ofBytes_iff : (∃ command, ofBytes bytes = .ok command) ↔ Announced bytes := by
  constructor
  · rintro ⟨command, read⟩
    rw [← ofBytes_eq_ok_iff.mp read]
    exact announced_toBytes command
  · intro announced
    obtain ⟨command, written⟩ := exists_of_announced announced
    exact ⟨command, ofBytes_eq_ok_iff.mpr written⟩

end Command

namespace Response

variable {bytes : Bytes} {response : Response}

theorem ofBytes_of_short (short : bytes.length < 2) :
    ofBytes bytes = .error (.protocol (.statusMissing bytes.length)) :=
  if_pos short

theorem exists_ofBytes (long : 2 ≤ bytes.length) :
    ∃ response, ofBytes bytes = .ok response ∧ response.toBytes = bytes := by
  have read : ∃ response, ofBytes bytes = .ok response := ⟨_, if_neg (by omega)⟩
  obtain ⟨response, read⟩ := read
  exact ⟨response, read, toBytes_of_ofBytes read⟩

/-- The last two bytes are the status word, most significant byte first. -/
theorem toNat_status (response : Response) :
    response.status.toNat =
      Bytes.toNatBE (response.toBytes.drop (response.toBytes.length - 2)) := by
  have small : response.status.toNat < 256 ^ 2 := response.status.toNat_lt
  have front : response.toBytes.length - 2 = response.data.length := by
    simp [toBytes]
  rw [front, toBytes, List.drop_left, Bytes.toNatBE_ofNatBE, Nat.mod_eq_of_lt small]

theorem check_of_success (succeeds : response.status = success) : response.check = .ok () := by
  simp [check, isSuccess, succeeds]

theorem check_of_other (other : response.status ≠ success) :
    response.check = .error (.status response.status) := by
  simp [check, isSuccess, other]

theorem status_eq_success_iff (response : Response) :
    response.status = success ↔ [0x90, 0x00] <:+ response.toBytes := by
  constructor
  · intro succeeds
    refine ⟨response.data, ?_⟩
    rw [toBytes, succeeds]
    rfl
  · rintro ⟨front, split⟩
    have word := (List.append_inj' split (by simp)).2
    have number := response.toNat_status
    rw [← split, List.length_append, List.length_cons, List.length_singleton,
      Nat.add_sub_cancel, List.drop_left] at number
    exact UInt16.toNat_inj.mp number

theorem check_eq_ok_iff (response : Response) :
    response.check = .ok () ↔ [0x90, 0x00] <:+ response.toBytes := by
  rw [← status_eq_success_iff]
  by_cases succeeds : response.status = success
  · simp [check_of_success succeeds, succeeds]
  · simp [check_of_other succeeds, succeeds]

end Response

/-- What is written is read back. The byte strings that are read as commands are those whose fifth
byte counts what is behind it, and all of two bytes or more are read as responses; what was read is
written as the same bytes. A response is a success just if it ends in the word of success, and any
other word at its end is what the failure tells. -/
theorem frames_exact (bytes : Bytes) :
    (∀ cla ins p1 p2 data, data.length ≤ 255 →
      ∃ command, Command.make cla ins p1 p2 data = .ok command ∧
        command.toBytes = [cla, ins, p1, p2, UInt8.ofNat data.length] ++ data ∧
        Command.ofBytes command.toBytes = .ok command) ∧
    (∀ command, Command.ofBytes bytes = .ok command ↔ command.toBytes = bytes) ∧
    ((∃ command, Command.ofBytes bytes = .ok command) ↔
      5 ≤ bytes.length ∧ bytes[4]?.map UInt8.toNat = some (bytes.length - 5)) ∧
    ((∀ command, Command.ofBytes bytes ≠ .ok command) →
      ∃ violation, Command.ofBytes bytes = .error (.protocol violation)) ∧
    (∀ data status, Response.ofBytes (Response.toBytes ⟨data, status⟩) = .ok ⟨data, status⟩) ∧
    (bytes.length < 2 →
      Response.ofBytes bytes = .error (.protocol (.statusMissing bytes.length))) ∧
    (2 ≤ bytes.length →
      ∃ response, Response.ofBytes bytes = .ok response ∧ response.toBytes = bytes ∧
        response.status.toNat = Bytes.toNatBE (bytes.drop (bytes.length - 2)) ∧
        (response.check = .ok () ↔ [0x90, 0x00] <:+ bytes) ∧
        (¬ [0x90, 0x00] <:+ bytes → response.check = .error (.status response.status))) := by
  refine ⟨?made, fun _ => Command.ofBytes_eq_ok_iff, Command.exists_ofBytes_iff, ?refused,
    fun data status => Response.ofBytes_toBytes ⟨data, status⟩, Response.ofBytes_of_short, ?read⟩
  case made =>
    intro cla ins p1 p2 data fits
    exact ⟨_, Command.make_of_fits fits, rfl, Command.ofBytes_toBytes _⟩
  case refused =>
    intro unread
    rcases Command.ofBytes_cases bytes with ⟨command, read, _⟩ | refused
    · exact absurd read (unread command)
    · exact refused
  case read =>
    intro long
    obtain ⟨response, read, rfl⟩ := Response.exists_ofBytes long
    refine ⟨response, read, rfl, response.toNat_status, response.check_eq_ok_iff, ?_⟩
    intro other
    apply Response.check_of_other
    rwa [Ne, Response.status_eq_success_iff]

/-- A command whose data look like the word of success is a response as well. -/
theorem frames_exact_both :
    let bytes : Bytes := [0xE0, 0x15, 0x00, 0x01, 0x02, 0x90, 0x00]
    (∃ command, Command.ofBytes bytes = .ok command ∧ command.toBytes = bytes) ∧
      ∃ response, Response.ofBytes bytes = .ok response ∧ response.data.length = 5 ∧
        response.check = .ok () := by
  intro bytes
  obtain ⟨_, exact, announced, _, _, _, responses⟩ := frames_exact bytes
  obtain ⟨command, read⟩ := announced.mpr ⟨by decide, by decide⟩
  obtain ⟨response, readResponse, written, _, checked, _⟩ := responses (by decide)
  have length : response.data.length = 5 := by
    simpa [Response.toBytes, bytes] using congrArg List.length written
  have ending : [0x90, 0x00] <:+ bytes := ⟨[0xE0, 0x15, 0x00, 0x01, 0x02], rfl⟩
  exact ⟨⟨command, read, (exact command).mp read⟩, response, readResponse, length,
    checked.mpr ending⟩

end Countersign
