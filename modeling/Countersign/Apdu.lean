import Countersign.Error

/-!
Short commands to a secure element and its responses, and their form on the wire.
-/

namespace Countersign

/-- A command: class, instruction, two parameters and at most 255 bytes of data. -/
structure Command where
  cla : UInt8
  ins : UInt8
  p1 : UInt8
  p2 : UInt8
  data : Bytes
  length_le : data.length ≤ 255
deriving DecidableEq

namespace Command

def make (cla ins p1 p2 : UInt8) (data : Bytes) : Except Error Command :=
  if length_le : data.length ≤ 255 then .ok ⟨cla, ins, p1, p2, data, length_le⟩
  else .error (.validation (.payloadTooLong data.length))

/-- The header, the length of the data in one byte, and the data. -/
def toBytes (command : Command) : Bytes :=
  command.cla :: command.ins :: command.p1 :: command.p2 ::
    UInt8.ofNat command.data.length :: command.data

def ofBytes (bytes : Bytes) : Except Error Command :=
  match bytes with
  | cla :: ins :: p1 :: p2 :: declared :: data =>
      if declared.toNat = data.length then make cla ins p1 p2 data
      else .error (.protocol (.commandLength declared.toNat data.length))
  | _ => .error (.protocol (.commandTooShort bytes.length))

end Command

/-- A response: data and a status word. -/
structure Response where
  data : Bytes
  status : UInt16
deriving DecidableEq

namespace Response

/-- The status word of success. -/
def success : UInt16 := 0x9000

/-- The data and the two bytes of the status word. -/
def toBytes (response : Response) : Bytes :=
  response.data ++ Bytes.ofNatBE 2 response.status.toNat

def ofBytes (bytes : Bytes) : Except Error Response :=
  if bytes.length < 2 then
    .error (.protocol (.statusMissing bytes.length))
  else
    let length := bytes.length - 2
    .ok ⟨bytes.take length, UInt16.ofNat (Bytes.toNatBE (bytes.drop length))⟩

def isSuccess (response : Response) : Bool :=
  response.status = success

/-- Turns every status word but that of success into a failure. -/
def check (response : Response) : Except Error Unit :=
  if response.isSuccess then .ok () else .error (.status response.status)

end Response

end Countersign
