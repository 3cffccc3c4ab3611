import Countersign.Apdu
import Countersign.Path
import Countersign.Task

/-!
Sessions with a secure element: the channel to it, the seed that it holds, and the exchange of one
command for one response. A session that has been closed sends nothing any more.
-/

namespace Countersign

/-- A channel that carries one command at a time to a secure element and brings back its raw
response. What it changes on the way is its state. -/
structure Transport (σ : Type) where
  exchange : Bytes → Task σ Bytes
  isConnected : σ → Bool
  release : σ → σ

/-- A session: the state of its channel, the path and scheme of the seed that the element has
derived in it, and whether the channel has been given back. -/
structure Session (σ : Type) where
  channel : σ
  derived : Option (Path × Algorithm)
  closed : Bool

/-- What a command asks for. -/
inductive Instruction
  | readClassicalKey
  | signHash
  | deriveSeed
  | generateKey
  | readPublicKey
  | signMessage
  | readSignature
  | hybridSign
  | clearSign
deriving DecidableEq

/-- The instruction byte. -/
def Instruction.code : Instruction → UInt8
  | readClassicalKey => 0x02
  | signHash => 0x04
  | deriveSeed => 0x10
  | generateKey => 0x11
  | readPublicKey => 0x12
  | signMessage => 0x13
  | readSignature => 0x14
  | hybridSign => 0x15
  | clearSign => 0x16

namespace Session

variable {σ : Type}

/-- A session that has just begun. -/
def start (channel : σ) : Session σ :=
  ⟨channel, none, false⟩

def isConnected (transport : Transport σ) (session : Session σ) : Bool :=
  !session.closed && transport.isConnected session.channel

/-- Gives the channel back, once, and forgets the seed. -/
def close (transport : Transport σ) (session : Session σ) : Session σ :=
  if session.closed then session else ⟨transport.release session.channel, none, true⟩

/-- The class byte of every command. -/
def commandClass : UInt8 := 0xE0

/-- The session with its channel in another state. -/
def setChannel (channel : σ) (session : Session σ) : Session σ :=
  { session with channel }

/-- Sends a command and returns the data of its response, which has to be a success. -/
def transmit (transport : Transport σ) (instruction : Instruction) (p1 p2 : UInt8) (data : Bytes) :
    Task (Session σ) Bytes := do
  if (← get).closed then
    Task.fail (.channel .closed)
  else
    let command ← Task.ofExcept (Command.make commandClass instruction.code p1 p2 data)
    let raw ← Task.focus channel setChannel (transport.exchange command.toBytes)
    let response ← Task.ofExcept (Response.ofBytes raw)
    Task.ofExcept response.check
    return response.data

private def derivedText : Option (Path × Algorithm) → String
  | none => "None"
  | some (path, algorithm) => "Some((" ++ path.summary ++ ", " ++ algorithm.label ++ "))"

def summary (session : Session σ) : String :=
  "DeviceSession \x7b derived: " ++ derivedText session.derived ++ ", closed: " ++
    (if session.closed then "true" else "false") ++ ", .. \x7d"

end Session

end Countersign
