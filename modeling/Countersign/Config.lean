import Countersign.Gas

/-!
How operations are built, priced and followed. A document may leave out any part of a
configuration; what it gives is put over the standard one, and the whole is checked then.
-/

namespace Countersign

/-- How often a receipt is asked for and how long, in milliseconds. -/
structure Poll where
  interval : UInt64
  timeout : UInt64
deriving DecidableEq

namespace Poll

def standard : Poll :=
  ⟨2000, 60000⟩

def json (poll : Poll) : String :=
  Json.writeRecord
    [("intervalMs", Json.writeNat poll.interval.toNat),
      ("timeoutMs", Json.writeNat poll.timeout.toNat)]

def keys : List String := ["intervalMs", "timeoutMs"]

def ofValue? (value : Json.Value) : Option Poll :=
  match Json.fields? keys value with
  | some [interval, timeout] => do
      return {
        interval := ← Json.optional standard.interval Json.uint64? interval
        timeout := ← Json.optional standard.timeout Json.uint64? timeout }
  | _ => none

end Poll

/-- The entry point and chain that operations are signed for, and the rules by which they are
priced and followed. -/
structure Config where
  entryPoint : Address
  chainId : UInt64
  gas : GasPolicy
  fees : FeeDefaults
  poll : Poll
deriving DecidableEq

namespace Config

/-- The entry point at its usual address, on the first chain. -/
def standard : Config where
  entryPoint := Octets.ofNat 20 0x0000000071727De22E5E9d8BAf0edAc6f37da032
  chainId := 1
  gas := GasPolicy.standard
  fees := FeeDefaults.standard
  poll := Poll.standard

/-- Refuses a configuration that cannot be worked with. -/
def validate (config : Config) : Except Error Unit :=
  if config.chainId = 0 then .error (.validation .zeroChainId)
  else if config.gas.multiplierPercent < 100 then .error (.validation .multiplierBelowHundred)
  else if config.fees.maximum < config.fees.priority then
    .error (.validation .priorityFeeAboveMaximum)
  else if config.poll.interval = 0 then .error (.validation .zeroPollInterval)
  else .ok ()

def json (config : Config) : String :=
  Json.writeRecord
    [("entryPoint", Json.writeBytes config.entryPoint.bytes),
      ("chainId", Json.writeNat config.chainId.toNat),
      ("gas", config.gas.json),
      ("fees", config.fees.json),
      ("poll", config.poll.json)]

def fields : List (String × Json.Form) :=
  [("entryPoint", .octets 20), ("chainId", .any), ("gas", .any), ("fees", .any), ("poll", .any)]

def ofValue? (value : Json.Value) : Option Config :=
  match Json.fields? (fields.map Prod.fst) value with
  | some [entryPoint, chainId, gas, fees, poll] => do
      return {
        entryPoint := ← Json.optional standard.entryPoint (Json.octets? 20) entryPoint
        chainId := ← Json.optional standard.chainId Json.uint64? chainId
        gas := ← Json.optional standard.gas GasPolicy.ofValue? gas
        fees := ← Json.optional standard.fees FeeDefaults.ofValue? fees
        poll := ← Json.optional standard.poll Poll.ofValue? poll }
  | _ => none

/-- Reads a configuration without checking it. -/
def ofJson (document : String) : Except Error Config :=
  Json.readDocument (.record fields) ofValue? document

/-- Reads a configuration and checks it. -/
def load (document : String) : Except Error Config := do
  let config ← ofJson document
  config.validate
  return config

end Config

end Countersign
