import Countersign.Error

/-!
Derivation paths, which name the keys on a secure element, and their form on the wire: a count
byte and the components, four bytes each, most significant first.
-/

namespace Countersign

/-- At most ten components. The highest bit of a component says that it is hardened. -/
structure Path where
  components : List UInt32
  depth_le : components.length ≤ 10
deriving DecidableEq

namespace Path

/-- The bit of a hardened component. -/
def hardened : UInt32 := 0x80000000

def ofComponents (components : List UInt32) : Except Error Path :=
  if depth_le : components.length ≤ 10 then .ok ⟨components, depth_le⟩
  else .error (.path (.tooDeep components.length))

/-- The standard path of the account with a given number. -/
def account (index : UInt32) : Path :=
  ⟨[44 ||| hardened, 60 ||| hardened, hardened, 0, index &&& ~~~hardened], by simp⟩

/-- A component in four bytes. -/
def componentBytes (component : UInt32) : Bytes :=
  Bytes.ofNatBE 4 component.toNat

def toPayload (path : Path) : Bytes :=
  UInt8.ofNat path.components.length :: path.components.flatMap componentBytes

/-- The component that four bytes hold. -/
def readComponent (bytes : Bytes) : UInt32 :=
  UInt32.ofNat (Bytes.toNatBE bytes)

/-- Reads a path and returns the bytes that follow it. -/
def ofPayload : Bytes → Except Error (Path × Bytes)
  | [] => .error (.path .emptyPayload)
  | count :: rest =>
      let length := count.toNat * 4
      if rest.length < length then
        .error (.path (.truncatedPayload count.toNat rest.length))
      else
        (ofComponents ((Bytes.pieces 4 (rest.take length)).map readComponent)).map
          (·, rest.drop length)

/-- The components as plain numbers, the way summaries of sessions show a path. -/
def summary (path : Path) : String :=
  "DerivationPath([" ++
    String.intercalate ", " (path.components.map fun component => toString component.toNat) ++ "])"

end Path

end Countersign
