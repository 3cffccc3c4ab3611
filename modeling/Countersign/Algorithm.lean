/-!
The two lattice signature schemes that can stand beside the classical signature.
-/

namespace Countersign

/-- The post-quantum scheme of a hybrid key. -/
inductive Algorithm
  | mlDsa44
  | falcon512
deriving DecidableEq

namespace Algorithm

/-- The scheme's name in prose. -/
def name : Algorithm → String
  | mlDsa44 => "ML-DSA-44"
  | falcon512 => "Falcon-512"

/-- The scheme's tag in documents. -/
def tag : Algorithm → String
  | mlDsa44 => "ml-dsa-44"
  | falcon512 => "falcon-512"

/-- The scheme's name in summaries of signers and sessions. -/
def label : Algorithm → String
  | mlDsa44 => "MlDsa44"
  | falcon512 => "Falcon512"

def publicKeyLength : Algorithm → Nat
  | mlDsa44 => 1312
  | falcon512 => 897

/-- The length of a signature as the verifying contract reads it. -/
def signatureLength : Algorithm → Nat
  | mlDsa44 => 2420
  | falcon512 => 1064

/-- The byte that selects the scheme on a secure element. -/
def deviceCode : Algorithm → UInt8
  | mlDsa44 => 0x00
  | falcon512 => 0x01

/-- The scheme that a secure element's byte selects. -/
def ofDeviceCode? (code : UInt8) : Option Algorithm :=
  if code = 0x00 then some mlDsa44
  else if code = 0x01 then some falcon512
  else none

theorem ofDeviceCode?_deviceCode (algorithm : Algorithm) :
    ofDeviceCode? algorithm.deviceCode = some algorithm := by
  cases algorithm <;> rfl

end Algorithm

end Countersign
