import Countersign.Session.Signing

/-!
What can be asked of a session, and what it answers, as values; and sessions that several holders
share. One task at a time works on a shared session, from its first command to its last. In what
state a crashed task leaves the element is not known, so that no task works on the session after it.
The channel is given back when the last holder lets go.
-/

namespace Countersign.Session

/-- Something that a session is asked to do with its secure element. -/
inductive Action
  | readClassicalKey (path : Path)
  | readAddress (path : Path)
  | signHash (path : Path) (hash : Hash)
  | deriveSeed (path : Path) (algorithm : Algorithm)
  | ensureSeed (path : Path) (algorithm : Algorithm)
  | generateKey (algorithm : Algorithm)
  | signMessage (algorithm : Algorithm) (message : Bytes)
  | hybridSign (path : Path) (algorithm : Algorithm) (hash : Hash)
  | clearSign (path : Path) (algorithm : Algorithm) (operation : Operation) (contract : Address)
      (chainId : UInt64)
deriving DecidableEq

/-- What an action yields. -/
inductive Answer
  | done
  | bytes (bytes : Bytes)
  | address (address : Address)
  | classical (signature : Signature)
  | both (classical : Signature) (postQuantum : Bytes)
deriving DecidableEq

variable {σ : Type}

/-- Does what is asked. -/
def perform (transport : Transport σ) : Action → Task (Session σ) Answer
  | .readClassicalKey path => Answer.bytes <$> readClassicalKey transport path
  | .readAddress path => Answer.address <$> readAddress transport path
  | .signHash path hash => Answer.classical <$> signHash transport path hash
  | .deriveSeed path algorithm => (fun _ => .done) <$> deriveSeed transport path algorithm
  | .ensureSeed path algorithm => (fun _ => .done) <$> ensureSeed transport path algorithm
  | .generateKey algorithm => Answer.bytes <$> generateKey transport algorithm
  | .signMessage algorithm message => Answer.bytes <$> signMessage transport algorithm message
  | .hybridSign path algorithm hash =>
      (fun pair => .both pair.1 pair.2) <$> hybridSign transport path algorithm hash
  | .clearSign path algorithm operation contract chainId =>
      (fun pair => .both pair.1 pair.2) <$>
        clearSign transport path algorithm operation contract chainId

end Countersign.Session

namespace Countersign

/-- A session with the number of its holders; it is poisoned when a task on it has crashed. -/
structure SharedSession (σ : Type) where
  session : Session σ
  holders : Nat
  poisoned : Bool

namespace SharedSession

variable {σ α : Type}

/-- A session with one holder. -/
def ofSession (session : Session σ) : SharedSession σ :=
  ⟨session, 1, false⟩

/-- Runs a task while nobody else works on the session. -/
def locked (task : Task (Session σ) α) : Task (SharedSession σ) α :=
  fun shared =>
    if shared.poisoned then
      (.error (.failure (.channel .poisoned)), shared)
    else
      match task shared.session with
      | (.error .crash, session) => (.error .crash, { shared with session, poisoned := true })
      | (result, session) => (result, { shared with session })

/-- Closes the session, also a poisoned one. -/
def close (transport : Transport σ) (shared : SharedSession σ) : SharedSession σ :=
  { shared with session := shared.session.close transport }

/-- One more holder. -/
def retain (shared : SharedSession σ) : SharedSession σ :=
  { shared with holders := shared.holders + 1 }

/-- One holder less; the last one closes the session. -/
def drop (transport : Transport σ) (shared : SharedSession σ) : SharedSession σ :=
  let remaining := { shared with holders := shared.holders - 1 }
  if remaining.holders = 0 then remaining.close transport else remaining

end SharedSession

end Countersign
