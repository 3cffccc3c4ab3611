import Countersign.Session

/-!
States that remember what was done with them, and a channel whose traffic is written down: every
command with what came of it, and every release.
-/

namespace Countersign

/-- A state and the events that led to it, in order. -/
structure Recorded (σ ε : Type) where
  state : σ
  events : List ε

namespace Recorded

variable {σ ε α : Type}

/-- A state that nothing has been done with. -/
def start (state : σ) : Recorded σ ε :=
  ⟨state, []⟩

/-- Does something with the state and writes an event down, which may tell the result. -/
def note (event : α → ε) (action : StateM σ α) : StateM (Recorded σ ε) α :=
  fun before =>
    let (result, state) := action before.state
    (result, ⟨state, before.events ++ [event result]⟩)

end Recorded

/-- Something that was done with a channel. -/
inductive ChannelEvent
  | exchanged (command : Bytes) (reply : Except Halt Bytes)
  | released

namespace ChannelEvent

/-- The command, if one was exchanged. -/
def command? : ChannelEvent → Option Bytes
  | exchanged command _ => some command
  | released => none

def isRelease : ChannelEvent → Bool
  | exchanged _ _ => false
  | released => true

end ChannelEvent

/-- The channel with its traffic written down. -/
def Transport.recorded {σ : Type} (transport : Transport σ) :
    Transport (Recorded σ ChannelEvent) where
  exchange command := Recorded.note (.exchanged command) (transport.exchange command)
  isConnected before := transport.isConnected before.state
  release before := ⟨transport.release before.state, before.events ++ [.released]⟩

end Countersign
