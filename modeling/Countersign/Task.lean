import Countersign.Error

/-!
Computations that change a state and may end without a result, and steps on machine numbers and
buffers, which have a result only where the numbers and places are in range and crash elsewhere.
-/

namespace Countersign

/-- How a computation ends without a result: with a failure for the caller, or by a crash of the
party that was asked. -/
inductive Halt
  | failure (error : Error)
  | crash
deriving DecidableEq

/-- A computation that reads and changes a state and may halt. What it changed before it halted
stays changed. -/
abbrev Task (σ : Type) := ExceptT Halt (StateM σ)

namespace Task

variable {σ τ α : Type}

/-- Ends a task with a failure. -/
def fail (error : Error) : Task σ α :=
  throw (.failure error)

/-- A result that is there already, or a failure. -/
def ofExcept : Except Error α → Task σ α
  | .ok value => pure value
  | .error error => fail error

/-- Runs a task on a part of a larger state. -/
def focus (get : τ → σ) (set : σ → τ → τ) (task : Task σ α) : Task τ α :=
  fun whole =>
    let (result, part) := task (get whole)
    (result, set part whole)

end Task

/-- A computation on a state that may fail but not crash. -/
abbrev Attempt (σ : Type) := ExceptT Error (StateM σ)

namespace Attempt

variable {σ α : Type}

/-- The result, or a replacement if there is none. -/
def orUse (attempt : Attempt σ α) (replacement : α) : StateM σ α := do
  match ← attempt.run with
  | .ok value => return value
  | .error _ => return replacement

/-- Runs a signing task. Its crash is a failure to sign. -/
def ofSigning (task : Task σ α) : Attempt σ α :=
  fun state =>
    match task state with
    | (.ok value, state) => (.ok value, state)
    | (.error (.failure error), state) => (.error error, state)
    | (.error .crash, state) => (.error (.signing .crashed), state)

end Attempt

end Countersign

namespace Countersign.Guarded

/-- A sum of 64 bits. -/
def sum64 (left right : UInt64) : Except Halt UInt64 :=
  if left.toNat + right.toNat < UInt64.size then .ok (left + right) else .error .crash

/-- A sum of 32 bits. -/
def sum32 (left right : UInt32) : Except Halt UInt32 :=
  if left.toNat + right.toNat < UInt32.size then .ok (left + right) else .error .crash

theorem toNat_of_sum32 {left right total : UInt32} (summed : sum32 left right = .ok total) :
    total.toNat = left.toNat + right.toNat := by
  unfold sum32 at summed
  split at summed
  · rename_i fits
    cases summed
    rw [UInt32.toNat_add]
    exact Nat.mod_eq_of_lt fits
  · cases summed

/-- A difference of 32 bits, which is not negative. -/
def difference32 (left right : UInt32) : Except Halt UInt32 :=
  if right.toNat ≤ left.toNat then .ok (left - right) else .error .crash

/-- A word of 32 bits shifted up by fewer places than it has. What is shifted out is lost. -/
def shiftLeft32 (word places : UInt32) : Except Halt UInt32 :=
  if places.toNat < 32 then .ok (word <<< places) else .error .crash

/-- A word of 32 bits shifted down by fewer places than it has. -/
def shiftRight32 (word places : UInt32) : Except Halt UInt32 :=
  if places.toNat < 32 then .ok (word >>> places) else .error .crash

/-- The opposite of a number of sixteen bits, which the lowest one does not have. -/
def opposite16 (value : Int) : Except Halt Int :=
  if -32768 < value ∧ value < 32768 then .ok (-value) else .error .crash

/-- The byte at a place. -/
def byteAt (buffer : Bytes) (place : Nat) : Except Halt UInt8 :=
  match buffer[place]? with
  | some byte => .ok byte
  | none => .error .crash

/-- The bytes from one place up to another. -/
def slice (buffer : Bytes) (start stop : Nat) : Except Halt Bytes :=
  if start ≤ stop ∧ stop ≤ buffer.length then .ok ((buffer.take stop).drop start)
  else .error .crash

/-- The bytes from a place on. -/
def sliceFrom (buffer : Bytes) (start : Nat) : Except Halt Bytes :=
  slice buffer start buffer.length

/-- An array of `n` bytes with a copy put over it, which has to be as long. -/
def overwrite (n : Nat) (copy : Bytes) : Except Halt (Octets n) :=
  if length_eq : copy.length = n then .ok ⟨copy, length_eq⟩ else .error .crash

end Countersign.Guarded
