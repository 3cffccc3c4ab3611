import Countersign.Config
import Countersign.Operation.Json
import Countersign.Proofs.Json.Records
import Countersign.Proofs.Path.Grammar

/-!
Whatever is written as a document is read from it again.
-/

namespace Countersign

open Json

namespace Json.Entry

def number (name : String) (value : Nat) : Entry :=
  ⟨name, writeNat value, .natural value⟩

def flag (name : String) (value : Bool) : Entry :=
  ⟨name, writeBool value, .bool value⟩

def bytes (name : String) (bytes : Bytes) : Entry :=
  ⟨name, writeBytes bytes, .text (some (Hex.encode bytes))⟩

def word (name : String) (word : Word) : Entry :=
  ⟨name, writeWord word, .text (some (Hex.quantity word.toNat))⟩

def record (name text : String) (entries : List Entry) : Entry :=
  ⟨name, text, .object (named (fieldsOfEntries entries))⟩

variable (name : String)

@[simp]
theorem spelled_number (value : Nat) : (number name value).Spelled :=
  spells_writeNat value

@[simp]
theorem spelled_flag (value : Bool) : (flag name value).Spelled :=
  spells_writeBool value

@[simp]
theorem spelled_bytes (value : Bytes) : (bytes name value).Spelled :=
  spells_writeBytes value

@[simp]
theorem spelled_word (value : Word) : (word name value).Spelled :=
  spells_writeWord value

theorem spelled_record {α : Type} {names : List String} {entries : α → List Entry}
    {write : α → String} {read : Value → Option α} (codec : Codec names entries write read)
    (value : α) : (record name (write value) (entries value)).Spelled :=
  codec.spells value

/-- The value of a field, by the kind of the field. -/
@[simp]
theorem value_number (value : Nat) : (number name value).value = .natural value := rfl

@[simp]
theorem value_flag (value : Bool) : (flag name value).value = .bool value := rfl

@[simp]
theorem value_bytes (value : Bytes) :
    (bytes name value).value = .text (some (Hex.encode value)) := rfl

@[simp]
theorem value_word (value : Word) :
    (word name value).value = .text (some (Hex.quantity value.toNat)) := rfl

@[simp]
theorem value_record (text : String) (entries : List Entry) :
    (record name text entries).value = .object (named (fieldsOfEntries entries)) := rfl

end Json.Entry

@[simp]
theorem bytes?_encode (bytes : Bytes) : bytes? (.text (some (Hex.encode bytes))) = some bytes :=
  bytes?_of_spells (Hex.spells_encode bytes)

@[simp]
theorem octets?_encode {n : Nat} (octets : Octets n) :
    octets? n (.text (some (Hex.encode octets.bytes))) = some octets :=
  octets?_of_holds (.text (Hex.spells_encode octets.bytes))

attribute [simp] uint64?_natural uint128?_natural word?_quantity

namespace GasLimits

def entries (limits : GasLimits) : List Entry :=
  [.number "verificationGasLimit" limits.verification.toNat,
    .number "callGasLimit" limits.call.toNat,
    .number "preVerificationGas" limits.preVerification.toNat]

theorem codec : Codec keys entries json ofValue? where
  layout := ⟨by decide, by decide, by decide⟩
  names_eq _ := rfl
  spelled limits := by simp [entries]
  written _ := rfl
  reads limits object found := by
    rw [ofValue?, found]
    simp [entries]

end GasLimits

namespace GasPolicy

def entries (policy : GasPolicy) : List Entry :=
  [.number "mlDsa44VerificationGasFloor" policy.mlDsa44Floor.toNat,
    .number "falcon512VerificationGasFloor" policy.falcon512Floor.toNat,
    .number "preVerificationGasMultiplierPercent" policy.multiplierPercent.toNat,
    .number "preVerificationGasFloor" policy.preVerificationFloor.toNat,
    .number "defaultCallGasLimit" policy.defaultCall.toNat]

theorem codec : Codec keys entries json ofValue? where
  layout := ⟨by decide, by decide, by decide⟩
  names_eq _ := rfl
  spelled policy := by simp [entries]
  written _ := rfl
  reads policy object found := by
    rw [ofValue?, found]
    simp [entries]

end GasPolicy

namespace Fees

def entries (fees : Fees) : List Entry :=
  [.number "maxFeePerGas" fees.maximum.toNat,
    .number "maxPriorityFeePerGas" fees.priority.toNat]

theorem codec : Codec keys entries json ofValue? where
  layout := ⟨by decide, by decide, by decide⟩
  names_eq _ := rfl
  spelled fees := by simp [entries]
  written _ := rfl
  reads fees object found := by
    rw [ofValue?, found]
    simp [entries]

end Fees

namespace FeeDefaults

def entries (defaults : FeeDefaults) : List Entry :=
  [.number "maxFeePerGas" defaults.maximum.toNat,
    .number "maxPriorityFeePerGas" defaults.priority.toNat]

theorem codec : Codec keys entries json ofValue? where
  layout := Fees.codec.layout
  names_eq _ := rfl
  spelled defaults := by simp [entries]
  written _ := rfl
  reads defaults object found := by
    rw [ofValue?, found]
    simp [entries]

end FeeDefaults

namespace Poll

def entries (poll : Poll) : List Entry :=
  [.number "intervalMs" poll.interval.toNat, .number "timeoutMs" poll.timeout.toNat]

theorem codec : Codec keys entries json ofValue? where
  layout := ⟨by decide, by decide, by decide⟩
  names_eq _ := rfl
  spelled poll := by simp [entries]
  written _ := rfl
  reads poll object found := by
    rw [ofValue?, found]
    simp [entries]

end Poll

namespace Config

def entries (config : Config) : List Entry :=
  [.bytes "entryPoint" config.entryPoint.bytes, .number "chainId" config.chainId.toNat,
    .record "gas" config.gas.json config.gas.entries,
    .record "fees" config.fees.json config.fees.entries,
    .record "poll" config.poll.json config.poll.entries]

theorem codec : Codec (fields.map Prod.fst) entries json ofValue? where
  layout := ⟨by decide, by decide, by decide⟩
  names_eq _ := rfl
  spelled config := by
    simp [entries, Entry.spelled_record _ GasPolicy.codec,
      Entry.spelled_record _ FeeDefaults.codec, Entry.spelled_record _ Poll.codec]
  written _ := rfl
  reads config object found := by
    rw [ofValue?, found]
    simp [entries, GasPolicy.codec.reads_written,
      FeeDefaults.codec.reads_written, Poll.codec.reads_written]

end Config

namespace Receipt

def entries (receipt : Receipt) : List Entry :=
  [.bytes "userOpHash" receipt.operationHash.bytes, .flag "success" receipt.success,
    .word "actualGasUsed" receipt.gasUsed, .word "actualGasCost" receipt.gasCost,
    .number "blockNumber" receipt.blockNumber.toNat,
    .bytes "blockHash" receipt.blockHash.bytes,
    .bytes "transactionHash" receipt.transactionHash.bytes]

theorem codec : Codec (fields.map Prod.fst) entries json ofValue? where
  layout := ⟨by decide, by decide, by decide⟩
  names_eq _ := rfl
  spelled receipt := by simp [entries]
  written _ := rfl
  reads receipt object found := by
    rw [ofValue?, found]
    simp [entries, bool?]

end Receipt

namespace Operation

def entries (operation : Operation) : List Entry :=
  [.bytes "sender" operation.sender.bytes, .word "nonce" operation.nonce,
    .bytes "initCode" operation.initCode, .bytes "callData" operation.callData,
    .bytes "accountGasLimits" operation.accountGasLimits.bytes,
    .word "preVerificationGas" operation.preVerificationGas,
    .bytes "gasFees" operation.gasFees.bytes,
    .bytes "paymasterAndData" operation.paymasterAndData,
    .bytes "signature" operation.signature]

theorem codec : Codec (fields.map Prod.fst) entries json ofValue? where
  layout := ⟨by decide, by decide, by decide⟩
  names_eq _ := rfl
  spelled operation := by simp [entries]
  written _ := rfl
  reads operation object found := by
    rw [ofValue?, found]
    simp [entries]

end Operation

namespace Path

theorem plain_of_mem_numeral {component : UInt32} {character : Char}
    (among : character ∈ numeral component) : Plain character := by
  have plainDigit : ∀ digit < 10, Plain (Nat.digitChar digit) := by decide
  rcases List.mem_append.mp among with inDigits | inMark
  · obtain ⟨digit, small, rfl⟩ := Text.exists_digitChar (by decide) inDigits
    exact plainDigit digit small
  · split at inMark
    · obtain rfl := List.mem_singleton.mp inMark
      decide
    · cases inMark

theorem plain_text (path : Path) : PlainText path.text := by
  intro character among
  rw [toList_text] at among
  rcases List.mem_append.mp among with inRoot | inComponents
  · obtain rfl := List.mem_singleton.mp inRoot
    decide
  · obtain ⟨part, isPart, inPart⟩ := List.mem_flatMap.mp inComponents
    obtain ⟨component, _, rfl⟩ := List.mem_map.mp isPart
    rcases List.mem_cons.mp inPart with rfl | inNumeral
    · decide
    · exact plain_of_mem_numeral inNumeral

theorem faithful : Faithful json ofJson := by
  refine faithful_of_read_back fun path => ?_
  have parsed : parse? .any path.json = some (.text (some path.text)) :=
    parse?_of_writes (spells_bare (spells_writeText path.plain_text)) .any
  simp [ofJson, readDocument, parsed, decode, ofValue?, text?, parse_text, Except.toOption]

end Path

theorem Operation.faithful : Faithful json ofJson :=
  codec.faithful fun operation => by simp [entries, Suits.text]

theorem Receipt.faithful : Faithful json ofJson :=
  codec.faithful fun receipt => by simp [entries, Suits.text, Suits.bool, Suits.natural]

/-- The sections of a configuration are wanted in no form of their own. -/
theorem Config.faithful : Faithful json ofJson :=
  codec.faithful fun config => by
    simp [entries, fields, Form.field, List.lookup_cons, Entry.record, Suits.text, Suits.natural,
      Suits.any]

/-- Every document is read as the value it was written for, and no two values are written alike. -/
theorem documents_read_back :
    Faithful Operation.json Operation.ofJson ∧ Faithful Config.json Config.ofJson ∧
      Faithful GasPolicy.json GasPolicy.ofJson ∧ Faithful GasLimits.json GasLimits.ofJson ∧
      Faithful Fees.json Fees.ofJson ∧ Faithful Receipt.json Receipt.ofJson ∧
      Faithful Path.json Path.ofJson :=
  ⟨Operation.faithful, Config.faithful, GasPolicy.codec.faithful fun _ _ _ => .any,
    GasLimits.codec.faithful fun _ _ _ => .any, Fees.codec.faithful fun _ _ _ => .any,
    Receipt.faithful, Path.faithful⟩

end Countersign
