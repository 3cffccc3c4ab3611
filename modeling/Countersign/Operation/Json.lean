import Countersign.Json.Codec
import Countersign.Operation

/-!
Operations in documents, where all nine fields have to be given, and what becomes of a submitted
operation.
-/

namespace Countersign.Operation

def json (operation : Operation) : String :=
  Json.writeRecord
    [("sender", Json.writeBytes operation.sender.bytes),
      ("nonce", Json.writeWord operation.nonce),
      ("initCode", Json.writeBytes operation.initCode),
      ("callData", Json.writeBytes operation.callData),
      ("accountGasLimits", Json.writeBytes operation.accountGasLimits.bytes),
      ("preVerificationGas", Json.writeWord operation.preVerificationGas),
      ("gasFees", Json.writeBytes operation.gasFees.bytes),
      ("paymasterAndData", Json.writeBytes operation.paymasterAndData),
      ("signature", Json.writeBytes operation.signature)]

def fields : List (String × Json.Form) :=
  [("sender", .octets 20), ("nonce", .any), ("initCode", .any), ("callData", .any),
    ("accountGasLimits", .octets 32), ("preVerificationGas", .any), ("gasFees", .octets 32),
    ("paymasterAndData", .any), ("signature", .any)]

def ofValue? (value : Json.Value) : Option Operation :=
  match Json.fields? (fields.map Prod.fst) value with
  | some [sender, nonce, initCode, callData, accountGasLimits, preVerificationGas, gasFees,
      paymasterAndData, signature] => do
      return {
        sender := ← Json.required (Json.octets? 20) sender
        nonce := ← Json.required Json.word? nonce
        initCode := ← Json.required Json.bytes? initCode
        callData := ← Json.required Json.bytes? callData
        accountGasLimits := ← Json.required (Json.octets? 32) accountGasLimits
        preVerificationGas := ← Json.required Json.word? preVerificationGas
        gasFees := ← Json.required (Json.octets? 32) gasFees
        paymasterAndData := ← Json.required Json.bytes? paymasterAndData
        signature := ← Json.required Json.bytes? signature }
  | _ => none

def ofJson (document : String) : Except Error Operation :=
  Json.readDocument (.record fields) ofValue? document

end Countersign.Operation

namespace Countersign

/-- The record of an operation that is part of the chain. -/
structure Receipt where
  operationHash : Hash
  success : Bool
  gasUsed : Word
  gasCost : Word
  blockNumber : UInt64
  blockHash : Hash
  transactionHash : Hash
deriving DecidableEq

namespace Receipt

def json (receipt : Receipt) : String :=
  Json.writeRecord
    [("userOpHash", Json.writeBytes receipt.operationHash.bytes),
      ("success", Json.writeBool receipt.success),
      ("actualGasUsed", Json.writeWord receipt.gasUsed),
      ("actualGasCost", Json.writeWord receipt.gasCost),
      ("blockNumber", Json.writeNat receipt.blockNumber.toNat),
      ("blockHash", Json.writeBytes receipt.blockHash.bytes),
      ("transactionHash", Json.writeBytes receipt.transactionHash.bytes)]

def fields : List (String × Json.Form) :=
  [("userOpHash", .octets 32), ("success", .any), ("actualGasUsed", .any), ("actualGasCost", .any),
    ("blockNumber", .any), ("blockHash", .octets 32), ("transactionHash", .octets 32)]

def ofValue? (value : Json.Value) : Option Receipt :=
  match Json.fields? (fields.map Prod.fst) value with
  | some [operationHash, success, gasUsed, gasCost, blockNumber, blockHash, transactionHash] => do
      return {
        operationHash := ← Json.required (Json.octets? 32) operationHash
        success := ← Json.required Json.bool? success
        gasUsed := ← Json.required Json.word? gasUsed
        gasCost := ← Json.required Json.word? gasCost
        blockNumber := ← Json.required Json.uint64? blockNumber
        blockHash := ← Json.required (Json.octets? 32) blockHash
        transactionHash := ← Json.required (Json.octets? 32) transactionHash }
  | _ => none

def ofJson (document : String) : Except Error Receipt :=
  Json.readDocument (.record fields) ofValue? document

end Receipt

/-- An operation has a receipt, or none has been found in time. -/
inductive Outcome
  | included (receipt : Receipt)
  | pending (id : Hash)
deriving DecidableEq

def Outcome.receipt? : Outcome → Option Receipt
  | included receipt => some receipt
  | pending _ => none

end Countersign
