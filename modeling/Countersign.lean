import Countersign.Abi
import Countersign.Algorithm
import Countersign.Algorithm.Checked
import Countersign.Algorithm.Json
import Countersign.Apdu
import Countersign.Bytes
import Countersign.Config
import Countersign.Curve.Ecdsa
import Countersign.Digest.Sha256
import Countersign.Digest.Sponge
import Countersign.Error
import Countersign.Gas
import Countersign.Hex
import Countersign.Hex.Checked
import Countersign.Json.Codec
import Countersign.Json.Document
import Countersign.Json.Scalar
import Countersign.Lattice.Falcon.Compact
import Countersign.Lattice.Falcon.Guarded
import Countersign.Lattice.MlDsa.Expansion
import Countersign.Lattice.MlDsa.Key
import Countersign.Lattice.MlDsa.Signing
import Countersign.Lattice.Packing
import Countersign.Operation
import Countersign.Operation.Json
import Countersign.Path
import Countersign.Path.Json
import Countersign.Pipeline
import Countersign.Pipeline.Recorded
import Countersign.Session
import Countersign.Session.Action
import Countersign.Session.Chunked
import Countersign.Session.Recorded
import Countersign.Session.Signing
import Countersign.Signature
import Countersign.Signer
import Countersign.Signer.Element
import Countersign.Signer.Software
import Countersign.Task
import Countersign.Text
import Countersign.Proofs.Abi
import Countersign.Proofs.Bytes
import Countersign.Proofs.Config
import Countersign.Proofs.Curve.Group
import Countersign.Proofs.Curve.Recovery
import Countersign.Proofs.Digest
import Countersign.Proofs.Gas
import Countersign.Proofs.Hex
import Countersign.Proofs.HybridSignature
import Countersign.Proofs.Json.Quotes
import Countersign.Proofs.Json.Reading
import Countersign.Proofs.Json.Records
import Countersign.Proofs.Json.RoundTrip
import Countersign.Proofs.Json.Scalars
import Countersign.Proofs.Json.Straying
import Countersign.Proofs.Lattice.Falcon.Accumulator
import Countersign.Proofs.Lattice.Falcon.Compact
import Countersign.Proofs.Lattice.Falcon.Compression
import Countersign.Proofs.Lattice.Falcon.Guarded
import Countersign.Proofs.Lattice.MlDsa.Contents
import Countersign.Proofs.Lattice.MlDsa.Encoding
import Countersign.Proofs.Lattice.MlDsa.Evaluation
import Countersign.Proofs.Lattice.MlDsa.Expansion
import Countersign.Proofs.Lattice.MlDsa.Generation
import Countersign.Proofs.Lattice.MlDsa.InPlace
import Countersign.Proofs.Lattice.MlDsa.Inverse
import Countersign.Proofs.Lattice.MlDsa.Sampling
import Countersign.Proofs.Lattice.MlDsa.Signing
import Countersign.Proofs.Lattice.OnChain
import Countersign.Proofs.Lattice.Packing
import Countersign.Proofs.Lattice.Packing.Layout
import Countersign.Proofs.Operation
import Countersign.Proofs.Path.Grammar
import Countersign.Proofs.Path.Payload
import Countersign.Proofs.Pipeline.Building
import Countersign.Proofs.Pipeline.Execution
import Countersign.Proofs.Pipeline.Pricing
import Countersign.Proofs.Pipeline.Rehearsal
import Countersign.Proofs.Pipeline.Waiting
import Countersign.Proofs.Request
import Countersign.Proofs.Result
import Countersign.Proofs.SecureElement.History
import Countersign.Proofs.SecureElement.Machine
import Countersign.Proofs.SecureElement.Operations
import Countersign.Proofs.SecureElement.ReadingBack
import Countersign.Proofs.SecureElement.Service
import Countersign.Proofs.Session.ClearSigning
import Countersign.Proofs.Session.Closing
import Countersign.Proofs.Session.Delivery
import Countersign.Proofs.Session.Exchange
import Countersign.Proofs.Session.Failure
import Countersign.Proofs.Session.Frames
import Countersign.Proofs.Session.Reading
import Countersign.Proofs.Session.Refusal
import Countersign.Proofs.Session.SeedLog
import Countersign.Proofs.Session.SignedMessage
import Countersign.Proofs.Session.Steps
import Countersign.Proofs.Session.Streaming
import Countersign.Proofs.Signature
import Countersign.Proofs.Signature.Layouts
import Countersign.Proofs.Signature.Normalization
import Countersign.Proofs.Signer.OnChainKey
import Countersign.Proofs.Signer.Refusal
import Countersign.Proofs.Signer.Software
import Countersign.Proofs.Signer.Soundness
import Countersign.Proofs.Task
import Countersign.Proofs.Text
import Countersign.Proofs.Wire
