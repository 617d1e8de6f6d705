import Settlement.Main
import Settlement.Proofs.Canonical
import Settlement.Proofs.Command.Policy
import Settlement.Proofs.Loading
import Settlement.Proofs.Verifier.Causality
import Settlement.Proofs.Verifier.History
import Settlement.Proofs.Verifier.Interpolation
import Settlement.Proofs.Verifier.Metering
import Settlement.Proofs.Verifier.Soundness
import Settlement.Registry.Document
import Settlement.Proofs.Address
import Settlement.Proofs.Bn254.Roots
import Settlement.Proofs.Bridge.Alias
import Settlement.Proofs.Bridge.Binding
import Settlement.Proofs.Bridge.BringUp
import Settlement.Proofs.Bridge.Calldata
import Settlement.Proofs.Bridge.Encoding
import Settlement.Proofs.Bridge.Failures
import Settlement.Proofs.Artifact
import Settlement.Proofs.Bytecode
import Settlement.Proofs.Command.Bridge
import Settlement.Proofs.GasPrice
import Settlement.Proofs.Json.Documents
import Settlement.Proofs.Json.Values
import Settlement.Proofs.Key.Grammar
import Settlement.Proofs.Registry.Acceptance
import Settlement.Proofs.Registry.Basic
import Settlement.Proofs.Registry.Document
import Settlement.Proofs.Registry.Loading
import Settlement.Proofs.Rpc.Retry
import Settlement.Proofs.Bn254.Inversion
import Settlement.Proofs.Bn254.MultiScalar
import Settlement.Proofs.Bn254.PairingProduct
import Settlement.Proofs.Policy.Serialization
import Settlement.Proofs.Policy.Accounting
import Settlement.Proofs.Key.Shape
