import Settlement.Bn254.Group
import Settlement.Policy.Meter

namespace Settlement

inductive PublicInputError where
  | count (expected got : Nat)
  | notCanonical (index : Nat)
  deriving DecidableEq

def PublicInputError.message : PublicInputError → String
  | .count expected got => s!"expected {expected} public inputs, got {got}"
  | .notCanonical i => s!"public input {i} is not a canonical field element"

inductive ProofError where
  | wordCount (got : Nat)
  | byteCount (got : Nat)
  | word (index : Nat)
  | point (index : Nat) (e : Bn254.PointError)
  | evaluation (name : String)
  | commitmentCount (got : Nat)
  | wireCount
  | quotientCount
  deriving DecidableEq

def ProofError.message : ProofError → String
  | .wordCount got => s!"proof must have 44 words, got {got}"
  | .byteCount got => s!"proof must be 1408 bytes, got {got}"
  | .word i => s!"proof word {i} is not a uint256"
  | .point i e => s!"proof words {i}..{i + 1}: " ++ e.message
  | .evaluation name => "evaluation " ++ name ++ " is not a canonical field element"
  | .commitmentCount got => s!"expected 11 commitments, got {got}"
  | .wireCount => "wire commitments do not match the permutation width"
  | .quotientCount => "quotient must be split into one part per wire"

inductive Unsound where
  | pointInDomain
  | quotientIdentity
  | pairing
  deriving DecidableEq

def Unsound.message : Unsound → String
  | .pointInDomain => "evaluation point lies in the domain"
  | .quotientIdentity => "quotient identity does not hold at the evaluation point"
  | .pairing => "pairing check failed"

inductive Rejection where
  | uninitialized
  | malformedPublicInput (e : PublicInputError)
  | malformedProof (e : ProofError)
  | invalidProof (e : Unsound)
  | resourceExhausted (e : Exhaustion)
  deriving DecidableEq

namespace Rejection

def code : Rejection → String
  | .uninitialized => "UNINITIALIZED"
  | .malformedPublicInput _ => "MALFORMED_PUBLIC_INPUT"
  | .malformedProof _ => "MALFORMED_PROOF"
  | .invalidProof _ => "INVALID_PROOF"
  | .resourceExhausted _ => "RESOURCE_EXHAUSTED"

def message : Rejection → String
  | .uninitialized => "verification key has not been loaded"
  | .malformedPublicInput e => e.message
  | .malformedProof e => e.message
  | .invalidProof e => e.message
  | .resourceExhausted e => e.message

end Rejection

inductive Failure where
  | rejected (r : Rejection)
  | scalar (e : Bn254.ScalarError)
  | point (e : Bn254.PointError)
  | width (e : Bn254.WidthError)
  | noOpenings
  | lengthMismatch
  | unwritable
  deriving DecidableEq

def Failure.message : Failure → String
  | .rejected r => r.message
  | .scalar e => e.message
  | .point e => e.message
  | .width e => e.message
  | .noOpenings => "no openings to verify"
  | .lengthMismatch => "commitments/values length mismatch"
  | .unwritable => Integer.unwritable

def Failure.ofExhaustion (e : Exhaustion) : Failure :=
  if e.isWritable then .rejected (.resourceExhausted e) else .unwritable

/-- A computation that pays for its operations if there is a meter, which outlives a failure. -/
abbrev Metered := ExceptT Failure (StateM (Option Meter))

namespace Metered

def charge (op : Operation) (count : Int) : Metered Unit := fun m? =>
  match m? with
  | none => (.ok (), none)
  | some m =>
    match m.charge op count with
    | (.ok (), m) => (.ok (), some m)
    | (.error e, m) => (.error (.ofExhaustion e), some m)

def checkLimits (publicInputs domainSize : Int) : Metered Unit := fun m? =>
  match m? with
  | none => (.ok (), none)
  | some m =>
    match m.checkLimits publicInputs domainSize with
    | .ok () => (.ok (), some m)
    | .error e => (.error (.ofExhaustion e), some m)

def ofExcept {ε α : Type} (f : ε → Failure) (x : Except ε α) : Metered α :=
  match x with
  | .ok a => pure a
  | .error e => throw (f e)

end Metered

end Settlement
