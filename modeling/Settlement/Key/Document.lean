import Settlement.Json.Printer
import Settlement.Json.Typed
import Settlement.Key.Word

namespace Settlement

abbrev WrittenWord : Type := Int ⊕ String

namespace WrittenWord

def value : WrittenWord → Value
  | .inl n => .int n
  | .inr s => .text s

def read (w : WrittenWord) : Except Word.ReadError Nat :=
  Word.parse (value w)

end WrittenWord

structure KeyDocument where
  domainSize : Int
  numInputs : Int
  omega : WrittenWord
  gateSetup : List (List WrittenWord)
  gateSelectors : List (List WrittenWord)
  permutation : List (List WrittenWord)
  lookupSelector : List WrittenWord
  lookupTable : List (List WrittenWord)
  lookupTableType : List WrittenWord
  nonResidues : List WrittenWord
  g2Elements : List (List (List WrittenWord))
  deriving DecidableEq

namespace KeyDocument

structure Draft where
  domainSize : Option Int := none
  numInputs : Option Int := none
  omega : Option WrittenWord := none
  gateSetup : Option (List (List WrittenWord)) := none
  gateSelectors : Option (List (List WrittenWord)) := none
  permutation : Option (List (List WrittenWord)) := none
  lookupSelector : Option (List WrittenWord) := none
  lookupTable : Option (List (List WrittenWord)) := none
  lookupTableType : Option (List WrittenWord) := none
  nonResidues : Option (List WrittenWord) := none
  g2Elements : Option (List (List (List WrittenWord))) := none

def Draft.finish? (d : Draft) : Option KeyDocument := do
  pure {
    domainSize := ← d.domainSize
    numInputs := ← d.numInputs
    omega := ← d.omega
    gateSetup := ← d.gateSetup
    gateSelectors := ← d.gateSelectors
    permutation := ← d.permutation
    lookupSelector := ← d.lookupSelector
    lookupTable := ← d.lookupTable
    lookupTableType := ← d.lookupTableType
    nonResidues := ← d.nonResidues
    g2Elements := ← d.g2Elements }

def word : Json.Reader WrittenWord := Json.integerOrText

def point : Json.Reader (List WrittenWord) := Json.array word

def fields : List (String × (Draft → Json.Reader Draft)) :=
  [("domain_size", Json.field Json.integer fun d x => { d with domainSize := some x }),
   ("num_inputs", Json.field Json.integer fun d x => { d with numInputs := some x }),
   ("omega", Json.field word fun d x => { d with omega := some x }),
   ("gate_setup", Json.field (Json.array point) fun d x => { d with gateSetup := some x }),
   ("gate_selectors", Json.field (Json.array point) fun d x => { d with gateSelectors := some x }),
   ("permutation", Json.field (Json.array point) fun d x => { d with permutation := some x }),
   ("lookup_selector", Json.field point fun d x => { d with lookupSelector := some x }),
   ("lookup_table", Json.field (Json.array point) fun d x => { d with lookupTable := some x }),
   ("lookup_table_type", Json.field point fun d x => { d with lookupTableType := some x }),
   ("non_residues", Json.field (Json.array word) fun d x => { d with nonResidues := some x }),
   ("g2_elements", Json.field (Json.array (Json.array point)) fun d x => { d with g2Elements := some x })]

def reader : Json.Reader KeyDocument := fun bs => do
  let (d, rest) ← Json.object .refused fields {} bs
  match d.finish? with
  | some doc => pure (doc, rest)
  | none => throw .mistyped

def decode (bs : Bytes) : Except Json.TypedError KeyDocument :=
  Json.decode reader bs

def words (ws : List WrittenWord) : Value :=
  .list (ws.map WrittenWord.value)

def toValue (d : KeyDocument) : Value :=
  .object
    [("domain_size", .int d.domainSize),
     ("num_inputs", .int d.numInputs),
     ("omega", WrittenWord.value d.omega),
     ("gate_setup", .list (d.gateSetup.map words)),
     ("gate_selectors", .list (d.gateSelectors.map words)),
     ("permutation", .list (d.permutation.map words)),
     ("lookup_selector", words d.lookupSelector),
     ("lookup_table", .list (d.lookupTable.map words)),
     ("lookup_table_type", words d.lookupTableType),
     ("non_residues", words d.nonResidues),
     ("g2_elements", .list (d.g2Elements.map fun q => .list (q.map words)))]

def encode (d : KeyDocument) : String :=
  Json.compact d.toValue

end KeyDocument

structure ProofDocument where
  proof : List WrittenWord
  publicInputs : Option (List WrittenWord)
  deriving DecidableEq

namespace ProofDocument

structure Draft where
  proof : Option (List WrittenWord) := none
  publicInputs : Option (List WrittenWord) := none

def fields : List (String × (Draft → Json.Reader Draft)) :=
  [("proof", Json.field (Json.array KeyDocument.word) fun d x => { d with proof := some x }),
   ("public_inputs", Json.field (Json.optional (Json.array KeyDocument.word))
      fun d x => { d with publicInputs := x })]

def reader : Json.Reader ProofDocument := fun bs => do
  let (d, rest) ← Json.object .skipped fields {} bs
  match d.proof with
  | some ws => pure (⟨ws, d.publicInputs⟩, rest)
  | none => throw .mistyped

def decode (bs : Bytes) : Except Json.TypedError ProofDocument :=
  Json.decode reader bs

def ofWords (words : List Int) (publicInputs : Option (List Int)) :
    Except Bn254.WidthError ProofDocument := do
  let spelled (xs : List Int) : Except Bn254.WidthError (List WrittenWord) :=
    xs.mapM fun x => do pure (.inr (← Word.hex x))
  let ws ← spelled words
  match publicInputs with
  | none => pure ⟨ws, none⟩
  | some xs => pure ⟨ws, some (← spelled xs)⟩

def encode (d : ProofDocument) : String :=
  Json.compact (.object (("proof", KeyDocument.words d.proof) ::
    match d.publicInputs with
    | none => []
    | some xs => [("public_inputs", KeyDocument.words xs)]))

end ProofDocument

end Settlement
