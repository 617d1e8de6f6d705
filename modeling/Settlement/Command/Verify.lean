import Settlement.Command.Arguments
import Settlement.Command.Run
import Settlement.Json.Printer
import Settlement.Key.Store
import Settlement.Policy.Document
import Settlement.Verifier
import Settlement.Verifier.Settings

namespace Settlement.Command.Verify

inductive Fault where
  | encoding
  | policy (e : Policy.LoadError)
  | verifier (e : Failure)

def Fault.message : Fault → String
  | .encoding => "file is not UTF-8"
  | .policy e => e.message
  | .verifier e => e.message

abbrev Step (α : Type) := Run Fault α

def usage : List String :=
  ["verify --proof FILE [--vk FILE] [--public WORD]... [--policy FILE]", "vk-hash [--vk FILE]",
   "inspect --proof FILE"]

structure Options where
  proof : Path
  key : Option Path
  publicInputs : List String
  policy : Option Path

def keyPath (settings : Verifier.Settings) (given : Option Path) : Step Path :=
  match given <|> settings.keyPath with
  | some p => pure p
  | none => Run.fail 2 "no verification key (use --vk or set ZK_VK_PATH)"

def readKey (settings : Verifier.Settings) (given : Option Path) : Step Key := do
  let path := (← keyPath settings given).toString
  let file ← Run.ofSession (readFile path)
  match Key.load path file.content? with
  | .ok k => pure k
  | .error (.load e) => Run.fail 2 e.message
  | .error .encoding => Run.stopAt .encoding

def readProof (path : Path) : Step ProofDocument := do
  let path := path.toString
  let file ← Run.ofSession (readFile path)
  let refused : Step ProofDocument := Run.fail 2 ("cannot read proof document " ++ path)
  match file.content? with
  | none => refused
  | some bs =>
    match ProofDocument.decode bs with
    | .ok d => pure d
    | .error .encoding => Run.stopAt .encoding
    | .error _ => refused

def readWords (what : String) (words : List WrittenWord) : Step (List Nat) :=
  match words.mapM WrittenWord.read with
  | .ok ns => pure ns
  | .error e => Run.fail 2 ("invalid " ++ what ++ ": " ++ e.message)

def values (ns : List Nat) : List Value :=
  ns.map fun (n : Nat) => .int n

def readPublicInputs (given : List String) (d : ProofDocument) : Step (List Nat) :=
  readWords "public input" (if given.isEmpty then d.publicInputs.getD [] else given.map .inr)

def policySource (path : String) : FileState → Policy.Source
  | .missing => .missing path
  | .unreadable => .unreadable path
  | .content bs => .file path bs

def policyReason : Policy.LoadError → Except Fault (Option String)
  | .document (.conversion (.literal (.invalid base shown))) =>
    .ok (some (Integer.LiteralError.invalid base shown).message)
  | .document (.unknownEntries shown) => .ok (some (Policy.DocumentError.unknownEntries shown).message)
  | .document (.conversion .infinity) => .error (.policy (.document (.conversion .infinity)))
  | .document .noValues => .error (.policy (.document .noValues))
  | .yaml (.integer (.invalid base shown)) => .ok (some (Integer.LiteralError.invalid base shown).message)
  | .yaml .truth => .error (.policy (.yaml .truth))
  | .yaml .emptyNumber => .error (.policy (.yaml .emptyNumber))
  | .yaml .date => .error (.policy (.yaml .date))
  | .yaml .overflow => .error (.policy (.yaml .overflow))
  | .yaml .tooDeep => .error (.policy (.yaml .tooDeep))
  | .json .tooDeep => .error (.policy (.json .tooDeep))
  | .missing path => .ok (some (Policy.LoadError.missing path).message)
  | .notMapping path => .ok (some (Policy.LoadError.notMapping path).message)
  | _ => .ok none

def refusePolicy (path : String) (e : Policy.LoadError) : Step (Option Meter) :=
  match policyReason e with
  | .error f => Run.stopAt f
  | .ok (some reason) => Run.fail 2 ("invalid policy " ++ path ++ ": " ++ reason)
  | .ok none => Run.fail 2 ("invalid policy " ++ path)

def readMeter [Platform] (settings : Verifier.Settings) (given : Option Path) : Step (Option Meter) :=
  match given <|> settings.policyPath with
  | none => pure none
  | some path => do
    let path := path.toString
    let file ← Run.ofSession (readFile path)
    match Policy.load? (policySource path file) false with
    | .ok p => pure (some (Meter.ofPolicy (p.getD .standard)))
    | .error e => refusePolicy path e

def verify [Platform] (settings : Verifier.Settings) (o : Options) : Step Unit := do
  let key ← readKey settings o.key
  let document ← readProof o.proof
  let inputs ← readPublicInputs o.publicInputs document
  let words ← readWords "proof word" document.proof
  let meter ← readMeter settings o.policy
  match (Verifier.verify ⟨some key⟩ (values inputs) (.words (values words)) meter).1 with
  | .ok .accepted => Run.ofSession (printLine "✓ proof accepted")
  | .ok (.rejected r) =>
    Run.ofSession (printError ("✗ proof rejected: " ++ r.code ++ ": " ++ r.message))
    throw (.exit 1)
  | .error e => Run.stopAt (.verifier e)

def keyHash (settings : Verifier.Settings) (given : Option Path) : Step Unit := do
  let key ← readKey settings given
  Run.ofSession (printLine ("0x" ++ Hex.ofBytes key.digest))

def pointText (a : Bn254.G1) : Value :=
  let (x, y) := Bn254.G1.toAffine a
  .list [.text (Word.hexOfNat x), .text (Word.hexOfNat y)]

def numberText (n : Nat) : Value :=
  .text (Word.hexOfNat n)

def outline (p : Proof) (publicInputs : List Nat) : Value :=
  .object
    [("commitments", .object
      [("wires", .list (p.wires.map pointText)),
       ("copy_permutation_grand_product", pointText p.copyProduct),
       ("lookup_s_poly", pointText p.lookupS),
       ("lookup_grand_product", pointText p.lookupProduct),
       ("quotient", .list (p.quotients.map pointText))]),
     ("evaluations", .object (Evaluations.names.zip (p.evaluations.toList.map fun n => numberText n.toNat))),
     ("openings", .object [("at_z", pointText p.openingAtZ), ("at_z_omega", pointText p.openingAtNext)]),
     ("public_inputs", .list (publicInputs.map numberText))]

def inspect (path : Path) : Step Unit := do
  let document ← readProof path
  let words ← readWords "proof word" document.proof
  match Proof.ofValues (values words) with
  | .error e => Run.fail 1 e.message
  | .ok p =>
    let inputs ← readPublicInputs [] document
    Run.ofSession (printLine (Json.indented .unicode (outline p inputs)))

inductive Request where
  | verify (o : Options)
  | keyHash (key : Option Path)
  | inspect (proof : Path)

def path? (a : Arguments) (name : String) : Option Path :=
  (a.value? name).map Path.ofString

def request? (command : String) (args : List String) : Option Request := do
  match command with
  | "verify" =>
    let a ← Arguments.parse? ["--proof", "--vk", "--public", "--policy"] args
    guard a.operands.isEmpty
    let proof ← path? a "--proof"
    some (.verify ⟨proof, path? a "--vk", a.values "--public", path? a "--policy"⟩)
  | "vk-hash" =>
    let a ← Arguments.parse? ["--vk"] args
    guard a.operands.isEmpty
    some (.keyHash (path? a "--vk"))
  | "inspect" =>
    let a ← Arguments.parse? ["--proof"] args
    guard a.operands.isEmpty
    some (.inspect (← path? a "--proof"))
  | _ => none

def readRequest : List String → Option Request
  | "--" :: command :: args => request? command args
  | command :: args => request? command args
  | [] => none

def perform [Platform] (settings : Verifier.Settings) : Request → Step Unit
  | .verify o => verify settings o
  | .keyHash key => keyHash settings key
  | .inspect proof => inspect proof

def session [Platform] (env : Environment) (args : List String) : Session (Ending Fault) :=
  match readRequest args with
  | some r => (perform (.ofEnvironment env) r).session
  | none => pure .usage

end Settlement.Command.Verify
