import Settlement.Verifier.Failure

/-!
Proofs and their layout in 44 words: eleven commitments, eighteen evaluations and two opening proofs.
A point takes two words. Reading refuses whatever is not canonical, so that each proof has one
layout.
-/

namespace Settlement

open Bn254

structure Evaluations where
  a : Int
  b : Int
  c : Int
  d : Int
  dNext : Int
  gateSelector : Int
  sigma0 : Int
  sigma1 : Int
  sigma2 : Int
  copyProductNext : Int
  lookupSNext : Int
  lookupProductNext : Int
  table : Int
  tableNext : Int
  lookupSelector : Int
  tableType : Int
  quotient : Int
  linearization : Int
  deriving DecidableEq

namespace Evaluations

def names : List String :=
  ["a_at_z", "b_at_z", "c_at_z", "d_at_z", "d_at_z_omega", "gate_selector_at_z", "sigma_0_at_z",
   "sigma_1_at_z", "sigma_2_at_z", "copy_permutation_grand_product_at_z_omega",
   "lookup_s_poly_at_z_omega", "lookup_grand_product_at_z_omega", "lookup_t_poly_at_z",
   "lookup_t_poly_at_z_omega", "lookup_selector_at_z", "lookup_table_type_at_z", "quotient_at_z",
   "linearization_at_z"]

def toList (e : Evaluations) : List Int :=
  [e.a, e.b, e.c, e.d, e.dNext, e.gateSelector, e.sigma0, e.sigma1, e.sigma2, e.copyProductNext,
   e.lookupSNext, e.lookupProductNext, e.table, e.tableNext, e.lookupSelector, e.tableType,
   e.quotient, e.linearization]

def ofList (xs : List Int) : Evaluations :=
  let x (i : Nat) : Int := xs.getD i 0
  ⟨x 0, x 1, x 2, x 3, x 4, x 5, x 6, x 7, x 8, x 9, x 10, x 11, x 12, x 13, x 14, x 15, x 16, x 17⟩

theorem length_toList (e : Evaluations) : e.toList.length = 18 := rfl

theorem ofList_toList (e : Evaluations) : ofList e.toList = e := rfl

def wires (e : Evaluations) : List Int :=
  [e.a, e.b, e.c, e.d]

end Evaluations

structure Proof where
  wires : List G1
  copyProduct : G1
  lookupS : G1
  lookupProduct : G1
  quotients : List G1
  evaluations : Evaluations
  openingAtZ : G1
  openingAtNext : G1
  deriving DecidableEq

namespace Proof

def wordCount : Nat := 44

def commitments (p : Proof) : List G1 :=
  p.wires ++ [p.copyProduct, p.lookupS, p.lookupProduct] ++ p.quotients

def asWord? : Value → Option Nat
  | .int n => if 0 ≤ n ∧ n < Nat.pow 2 256 then some n.toNat else none
  | _ => none

def readWords (start : Nat) : List Value → Except ProofError (List Nat)
  | [] => .ok []
  | v :: vs =>
    match asWord? v with
    | none => .error (.word start)
    | some w => do pure (w :: (← readWords (start + 1) vs))

def pointAt (ws : List Nat) (i : Nat) : Except ProofError G1 :=
  (G1.ofAffine (ws.getD i 0) (ws.getD (i + 1) 0)).mapError (.point i)

def checkEvaluations : List (String × Nat) → Except ProofError Unit
  | [] => .ok ()
  | (name, x) :: rest => if x < r then checkEvaluations rest else .error (.evaluation name)

/-- The proof in 44 words. The commitments are looked at first, then the evaluations, then the
opening proofs. -/
def ofWords (ws : List Nat) : Except ProofError Proof := do
  let points ← (List.range 11).mapM fun k => pointAt ws (2 * k)
  let evaluations := (ws.drop 22).take 18
  checkEvaluations (Evaluations.names.zip evaluations)
  let atZ ← pointAt ws 40
  let atNext ← pointAt ws 42
  let point (k : Nat) : G1 := points.getD k G1.infinity
  pure {
    wires := points.take 4
    copyProduct := point 4
    lookupS := point 5
    lookupProduct := point 6
    quotients := points.drop 7
    evaluations := .ofList (evaluations.map Int.ofNat)
    openingAtZ := atZ
    openingAtNext := atNext }

def ofValues (vs : List Value) : Except ProofError Proof := do
  if vs.length ≠ wordCount then throw (.wordCount vs.length)
  ofWords (← readWords 0 vs)

def ofBytes (bs : Bytes) : Except ProofError Proof := do
  if bs.length ≠ 32 * wordCount then throw (.byteCount bs.length)
  ofWords ((Bytes.chunks 32 bs).map Bytes.toNat)

def pointWords (a : G1) : List Int :=
  let (x, y) := G1.toAffine a
  [x, y]

def toWords (p : Proof) : List Int :=
  p.commitments.flatMap pointWords ++ p.evaluations.toList ++ pointWords p.openingAtZ ++
    pointWords p.openingAtNext

end Proof

inductive ProofInput where
  | parsed (p : Proof)
  | bytes (bs : Bytes)
  | words (vs : List Value)

def ProofInput.parse : ProofInput → Except ProofError Proof
  | .parsed p => .ok p
  | .bytes bs => Proof.ofBytes bs
  | .words vs => Proof.ofValues vs

end Settlement
