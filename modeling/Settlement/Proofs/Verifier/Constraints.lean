import Mathlib
import Settlement.Proofs.Bn254.Domain
import Settlement.Verifier.Linearization

/-!
The constraint system of the verifier over any commutative ring: the values of all polynomials at a
point and at the next row, nine constraints on them, and the identity that folds the constraints with
powers of a separator. Taken in the ring of polynomials the values are the polynomials themselves.
-/

namespace Settlement

open Bn254 Polynomial

namespace Constraints

structure Setting (K : Type) where
  eta : K
  beta : K
  gamma : K
  betaLookup : K
  gammaLookup : K
  shift1 : K
  shift2 : K
  shift3 : K
  -- the last element of the domain
  lastNode : K
  size : ℕ

structure Row (K : Type) where
  point : K
  qA : K
  qB : K
  qC : K
  qD : K
  qAB : K
  qAC : K
  qConst : K
  qDNext : K
  mainGate : K
  customGate : K
  sigma0 : K
  sigma1 : K
  sigma2 : K
  sigma3 : K
  lookupSelector : K
  tableType : K
  table : K
  tableNext : K
  a : K
  b : K
  c : K
  d : K
  dNext : K
  copyProduct : K
  copyProductNext : K
  lookupS : K
  lookupSNext : K
  lookupProduct : K
  lookupProductNext : K
  -- the basis polynomials of the first and the last row
  first : K
  last : K
  publicInput : K

section Ring

variable {K L : Type} [CommRing K] [CommRing L]

def Setting.map (f : K → L) (s : Setting K) : Setting L :=
  ⟨f s.eta, f s.beta, f s.gamma, f s.betaLookup, f s.gammaLookup, f s.shift1, f s.shift2, f s.shift3,
    f s.lastNode, s.size⟩

def Row.map (f : K → L) (v : Row K) : Row L :=
  ⟨f v.point, f v.qA, f v.qB, f v.qC, f v.qD, f v.qAB, f v.qAC, f v.qConst, f v.qDNext, f v.mainGate,
    f v.customGate, f v.sigma0, f v.sigma1, f v.sigma2, f v.sigma3, f v.lookupSelector, f v.tableType,
    f v.table, f v.tableNext, f v.a, f v.b, f v.c, f v.d, f v.dNext, f v.copyProduct,
    f v.copyProductNext, f v.lookupS, f v.lookupSNext, f v.lookupProduct, f v.lookupProductNext,
    f v.first, f v.last, f v.publicInput⟩

variable (s : Setting K) (v : Row K)

def Setting.gammaBeta : K := s.gammaLookup * (1 + s.betaLookup)

def mainConstraint : K :=
  v.mainGate * (v.qA * v.a + v.qB * v.b + v.qC * v.c + v.qD * v.d + v.qAB * (v.a * v.b) +
    v.qAC * (v.a * v.c) + v.qConst + v.qDNext * v.dNext - v.publicInput)

def identityProduct : K :=
  (v.a + s.beta * v.point + s.gamma) * (v.b + s.beta * s.shift1 * v.point + s.gamma) *
    (v.c + s.beta * s.shift2 * v.point + s.gamma) * (v.d + s.beta * s.shift3 * v.point + s.gamma)

def permutationProduct : K :=
  (v.a + s.beta * v.sigma0 + s.gamma) * (v.b + s.beta * v.sigma1 + s.gamma) *
    (v.c + s.beta * v.sigma2 + s.gamma) * (v.d + s.beta * v.sigma3 + s.gamma)

def copyConstraint : K :=
  v.copyProduct * identityProduct s v - v.copyProductNext * permutationProduct s v

def lookup : K :=
  v.lookupSelector * (v.a + s.eta * v.b + s.eta ^ 2 * v.c + s.eta ^ 3 * v.tableType)

def lookupConstraint : K :=
  (v.point - s.lastNode) *
    (v.lookupProduct * (1 + s.betaLookup) * (s.gammaLookup + lookup s v) *
        (s.gammaBeta + v.table + s.betaLookup * v.tableNext) -
      v.lookupProductNext * (s.gammaBeta + v.lookupS + s.betaLookup * v.lookupSNext))

/-- The constraints in the order of the powers of the separator. -/
def constraint : Fin 9 → K :=
  ![mainConstraint v,
    v.customGate * (v.a ^ 2 - v.b),
    v.customGate * (v.b ^ 2 - v.c),
    v.customGate * (v.a * v.c - v.d),
    copyConstraint s v,
    (v.copyProduct - 1) * v.first,
    lookupConstraint s v,
    (v.lookupProduct - 1) * v.first,
    (v.lookupProduct - s.gammaBeta ^ (s.size - 1)) * v.last]

/-- The left-hand side of the constraint identity. -/
def identity (alpha : K) : K := ∑ k : Fin 9, alpha ^ (k : ℕ) * constraint s v k

theorem identity_eq (alpha : K) :
    identity s v alpha = mainConstraint v + alpha * (v.customGate * (v.a ^ 2 - v.b)) +
      alpha ^ 2 * (v.customGate * (v.b ^ 2 - v.c)) + alpha ^ 3 * (v.customGate * (v.a * v.c - v.d)) +
      alpha ^ 4 * copyConstraint s v + alpha ^ 5 * ((v.copyProduct - 1) * v.first) +
      alpha ^ 6 * lookupConstraint s v + alpha ^ 7 * ((v.lookupProduct - 1) * v.first) +
      alpha ^ 8 * ((v.lookupProduct - s.gammaBeta ^ (s.size - 1)) * v.last) := by
  rw [identity, Fin.sum_univ_castSucc, Fin.sum_univ_eight]
  simp [constraint]

theorem constraint_map (f : K →+* L) (k : Fin 9) :
    constraint (s.map f) (v.map f) k = f (constraint s v k) := by
  fin_cases k <;>
    simp [constraint, mainConstraint, copyConstraint, identityProduct, permutationProduct, lookup,
      lookupConstraint, Setting.gammaBeta, Setting.map, Row.map]

theorem identity_map (f : K →+* L) (alpha : K) :
    identity (s.map f) (v.map f) (f alpha) = f (identity s v alpha) := by
  simp only [identity, map_sum, map_mul, map_pow, constraint_map]

end Ring

structure KeyPolynomials where
  qA : Fr[X]
  qB : Fr[X]
  qC : Fr[X]
  qD : Fr[X]
  qAB : Fr[X]
  qAC : Fr[X]
  qConst : Fr[X]
  qDNext : Fr[X]
  mainGate : Fr[X]
  customGate : Fr[X]
  sigma0 : Fr[X]
  sigma1 : Fr[X]
  sigma2 : Fr[X]
  sigma3 : Fr[X]
  lookupSelector : Fr[X]
  table0 : Fr[X]
  table1 : Fr[X]
  table2 : Fr[X]
  table3 : Fr[X]
  tableType : Fr[X]

namespace KeyPolynomials

def toList (ps : KeyPolynomials) : List Fr[X] :=
  [ps.qA, ps.qB, ps.qC, ps.qD, ps.qAB, ps.qAC, ps.qConst, ps.qDNext, ps.mainGate, ps.customGate,
   ps.sigma0, ps.sigma1, ps.sigma2, ps.sigma3, ps.lookupSelector, ps.table0, ps.table1, ps.table2,
   ps.table3, ps.tableType]

noncomputable def table (ps : KeyPolynomials) (eta : Fr) : Fr[X] :=
  ps.table0 + C eta * ps.table1 + C (eta ^ 2) * ps.table2 + C (eta ^ 3) * ps.table3

end KeyPolynomials

/-- The polynomials that a prover commits to before the quotient. -/
structure Columns where
  a : Fr[X]
  b : Fr[X]
  c : Fr[X]
  d : Fr[X]
  copyProduct : Fr[X]
  lookupS : Fr[X]
  lookupProduct : Fr[X]

def Columns.toList (cols : Columns) : List Fr[X] :=
  [cols.a, cols.b, cols.c, cols.d, cols.copyProduct, cols.lookupS, cols.lookupProduct]

noncomputable def quotientPolynomial (n : ℕ) (parts : Fin 4 → Fr[X]) : Fr[X] :=
  ∑ i : Fin 4, X ^ (n * i) * parts i

noncomputable def next (d : Domain) (p : Fr[X]) : Fr[X] := p.comp (C (d.omega : Fr) * X)

theorem eval_next (d : Domain) (p : Fr[X]) (z : Fr) : (next d p).eval z = p.eval (z * d.omega) := by
  rw [next, eval_comp, eval_mul, eval_C, eval_X, mul_comm]

noncomputable def inputPolynomial (d : Domain) (inputs : List ℤ) : Fr[X] :=
  ∑ j : Fin inputs.length, C (inputs.get j : Fr) * d.basis j

def Setting.of (key : Key) (ch : Challenges) : Setting Fr where
  eta := ch.eta
  beta := ch.beta
  gamma := ch.gamma
  betaLookup := ch.betaLookup
  gammaLookup := ch.gammaLookup
  shift1 := key.nonResidues.get 0
  shift2 := key.nonResidues.get 1
  shift3 := key.nonResidues.get 2
  lastNode := key.domain.node (key.domain.size - 1)
  size := key.domain.size

noncomputable def Row.ofPolynomials (d : Domain) (eta : Fr) (inputs : List ℤ) (ps : KeyPolynomials)
    (cols : Columns) : Row Fr[X] where
  point := X
  qA := ps.qA
  qB := ps.qB
  qC := ps.qC
  qD := ps.qD
  qAB := ps.qAB
  qAC := ps.qAC
  qConst := ps.qConst
  qDNext := ps.qDNext
  mainGate := ps.mainGate
  customGate := ps.customGate
  sigma0 := ps.sigma0
  sigma1 := ps.sigma1
  sigma2 := ps.sigma2
  sigma3 := ps.sigma3
  lookupSelector := ps.lookupSelector
  tableType := ps.tableType
  table := ps.table eta
  tableNext := next d (ps.table eta)
  a := cols.a
  b := cols.b
  c := cols.c
  d := cols.d
  dNext := next d cols.d
  copyProduct := cols.copyProduct
  copyProductNext := next d cols.copyProduct
  lookupS := cols.lookupS
  lookupSNext := next d cols.lookupS
  lookupProduct := cols.lookupProduct
  lookupProductNext := next d cols.lookupProduct
  first := d.basis 0
  last := d.basis (d.size - 1)
  publicInput := inputPolynomial d inputs

noncomputable def constraintPolynomial (key : Key) (ch : Challenges) (inputs : List ℤ) (ps : KeyPolynomials)
    (cols : Columns) (k : Fin 9) : Fr[X] :=
  constraint ((Setting.of key ch).map C) (Row.ofPolynomials key.domain ch.eta inputs ps cols) k

noncomputable def identityPolynomial (key : Key) (ch : Challenges) (inputs : List ℤ) (ps : KeyPolynomials)
    (cols : Columns) : Fr[X] :=
  identity ((Setting.of key ch).map C) (Row.ofPolynomials key.domain ch.eta inputs ps cols) (C (ch.alpha : Fr))

theorem eval_identityPolynomial (key : Key) (ch : Challenges) (inputs : List ℤ) (ps : KeyPolynomials)
    (cols : Columns) (z : Fr) :
    (identityPolynomial key ch inputs ps cols).eval z =
      identity (Setting.of key ch) ((Row.ofPolynomials key.domain ch.eta inputs ps cols).map (eval z))
        ch.alpha := by
  have h := identity_map ((Setting.of key ch).map C)
    (Row.ofPolynomials key.domain ch.eta inputs ps cols) (evalRingHom z) (C (ch.alpha : Fr))
  rw [coe_evalRingHom, eval_C] at h
  rw [identityPolynomial, ← h]
  simp only [Setting.map, eval_C]

end Constraints

end Settlement
