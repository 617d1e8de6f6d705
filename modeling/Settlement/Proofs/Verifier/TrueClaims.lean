import Mathlib
import Settlement.Proofs.Verifier.Linearization

namespace Settlement.Linearization

open Bn254 Constraints Polynomial

def linearPolynomials (ps : KeyPolynomials) (cols : Columns) : LinearPart Fr[X] where
  qA := ps.qA
  qB := ps.qB
  qC := ps.qC
  qD := ps.qD
  qAB := ps.qAB
  qAC := ps.qAC
  qConst := ps.qConst
  qDNext := ps.qDNext
  customGate := ps.customGate
  copyProduct := cols.copyProduct
  sigma3 := ps.sigma3
  lookupProduct := cols.lookupProduct
  lookupS := cols.lookupS

noncomputable def linearPolynomial (key : Key) (inputs : List ℤ) (ch : Challenges) (ps : KeyPolynomials)
    (cols : Columns) (e : Evaluations) : Fr[X] :=
  match Point.of key inputs ch with
  | .ok pt => LinearPart.combine (coefficients key e ch pt) (linearPolynomials ps cols)
  | .error _ => 0

structure TrueClaims (key : Key) (inputs : List ℤ) (ch : Challenges) (ps : KeyPolynomials)
    (cols : Columns) (parts : Fin 4 → Fr[X]) (e : Evaluations) : Prop where
  a : (e.a : Fr) = cols.a.eval (ch.z : Fr)
  b : (e.b : Fr) = cols.b.eval (ch.z : Fr)
  c : (e.c : Fr) = cols.c.eval (ch.z : Fr)
  d : (e.d : Fr) = cols.d.eval (ch.z : Fr)
  dNext : (e.dNext : Fr) = cols.d.eval (ch.z * key.domain.omega : Fr)
  gateSelector : (e.gateSelector : Fr) = ps.mainGate.eval (ch.z : Fr)
  sigma0 : (e.sigma0 : Fr) = ps.sigma0.eval (ch.z : Fr)
  sigma1 : (e.sigma1 : Fr) = ps.sigma1.eval (ch.z : Fr)
  sigma2 : (e.sigma2 : Fr) = ps.sigma2.eval (ch.z : Fr)
  copyProductNext : (e.copyProductNext : Fr) = cols.copyProduct.eval (ch.z * key.domain.omega : Fr)
  lookupSNext : (e.lookupSNext : Fr) = cols.lookupS.eval (ch.z * key.domain.omega : Fr)
  lookupProductNext : (e.lookupProductNext : Fr) = cols.lookupProduct.eval (ch.z * key.domain.omega : Fr)
  table : (e.table : Fr) = (ps.table ch.eta).eval (ch.z : Fr)
  tableNext : (e.tableNext : Fr) = (ps.table ch.eta).eval (ch.z * key.domain.omega : Fr)
  lookupSelector : (e.lookupSelector : Fr) = ps.lookupSelector.eval (ch.z : Fr)
  tableType : (e.tableType : Fr) = ps.tableType.eval (ch.z : Fr)
  quotient : (e.quotient : Fr) = (quotientPolynomial key.domain.size parts).eval (ch.z : Fr)
  linearization : (e.linearization : Fr) = (linearPolynomial key inputs ch ps cols e).eval (ch.z : Fr)

variable {key : Key} {inputs : List ℤ} {ch : Challenges} {ps : KeyPolynomials} {cols : Columns}
  {parts : Fin 4 → Fr[X]} {e : Evaluations}

theorem linearPolynomial_eq {pt : Point} (hof : Point.of key inputs ch = .ok pt) :
    linearPolynomial key inputs ch ps cols e =
      LinearPart.combine (coefficients key e ch pt) (linearPolynomials ps cols) := by
  rw [linearPolynomial, hof]

theorem eval_linearPolynomial {pt : Point} (hof : Point.of key inputs ch = .ok pt) (x : Fr) :
    (linearPolynomial key inputs ch ps cols e).eval x =
      LinearPart.combine (coefficients key e ch pt) ((linearPolynomials ps cols).map (eval x)) := by
  have h := LinearPart.combine_map (coefficients key e ch pt) (linearPolynomials ps cols) (evalRingHom x)
  rw [coe_evalRingHom] at h
  rw [linearPolynomial_eq hof, h]

theorem TrueClaims.claimedRow_eq (h : TrueClaims key inputs ch ps cols parts e) :
    claimedRow key inputs e ch.z ((linearPolynomials ps cols).map (eval (ch.z : Fr))) =
      (Row.ofPolynomials key.domain ch.eta inputs ps cols).map (eval (ch.z : Fr)) := by
  simp only [claimedRow, Row.map, Row.ofPolynomials, LinearPart.map, linearPolynomials, eval_next, eval_X,
    h.a, h.b, h.c, h.d, h.dNext, h.gateSelector, h.sigma0, h.sigma1, h.sigma2, h.copyProductNext,
    h.lookupSNext, h.lookupProductNext, h.table, h.tableNext, h.lookupSelector, h.tableType]

theorem TrueClaims.quotientHolds_iff (h : TrueClaims key inputs ch ps cols parts e) {pt : Point}
    (hof : Point.of key inputs ch = .ok pt) (hpt : pt.Exact key inputs ch) :
    quotientHolds e ch pt = true ↔
      (quotientPolynomial key.domain.size parts).eval (ch.z : Fr) * ((ch.z : Fr) ^ key.domain.size - 1) =
        (identityPolynomial key ch inputs ps cols).eval (ch.z : Fr) := by
  rw [Linearization.quotientHolds_iff hpt, h.quotient, h.linearization, eval_linearPolynomial hof,
    combine_add_constant hpt, h.claimedRow_eq, eval_identityPolynomial]

end Settlement.Linearization
