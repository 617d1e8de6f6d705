import Mathlib
import Settlement.Proofs.Verifier.Constraints

namespace Settlement.Constraints

open Bn254 Polynomial

structure Row.Bounded (m : ℕ) (v : Row Fr[X]) : Prop where
  point : v.point.natDegree ≤ m
  qA : v.qA.natDegree ≤ m
  qB : v.qB.natDegree ≤ m
  qC : v.qC.natDegree ≤ m
  qD : v.qD.natDegree ≤ m
  qAB : v.qAB.natDegree ≤ m
  qAC : v.qAC.natDegree ≤ m
  qConst : v.qConst.natDegree ≤ m
  qDNext : v.qDNext.natDegree ≤ m
  mainGate : v.mainGate.natDegree ≤ m
  customGate : v.customGate.natDegree ≤ m
  sigma0 : v.sigma0.natDegree ≤ m
  sigma1 : v.sigma1.natDegree ≤ m
  sigma2 : v.sigma2.natDegree ≤ m
  sigma3 : v.sigma3.natDegree ≤ m
  lookupSelector : v.lookupSelector.natDegree ≤ m
  tableType : v.tableType.natDegree ≤ m
  table : v.table.natDegree ≤ m
  tableNext : v.tableNext.natDegree ≤ m
  a : v.a.natDegree ≤ m
  b : v.b.natDegree ≤ m
  c : v.c.natDegree ≤ m
  d : v.d.natDegree ≤ m
  dNext : v.dNext.natDegree ≤ m
  copyProduct : v.copyProduct.natDegree ≤ m
  copyProductNext : v.copyProductNext.natDegree ≤ m
  lookupS : v.lookupS.natDegree ≤ m
  lookupSNext : v.lookupSNext.natDegree ≤ m
  lookupProduct : v.lookupProduct.natDegree ≤ m
  lookupProductNext : v.lookupProductNext.natDegree ≤ m
  first : v.first.natDegree ≤ m
  last : v.last.natDegree ≤ m
  publicInput : v.publicInput.natDegree ≤ m

section Bounds

variable {p q : Fr[X]} {i j k : ℕ}

theorem natDegree_add_le' (hp : p.natDegree ≤ k) (hq : q.natDegree ≤ k) : (p + q).natDegree ≤ k :=
  natDegree_add_le_of_degree_le hp hq

theorem natDegree_sub_le' (hp : p.natDegree ≤ k) (hq : q.natDegree ≤ k) : (p - q).natDegree ≤ k :=
  (natDegree_sub_le_of_le hp hq).trans (max_self k).le

theorem natDegree_mul_le' (hp : p.natDegree ≤ i) (hq : q.natDegree ≤ j) (h : i + j ≤ k) :
    (p * q).natDegree ≤ k :=
  (natDegree_mul_le_of_le hp hq).trans h

theorem natDegree_C_le' (c : Fr) : (C c).natDegree ≤ k := (natDegree_C c).trans_le (Nat.zero_le k)

theorem natDegree_C_mul_le' (c : Fr) (hp : p.natDegree ≤ k) : (C c * p).natDegree ≤ k :=
  (natDegree_C_mul_le c p).trans hp

end Bounds

section Constraints

variable (s : Setting Fr) {v : Row Fr[X]} {m : ℕ}

theorem gammaBeta_map : (s.map C).gammaBeta = C s.gammaBeta := by
  simp [Setting.gammaBeta, Setting.map]

theorem natDegree_factor_le {w p : Fr[X]} (hw : w.natDegree ≤ m) (hp : p.natDegree ≤ m) (beta gamma : Fr) :
    (w + C beta * p + C gamma).natDegree ≤ m :=
  natDegree_add_le' (natDegree_add_le' hw (natDegree_C_mul_le' beta hp)) (natDegree_C_le' gamma)

variable (hv : v.Bounded m)

include hv

theorem natDegree_mainConstraint_le : (mainConstraint v).natDegree ≤ 5 * m := by
  have h2 {p q : Fr[X]} (hp : p.natDegree ≤ m) (hq : q.natDegree ≤ m) : (p * q).natDegree ≤ 3 * m :=
    natDegree_mul_le' hp hq (by omega)
  have h3 {p q w : Fr[X]} (hp : p.natDegree ≤ m) (hq : q.natDegree ≤ m) (hw : w.natDegree ≤ m) :
      (p * (q * w)).natDegree ≤ 3 * m :=
    natDegree_mul_le' hp (natDegree_mul_le' hq hw le_rfl) (by omega)
  have h1 {p : Fr[X]} (hp : p.natDegree ≤ m) : p.natDegree ≤ 3 * m := by omega
  unfold mainConstraint
  refine natDegree_mul_le' hv.mainGate (j := 3 * m) ?_ (by omega)
  refine natDegree_sub_le' ?_ (h1 hv.publicInput)
  refine natDegree_add_le' ?_ (h2 hv.qDNext hv.dNext)
  refine natDegree_add_le' ?_ (h1 hv.qConst)
  refine natDegree_add_le' ?_ (h3 hv.qAC hv.a hv.c)
  refine natDegree_add_le' ?_ (h3 hv.qAB hv.a hv.b)
  refine natDegree_add_le' ?_ (h2 hv.qD hv.d)
  refine natDegree_add_le' ?_ (h2 hv.qC hv.c)
  exact natDegree_add_le' (h2 hv.qA hv.a) (h2 hv.qB hv.b)

theorem natDegree_copyConstraint_le : (copyConstraint (s.map C) v).natDegree ≤ 5 * m := by
  have hprod {p q t u : Fr[X]} (hp : p.natDegree ≤ m) (hq : q.natDegree ≤ m) (ht : t.natDegree ≤ m)
      (hu : u.natDegree ≤ m) : (p * q * t * u).natDegree ≤ 4 * m :=
    natDegree_mul_le' (natDegree_mul_le' (natDegree_mul_le' hp hq le_rfl) ht le_rfl) hu (by omega)
  have hidentity : (identityProduct (s.map C) v).natDegree ≤ 4 * m := by
    simp only [identityProduct, Setting.map, ← C_mul]
    exact hprod (natDegree_factor_le hv.a hv.point _ _) (natDegree_factor_le hv.b hv.point _ _)
      (natDegree_factor_le hv.c hv.point _ _) (natDegree_factor_le hv.d hv.point _ _)
  have hpermutation : (permutationProduct (s.map C) v).natDegree ≤ 4 * m :=
    hprod (natDegree_factor_le hv.a hv.sigma0 _ _) (natDegree_factor_le hv.b hv.sigma1 _ _)
      (natDegree_factor_le hv.c hv.sigma2 _ _) (natDegree_factor_le hv.d hv.sigma3 _ _)
  exact natDegree_sub_le' (natDegree_mul_le' hv.copyProduct hidentity (by omega))
    (natDegree_mul_le' hv.copyProductNext hpermutation (by omega))

theorem natDegree_lookupConstraint_le : (lookupConstraint (s.map C) v).natDegree ≤ 5 * m := by
  have hvalue : (lookup (s.map C) v).natDegree ≤ 2 * m := by
    simp only [lookup, Setting.map, ← C_pow]
    refine natDegree_mul_le' hv.lookupSelector (j := m) ?_ (by omega)
    exact natDegree_add_le' (natDegree_add_le' (natDegree_add_le' hv.a (natDegree_C_mul_le' _ hv.b))
      (natDegree_C_mul_le' _ hv.c)) (natDegree_C_mul_le' _ hv.tableType)
  have hpair {p q : Fr[X]} (hp : p.natDegree ≤ m) (hq : q.natDegree ≤ m) :
      (C s.gammaBeta + p + C s.betaLookup * q).natDegree ≤ m :=
    natDegree_add_le' (natDegree_add_le' (natDegree_C_le' _) hp) (natDegree_C_mul_le' _ hq)
  have hpoint : (v.point - C s.lastNode).natDegree ≤ m := natDegree_sub_le' hv.point (natDegree_C_le' _)
  have hone : (1 + C s.betaLookup : Fr[X]).natDegree ≤ 0 := by
    rw [← C_1, ← C_add, natDegree_C]
  unfold lookupConstraint
  rw [gammaBeta_map]
  refine natDegree_mul_le' hpoint (j := 4 * m) (natDegree_sub_le' ?_ ?_) (by omega)
  · refine natDegree_mul_le' (i := 3 * m) ?_ (hpair hv.table hv.tableNext) (by omega)
    refine natDegree_mul_le' (natDegree_mul_le' hv.lookupProduct hone le_rfl) (j := 2 * m) ?_ (by omega)
    exact natDegree_add_le' (natDegree_C_le' _) hvalue
  · exact natDegree_mul_le' hv.lookupProductNext (hpair hv.lookupS hv.lookupSNext) (by omega)

theorem natDegree_constraint_le (k : Fin 9) : (constraint (s.map C) v k).natDegree ≤ 5 * m := by
  have hcustom {p q : Fr[X]} (hp : p.natDegree ≤ 2 * m) (hq : q.natDegree ≤ m) :
      (v.customGate * (p - q)).natDegree ≤ 5 * m :=
    natDegree_mul_le' hv.customGate (natDegree_sub_le' hp (by omega)) (by omega)
  have hsquare {p : Fr[X]} (hp : p.natDegree ≤ m) : (p ^ 2).natDegree ≤ 2 * m :=
    natDegree_pow_le_of_le 2 hp
  have hboundary {p q : Fr[X]} (c : Fr) (hp : p.natDegree ≤ m) (hq : q.natDegree ≤ m) :
      ((p - C c) * q).natDegree ≤ 5 * m :=
    natDegree_mul_le' (natDegree_sub_le' hp (natDegree_C_le' c)) hq (by omega)
  fin_cases k
  · exact natDegree_mainConstraint_le hv
  · exact hcustom (hsquare hv.a) hv.b
  · exact hcustom (hsquare hv.b) hv.c
  · exact hcustom (natDegree_mul_le' hv.a hv.c (by omega)) hv.d
  · exact natDegree_copyConstraint_le s hv
  · exact hboundary 1 hv.copyProduct hv.first
  · exact natDegree_lookupConstraint_le s hv
  · exact hboundary 1 hv.lookupProduct hv.first
  · change ((v.lookupProduct - (s.map C).gammaBeta ^ (s.size - 1)) * v.last).natDegree ≤ _
    rw [gammaBeta_map, ← C_pow]
    exact hboundary _ hv.lookupProduct hv.last

theorem natDegree_identity_le (alpha : Fr) : (identity (s.map C) v (C alpha)).natDegree ≤ 5 * m := by
  apply natDegree_sum_le_of_forall_le
  intro k _
  rw [← C_pow]
  exact natDegree_C_mul_le' _ (natDegree_constraint_le s hv k)

end Constraints

section Polynomials

variable {d : Domain} (hd : d.Accepted) {inputs : List ℤ} {ps : KeyPolynomials} {cols : Columns}

theorem natDegree_next_le (d : Domain) {p : Fr[X]} {m : ℕ} (hp : p.natDegree ≤ m) :
    (next d p).natDegree ≤ m := by
  have hlinear : (C (d.omega : Fr) * X).natDegree ≤ 1 := (natDegree_C_mul_le _ _).trans natDegree_X_le
  calc (next d p).natDegree ≤ p.natDegree * (C (d.omega : Fr) * X).natDegree := natDegree_comp_le
    _ ≤ m * 1 := Nat.mul_le_mul hp hlinear
    _ = m := mul_one m

theorem natDegree_table_le {m : ℕ} (hps : ∀ p ∈ ps.toList, p.natDegree ≤ m) (eta : Fr) :
    (ps.table eta).natDegree ≤ m := by
  simp only [KeyPolynomials.toList, List.forall_mem_cons] at hps
  obtain ⟨-, -, -, -, -, -, -, -, -, -, -, -, -, -, -, h0, h1, h2, h3, -⟩ := hps
  exact natDegree_add_le' (natDegree_add_le' (natDegree_add_le' h0 (natDegree_C_mul_le' _ h1))
    (natDegree_C_mul_le' _ h2)) (natDegree_C_mul_le' _ h3)

include hd

theorem natDegree_inputPolynomial_le (hinputs : inputs.length ≤ d.size) :
    (inputPolynomial d inputs).natDegree ≤ d.size - 1 := by
  apply natDegree_sum_le_of_forall_le
  intro j _
  exact natDegree_C_mul_le' _ (hd.natDegree_basis (by omega)).le

theorem bounded_ofPolynomials (eta : Fr) (hinputs : inputs.length ≤ d.size)
    (hps : ∀ p ∈ ps.toList, p.natDegree ≤ d.size - 1)
    (hcols : ∀ p ∈ cols.toList, p.natDegree ≤ d.size - 1) :
    (Row.ofPolynomials d eta inputs ps cols).Bounded (d.size - 1) := by
  have hsize := hd.two_le
  have htable := natDegree_table_le hps eta
  simp only [KeyPolynomials.toList, List.forall_mem_cons] at hps
  obtain ⟨hqA, hqB, hqC, hqD, hqAB, hqAC, hqConst, hqDNext, hmain, hcustom, hs0, hs1, hs2, hs3, hselector,
    -, -, -, -, htype, -⟩ := hps
  simp only [Columns.toList, List.forall_mem_cons] at hcols
  obtain ⟨ha, hb, hc, hd', hcopy, hlookupS, hlookupProduct, -⟩ := hcols
  exact {
    point := natDegree_X_le.trans (by omega)
    qA := hqA
    qB := hqB
    qC := hqC
    qD := hqD
    qAB := hqAB
    qAC := hqAC
    qConst := hqConst
    qDNext := hqDNext
    mainGate := hmain
    customGate := hcustom
    sigma0 := hs0
    sigma1 := hs1
    sigma2 := hs2
    sigma3 := hs3
    lookupSelector := hselector
    tableType := htype
    table := htable
    tableNext := natDegree_next_le d htable
    a := ha
    b := hb
    c := hc
    d := hd'
    dNext := natDegree_next_le d hd'
    copyProduct := hcopy
    copyProductNext := natDegree_next_le d hcopy
    lookupS := hlookupS
    lookupSNext := natDegree_next_le d hlookupS
    lookupProduct := hlookupProduct
    lookupProductNext := natDegree_next_le d hlookupProduct
    first := (hd.natDegree_basis (by omega)).le
    last := (hd.natDegree_basis (by omega)).le
    publicInput := natDegree_inputPolynomial_le hd hinputs }

end Polynomials

end Settlement.Constraints
