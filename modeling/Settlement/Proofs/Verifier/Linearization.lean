import Mathlib
import Settlement.Proofs.Verifier.Constraints
import Settlement.Proofs.Verifier.Metered
import Settlement.Proofs.WellFormed

/-!
The linearization splits the constraint identity at the evaluation point into a constant and thirteen
terms, each linear in a polynomial that is not opened there.
-/

namespace Settlement.Linearization

open Bn254 Constraints Polynomial

structure LinearPart (K : Type) where
  qA : K
  qB : K
  qC : K
  qD : K
  qAB : K
  qAC : K
  qConst : K
  qDNext : K
  customGate : K
  copyProduct : K
  sigma3 : K
  lookupProduct : K
  lookupS : K

namespace LinearPart

variable {K L : Type}

def map (f : K → L) (x : LinearPart K) : LinearPart L :=
  ⟨f x.qA, f x.qB, f x.qC, f x.qD, f x.qAB, f x.qAC, f x.qConst, f x.qDNext, f x.customGate,
    f x.copyProduct, f x.sigma3, f x.lookupProduct, f x.lookupS⟩

def toList (x : LinearPart K) : List K :=
  [x.qA, x.qB, x.qC, x.qD, x.qAB, x.qAC, x.qConst, x.qDNext, x.customGate, x.copyProduct, x.sigma3,
   x.lookupProduct, x.lookupS]

variable [CommRing K] [CommRing L]

def combine (c : LinearPart ℤ) (x : LinearPart K) : K :=
  c.qA * x.qA + c.qB * x.qB + c.qC * x.qC + c.qD * x.qD + c.qAB * x.qAB + c.qAC * x.qAC +
    c.qConst * x.qConst + c.qDNext * x.qDNext + c.customGate * x.customGate +
    c.copyProduct * x.copyProduct + c.sigma3 * x.sigma3 + c.lookupProduct * x.lookupProduct +
    c.lookupS * x.lookupS

theorem combine_map (c : LinearPart ℤ) (x : LinearPart K) (f : K →+* L) :
    combine c (x.map f) = f (combine c x) := by
  simp only [combine, map, map_add, map_mul, map_intCast]

end LinearPart

def points (key : Key) (proof : Proof) : LinearPart G1 where
  qA := key.gateSetup.get 0
  qB := key.gateSetup.get 1
  qC := key.gateSetup.get 2
  qD := key.gateSetup.get 3
  qAB := key.gateSetup.get 4
  qAC := key.gateSetup.get 5
  qConst := key.gateSetup.get 6
  qDNext := key.gateSetup.get 7
  customGate := key.customGate
  copyProduct := proof.copyProduct
  sigma3 := key.lastSigma
  lookupProduct := proof.lookupProduct
  lookupS := proof.lookupS

def coefficients (key : Key) (e : Evaluations) (ch : Challenges) (pt : Point) : LinearPart ℤ where
  qA := e.gateSelector * e.a
  qB := e.gateSelector * e.b
  qC := e.gateSelector * e.c
  qD := e.gateSelector * e.d
  qAB := e.gateSelector * e.a * e.b
  qAC := e.gateSelector * e.a * e.c
  qConst := e.gateSelector
  qDNext := e.gateSelector * e.dNext
  customGate := customGate e pt
  copyProduct := copyCoefficient key e ch pt
  sigma3 := -pt.alpha 4 * e.copyProductNext * ch.beta * permutationTail e ch % r
  lookupProduct := lookupCoefficient e ch pt
  lookupS := -pt.alpha 6 * pt.beforeLast * e.lookupProductNext % r

theorem toList_eq_ofFn {α : Type} {n : ℕ} (v : Vector α n) : v.toList = List.ofFn v.get := by
  apply List.ext_getElem
  · simp
  · simp [Vector.get_eq_getElem]

theorem shifts_eq (key : Key) :
    key.shifts = [(1 : ℤ), key.nonResidues.get 0, key.nonResidues.get 1, key.nonResidues.get 2] := by
  rw [Key.shifts, toList_eq_ofFn]
  rfl

theorem terms_eq (key : Key) (proof : Proof) (ch : Challenges) (pt : Point) :
    terms key proof ch pt =
      (points key proof).toList.zip (coefficients key proof.evaluations ch pt).toList := by
  rw [terms, toList_eq_ofFn]
  rfl

theorem sum_map_zipIdx (f : ℤ → ℕ → ℤ) (xs : List ℤ) :
    ((xs.zipIdx.map fun t => f t.1 t.2).map (Int.cast : ℤ → Fr)).sum =
      ∑ j : Fin xs.length, ((f (xs.get j) j : ℤ) : Fr) := by
  rw [← List.sum_ofFn]
  congr 1
  apply List.ext_getElem
  · simp
  · simp

structure Point.Exact (pt : Point) (key : Key) (inputs : List ℤ) (ch : Challenges) : Prop where
  z : (pt.z : Fr) = ch.z
  vanishing : (pt.vanishing : Fr) = (ch.z : Fr) ^ key.domain.size - 1
  first : (pt.first : Fr) = (key.domain.basis 0).eval (ch.z : Fr)
  last : (pt.last : Fr) = (key.domain.basis (key.domain.size - 1)).eval (ch.z : Fr)
  publicInput : (pt.publicInput : Fr) = (inputPolynomial key.domain inputs).eval (ch.z : Fr)
  beforeLast : (pt.beforeLast : Fr) = ch.z - key.domain.node (key.domain.size - 1)
  alpha : ∀ i < 9, (pt.alpha i : Fr) = (ch.alpha : Fr) ^ i
  gammaBeta : (pt.gammaBeta : Fr) = (Setting.of key ch).gammaBeta
  lookupEnd : (pt.lookupEnd : Fr) = (Setting.of key ch).gammaBeta ^ (key.domain.size - 1)

theorem Point.of_ok {key : Key} (hd : key.domain.Accepted) {inputs : List ℤ}
    (hinputs : inputs.length ≤ key.domain.size) {ch : Challenges}
    (hz : (ch.z : Fr) ^ key.domain.size ≠ 1) :
    ∃ pt, Point.of key inputs ch = .ok pt ∧ pt.Exact key inputs ch := by
  obtain ⟨table, htable, hvalue⟩ := hd.lagrangeMany_ok hz
    ((List.range inputs.length).map Int.ofNat ++ [0, (key.domain.size : ℤ) - 1])
  have hpos := hd.two_le
  have hlast : ((key.domain.size : ℤ) - 1) = ((key.domain.size - 1 : ℕ) : ℤ) := by omega
  simp only [Point.of, htable]
  refine ⟨_, rfl, ?_⟩
  constructor
  · rfl
  · exact key.domain.cast_vanishing ch.z
  · exact hvalue 0 (by omega) (by simp)
  · simp only [hlast]
    exact hvalue _ (by omega) (by simp [hlast])
  · simp only [Scalar.cast_sum, inputPolynomial, eval_finsetSum, eval_mul, eval_C]
    rw [sum_map_zipIdx fun x j => x * (table.lookup (j : ℤ)).getD 0]
    refine Finset.sum_congr rfl fun j _ => ?_
    rw [Int.cast_mul, hvalue j (by omega) (by simp)]
  · have hmod : (((key.domain.size - 1 : ℕ) : ℤ) % key.domain.size).toNat = key.domain.size - 1 := by
      rw [Int.emod_eq_of_lt (by omega) (by omega), Int.toNat_natCast]
    simp only [Scalar.cast_emod, Int.cast_sub, Domain.cast_element, hlast, hmod]
  · intro i hi
    exact Scalar.cast_getD_powers ch.alpha hi
  · simp [Setting.gammaBeta, Setting.of]
  · simp [Setting.gammaBeta, Setting.of]

noncomputable def claimedRow (key : Key) (inputs : List ℤ) (e : Evaluations) (z : Fr)
    (x : LinearPart Fr) : Row Fr where
  point := z
  qA := x.qA
  qB := x.qB
  qC := x.qC
  qD := x.qD
  qAB := x.qAB
  qAC := x.qAC
  qConst := x.qConst
  qDNext := x.qDNext
  mainGate := e.gateSelector
  customGate := x.customGate
  sigma0 := e.sigma0
  sigma1 := e.sigma1
  sigma2 := e.sigma2
  sigma3 := x.sigma3
  lookupSelector := e.lookupSelector
  tableType := e.tableType
  table := e.table
  tableNext := e.tableNext
  a := e.a
  b := e.b
  c := e.c
  d := e.d
  dNext := e.dNext
  copyProduct := x.copyProduct
  copyProductNext := e.copyProductNext
  lookupS := x.lookupS
  lookupSNext := e.lookupSNext
  lookupProduct := x.lookupProduct
  lookupProductNext := e.lookupProductNext
  first := (key.domain.basis 0).eval z
  last := (key.domain.basis (key.domain.size - 1)).eval z
  publicInput := (inputPolynomial key.domain inputs).eval z

section Split

variable {key : Key} {inputs : List ℤ} {ch : Challenges} {pt : Point} (hpt : pt.Exact key inputs ch)
  (e : Evaluations) (x : LinearPart Fr)

theorem cast_permutationTail (ch : Challenges) :
    (permutationTail e ch : Fr) = (e.a + ch.beta * e.sigma0 + ch.gamma) *
      (e.b + ch.beta * e.sigma1 + ch.gamma) * (e.c + ch.beta * e.sigma2 + ch.gamma) := by
  simp [permutationTail]

include hpt

theorem cast_copyCoefficient :
    (copyCoefficient key e ch pt : Fr) =
      (ch.alpha : Fr) ^ 4 * identityProduct (Setting.of key ch) (claimedRow key inputs e ch.z x) +
        (ch.alpha : Fr) ^ 5 * (key.domain.basis 0).eval (ch.z : Fr) := by
  have h4 := hpt.alpha 4 (by decide)
  have h5 := hpt.alpha 5 (by decide)
  simp only [copyCoefficient, Evaluations.wires, shifts_eq, List.zip_cons_cons, List.zip_nil_right,
    List.foldl_cons, List.foldl_nil, Scalar.cast_emod, Int.cast_add, Int.cast_mul, h4, h5,
    hpt.z, hpt.first, identityProduct, claimedRow, Setting.of, mul_assoc, one_mul]

theorem cast_lookupCoefficient :
    (lookupCoefficient e ch pt : Fr) =
      (ch.alpha : Fr) ^ 6 * (ch.z - key.domain.node (key.domain.size - 1)) * (1 + ch.betaLookup) *
          (ch.gammaLookup + lookup (Setting.of key ch) (claimedRow key inputs e ch.z x)) *
          ((Setting.of key ch).gammaBeta + e.table + ch.betaLookup * e.tableNext) +
        (ch.alpha : Fr) ^ 7 * (key.domain.basis 0).eval (ch.z : Fr) +
        (ch.alpha : Fr) ^ 8 * (key.domain.basis (key.domain.size - 1)).eval (ch.z : Fr) := by
  have h6 := hpt.alpha 6 (by decide)
  have h7 := hpt.alpha 7 (by decide)
  have h8 := hpt.alpha 8 (by decide)
  simp only [lookupCoefficient, lookupValue, Scalar.cast_emod, Scalar.cast_pow, Int.cast_add, Int.cast_mul,
    Int.cast_one, h6, h7, h8, hpt.first, hpt.last, hpt.beforeLast, hpt.gammaBeta, lookup, claimedRow,
    Setting.of]
  ring

theorem combine_add_constant :
    LinearPart.combine (coefficients key e ch pt) x + (constant e ch pt : Fr) =
      identity (Setting.of key ch) (claimedRow key inputs e ch.z x) ch.alpha := by
  have h1 := hpt.alpha 1 (by decide)
  have h2 := hpt.alpha 2 (by decide)
  have h3 := hpt.alpha 3 (by decide)
  have h4 := hpt.alpha 4 (by decide)
  have h5 := hpt.alpha 5 (by decide)
  have h6 := hpt.alpha 6 (by decide)
  have h7 := hpt.alpha 7 (by decide)
  have h8 := hpt.alpha 8 (by decide)
  have htail := cast_permutationTail e ch
  have hcopy := cast_copyCoefficient hpt e x
  have hlookup := cast_lookupCoefficient hpt e x
  simp only [LinearPart.combine, coefficients, constant, customGate, Scalar.cast_emod, Int.cast_add,
    Int.cast_sub, Int.cast_mul, Int.cast_neg, htail, hcopy, hlookup, h1, h2, h3, h4, h5, h6, h7, h8,
    hpt.first, hpt.last, hpt.publicInput, hpt.beforeLast, hpt.gammaBeta, hpt.lookupEnd]
  simp only [identity_eq, mainConstraint, copyConstraint, lookupConstraint, permutationProduct]
  generalize identityProduct (Setting.of key ch) (claimedRow key inputs e ch.z x) = product
  generalize lookup (Setting.of key ch) (claimedRow key inputs e ch.z x) = value
  generalize (Setting.of key ch).gammaBeta = gammaBeta
  simp only [claimedRow, Setting.of]
  ring

theorem quotientHolds_iff :
    quotientHolds e ch pt = true ↔
      (e.quotient : Fr) * ((ch.z : Fr) ^ key.domain.size - 1) = e.linearization + (constant e ch pt : Fr) := by
  rw [quotientHolds, beq_iff_eq, Scalar.emod_eq_iff, Int.cast_mul, Int.cast_add, hpt.vanishing]

end Split

def result (key : Key) (proof : Proof) (ch : Challenges) (pt : Point) : Linearization where
  commitment := G1.msm (terms key proof ch pt)
  quotient := G1.msm (proof.quotients.zip (Scalar.powers (Scalar.pow ch.z key.domain.size) 4))
  table := G1.msm (key.lookupTable.toList.zip (Scalar.powers ch.eta 4))

section Build

variable {key : Key} {inputs : List ℤ} {proof : Proof} {ch : Challenges}

theorem build_ends {pt : Point} (hof : Point.of key inputs ch = .ok pt)
    (hz : (ch.z : Fr) ^ key.domain.size ≠ 1) :
    (build key inputs proof ch).Ends
      (if quotientHolds proof.evaluations ch pt then .ok (result key proof ch pt)
        else .error (.rejected (.invalidProof .quotientIdentity))) := by
  have hvanish : key.domain.vanishing ch.z ≠ 0 := by rwa [Ne, Domain.vanishing_eq_zero_iff]
  simp only [build, hvanish, ↓reduceIte]
  refine Metered.Ends.bind (.charge _ _) (.bind (.ofExcept hof) ?_)
  by_cases hq : quotientHolds proof.evaluations ch pt = true
  · simp only [hq, not_true_eq_false, ↓reduceIte]
    exact .bind (.charge _ _) (.bind (.charge _ _) (.bind (.charge _ _) (.pure _)))
  · simp only [hq]
    exact .bind_error _ (.throw _)

theorem build_ends_inDomain (hz : (ch.z : Fr) ^ key.domain.size = 1) :
    (build key inputs proof ch).Ends (.error (.rejected (.invalidProof .pointInDomain))) := by
  rw [← Domain.vanishing_eq_zero_iff] at hz
  simp only [build, hz, ↓reduceIte]
  exact .bind_error _ (.throw _)

theorem of_build_ends_ok (hd : key.domain.Accepted) (hinputs : inputs.length ≤ key.domain.size)
    {lin : Linearization} (h : (build key inputs proof ch).Ends (.ok lin)) :
    ∃ pt, Point.of key inputs ch = .ok pt ∧ pt.Exact key inputs ch ∧
      quotientHolds proof.evaluations ch pt = true ∧ lin = result key proof ch pt := by
  by_cases hz : (ch.z : Fr) ^ key.domain.size = 1
  · cases (build_ends_inDomain hz).result_unique h
  obtain ⟨pt, hof, hpt⟩ := Point.of_ok hd hinputs hz
  have hbuild : (build key inputs proof ch).Ends _ := build_ends hof hz
  have hresult := hbuild.result_unique h
  split at hresult
  · rename_i hholds
    exact ⟨pt, hof, hpt, hholds, (Except.ok.inj hresult).symm⟩
  · cases hresult

theorem onCurve_terms (hkey : key.WellFormed) (hproof : proof.WellFormed) (pt : Point) :
    ∀ t ∈ terms key proof ch pt, G1.onCurve t.1 = true := by
  intro t ht
  rw [terms_eq] at ht
  have hmem := (List.of_mem_zip ht).1
  simp only [LinearPart.toList, points, List.mem_cons, List.not_mem_nil, or_false] at hmem
  rcases hmem with h | h | h | h | h | h | h | h | h | h | h | h | h <;> rw [h]
  all_goals first
    | exact hkey.gateSetup _
    | exact hkey.gateSelectors 1
    | exact hkey.permutation 3
    | exact hproof.copyProduct
    | exact hproof.lookupS
    | exact hproof.lookupProduct

theorem sum_terms (f : G1 → Fr) (pt : Point) :
    ((terms key proof ch pt).map fun t => (t.2 : Fr) * f t.1).sum =
      LinearPart.combine (coefficients key proof.evaluations ch pt) ((points key proof).map f) := by
  rw [terms_eq]
  simp only [LinearPart.toList, LinearPart.combine, LinearPart.map, List.zip_cons_cons, List.zip_nil_left,
    List.map_cons, List.map_nil, List.sum_cons, List.sum_nil]
  ring

variable {φ : G1 → Fr} (hφ : G1.Logarithm φ) (hkey : key.WellFormed) (hproof : proof.WellFormed)

include hφ

section

include hkey

theorem log_commitment (hproof : proof.WellFormed) (pt : Point) :
    φ (result key proof ch pt).commitment =
      LinearPart.combine (coefficients key proof.evaluations ch pt) ((points key proof).map φ) := by
  rw [result, hφ.msm (onCurve_terms hkey hproof pt), sum_terms]

theorem log_table (pt : Point) :
    φ (result key proof ch pt).table =
      ∑ i : Fin 4, (ch.eta : Fr) ^ (i : ℕ) * φ (key.lookupTable.get i) := by
  have hcurve : ∀ t ∈ key.lookupTable.toList.zip (Scalar.powers ch.eta 4), G1.onCurve t.1 = true :=
    fun t ht => hkey.lookupTable t.1 (List.of_mem_zip ht).1
  rw [result, hφ.msm hcurve, toList_eq_ofFn]
  exact Scalar.sum_zip_powers_right φ ch.eta (List.length_ofFn ..)

end

theorem log_quotient (hproof : proof.WellFormed) (pt : Point) :
    φ (result key proof ch pt).quotient =
      ∑ i : Fin proof.quotients.length, (ch.z : Fr) ^ (key.domain.size * i) * φ (proof.quotients.get i) := by
  have hcurve : ∀ t ∈ proof.quotients.zip (Scalar.powers (Scalar.pow ch.z key.domain.size) 4),
      G1.onCurve t.1 = true := fun t ht => hproof.quotient t.1 (List.of_mem_zip ht).1
  rw [result, hφ.msm hcurve, Scalar.sum_zip_powers_right φ _ hproof.quotients, Scalar.cast_pow]
  exact Finset.sum_congr rfl fun i _ => by rw [pow_mul, List.get_eq_getElem, Fin.getElem_fin]

end Build

/-- The check succeeds exactly when the claimed quotient agrees with the claimed linearization and a
constant, and with that constant the linear part is the constraint identity at the claimed values, in the
logarithms of the polynomials that are not opened. -/
theorem build_splits_identity {key : Key} (hkey : key.WellFormed) {proof : Proof}
    (hproof : proof.WellFormed) {inputs : List ℤ} (hinputs : inputs.length = key.numInputs)
    {ch : Challenges} (hz : (ch.z : Fr) ^ key.domain.size ≠ 1) :
    ∃ pt lin, Point.of key inputs ch = .ok pt ∧
      (build key inputs proof ch).Ends
        (if (proof.evaluations.quotient : Fr) * ((ch.z : Fr) ^ key.domain.size - 1) =
            proof.evaluations.linearization + (constant proof.evaluations ch pt : Fr) then .ok lin
          else .error (.rejected (.invalidProof .quotientIdentity))) ∧
      ∀ φ, G1.Logarithm φ →
        φ lin.commitment + (constant proof.evaluations ch pt : Fr) =
            identity (Setting.of key ch)
              (claimedRow key inputs proof.evaluations ch.z ((points key proof).map φ)) ch.alpha ∧
          φ lin.quotient = ∑ i : Fin proof.quotients.length,
            (ch.z : Fr) ^ (key.domain.size * i) * φ (proof.quotients.get i) ∧
          φ lin.table = ∑ i : Fin 4, (ch.eta : Fr) ^ (i : ℕ) * φ (key.lookupTable.get i) := by
  obtain ⟨pt, hof, hpt⟩ := Point.of_ok hkey.domain (hinputs.trans_le hkey.numInputs_le) hz
  refine ⟨pt, result key proof ch pt, hof, ?_, ?_⟩
  · simp only [← quotientHolds_iff hpt]
    exact build_ends hof hz
  · intro φ hφ
    refine ⟨?_, log_quotient hφ hproof pt, log_table hφ hkey pt⟩
    rw [log_commitment hφ hkey hproof, combine_add_constant hpt]

/-- The key of a circuit with two rows and one input, for the trapdoor five. The main gate adds the wires,
two products and the selector of the first row; both gates are on in both rows. Two cells of the second
row change places in the permutation. -/
def twoRowKey : Key :=
  let g1 := G1.generator
  let g2 : G1 := ⟨1368015179489954701390400359078579693043519447331113978918064868415326638035,
    9918110051302171585080402603319702774565515993150576347155970296011118125764, 1⟩
  let g3 : G1 := ⟨3353031288059533942658390886683067124040920775575537747144343083137631628272,
    19321533766552368860946552437480515441416830039777911637913418824951667761761, 1⟩
  let g4 : G1 := ⟨3010198690406615200373504922352659861758983907867017329644089018310584441462,
    4027184618003122424972590350825261965929648733675738730716654005365300998076, 1⟩
  let g5 : G1 := ⟨10744596414106452074759370245733544594153395043370666422502510773307029471145,
    848677436511517736191562425154572367705380862894644942948681172815252343932, 1⟩
  let g6 : G1 := ⟨4503322228978077916651710446042370109107355802721800704639343137502100212473,
    6132642251294427119375180147349983541569387941788025780665104001559216576968, 1⟩
  let g9 : G1 := ⟨1624070059937464756887933993293429854168590106605707304006200119738501412969,
    3269329550605213075043232856820720631601935657990457502777101397807070461336, 1⟩
  let g11 : G1 := ⟨19033251874843656108471242320417533909414939332036131356573128480367742634479,
    20792135454608030201903199625673964159744755218442260092768620403349374102584, 1⟩
  let g25 : G1 := ⟨20765039372871530718554589730410158162413780974122112544611863764810626751360,
    2444183914824638066910831265243126275246160293098948571390980460351548298384, 1⟩
  let g35 : G1 := ⟨19603121658858655875247255127227546065511167701958109023745805570144594432590,
    18396643206309242224060210403331962159520263222429416365150105776739848612253, 1⟩
  let h5 : G2 := ⟨
    ⟨20954117799226682825035885491234530437475518021362091509513177301640194298072,
      4540444681147253467785307942530223364530218361853237193970751657229138047649⟩,
    ⟨21508930868448350162258892668132814424284302804699005394342512102884055673846,
      11631839690097995216017572651900167465857396346217730511548857041925508482915⟩, 1⟩
  { domain := ⟨2, r - 1⟩
    numInputs := 1
    gateSetup := #v[g1, g1, g1, g1, g1, g1, g6, g6]
    gateSelectors := #v[g1, g1]
    permutation := #v[g9, g11, g25, g35]
    lookupSelector := g4
    lookupTable := #v[g5, g1, g2, g3]
    lookupTableType := g1
    nonResidues := #v[3, 5, 7]
    g2Elements := #v[G2.generator, h5] }

theorem ofRoot_twoRowKey : Domain.ofRoot 2 (r - 1) = .ok twoRowKey.domain := by decide +kernel

def writtenG1 (a : G1) : List WrittenWord :=
  (Proof.pointWords a).map .inl

def twoRowDocument : KeyDocument where
  domainSize := 2
  numInputs := 1
  omega := .inl (r - 1)
  gateSetup := twoRowKey.gateSetup.toList.map writtenG1
  gateSelectors := twoRowKey.gateSelectors.toList.map writtenG1
  permutation := twoRowKey.permutation.toList.map writtenG1
  lookupSelector := writtenG1 twoRowKey.lookupSelector
  lookupTable := twoRowKey.lookupTable.toList.map writtenG1
  lookupTableType := writtenG1 twoRowKey.lookupTableType
  nonResidues := [.inl 3, .inl 5, .inl 7]
  g2Elements := twoRowKey.g2Elements.toList.map fun a =>
    let ((x0, x1), (y0, y1)) := G2.toAffine a
    [[.inl x0, .inl x1], [.inl y0, .inl y1]]

theorem represents_twoRowKey : twoRowKey.openingKey.xG2.Represents 5 := by
  have h5 : (G2.mul G2.generator 5).Represents 5 := by simpa using G2.represents_generator.mul 5
  exact h5.of_same (by decide +kernel) (by decide +kernel) (by decide +kernel)

open scoped Fields in
theorem inSubgroup_of_represents {a : G2} {k : Fr} (ha : a.Represents k) : G2.inSubgroup a = true := by
  have hscale := Projective.Multiple.scale G2.order_generator ha r
  rw [CharP.cast_eq_zero, zero_mul] at hscale
  exact (G2.Represents.isInfinity_iff hscale).mpr rfl

def writtenG2 (a : G2) : List (List WrittenWord) :=
  [[.inl a.x.re.val, .inl a.x.im.val], [.inl a.y.re.val, .inl a.y.im.val]]

theorem readWord_inl (x : Fp) : Key.readWord (.inl x.val) = .ok (x.val : ℤ) := by
  have hlt : x.val < Nat.pow 2 256 := x.isLt.trans (by decide)
  have hrange : (0 : ℤ) ≤ x.val ∧ (x.val : ℤ) < Nat.pow 2 256 := ⟨Int.natCast_nonneg _, Int.ofNat_lt.mpr hlt⟩
  rw [Key.readWord, WrittenWord.read, WrittenWord.value, Word.parse, Word.inRange, if_pos hrange]
  rfl

open scoped Fields in
theorem readG2_of_represents {a : G2} {k : Fr} (ha : a.Represents k) (hz : a.z = 1) (hne : ¬(a.x = 0 ∧ a.y = 0)) :
    Key.readG2 (writtenG2 a) = .ok a := by
  obtain ⟨x, y, z⟩ := a
  obtain rfl : z = 1 := hz
  have hcurve : G2.onCurve ⟨x, y, 1⟩ = true := Projective.Multiple.onCurve ha
  have hpoint : G2.ofCoordinates x y = .ok ⟨x, y, 1⟩ := by
    simp only [G2.ofCoordinates, hne, hcurve, inSubgroup_of_represents ha, not_true_eq_false, ↓reduceIte]
  have hcoordinate (c : Coordinate) (x : Fp) : coordinate c x.val = .ok x :=
    dif_pos ⟨Int.natCast_nonneg _, by exact_mod_cast x.isLt⟩
  have hpair (x : Fp2) : List.mapM Key.readWord [.inl x.re.val, .inl x.im.val] = .ok [x.re.val, x.im.val] := by
    simp only [List.mapM_cons, List.mapM_nil, readWord_inl]
    rfl
  simp only [writtenG2, Key.readG2, hpair, Except.bind_eq_ok, Except.mapError_eq_ok]
  refine ⟨_, rfl, _, rfl, ?_⟩
  simp only [G2.ofAffine, Except.bind_eq_ok]
  exact ⟨x.re, hcoordinate _ _, x.im, hcoordinate _ _, y.re, hcoordinate _ _, y.im, hcoordinate _ _, hpoint⟩

theorem mapM_readG2_twoRowDocument :
    twoRowDocument.g2Elements.mapM Key.readG2 = .ok twoRowKey.g2Elements.toList := by
  -- the test of the subgroup takes longest to evaluate, and here it is a consequence
  have hdoc : twoRowDocument.g2Elements = [writtenG2 G2.generator, writtenG2 twoRowKey.openingKey.xG2] := by
    decide +kernel
  have hgenerator := readG2_of_represents G2.represents_generator rfl (by decide)
  have hmultiple := readG2_of_represents represents_twoRowKey rfl (by decide)
  rw [hdoc, List.mapM_cons, hgenerator, List.mapM_cons, hmultiple]
  rfl

theorem ofDocument_twoRowDocument : Key.ofDocument twoRowDocument = .ok twoRowKey := by
  rw [Key.ofDocument, mapM_readG2_twoRowDocument]
  decide +kernel

theorem wellFormed_twoRowKey : twoRowKey.WellFormed :=
  Key.wellFormed_of_ofDocument ofDocument_twoRowDocument

noncomputable def linear (a b : Fr) : Fr[X] := C a + C b * X

theorem natDegree_linear_le (a b : Fr) : (linear a b).natDegree ≤ 1 := by
  rw [linear, add_comm]
  exact Polynomial.natDegree_linear_le

noncomputable def twoRowPolynomials : KeyPolynomials where
  qA := linear 1 0
  qB := linear 1 0
  qC := linear 1 0
  qD := linear 1 0
  qAB := linear 1 0
  qAC := linear 1 0
  qConst := linear 1 1
  qDNext := linear 1 1
  mainGate := linear 1 0
  customGate := linear 1 0
  sigma0 := linear (-1) 2
  sigma1 := linear 1 2
  sigma2 := linear 0 5
  sigma3 := linear 0 7
  lookupSelector := linear (-1) 1
  table0 := linear 0 1
  table1 := linear 1 0
  table2 := linear 2 0
  table3 := linear 3 0
  tableType := linear 1 0

theorem natDegree_twoRowPolynomials_lt : ∀ p ∈ twoRowPolynomials.toList, p.natDegree < 2 := by
  simp [KeyPolynomials.toList, twoRowPolynomials, natDegree_linear_le]

def looseProof : Proof where
  wires := [G1.generator, G1.infinity, G1.generator, G1.infinity]
  copyProduct := G1.generator
  lookupS := G1.infinity
  lookupProduct := G1.generator
  quotients := [G1.infinity, G1.generator, G1.generator, G1.generator]
  evaluations := ⟨1, 2, 3, 4, 5, 6, 7, 8, 9, 10, 11, 12, 13, 14, 15, 16, 17, 68176278916⟩
  openingAtZ := G1.generator
  openingAtNext := G1.generator

def looseChallenges : Challenges := ⟨2, 3, 5, 7, 11, 13, 2, 17, 19⟩

def looseValues : List Value :=
  looseProof.toWords.map .int

theorem ofValues_looseValues : Proof.ofValues looseValues = .ok looseProof := by decide +kernel

theorem wellFormed_looseProof : looseProof.WellFormed :=
  Proof.wellFormed_of_ofValues ofValues_looseValues

theorem sortedIndices_twoRowKey : Domain.sortedIndices ((List.range [(96 : ℤ)].length).map Int.ofNat ++
    [0, (twoRowKey.domain.size : ℤ) - 1]) = [0, 1] := by
  -- sorting does not evaluate, but the indices are in order
  rw [Domain.sortedIndices, List.mergeSort_of_pairwise (by decide)]
  rfl

theorem build_splits_identity_looseProof :
    ∃ pt lin, Point.of twoRowKey [96] looseChallenges = .ok pt ∧
      (build twoRowKey [96] looseProof looseChallenges).Ends (.ok lin) ∧
      G1.log lin.commitment + (constant looseProof.evaluations looseChallenges pt : Fr) =
        identity (Setting.of twoRowKey looseChallenges)
          (claimedRow twoRowKey [96] looseProof.evaluations 2 ((points twoRowKey looseProof).map G1.log))
          13 := by
  have hinputs : [(96 : ℤ)].length = twoRowKey.numInputs := rfl
  have hz : (looseChallenges.z : Fr) ^ twoRowKey.domain.size ≠ 1 := by decide
  obtain ⟨pt, lin, hof, hends, hlog⟩ :=
    build_splits_identity wellFormed_twoRowKey wellFormed_looseProof hinputs hz
  have hholds : (Point.of twoRowKey [96] looseChallenges).toOption.any (fun pt =>
      decide ((looseProof.evaluations.quotient : Fr) *
        ((looseChallenges.z : Fr) ^ twoRowKey.domain.size - 1) = looseProof.evaluations.linearization +
          (constant looseProof.evaluations looseChallenges pt : Fr))) = true := by
    simp only [Point.of, Domain.lagrangeMany, sortedIndices_twoRowKey]
    decide +kernel
  rw [hof] at hholds
  rw [if_pos (of_decide_eq_true hholds)] at hends
  exact ⟨pt, lin, hof, hends, (hlog G1.log G1.logarithm_log).1⟩

end Settlement.Linearization
