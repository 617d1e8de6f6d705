import Mathlib
import Settlement.Proofs.Bn254.Representation
import Settlement.Proofs.Verifier.Draws
import Settlement.Proofs.Verifier.Openings

/-!
An honest proof. The wires of the circuit hold the first, second, fourth and fifth power of a number, and three times
the fifth is the public input.
-/

namespace Settlement.PowerCircuit

open Bn254 Constraints Linearization Openings Polynomial Projective
open scoped Bn254.Fields

def half : Fr := ((r + 1) / 2 : ℕ)

theorem two_mul_half : 2 * half = 1 := by
  have hodd : 2 * ((r + 1) / 2) = r + 1 := by decide
  have hcast := congrArg (Nat.cast : ℕ → Fr) hodd
  rwa [Nat.cast_mul, Nat.cast_ofNat, Nat.cast_succ, CharP.cast_eq_zero Fr r, zero_add] at hcast

/-- The key for the trapdoor five. In the first row three times the last wire is the input. No cell changes places and
none is looked up. -/
def key : Key := { twoRowKey with
  gateSetup := #v[.infinity, .infinity, .infinity,
    ⟨1624070059937464756887933993293429854168590106605707304006200119738501412969,
      3269329550605213075043232856820720631601935657990457502777101397807070461336, 1⟩,
    .infinity, .infinity, .infinity, .infinity]
  permutation := #v[
    ⟨10744596414106452074759370245733544594153395043370666422502510773307029471145,
      848677436511517736191562425154572367705380862894644942948681172815252343932, 1⟩,
    ⟨20620327752371756597889511849668302065574790742892641857779427155670977738300,
      13476221886639441297190182883126933680754442408693165714792516739857175455715, 1⟩,
    ⟨20765039372871530718554589730410158162413780974122112544611863764810626751360,
      2444183914824638066910831265243126275246160293098948571390980460351548298384, 1⟩,
    ⟨19603121658858655875247255127227546065511167701958109023745805570144594432590,
      18396643206309242224060210403331962159520263222429416365150105776739848612253, 1⟩]
  lookupSelector := .infinity
  lookupTable := #v[.infinity, .infinity, .infinity, .infinity]
  lookupTableType := .infinity }

def document : KeyDocument := { twoRowDocument with
  gateSetup := key.gateSetup.toList.map writtenG1
  gateSelectors := key.gateSelectors.toList.map writtenG1
  permutation := key.permutation.toList.map writtenG1
  lookupSelector := writtenG1 key.lookupSelector
  lookupTable := key.lookupTable.toList.map writtenG1
  lookupTableType := writtenG1 key.lookupTableType }

noncomputable def polynomials : KeyPolynomials where
  qA := 0
  qB := 0
  qC := 0
  qD := linear ((3 : ℕ) * half) ((3 : ℕ) * half)
  qAB := 0
  qAC := 0
  qConst := 0
  qDNext := 0
  mainGate := linear 1 0
  customGate := linear 1 0
  sigma0 := linear 0 1
  sigma1 := linear 0 (3 : ℕ)
  sigma2 := linear 0 (5 : ℕ)
  sigma3 := linear 0 (7 : ℕ)
  lookupSelector := 0
  table0 := 0
  table1 := 0
  table2 := 0
  table3 := 0
  tableType := 0

def gammaBeta (ch : Challenges) : Fr := ch.gammaLookup * (1 + ch.betaLookup)

noncomputable def columns (t : Fr) (ch : Challenges) : Columns where
  a := linear t 0
  b := linear (t ^ 2) 0
  c := linear (t ^ 4) 0
  d := linear (t ^ 5) 0
  copyProduct := linear 1 0
  lookupS := 0
  lookupProduct := linear ((1 + gammaBeta ch) * half) ((1 - gammaBeta ch) * half)

def quotients (ch : Challenges) : Fin 9 → Fr :=
  ![0, 0, 0, 0, 0, 0, gammaBeta ch * (1 - gammaBeta ch ^ 2) * half, (1 - gammaBeta ch) * half ^ 2,
    (gammaBeta ch - 1) * half ^ 2]

def quotient (ch : Challenges) : Fr :=
  ∑ k : Fin 9, (ch.alpha : Fr) ^ (k : ℕ) * quotients ch k

noncomputable def parts (ch : Challenges) : Fin 4 → Fr[X] :=
  ![C (quotient ch), 0, 0, 0]

section Constraints

theorem omega_eq : (key.domain.omega : Fr) = -1 := by
  have homega : key.domain.omega = (r : ℤ) - 1 := rfl
  rw [homega, Int.cast_sub, Int.cast_natCast, CharP.cast_eq_zero, Int.cast_one, zero_sub]

theorem node_zero : key.domain.node 0 = 1 := pow_zero _

theorem node_one : key.domain.node 1 = -1 := (pow_one _).trans omega_eq

theorem range_size : Finset.range key.domain.size = {0, 1} := by decide

theorem basis_zero : key.domain.basis 0 = linear half half := by
  have hinv : ((1 : Fr) - -1)⁻¹ = half := by
    apply inv_eq_of_mul_eq_one_right
    linear_combination two_mul_half
  rw [Domain.basis, range_size, Lagrange.basis_pair_left (by decide), Lagrange.basisDivisor, node_zero, node_one, hinv,
    linear, C_neg, C_1]
  ring

theorem basis_one : key.domain.basis 1 = linear half (-half) := by
  have hinv : ((-1 : Fr) - 1)⁻¹ = -half := by
    apply inv_eq_of_mul_eq_one_right
    linear_combination two_mul_half
  rw [Domain.basis, range_size, Lagrange.basis_pair_right (by decide), Lagrange.basisDivisor, node_zero, node_one, hinv,
    linear, C_neg, C_1]
  ring

theorem next_linear (a b : Fr) : next key.domain (linear a b) = linear a (-b) := by
  simp [next, linear, omega_eq]

theorem next_zero : next key.domain 0 = 0 := zero_comp

variable (ch : Challenges) (t : Fr) {x : ℤ} (hx : (x : Fr) = 3 * t ^ 5)

include hx

theorem constraintPolynomial_eq (k : Fin 9) :
    constraintPolynomial key ch [x] polynomials (columns t ch) k = C (quotients ch k) * (X ^ 2 - 1) := by
  have hhalf : 2 * (C half : Fr[X]) = 1 := by rw [← C_ofNat, ← C_mul, two_mul_half, C_1]
  have hsize : key.domain.size - 1 = 1 := rfl
  have h1 : ((key.nonResidues.get 0 : ℤ) : Fr) = 3 := Int.cast_ofNat 3
  have h2 : ((key.nonResidues.get 1 : ℤ) : Fr) = 5 := Int.cast_ofNat 5
  have h3 : ((key.nonResidues.get 2 : ℤ) : Fr) = 7 := Int.cast_ofNat 7
  have hinput : inputPolynomial key.domain [x] = C (3 * t ^ 5) * linear half half := by
    simp [inputPolynomial, basis_zero, hx]
  have htable : polynomials.table (ch.eta : Fr) = 0 := by simp [KeyPolynomials.table, polynomials]
  fin_cases k <;>
    simp only [constraintPolynomial, constraint, mainConstraint, copyConstraint, identityProduct, permutationProduct,
      lookupConstraint, lookup, Setting.gammaBeta, Setting.map, Setting.of, Row.ofPolynomials, hsize, h1, h2, h3, hinput,
      htable, node_one, basis_zero, basis_one, next_zero] <;>
    simp only [columns, polynomials, next_linear, next_zero] <;>
    simp [linear, quotients, gammaBeta]
  case «7» => linear_combination (C half + C half * X) * hhalf
  case «8» =>
    linear_combination (ch.gammaLookup * (1 + ch.betaLookup) : Fr[X]) * (C half - C half * X) * hhalf
  all_goals ring

omit hx in
theorem quotientPolynomial_parts : quotientPolynomial key.domain.size (parts ch) = C (quotient ch) := by
  simp [quotientPolynomial, parts, Fin.sum_univ_four]

/-- The columns for a number satisfy the circuit under all challenges. -/
theorem identityPolynomial_eq : identityPolynomial key ch [x] polynomials (columns t ch) =
    quotientPolynomial key.domain.size (parts ch) * (X ^ key.domain.size - 1) := by
  rw [quotientPolynomial_parts, identityPolynomial, identity, quotient, map_sum, Finset.sum_mul]
  refine Finset.sum_congr rfl fun k _ => ?_
  have hconstraint := constraintPolynomial_eq ch t hx k
  rw [constraintPolynomial] at hconstraint
  rw [hconstraint, C_mul, C_pow, mul_assoc]
  rfl

end Constraints

section Proof

def challenges : Challenges where
  eta := 3407869943495732373561602280818672510285985139408851691042122698046223972798
  beta := 7234310525113453471387637235695337124997121160968435567917191728344481520601
  gamma := 3822671967903117947152288125955108009683537184943007828096134513266497448080
  betaLookup := 21298305895624740256267403235386760878623811493386620888627298800123475689683
  gammaLookup := 231458107471317431219471479940428258655924112650972432520200305209218962859
  alpha := 2203187510828938853667348667281351243249045402978938530268782221039564512994
  z := 16697915731685122095866533729828480873317832735572667419572573112543392631727
  v := 18531910123057287914042432723026671426939420969745946708289276394320749056193
  u := 4609227358079275917449270393268078957226219278867602783912213606408774230562

def proof : Proof where
  wires := [
    ⟨1368015179489954701390400359078579693043519447331113978918064868415326638035,
      9918110051302171585080402603319702774565515993150576347155970296011118125764, 1⟩,
    ⟨3010198690406615200373504922352659861758983907867017329644089018310584441462,
      4027184618003122424972590350825261965929648733675738730716654005365300998076, 1⟩,
    ⟨10835225521862395592687560951453385602895512958032257955899877380493200080708,
      2623520004791921319615054428233368525468155544765295675952919303096698181037, 1⟩,
    ⟨4873079524557847867653965550062716553062346862158697560012111398864356025363,
      11422470166079944859104614283946245081791188387376113119760245565153108742933, 1⟩]
  copyProduct := G1.generator
  lookupS := .infinity
  lookupProduct :=
    ⟨953157017253302800244437079172727082310071363148527335953795631517912161974,
      21519164442910031195548720517196245953834199482814998183038477064391172120064, 1⟩
  quotients := [
    ⟨16172486184417568360792119781896068313818476337434493220851902484451471824783,
      9011861593162646652199725059739555106388974612033314090722739715708946571399, 1⟩,
    .infinity, .infinity, .infinity]
  evaluations :=
    { a := 2
      b := 4
      c := 16
      d := 32
      dNext := 32
      gateSelector := 1
      sigma0 := challenges.z
      sigma1 := 3 * challenges.z % r
      sigma2 := 5 * challenges.z % r
      copyProductNext := 1
      lookupSNext := 0
      lookupProductNext := 5319400424319667960520096964351553734178096499516876028290985361968370364405
      table := 0
      tableNext := 0
      lookupSelector := 0
      tableType := 0
      quotient := 9238698264650785119250227852181949694743479814521060044810189346421899706986
      linearization := 15227789504119141222814479685166290262017009154603954960309962105740563997541 }
  openingAtZ :=
    ⟨13701745957551515670280986738092442137139352539524666756052516074861503516437,
      3595730334097008757700736408509241503460636713791061883350330208460179500585, 1⟩
  openingAtNext :=
    ⟨8907499052406617169775877308626859036950381205941772412807473938525510658359,
      7006226687723904144090923415355575568591814731695423976624918436620762452403, 1⟩

def values : List Value :=
  proof.toWords.map .int

theorem represents_of_samePoint {a : G1} {k : ℤ} (h : SamePoint (G1.mul G1.generator k) a) : a.Represents k := by
  have hmul := G1.represents_generator.mul k
  rw [mul_one] at hmul
  exact hmul.of_samePoint h

def lookupProductLog : ℤ := 17049762350621752430325316569136048713658542840945407396175834624370155192780

def linearLog : ℤ := 10535113322067456567386162267285335284981036135509526560526905042090972137917

def atZLog : ℤ := 1759312276717128585159081197334214960792856674089758416286423007243094536099

def atNextLog : ℤ := 5893347091554434267903596424678649910834096289808265908236972787748597430592

def slotLogs : List ℤ :=
  [0, 0, 0, 9, 0, 0, 0, 0, 1, 1, 5, 15, 25, 35, 0, 0, 0, 0, 0, 0]

def commitmentLogs : List ℤ :=
  [2, 4, 16, 32, 1, 0, lookupProductLog, proof.evaluations.quotient, 0, 0, 0]

def lookupProductAt (y : Fr) : Fr :=
  (1 + gammaBeta challenges) * half + (1 - gammaBeta challenges) * half * y

def linearValues (y : Fr) : LinearPart Fr where
  qA := 0
  qB := 0
  qC := 0
  qD := (3 : ℕ) * half + (3 : ℕ) * half * y
  qAB := 0
  qAC := 0
  qConst := 0
  qDNext := 0
  customGate := 1
  copyProduct := 1
  sigma3 := (7 : ℕ) * y
  lookupProduct := lookupProductAt y
  lookupS := 0

def valuesAtZ (linear y : Fr) : List Fr :=
  [quotient challenges, linear, (2 : ℕ), (2 : ℕ) ^ 2, (2 : ℕ) ^ 4, (2 : ℕ) ^ 5, 1, y, (3 : ℕ) * y, (5 : ℕ) * y, 0, 0, 0]

def valuesAtNext (y : Fr) : List Fr :=
  [1, (2 : ℕ) ^ 5, 0, lookupProductAt y, 0]

def combines : Bool :=
  (Point.of key [96] challenges).toOption.any fun pt =>
    let coefficients := coefficients key proof.evaluations challenges pt
    decide (LinearPart.combine coefficients (linearValues challenges.z) = proof.evaluations.linearization ∧
      LinearPart.combine coefficients (linearValues (5 : ℕ)) = linearLog)

structure Computed : Prop where
  document : Key.ofDocument document = .ok key
  words : Proof.ofValues values = .ok proof
  slots : ∀ t ∈ key.g1Slots.zip slotLogs, SamePoint (G1.mul G1.generator t.2) t.1
  commitments : ∀ t ∈ proof.commitments.zip commitmentLogs, SamePoint (G1.mul G1.generator t.2) t.1
  openings : SamePoint (G1.mul G1.generator atZLog) proof.openingAtZ ∧
    SamePoint (G1.mul G1.generator atNextLog) proof.openingAtNext
  lookupProduct : lookupProductAt 5 = lookupProductLog ∧
    proof.evaluations.lookupProductNext = lookupProductAt (challenges.z * key.domain.omega)
  quotient : proof.evaluations.quotient = quotient challenges
  linear : combines = true
  avoidsNodes : (challenges.z : Fr) ^ key.domain.size ≠ 1
  avoidsTrapdoor : (5 : Fr) - challenges.z ≠ 0 ∧ (5 : Fr) - challenges.z * key.domain.omega ≠ 0
  atZ : (5 - challenges.z : Fr) * atZLog = Scalar.fold (challenges.v : Fr) (valuesAtZ linearLog 5) -
    Scalar.fold (challenges.v : Fr) (valuesAtZ proof.evaluations.linearization challenges.z)
  atNext : (5 - challenges.z * key.domain.omega : Fr) * atNextLog = Scalar.fold (challenges.v : Fr) (valuesAtNext 5) -
    Scalar.fold (challenges.v : Fr) (valuesAtNext (challenges.z * key.domain.omega))

theorem computed : Computed := by
  -- the test of the subgroup and sorting do not evaluate
  have hg2 : document.g2Elements.mapM Key.readG2 = .ok key.g2Elements.toList := mapM_readG2_twoRowDocument
  have hsorted : Domain.sortedIndices ((List.range [(96 : ℤ)].length).map Int.ofNat ++
      [0, (key.domain.size : ℤ) - 1]) = [0, 1] := sortedIndices_twoRowKey
  constructor
  case document =>
    rw [Key.ofDocument, hg2]
    decide +kernel
  case linear =>
    simp only [combines, Point.of, Domain.lagrangeMany, hsorted]
    decide +kernel
  all_goals decide +kernel

theorem represents_all (ks : List ℤ) {as : List G1} {ps : List Fr[X]} {x : Fr} (hlen : as.length = ks.length)
    (h : ∀ t ∈ as.zip ks, SamePoint (G1.mul G1.generator t.2) t.1) (hps : ps.map (eval x) = ks.map Int.cast) :
    List.Forall₂ (fun a (p : Fr[X]) => a.Represents (p.eval x)) as ps := by
  rw [← List.forall₂_map_right_iff, hps, List.forall₂_map_right_iff, List.forall₂_iff_zip]
  exact ⟨hlen, fun ht => represents_of_samePoint (h _ ht)⟩

theorem eval_linear (a b y : Fr) : (linear a b).eval y = a + b * y := by
  simp [linear]

theorem ofFn_parts (ch : Challenges) : List.ofFn (parts ch) = [C (quotient ch), 0, 0, 0] := by
  simp [parts]

theorem committed : Committed key proof 5 polynomials (columns 2 challenges) (parts challenges) where
  trapdoor := represents_twoRowKey
  slots := by
    have hthree : 3 * half + 3 * half * 5 = 9 := by linear_combination 9 * two_mul_half
    apply represents_all slotLogs rfl computed.slots
    simp only [KeyPolynomials.toList, polynomials, List.map_cons, List.map_nil, eval_linear, eval_zero, Nat.cast_ofNat, hthree,
      slotLogs]
    norm_num
  commitments := by
    have hproduct := computed.lookupProduct.1
    rw [lookupProductAt] at hproduct
    apply represents_all commitmentLogs rfl computed.commitments
    simp only [ofFn_parts, Columns.toList, columns, List.cons_append, List.nil_append, List.map_cons, List.map_nil,
      eval_linear, eval_zero, eval_C, hproduct, commitmentLogs, computed.quotient]
    norm_num

theorem map_linearPolynomials (t y : Fr) :
    (linearPolynomials polynomials (columns t challenges)).map (eval y) = linearValues y := by
  simp [LinearPart.map, linearPolynomials, polynomials, columns, linearValues, lookupProductAt, eval_linear]

theorem eval_linearPolynomial_proof :
    (linearPolynomial key [96] challenges polynomials (columns 2 challenges) proof.evaluations).eval (challenges.z : Fr) =
        proof.evaluations.linearization ∧
      (linearPolynomial key [96] challenges polynomials (columns 2 challenges) proof.evaluations).eval 5 = linearLog := by
  have hdomain := (Key.wellFormed_of_ofDocument computed.document).domain
  have hinputs : [(96 : ℤ)].length ≤ key.domain.size := by decide
  obtain ⟨pt, hof, -⟩ : ∃ pt, Point.of key [96] challenges = .ok pt ∧ pt.Exact key [96] challenges :=
    Point.of_ok hdomain hinputs computed.avoidsNodes
  rw [eval_linearPolynomial hof, eval_linearPolynomial hof, map_linearPolynomials, map_linearPolynomials]
  have hpoint := Except.of_toOption_any computed.linear hof
  exact of_decide_eq_true hpoint

theorem eval_table (y : Fr) : (polynomials.table challenges.eta).eval y = 0 := by
  simp [KeyPolynomials.table, polynomials]

theorem trueClaims :
    TrueClaims key [96] challenges polynomials (columns 2 challenges) (parts challenges) proof.evaluations := by
  constructor
  case table => exact Int.cast_zero.trans (eval_table _).symm
  case tableNext => exact Int.cast_zero.trans (eval_table _).symm
  case quotient => rw [quotientPolynomial_parts, eval_C, computed.quotient]
  case linearization => exact eval_linearPolynomial_proof.1.symm
  case lookupProductNext => exact computed.lookupProduct.2.trans (eval_linear _ _ _).symm
  case sigma1 =>
    have h : proof.evaluations.sigma1 = 3 * challenges.z % r := rfl
    simp [h, polynomials, eval_linear]
  case sigma2 =>
    have h : proof.evaluations.sigma2 = 5 * challenges.z % r := rfl
    simp [h, polynomials, eval_linear]
  all_goals
    simp only [columns, polynomials, eval_linear, eval_zero, proof]
    norm_num

theorem eval_foldedQuotient_parts (y : Fr) :
    (foldedQuotient key.domain.size challenges.z (parts challenges)).eval y = quotient challenges := by
  simp [foldedQuotient, parts, Fin.sum_univ_four]

theorem map_polynomialsAtZ (y : Fr) : (polynomialsAtZ key [96] challenges polynomials (columns 2 challenges)
    (parts challenges) proof.evaluations).map (eval y) = valuesAtZ ((linearPolynomial key [96] challenges
      polynomials (columns 2 challenges) proof.evaluations).eval y) y := by
  simp only [polynomialsAtZ, List.map_cons, List.map_nil, eval_table, eval_foldedQuotient_parts]
  simp [columns, polynomials, eval_linear, valuesAtZ]

theorem map_polynomialsAtNext (y : Fr) :
    (polynomialsAtNext challenges polynomials (columns 2 challenges)).map (eval y) = valuesAtNext y := by
  simp [polynomialsAtNext, columns, eval_linear, eval_table, valuesAtNext, lookupProductAt]

theorem opened :
    Opened key [96] proof challenges 5 polynomials (columns 2 challenges) (parts challenges) := by
  obtain ⟨hlinear, hlog⟩ := eval_linearPolynomial_proof
  obtain ⟨hz, hnext⟩ := computed.avoidsTrapdoor
  constructor
  · have hquotient := Kzg.eval_openingQuotient (f := Scalar.fold (C (challenges.v : Fr)) (polynomialsAtZ key [96]
      challenges polynomials (columns 2 challenges) (parts challenges) proof.evaluations)) hz (k := atZLog)
    rw [eval_fold, eval_fold, map_polynomialsAtZ, map_polynomialsAtZ, hlinear, hlog] at hquotient
    rw [hquotient computed.atZ]
    exact represents_of_samePoint computed.openings.1
  · have hquotient := Kzg.eval_openingQuotient (f := Scalar.fold (C (challenges.v : Fr)) (polynomialsAtNext challenges
      polynomials (columns 2 challenges))) hnext (k := atNextLog)
    rw [eval_fold, eval_fold, map_polynomialsAtNext, map_polynomialsAtNext] at hquotient
    rw [hquotient computed.atNext]
    exact represents_of_samePoint computed.openings.2

theorem derive_proof : Challenges.derive key [96] proof = .ok challenges :=
  Challenges.derive_eq_ok (by decide) (by decide +kernel)

end Proof

end Settlement.PowerCircuit
