import Mathlib
import Settlement.Proofs.Bn254.Representation
import Settlement.Proofs.Verifier.Verdict

/-!
A verification is of the points of a proof, not of their coordinates: it ends in the same way, and charges the same,
for every choice of these.
-/

namespace Settlement

open Bn254 Projective
open scoped Bn254.Fields

namespace Metered

variable {α α' β β' : Type} {R : α → α' → Prop} {S : β → β' → Prop}

inductive SameEnd (R : α → α' → Prop) : Except Failure α × Option Meter → Except Failure α' × Option Meter → Prop
  | ok {a : α} {a' : α'} (h : R a a') (m : Option Meter) : SameEnd R (.ok a, m) (.ok a', m)
  | error (e : Failure) (m : Option Meter) : SameEnd R (.error e, m) (.error e, m)

def Alike (R : α → α' → Prop) (x : Metered α) (x' : Metered α') : Prop :=
  ∀ m, SameEnd R (x m) (x' m)

theorem Alike.eq {x x' : Metered α} (h : Alike Eq x x') : x = x' := by
  funext m
  have hm := h m
  generalize x m = end₁, x' m = end₂ at hm
  cases hm with
  | ok h m => rw [h]
  | error e m => rfl

theorem alike_self (x : Metered α) : Alike Eq x x := by
  intro m
  match x m with
  | (.ok a, m') => exact .ok rfl m'
  | (.error e, m') => exact .error e m'

theorem alike_pure {a : α} {a' : α'} (h : R a a') : Alike R (pure a) (pure a') :=
  fun m => .ok h m

theorem alike_throw (e : Failure) : Alike R (throw e) (throw e) :=
  fun m => .error e m

theorem Alike.bind {x : Metered α} {x' : Metered α'} {f : α → Metered β} {f' : α' → Metered β'} (h : Alike R x x')
    (hf : ∀ a a', R a a' → Alike S (f a) (f' a')) : Alike S (x >>= f) (x' >>= f') := by
  intro m
  have hm := h m
  rw [bind_apply, bind_apply]
  generalize x m = end₁, x' m = end₂ at hm
  cases hm with
  | ok h m => exact hf _ _ h m
  | error e m => exact .error e m

theorem alike_bind_self (x : Metered α) {f : α → Metered β} {f' : α → Metered β'} (hf : ∀ a, Alike S (f a) (f' a)) :
    Alike S (x >>= f) (x >>= f') := by
  apply (alike_self x).bind
  rintro a _ rfl
  exact hf a

end Metered

theorem toAffine_of_samePoint {a c : G1} (h : SamePoint a c) : G1.toAffine a = G1.toAffine c := by
  rw [G1.toAffine, G1.toAffine, h]

namespace Transcript

theorem absorbPoint_congr {a c : G1} (h : SamePoint a c) (t : Transcript) : t.absorbPoint a = t.absorbPoint c := by
  rw [absorbPoint, absorbPoint, toAffine_of_samePoint h]

theorem absorbPoints_congr {as cs : List G1} (h : List.Forall₂ SamePoint as cs) (t : Transcript) :
    t.absorbPoints as = t.absorbPoints cs := by
  induction h generalizing t with
  | nil => rfl
  | cons ha _ ih =>
    rw [absorbPoints, List.foldl_cons, absorbPoint_congr ha]
    exact ih _

end Transcript

namespace Proof

structure SamePoints (p p' : Proof) : Prop where
  wires : List.Forall₂ SamePoint p.wires p'.wires
  copyProduct : SamePoint p.copyProduct p'.copyProduct
  lookupS : SamePoint p.lookupS p'.lookupS
  lookupProduct : SamePoint p.lookupProduct p'.lookupProduct
  quotients : List.Forall₂ SamePoint p.quotients p'.quotients
  evaluations : p.evaluations = p'.evaluations
  openingAtZ : SamePoint p.openingAtZ p'.openingAtZ
  openingAtNext : SamePoint p.openingAtNext p'.openingAtNext

end Proof

theorem Challenges.derive_congr {p p' : Proof} (h : p.SamePoints p') (key : Key) (inputs : List ℤ) :
    derive key inputs p = derive key inputs p' := by
  have hcopy := Transcript.absorbPoints_congr (.cons h.copyProduct (.cons h.lookupS .nil))
  have hopenings := Transcript.absorbPoints_congr (.cons h.openingAtZ (.cons h.openingAtNext .nil))
  simp only [derive, trace, Transcript.absorbPoints_congr h.wires, hcopy, Transcript.absorbPoint_congr h.lookupProduct,
    Transcript.absorbPoints_congr h.quotients, h.evaluations, hopenings]

theorem Verifier.checkArity_congr {p p' : Proof} (h : p.SamePoints p') (key : Key) :
    checkArity key p = checkArity key p' := by
  have hcommitments : p.commitments.length = p'.commitments.length := by
    simp [Proof.commitments, h.wires.length_eq, h.quotients.length_eq]
  rw [checkArity, checkArity, hcommitments, h.wires.length_eq, h.quotients.length_eq]

open G1 Metered

structure Proof.Agree (p p' : Proof) : Prop where
  wires : List.Forall₂ G1.Agree p.wires p'.wires
  copyProduct : G1.Agree p.copyProduct p'.copyProduct
  lookupS : G1.Agree p.lookupS p'.lookupS
  lookupProduct : G1.Agree p.lookupProduct p'.lookupProduct
  quotients : List.Forall₂ G1.Agree p.quotients p'.quotients
  evaluations : p.evaluations = p'.evaluations
  openingAtZ : G1.Agree p.openingAtZ p'.openingAtZ
  openingAtNext : G1.Agree p.openingAtNext p'.openingAtNext

theorem Proof.SamePoints.agree {p p' : Proof} (h : p.SamePoints p') (hp : p.WellFormed) : p.Agree p' where
  wires := ((List.forall₂_and_left _ _).mpr ⟨hp.wire, h.wires⟩).imp fun _ _ h => agree_of_samePoint h.1 h.2
  copyProduct := agree_of_samePoint hp.copyProduct h.copyProduct
  lookupS := agree_of_samePoint hp.lookupS h.lookupS
  lookupProduct := agree_of_samePoint hp.lookupProduct h.lookupProduct
  quotients := ((List.forall₂_and_left _ _).mpr ⟨hp.quotient, h.quotients⟩).imp fun _ _ h => agree_of_samePoint h.1 h.2
  evaluations := h.evaluations
  openingAtZ := agree_of_samePoint hp.openingAtZ h.openingAtZ
  openingAtNext := agree_of_samePoint hp.openingAtNext h.openingAtNext

structure Linearization.Agree (lin lin' : Linearization) : Prop where
  commitment : G1.Agree lin.commitment lin'.commitment
  quotient : G1.Agree lin.quotient lin'.quotient
  table : G1.Agree lin.table lin'.table

structure Kzg.Opening.Agree (o o' : Kzg.Opening) : Prop where
  point : o.point = o'.point
  commitment : G1.Agree o.commitment o'.commitment
  value : o.value = o'.value
  proof : G1.Agree o.proof o'.proof

namespace Kzg

variable {os os' : List Opening}

def AgreeOpening (t t' : ℤ × Opening) : Prop :=
  t.1 = t'.1 ∧ t.2.Agree t'.2

theorem agree_openings (us : List ℤ) (hos : List.Forall₂ Opening.Agree os os') :
    List.Forall₂ AgreeOpening (us.zip os) (us.zip os') := by
  induction hos generalizing us with
  | nil => simp
  | cons ho _ ih =>
    cases us with
    | nil => exact .nil
    | cons u us => exact .cons ⟨rfl, ho⟩ (ih us)

theorem agree_proofTerms (us : List ℤ) (hos : List.Forall₂ Opening.Agree os os') :
    List.Forall₂ AgreeTerm (proofTerms us os) (proofTerms us os') :=
  List.rel_map (fun _ _ ht => ⟨ht.2.proof, ht.1⟩) (agree_openings us hos)

theorem agree_claimTerms (us : List ℤ) (hos : List.Forall₂ Opening.Agree os os') {g : G1} (hg : onCurve g = true) :
    List.Forall₂ AgreeTerm (claimTerms us os g) (claimTerms us os' g) := by
  have hpairs := agree_openings us hos
  have hvalue : (us.zip os).foldl (fun (acc : ℤ) (t : ℤ × Opening) => (acc + t.1 * t.2.value) % r) 0 =
      (us.zip os').foldl (fun (acc : ℤ) (t : ℤ × Opening) => (acc + t.1 * t.2.value) % r) 0 := by
    refine List.rel_foldl ?_ rfl hpairs
    rintro acc _ rfl ⟨u, o⟩ ⟨_, o'⟩ ⟨rfl, ho⟩
    have hvalue : o.value = o'.value := ho.value
    simp only [hvalue]
  have hterms : List.Forall₂ AgreeTerm
      ((us.zip os).flatMap fun t => [(t.2.commitment, t.1), (t.2.proof, t.1 * t.2.point % r)])
      ((us.zip os').flatMap fun t => [(t.2.commitment, t.1), (t.2.proof, t.1 * t.2.point % r)]) := by
    refine List.rel_flatMap hpairs ?_
    rintro ⟨u, o⟩ ⟨_, o'⟩ ⟨rfl, ho⟩
    exact .cons ⟨ho.commitment, rfl⟩ (.cons ⟨ho.proof, by rw [ho.point]⟩ .nil)
  exact List.rel_append hterms (.cons ⟨agree_self hg, congrArg (fun v => ((r : ℤ) - v) % r) hvalue⟩ .nil)

end Kzg

theorem Openings.fold_alike {cs cs' : List (G1 × ℤ)} (hcs : List.Forall₂ AgreeTerm cs cs') (v : ℤ) :
    Alike AgreeTerm (fold cs v) (fold cs' v) := by
  have hpoints : List.Forall₂ Agree (cs.map (·.1)) (cs'.map (·.1)) := by
    rw [List.forall₂_map_left_iff, List.forall₂_map_right_iff]
    exact hcs.imp fun _ _ h => h.1
  have hvalues : cs.map (·.2) = cs'.map (·.2) := by
    rw [← List.forall₂_eq_eq_eq, List.forall₂_map_left_iff, List.forall₂_map_right_iff]
    exact hcs.imp fun _ _ h => h.2
  unfold fold Kzg.aggregate
  rw [hvalues, hpoints.length_eq]
  split
  · exact alike_throw _
  · apply alike_bind_self
    intro _
    exact alike_pure ⟨agree_msm (agree_zip hpoints _), rfl⟩

theorem Openings.check_alike (key : Key) (ch : Challenges) {os os' : List Kzg.Opening}
    (hos : List.Forall₂ Kzg.Opening.Agree os os') : Alike Eq (check key os ch) (check key os' ch) := by
  have hbatch : Alike Eq (Kzg.batchVerify os ch.u key.openingKey) (Kzg.batchVerify os' ch.u key.openingKey) := by
    have hlen := hos.length_eq
    have hempty : os.isEmpty = os'.isEmpty := by
      rw [Bool.eq_iff_iff, List.isEmpty_iff_length_eq_zero, List.isEmpty_iff_length_eq_zero, hlen]
    let us := Scalar.powers (ch.u % r) os'.length
    have hclaims := Kzg.agree_claimTerms us hos G1.represents_generator.onCurve
    have hproofs := Kzg.agree_proofTerms us hos
    have hproduct : Pairing.checkProduct [(G1.msm (Kzg.claimTerms us os G1.generator), key.openingKey.g2),
          (G1.neg (G1.msm (Kzg.proofTerms us os)), key.openingKey.xG2)] =
        Pairing.checkProduct [(G1.msm (Kzg.claimTerms us os' G1.generator), key.openingKey.g2),
          (G1.neg (G1.msm (Kzg.proofTerms us os')), key.openingKey.xG2)] :=
      Pairing.checkProduct_congr (.cons ⟨(agree_msm hclaims).samePoint, rfl⟩
        (.cons ⟨(agree_msm hproofs).neg.samePoint, rfl⟩ .nil))
    unfold Kzg.batchVerify
    rw [hempty]
    split
    · exact alike_throw _
    · simp only [hlen]
      rw [show key.openingKey.g1 = G1.generator from rfl, hclaims.length_eq, hproofs.length_eq, hproduct]
      exact alike_self _
  unfold check
  apply hbatch.bind
  rintro b _ rfl
  exact alike_self _

section Stages

variable {key : Key} (hkey : key.WellFormed) {p p' : Proof} (h : p.Agree p') (ch : Challenges)

include h

theorem Openings.agree_claimsAtNext {lin lin' : Linearization} (hlin : lin.Agree lin') :
    List.Forall₂ AgreeTerm (claimsAtNext p lin) (claimsAtNext p' lin') := by
  have hwire : Agree (p.wires.getD 3 G1.infinity) (p'.wires.getD 3 G1.infinity) := agree_getD h.wires 3
  rw [claimsAtNext, claimsAtNext, h.evaluations]
  exact .cons ⟨h.copyProduct, rfl⟩ (.cons ⟨hwire, rfl⟩ (.cons ⟨h.lookupS, rfl⟩ (.cons ⟨h.lookupProduct, rfl⟩
    (.cons ⟨hlin.table, rfl⟩ .nil))))

include hkey

theorem Linearization.agree_terms (pt : Point) :
    List.Forall₂ AgreeTerm (terms key p ch pt) (terms key p' ch pt) := by
  have hgateSetup : ∀ a ∈ key.gateSetup.toList, onCurve a = true :=
    fun a ha => hkey.onCurve a (by simp [Key.g1Slots, Vector.mem_toList_iff.mp ha])
  rw [terms, terms, h.evaluations]
  apply List.rel_append (agree_zip_self hgateSetup _)
  exact .cons ⟨agree_self (hkey.gateSelectors 1), rfl⟩ (.cons ⟨h.copyProduct, rfl⟩
    (.cons ⟨agree_self (hkey.permutation 3), rfl⟩ (.cons ⟨h.lookupProduct, rfl⟩ (.cons ⟨h.lookupS, rfl⟩ .nil))))

theorem Linearization.build_alike (inputs : List ℤ) :
    Alike Linearization.Agree (build key inputs p ch) (build key inputs p' ch) := by
  unfold build
  split
  · exact alike_throw _
  · apply alike_bind_self
    intro _
    apply alike_bind_self
    intro pt
    have hterms := agree_terms hkey h ch pt
    simp only [h.evaluations, hterms.length_eq, h.quotients.length_eq]
    split
    · exact alike_throw _
    · apply alike_bind_self
      intro _
      apply alike_bind_self
      intro _
      apply alike_bind_self
      intro _
      exact alike_pure ⟨agree_msm hterms, agree_msm (agree_zip h.quotients _),
        agree_msm (agree_zip_self hkey.lookupTable _)⟩

theorem Openings.agree_claimsAtZ {lin lin' : Linearization} (hlin : lin.Agree lin') :
    List.Forall₂ AgreeTerm (claimsAtZ key p lin) (claimsAtZ key p' lin') := by
  rw [claimsAtZ, claimsAtZ, h.evaluations]
  apply List.rel_append
  · apply List.rel_append
    · exact List.rel_append (.cons ⟨hlin.quotient, rfl⟩ (.cons ⟨hlin.commitment, rfl⟩ .nil)) (agree_zip h.wires _)
    · exact .cons ⟨agree_self (hkey.gateSelectors 0), rfl⟩ (agree_zip_self hkey.sigma _)
  · exact .cons ⟨agree_self hkey.lookupSelector, rfl⟩ (.cons ⟨agree_self hkey.lookupTableType, rfl⟩
      (.cons ⟨hlin.table, rfl⟩ .nil))

theorem Openings.build_alike {lin lin' : Linearization} (hlin : lin.Agree lin') :
    Alike (List.Forall₂ Kzg.Opening.Agree) (build key p ch lin) (build key p' ch lin') := by
  unfold build
  apply (fold_alike (agree_claimsAtZ hkey h hlin) ch.v).bind
  rintro ⟨c, y⟩ ⟨c', y'⟩ ⟨hc, hy⟩
  apply (fold_alike (agree_claimsAtNext h hlin) ch.v).bind
  rintro ⟨d, z⟩ ⟨d', z'⟩ ⟨hd, hz⟩
  exact alike_pure (.cons ⟨rfl, hc, hy, h.openingAtZ⟩ (.cons ⟨rfl, hd, hz, h.openingAtNext⟩ .nil))

end Stages

theorem Verifier.decideProof_congr {key : Key} (hkey : key.WellFormed) {p p' : Proof} (hp : p.WellFormed)
    (h : p.SamePoints p') (inputs : List ℤ) : decideProof key inputs p = decideProof key inputs p' := by
  apply Alike.eq
  have hagree := h.agree hp
  unfold decideProof
  rw [Challenges.derive_congr h, checkArity_congr h]
  apply alike_bind_self
  intro ch
  apply alike_bind_self
  intro _
  apply (Linearization.build_alike hkey hagree ch inputs).bind
  intro lin lin' hlin
  apply (Openings.build_alike hkey hagree ch hlin).bind
  intro os os' hos
  exact Openings.check_alike key ch hos

end Settlement
