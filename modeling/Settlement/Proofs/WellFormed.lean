import Mathlib
import Settlement.Key.Basic
import Settlement.Proofs.Bn254.Domain
import Settlement.Proofs.Bn254.Group
import Settlement.Proofs.Except

namespace Settlement

open Bn254

namespace Bn254

open scoped Fields

theorem G1.onCurve_of_ofCoordinates {x y : Fp} {a : G1} (h : ofCoordinates x y = .ok a) :
    onCurve a = true := by
  unfold ofCoordinates at h
  split at h
  · obtain rfl := Except.ok.inj h
    exact represents_infinity.onCurve
  · simp only at h
    split at h
    · rename_i hcurve
      obtain rfl := Except.ok.inj h
      exact hcurve
    · cases h

theorem G1.onCurve_of_ofAffine {x y : ℤ} {a : G1} (h : ofAffine x y = .ok a) : onCurve a = true := by
  obtain ⟨_, _, h⟩ := Except.bind_eq_ok.mp h
  obtain ⟨_, _, h⟩ := Except.bind_eq_ok.mp h
  exact onCurve_of_ofCoordinates h

theorem G2.of_ofCoordinates {x y : Fp2} {a : G2} (h : ofCoordinates x y = .ok a) :
    onCurve a = true ∧ (a.z = 0 ∨ a.z = 1) := by
  unfold ofCoordinates at h
  split at h
  · obtain rfl := Except.ok.inj h
    exact ⟨represents_infinity.onCurve, .inl rfl⟩
  · simp only at h
    split at h
    · cases h
    split at h
    · cases h
    rename_i hcurve _
    obtain rfl := Except.ok.inj h
    exact ⟨not_not.mp hcurve, .inr rfl⟩

theorem G2.of_ofAffine {xs ys : List ℤ} {a : G2} (h : ofAffine xs ys = .ok a) :
    onCurve a = true ∧ (a.z = 0 ∨ a.z = 1) := by
  unfold ofAffine at h
  split at h
  · obtain ⟨_, _, h⟩ := Except.bind_eq_ok.mp h
    obtain ⟨_, _, h⟩ := Except.bind_eq_ok.mp h
    obtain ⟨_, _, h⟩ := Except.bind_eq_ok.mp h
    obtain ⟨_, _, h⟩ := Except.bind_eq_ok.mp h
    exact of_ofCoordinates h
  · cases h

theorem G2.eq_generator_of_toAffine {a : G2} (hz : a.z = 1) (h : toAffine a = toAffine generator) :
    a = generator := by
  have ha : Projective.toAffine? a = some (a.x, a.y) := Projective.toAffine?_of_z_eq_one hz
  have hg : Projective.toAffine? generator = some (generator.x, generator.y) :=
    Projective.toAffine?_of_z_eq_one rfl
  simp only [toAffine, ha, hg, Prod.mk.injEq, Fin.val_inj] at h
  obtain ⟨⟨hx0, hx1⟩, hy0, hy1⟩ := h
  obtain ⟨x, y, z⟩ := a
  obtain rfl : z = 1 := hz
  obtain rfl : x = generator.x := Fp2.ext hx0 hx1
  obtain rfl : y = generator.y := Fp2.ext hy0 hy1
  rfl

end Bn254

namespace Key

structure WellFormed (key : Key) : Prop where
  domain : key.domain.Accepted
  omega : Scalar.isCanonical key.domain.omega = true
  numInputs_le : key.numInputs ≤ key.domain.size
  onCurve : ∀ a ∈ key.g1Slots, G1.onCurve a = true
  shifts : validShifts key.shifts = true
  g2First : key.g2Elements[0].Represents 1
  g2OnCurve : ∀ a ∈ key.g2Elements.toList, G2.onCurve a = true

namespace WellFormed

variable {key : Key} (hkey : key.WellFormed)

include hkey

theorem gateSetup (i : Fin 8) : G1.onCurve (key.gateSetup.get i) = true :=
  hkey.onCurve _ (by simp [g1Slots, Vector.get_eq_getElem, Vector.getElem_mem])

theorem gateSelectors (i : Fin 2) : G1.onCurve (key.gateSelectors.get i) = true :=
  hkey.onCurve _ (by simp [g1Slots, Vector.get_eq_getElem, Vector.getElem_mem])

theorem permutation (i : Fin 4) : G1.onCurve (key.permutation.get i) = true :=
  hkey.onCurve _ (by simp [g1Slots, Vector.get_eq_getElem, Vector.getElem_mem])

theorem sigma : ∀ a ∈ key.sigmas, G1.onCurve a = true :=
  fun a ha => hkey.onCurve a (by simp [g1Slots, Vector.mem_toList_iff.mp (List.mem_of_mem_take ha)])

theorem lookupSelector : G1.onCurve key.lookupSelector = true := hkey.onCurve _ (by simp [g1Slots])

theorem lookupTableType : G1.onCurve key.lookupTableType = true := hkey.onCurve _ (by simp [g1Slots])

theorem lookupTable : ∀ a ∈ key.lookupTable.toList, G1.onCurve a = true :=
  fun a ha => hkey.onCurve a (by simp [g1Slots, Vector.mem_toList_iff.mp ha])

theorem g2 : G2.onCurve key.openingKey.g2 = true :=
  hkey.g2OnCurve _ (Vector.mem_toList_iff.mpr (Vector.getElem_mem _))

theorem xG2 : G2.onCurve key.openingKey.xG2 = true :=
  hkey.g2OnCurve _ (Vector.mem_toList_iff.mpr (Vector.getElem_mem _))

end WellFormed

theorem toList_of_slot {α : Type} {name : String} {n : ℕ} {xs : List α} {v : Vector α n}
    (h : slot name n xs = .ok v) : v.toList = xs := by
  unfold slot at h
  split at h
  · obtain rfl := Except.ok.inj h
    rfl
  · cases h

theorem wellFormed_of_ofParts {parts : Parts} {key : Key} (h : ofParts parts = .ok key)
    (homega : Scalar.isCanonical parts.omega = true)
    (hg1 : ∀ a ∈ parts.gateSetup ++ parts.gateSelectors ++ parts.permutation ++ [parts.lookupSelector] ++
      parts.lookupTable ++ [parts.lookupTableType], G1.onCurve a = true)
    (hg2 : ∀ a ∈ parts.g2Elements, G2.onCurve a = true ∧ (a.z = 0 ∨ a.z = 1)) : key.WellFormed := by
  simp only [ofParts, Except.bind_eq_ok, Except.check_eq_ok] at h
  obtain ⟨gateSetup, hgateSetup, gateSelectors, hgateSelectors, permutation, hpermutation, lookupTable,
    hlookupTable, nonResidues, hnonResidues, g2Elements, hg2Elements, domain, hdomain, hinputs, hshifts,
    hinfinity, hfirst, hsecond, h⟩ := h
  obtain ⟨haccepted, hsize, hroot⟩ := Domain.accepted_of_ofRoot (Except.mapError_eq_ok.mp hdomain)
  obtain rfl := Except.ok.inj h
  have hmem : g2Elements[0] ∈ parts.g2Elements := by
    rw [← toList_of_slot hg2Elements]
    exact Vector.mem_toList_iff.mpr (Vector.getElem_mem _)
  obtain ⟨hcurve, hz⟩ := hg2 _ hmem
  refine ⟨haccepted, ?_, ?_, ?_, ?_, ?_, ?_⟩
  · simpa only [hroot] using homega
  · simp only
    omega
  · simpa only [g1Slots, toList_of_slot hgateSetup, toList_of_slot hgateSelectors,
      toList_of_slot hpermutation, toList_of_slot hlookupTable] using hg1
  · simpa only [shifts, toList_of_slot hnonResidues, not_not] using hshifts
  · -- the first point is affine, so equal coordinates make it the generator
    rw [Bool.or_eq_true, not_or] at hinfinity
    have hz1 : g2Elements[0].z = 1 := by
      refine hz.resolve_left fun h0 => hinfinity.1 ?_
      simp [G2.isInfinity, Projective.isInfinity, h0]
    simp only [G2.eq_generator_of_toAffine hz1 (not_not.mp hfirst)]
    exact G2.represents_generator
  · simp only [toList_of_slot hg2Elements]
    exact fun a ha => (hg2 a ha).1

theorem onCurve_of_readG1 {pair : List WrittenWord} {a : G1} (h : readG1 pair = .ok a) :
    G1.onCurve a = true := by
  unfold readG1 at h
  split at h
  · obtain ⟨x, _, h⟩ := Except.bind_eq_ok.mp h
    obtain ⟨y, _, h⟩ := Except.bind_eq_ok.mp h
    exact G1.onCurve_of_ofAffine (Except.mapError_eq_ok.mp h)
  · cases h

theorem of_readG2 {pairs : List (List WrittenWord)} {a : G2} (h : readG2 pairs = .ok a) :
    G2.onCurve a = true ∧ (a.z = 0 ∨ a.z = 1) := by
  unfold readG2 at h
  split at h
  · obtain ⟨xs, _, h⟩ := Except.bind_eq_ok.mp h
    obtain ⟨ys, _, h⟩ := Except.bind_eq_ok.mp h
    exact G2.of_ofAffine (Except.mapError_eq_ok.mp h)
  · cases h

theorem wellFormed_of_ofDocument {doc : KeyDocument} {key : Key} (h : ofDocument doc = .ok key) :
    key.WellFormed := by
  simp only [ofDocument, Except.bind_eq_ok, Except.check_eq_ok] at h
  obtain ⟨omega, hread, homega, gateSetup, hgateSetup, gateSelectors, hgateSelectors, permutation,
    hpermutation, lookupSelector, hlookupSelector, lookupTable, hlookupTable, lookupTableType,
    hlookupTableType, nonResidues, -, g2Elements, hg2Elements, h⟩ := h
  have hcanonical : Scalar.isCanonical omega = true := by
    obtain ⟨n, -, hn⟩ := Except.bind_eq_ok.mp hread
    obtain rfl := Except.ok.inj hn
    exact (Scalar.isCanonical_iff _).mpr ⟨Int.natCast_nonneg n, not_le.mp homega⟩
  have hslot (pairs : List (List WrittenWord)) (as : List G1) (h : pairs.mapM readG1 = .ok as) :
      ∀ a ∈ as, G1.onCurve a = true :=
    Except.forall_of_mapM (fun _ _ => onCurve_of_readG1) h
  refine wellFormed_of_ofParts h hcanonical ?_ (Except.forall_of_mapM (fun _ _ => of_readG2) hg2Elements)
  simp only [List.mem_append, List.mem_singleton]
  rintro a (((((ha | ha) | ha) | rfl) | ha) | rfl)
  · exact hslot _ _ hgateSetup a ha
  · exact hslot _ _ hgateSelectors a ha
  · exact hslot _ _ hpermutation a ha
  · exact onCurve_of_readG1 hlookupSelector
  · exact hslot _ _ hlookupTable a ha
  · exact onCurve_of_readG1 hlookupTableType

end Key

namespace Proof

structure WellFormed (p : Proof) : Prop where
  wires : p.wires.length = 4
  quotients : p.quotients.length = 4
  onCurve : ∀ a ∈ p.commitments, G1.onCurve a = true
  openingAtZ : G1.onCurve p.openingAtZ = true
  openingAtNext : G1.onCurve p.openingAtNext = true

def withEvaluations (p : Proof) (e : Evaluations) : Proof := { p with evaluations := e }

namespace WellFormed

variable {p : Proof} (hp : p.WellFormed)

include hp

theorem copyProduct : G1.onCurve p.copyProduct = true := hp.onCurve _ (by simp [commitments])

theorem lookupS : G1.onCurve p.lookupS = true := hp.onCurve _ (by simp [commitments])

theorem lookupProduct : G1.onCurve p.lookupProduct = true := hp.onCurve _ (by simp [commitments])

theorem wire : ∀ a ∈ p.wires, G1.onCurve a = true :=
  fun a ha => hp.onCurve a (by simp [commitments, ha])

theorem quotient : ∀ a ∈ p.quotients, G1.onCurve a = true :=
  fun a ha => hp.onCurve a (by simp [commitments, ha])

theorem withEvaluations (e : Evaluations) : (p.withEvaluations e).WellFormed :=
  ⟨hp.wires, hp.quotients, hp.onCurve, hp.openingAtZ, hp.openingAtNext⟩

end WellFormed

theorem onCurve_of_pointAt {ws : List ℕ} {i : ℕ} {a : G1} (h : pointAt ws i = .ok a) :
    G1.onCurve a = true :=
  G1.onCurve_of_ofAffine (Except.mapError_eq_ok.mp h)

theorem wellFormed_of_ofWords {ws : List ℕ} {p : Proof} (h : ofWords ws = .ok p) : p.WellFormed := by
  simp only [ofWords, Except.bind_eq_ok] at h
  obtain ⟨points, hpoints, _, _, atZ, hatZ, atNext, hatNext, h⟩ := h
  have hlen : points.length = 11 := (Except.forall₂_of_mapM hpoints).length_eq.symm
  have hcurve : ∀ a ∈ points, G1.onCurve a = true :=
    Except.forall_of_mapM (fun _ _ => onCurve_of_pointAt) hpoints
  obtain rfl := Except.ok.inj h
  refine ⟨?_, ?_, ?_, onCurve_of_pointAt hatZ, onCurve_of_pointAt hatNext⟩
  · rw [List.length_take, hlen]
    rfl
  · rw [List.length_drop, hlen]
  · have hall : points.take 4 ++ [points.getD 4 G1.infinity, points.getD 5 G1.infinity,
        points.getD 6 G1.infinity] ++ points.drop 7 = points := by
      match points, hlen with
      | [_, _, _, _, _, _, _, _, _, _, _], _ => rfl
    intro a ha
    exact hcurve a (hall ▸ ha)

theorem wellFormed_of_ofValues {vs : List Value} {p : Proof} (h : ofValues vs = .ok p) : p.WellFormed := by
  simp only [ofValues, Except.check_eq_ok, Except.bind_eq_ok] at h
  obtain ⟨-, ws, -, h⟩ := h
  exact wellFormed_of_ofWords h

theorem lt_of_checkEvaluations {ts : List (String × ℕ)} (h : checkEvaluations ts = .ok ()) :
    ∀ t ∈ ts, t.2 < r := by
  induction ts with
  | nil => simp
  | cons t ts ih =>
    simp only [checkEvaluations] at h
    split at h
    · rename_i ht
      exact List.forall_mem_cons.mpr ⟨ht, ih h⟩
    · cases h

theorem mem_of_mem_toList_ofList {xs : List ℤ} {x : ℤ} (hx : x ∈ (Evaluations.ofList xs).toList) :
    x ∈ xs ∨ x = 0 := by
  have hlist : (Evaluations.ofList xs).toList = (List.range 18).map fun i => xs.getD i 0 := rfl
  rw [hlist, List.mem_map] at hx
  obtain ⟨i, -, rfl⟩ := hx
  by_cases hi : i < xs.length
  · rw [List.getD_eq_getElem _ _ hi]
    exact .inl (List.getElem_mem hi)
  · exact .inr (List.getD_eq_default _ _ (Nat.le_of_not_lt hi))

theorem isCanonical_of_ofWords {ws : List ℕ} {p : Proof} (h : ofWords ws = .ok p) :
    ∀ x ∈ p.evaluations.toList, Scalar.isCanonical x = true := by
  simp only [ofWords, Except.bind_eq_ok] at h
  obtain ⟨_, _, _, hcheck, _, _, _, _, h⟩ := h
  obtain rfl := Except.ok.inj h
  intro x hx
  rw [Scalar.isCanonical_iff]
  obtain hx | rfl := mem_of_mem_toList_ofList hx
  · obtain ⟨w, hw, rfl⟩ := List.mem_map.mp hx
    have hsnd : (Evaluations.names.zip ((ws.drop 22).take 18)).map Prod.snd = (ws.drop 22).take 18 :=
      List.map_snd_zip (List.length_take_le ..)
    rw [← hsnd] at hw
    obtain ⟨t, ht, rfl⟩ := List.mem_map.mp hw
    exact ⟨Int.natCast_nonneg _, Int.ofNat_lt.mpr (lt_of_checkEvaluations hcheck t ht)⟩
  · decide

theorem isCanonical_of_ofValues {vs : List Value} {p : Proof} (h : ofValues vs = .ok p) :
    ∀ x ∈ p.evaluations.toList, Scalar.isCanonical x = true := by
  simp only [ofValues, Except.check_eq_ok, Except.bind_eq_ok] at h
  obtain ⟨-, ws, -, h⟩ := h
  exact isCanonical_of_ofWords h

end Proof

end Settlement
