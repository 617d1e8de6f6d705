import Mathlib
import Settlement.Proofs.Bytes
import Settlement.Proofs.WellFormed

namespace Settlement

open Bn254

def Coordinates (x y : ℕ) : Prop :=
  x = 0 ∧ y = 0 ∨ x < p ∧ y < p ∧ y ^ 2 % p = (x ^ 3 + 3) % p

namespace Bn254

open scoped Fields

theorem G1.onCurve_iff_mod (x y : Fp) :
    onCurve ⟨x, y, 1⟩ = true ↔ y.val ^ 2 % p = (x.val ^ 3 + 3) % p := by
  have hequation : onCurve ⟨x, y, 1⟩ = true ↔ y * y = x * x * x + 3 := by
    rw [onCurve, Projective.onCurve_iff, b]
    simp only [one_ne_zero, false_or, mul_one]
    constructor
    · intro h
      linear_combination h
    · intro h
      linear_combination h
  have hthree : (3 : Fp).val = 3 := rfl
  rw [hequation, Fin.ext_iff, Fin.val_add, Fin.val_mul, Fin.val_mul, Fin.val_mul, hthree, Nat.mod_mul_mod,
    Nat.mod_add_mod]
  ring_nf

theorem coordinate_eq_ok {c : Coordinate} {n : ℕ} {x : Fp} : coordinate c n = .ok x ↔ n = x.val := by
  unfold coordinate
  split
  · rename_i h
    rw [Except.ok.injEq, Fin.ext_iff]
    exact Iff.rfl
  · rename_i h
    have hx := x.isLt
    simp only [reduceCtorEq, false_iff]
    omega

theorem G1.ofCoordinates_isOk_iff (x y : Fp) :
    (∃ a, ofCoordinates x y = .ok a) ↔ x = 0 ∧ y = 0 ∨ onCurve ⟨x, y, 1⟩ = true := by
  unfold ofCoordinates
  by_cases hzero : x = 0 ∧ y = 0
  · simp [hzero]
  · by_cases hcurve : onCurve ⟨x, y, 1⟩ = true
    · simp [hzero, hcurve]
    · simp [hzero, hcurve]

theorem G1.ofAffine_isOk_iff (x y : ℕ) : (∃ a, ofAffine x y = .ok a) ↔ Coordinates x y := by
  have hread : (∃ a, ofAffine x y = .ok a) ↔
      ∃ x' y' : Fp, x = x'.val ∧ y = y'.val ∧ ∃ a, ofCoordinates x' y' = .ok a := by
    simp only [ofAffine, Except.bind_eq_ok, coordinate_eq_ok]
    constructor
    · rintro ⟨a, x', hx, y', hy, h⟩
      exact ⟨x', y', hx, hy, a, h⟩
    · rintro ⟨x', y', hx, hy, a, h⟩
      exact ⟨a, x', hx, y', hy, h⟩
  rw [hread, Coordinates]
  constructor
  · rintro ⟨x', y', rfl, rfl, h⟩
    obtain ⟨rfl, rfl⟩ | hcurve := (ofCoordinates_isOk_iff x' y').mp h
    · exact .inl ⟨rfl, rfl⟩
    · exact .inr ⟨x'.isLt, y'.isLt, (onCurve_iff_mod x' y').mp hcurve⟩
  · rintro (⟨rfl, rfl⟩ | ⟨hx, hy, h⟩)
    · exact ⟨0, 0, rfl, rfl, (ofCoordinates_isOk_iff 0 0).mpr (.inl ⟨rfl, rfl⟩)⟩
    · exact ⟨⟨x, hx⟩, ⟨y, hy⟩, rfl, rfl, (ofCoordinates_isOk_iff _ _).mpr (.inr ((onCurve_iff_mod _ _).mpr h))⟩

theorem G1.coordinates_toAffine {a : G1} (h : onCurve a = true) :
    Coordinates (toAffine a).1 (toAffine a).2 := by
  by_cases hz : a.z = 0
  · have hinfinity : Projective.toAffine? a = none := by simp [Projective.toAffine?, Projective.isInfinity, hz]
    rw [toAffine, hinfinity]
    exact .inl ⟨rfl, rfl⟩
  · have haffine : Projective.toAffine? a = some (a.x * a.z⁻¹, a.y * a.z⁻¹) := by
      simp [Projective.toAffine?, Projective.isInfinity, hz]
    rw [toAffine, haffine]
    refine .inr ⟨Fin.isLt _, Fin.isLt _, (onCurve_iff_mod _ _).mp ?_⟩
    have hequation := ((Projective.onCurve_iff b a).mp h).resolve_left hz
    refine (Projective.onCurve_iff b _).mpr (.inr ?_)
    field_simp
    linear_combination hequation

end Bn254

namespace Proof

theorem pointAt_isOk_iff (ws : List ℕ) (i : ℕ) :
    (∃ a, pointAt ws i = .ok a) ↔ Coordinates (ws.getD i 0) (ws.getD (i + 1) 0) := by
  simp only [pointAt, Except.mapError_eq_ok, G1.ofAffine_isOk_iff]

theorem checkEvaluations_eq_ok (ts : List (String × ℕ)) :
    checkEvaluations ts = .ok () ↔ ∀ t ∈ ts, t.2 < r := by
  refine ⟨lt_of_checkEvaluations, ?_⟩
  intro h
  induction ts with
  | nil => rfl
  | cons t ts ih =>
    rw [List.forall_mem_cons] at h
    rw [checkEvaluations, if_pos h.1, ih h.2]

/-- The words of a proof: eleven commitments, eighteen evaluations and two opening proofs. -/
structure Spelling (ws : List ℕ) : Prop where
  length : ws.length = 44
  point : ∀ k, k < 11 ∨ k = 20 ∨ k = 21 → Coordinates (ws.getD (2 * k) 0) (ws.getD (2 * k + 1) 0)
  evaluation : ∀ i, 22 ≤ i → i < 40 → ws.getD i 0 < r

theorem forall_evaluation_iff {ws : List ℕ} (hlen : ws.length = 44) :
    (∀ t ∈ Evaluations.names.zip ((ws.drop 22).take 18), t.2 < r) ↔
      ∀ i, 22 ≤ i → i < 40 → ws.getD i 0 < r := by
  have hvalues : (Evaluations.names.zip ((ws.drop 22).take 18)).map Prod.snd = (ws.drop 22).take 18 :=
    List.map_snd_zip (List.length_take_le ..)
  have hmem : (∀ t ∈ Evaluations.names.zip ((ws.drop 22).take 18), t.2 < r) ↔
      ∀ w ∈ (ws.drop 22).take 18, w < r := by
    conv_rhs => rw [← hvalues, List.forall_mem_map]
  rw [hmem, List.forall_mem_iff_getElem]
  simp only [List.length_take, List.length_drop, hlen, List.getElem_take, List.getElem_drop]
  constructor
  · intro h i hi hi'
    rw [List.getD_eq_getElem _ _ (by omega)]
    have hlt := h (i - 22) (by omega)
    simpa only [Nat.add_sub_cancel' hi] using hlt
  · intro h i hi
    have hlt := h (22 + i) (by omega) (by omega)
    rwa [List.getD_eq_getElem _ _ (by omega)] at hlt

theorem ofWords_isOk_iff {ws : List ℕ} (hlen : ws.length = 44) :
    (∃ q, ofWords ws = .ok q) ↔ Spelling ws := by
  constructor
  · rintro ⟨q, h⟩
    simp only [ofWords, Except.bind_eq_ok] at h
    obtain ⟨points, hpoints, _, hvalues, atZ, hatZ, atNext, hatNext, -⟩ := h
    refine ⟨hlen, ?_, (forall_evaluation_iff hlen).mp ((checkEvaluations_eq_ok _).mp hvalues)⟩
    rintro k (hk | rfl | rfl)
    · exact (pointAt_isOk_iff ws (2 * k)).mp (Except.mapM_isOk_iff.mp ⟨points, hpoints⟩ k (List.mem_range.mpr hk))
    · exact (pointAt_isOk_iff ws 40).mp ⟨atZ, hatZ⟩
    · exact (pointAt_isOk_iff ws 42).mp ⟨atNext, hatNext⟩
  · intro h
    obtain ⟨points, hpoints⟩ : ∃ points, (List.range 11).mapM (fun k => pointAt ws (2 * k)) = .ok points :=
      Except.mapM_isOk_iff.mpr fun k hk =>
        (pointAt_isOk_iff ws (2 * k)).mpr (h.point k (.inl (List.mem_range.mp hk)))
    have hvalues := (checkEvaluations_eq_ok _).mpr ((forall_evaluation_iff hlen).mpr h.evaluation)
    obtain ⟨atZ, hatZ⟩ := (pointAt_isOk_iff ws 40).mpr (h.point 20 (.inr (.inl rfl)))
    obtain ⟨atNext, hatNext⟩ := (pointAt_isOk_iff ws 42).mpr (h.point 21 (.inr (.inr rfl)))
    simp only [ofWords, hpoints, hvalues, hatZ, hatNext]
    exact ⟨_, rfl⟩

theorem Spelling.word_lt {ws : List ℕ} (h : Spelling ws) : ∀ w ∈ ws, w < 256 ^ 32 := by
  have hp : p < 256 ^ 32 := by decide
  have hr : r < 256 ^ 32 := by decide
  have hpoint (k : ℕ) (hk : k < 11 ∨ k = 20 ∨ k = 21) :
      ws.getD (2 * k) 0 < p ∧ ws.getD (2 * k + 1) 0 < p := by
    obtain ⟨h0, h1⟩ | ⟨hx, hy, -⟩ := h.point k hk
    · rw [h0, h1]
      decide
    · exact ⟨hx, hy⟩
  rw [List.forall_mem_iff_getElem]
  intro i hi
  have hlen := h.length
  rw [← List.getD_eq_getElem ws 0 hi]
  by_cases hvalue : 22 ≤ i ∧ i < 40
  · exact (h.evaluation i hvalue.1 hvalue.2).trans hr
  · -- the other words come in pairs
    have hpair := hpoint (i / 2) (by omega)
    obtain heven | hodd : i = 2 * (i / 2) ∨ i = 2 * (i / 2) + 1 := by omega
    · rw [heven]
      exact hpair.1.trans hp
    · rw [hodd]
      exact hpair.2.trans hp

theorem asWord?_eq_some {v : Value} {w : ℕ} : asWord? v = some w ↔ v = .int w ∧ w < 256 ^ 32 := by
  cases v with
  | int n =>
    rw [asWord?, Value.int.injEq, show Nat.pow 2 256 = 256 ^ 32 by decide]
    split
    · rw [Option.some.injEq]
      omega
    · simp only [reduceCtorEq, false_iff]
      omega
  | _ => simp [asWord?]

theorem readWords_eq_ok {start : ℕ} {vs : List Value} {ws : List ℕ} :
    readWords start vs = .ok ws ↔ vs = ws.map (fun w : ℕ => .int w) ∧ ∀ w ∈ ws, w < 256 ^ 32 := by
  induction vs generalizing start ws with
  | nil =>
    rw [readWords, Except.ok.injEq]
    constructor
    · rintro rfl
      simp
    · rintro ⟨h, -⟩
      exact (List.map_eq_nil_iff.mp h.symm).symm
  | cons v vs ih =>
    rw [readWords]
    cases hv : asWord? v with
    | none =>
      simp only [reduceCtorEq, false_iff]
      rintro ⟨h, hlt⟩
      cases ws with
      | nil => cases h
      | cons w ws =>
        obtain ⟨rfl, -⟩ := List.cons.inj h
        have hw := asWord?_eq_some.mpr ⟨rfl, hlt w (List.mem_cons_self ..)⟩
        cases hv.symm.trans hw
    | some w =>
      obtain ⟨rfl, hw⟩ := asWord?_eq_some.mp hv
      simp only [Except.bind_eq_ok, ih]
      constructor
      · rintro ⟨ws', ⟨rfl, hlt⟩, h⟩
        obtain rfl := Except.ok.inj h
        exact ⟨rfl, List.forall_mem_cons.mpr ⟨hw, hlt⟩⟩
      · rintro ⟨h, hlt⟩
        cases ws with
        | nil => cases h
        | cons w' ws =>
          obtain ⟨hint, rfl⟩ := List.cons.inj h
          obtain rfl : w = w' := by simpa using hint
          exact ⟨ws, ⟨rfl, (List.forall_mem_cons.mp hlt).2⟩, rfl⟩

theorem ofValues_isOk_iff (vs : List Value) :
    (∃ q, ofValues vs = .ok q) ↔ ∃ ws : List ℕ, vs = ws.map (fun w : ℕ => .int w) ∧ Spelling ws := by
  simp only [ofValues, Except.check_eq_ok, Except.bind_eq_ok, readWords_eq_ok, not_not]
  constructor
  · rintro ⟨q, hlen, ws, ⟨rfl, -⟩, h⟩
    rw [List.length_map] at hlen
    exact ⟨ws, rfl, (ofWords_isOk_iff hlen).mp ⟨q, h⟩⟩
  · rintro ⟨ws, rfl, h⟩
    obtain ⟨q, hq⟩ := (ofWords_isOk_iff h.length).mpr h
    exact ⟨q, by rw [List.length_map, h.length, wordCount], ws, ⟨rfl, h.word_lt⟩, hq⟩

theorem ofBytes_isOk_iff (bs : Bytes) :
    (∃ q, ofBytes bs = .ok q) ↔ ∃ ws, bs = ws.flatMap (Bytes.ofNat 32) ∧ Spelling ws := by
  simp only [ofBytes, Except.check_eq_ok, not_not]
  constructor
  · rintro ⟨q, hlen, h⟩
    obtain ⟨ws, hws, hlt, rfl⟩ := Bytes.exists_flatMap_ofNat hlen
    rw [Bytes.map_toNat_chunks (by decide) hlt] at h
    exact ⟨ws, rfl, (ofWords_isOk_iff hws).mp ⟨q, h⟩⟩
  · rintro ⟨ws, rfl, h⟩
    obtain ⟨q, hq⟩ := (ofWords_isOk_iff h.length).mpr h
    refine ⟨q, ?_, ?_⟩
    · simp [List.length_flatMap, Bytes.length_ofNat, h.length, wordCount]
    · rwa [Bytes.map_toNat_chunks (by decide) h.word_lt]

end Proof

end Settlement
