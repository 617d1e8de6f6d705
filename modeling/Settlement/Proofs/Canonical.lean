import Mathlib
import Settlement.Proofs.Layout
import Settlement.Proofs.Verifier.Linearization

namespace Settlement

open Bn254
open scoped Bn254.Fields

namespace Bn254.G1

theorem toAffine_of_ofCoordinates {x y : Fp} {a : G1} (h : ofCoordinates x y = .ok a) :
    toAffine a = (x.val, y.val) := by
  unfold ofCoordinates at h
  split at h
  · rename_i hzero
    obtain rfl := Except.ok.inj h
    rw [hzero.1, hzero.2]
    rfl
  · simp only at h
    split at h
    · obtain rfl := Except.ok.inj h
      rw [toAffine, Projective.toAffine?_of_z_eq_one rfl]
    · cases h

theorem toAffine_of_ofAffine {x y : ℕ} {a : G1} (h : ofAffine x y = .ok a) : toAffine a = (x, y) := by
  simp only [ofAffine, Except.bind_eq_ok, coordinate_eq_ok] at h
  obtain ⟨x', hx, y', hy, ha⟩ := h
  rw [toAffine_of_ofCoordinates ha, Prod.mk.injEq]
  exact ⟨(Nat.cast_inj.mp hx).symm, (Nat.cast_inj.mp hy).symm⟩

end Bn254.G1

theorem Evaluations.toList_ofList {xs : List ℤ} (hxs : xs.length = 18) : (ofList xs).toList = xs := by
  apply List.ext_getElem
  · rw [length_toList, hxs]
  · intro i hi hi'
    rw [length_toList] at hi
    rw [← List.getD_eq_getElem xs 0 hi']
    interval_cases i <;> rfl

namespace Proof

theorem pointWords_of_pointAt {ws : List ℕ} {i : ℕ} {a : G1} (h : pointAt ws i = .ok a) :
    pointWords a = [(ws.getD i 0 : ℤ), (ws.getD (i + 1) 0 : ℤ)] := by
  rw [pointAt, Except.mapError_eq_ok] at h
  rw [pointWords, G1.toAffine_of_ofAffine h]

theorem flatMap_pointWords_of_mapM {ws ks : List ℕ} {as : List G1}
    (h : ks.mapM (fun k => pointAt ws (2 * k)) = .ok as) :
    as.flatMap pointWords = ks.flatMap fun k => [(ws.getD (2 * k) 0 : ℤ), (ws.getD (2 * k + 1) 0 : ℤ)] := by
  have hrel := Except.forall₂_of_mapM h
  clear h
  induction hrel with
  | nil => rfl
  | cons ha _ ih => rw [List.flatMap_cons, List.flatMap_cons, pointWords_of_pointAt ha, ih]

theorem flatMap_range_pairs {ws : List ℕ} {n : ℕ} (hn : 2 * n ≤ ws.length) :
    (List.range n).flatMap (fun k => [(ws.getD (2 * k) 0 : ℤ), (ws.getD (2 * k + 1) 0 : ℤ)]) =
      (ws.take (2 * n)).map Nat.cast := by
  induction n with
  | zero => rfl
  | succ n ih =>
    rw [List.range_succ, List.flatMap_append, ih (by omega), Nat.mul_succ, List.take_add, List.map_append,
      List.flatMap_singleton, List.getD_eq_getElem _ _ (by omega), List.getD_eq_getElem _ _ (by omega),
      List.drop_eq_getElem_cons (by omega), List.drop_eq_getElem_cons (by omega)]
    rfl

theorem commitments_of_points {q : Proof} {points : List G1} (hlen : points.length = 11)
    (hwires : q.wires = points.take 4) (hcopy : q.copyProduct = points.getD 4 G1.infinity)
    (hs : q.lookupS = points.getD 5 G1.infinity) (hproduct : q.lookupProduct = points.getD 6 G1.infinity)
    (hquotients : q.quotients = points.drop 7) : q.commitments = points := by
  rw [commitments, hwires, hcopy, hs, hproduct, hquotients, List.getD_eq_getElem _ _ (by omega),
    List.getD_eq_getElem _ _ (by omega), List.getD_eq_getElem _ _ (by omega)]
  conv_rhs =>
    rw [← List.take_append_drop 4 points, List.drop_eq_getElem_cons (by omega),
      List.drop_eq_getElem_cons (by omega), List.drop_eq_getElem_cons (by omega)]
  rw [List.append_assoc]
  rfl

theorem toWords_of_ofWords {ws : List ℕ} (hlen : ws.length = 44) {q : Proof} (h : ofWords ws = .ok q) :
    q.toWords = ws.map Nat.cast := by
  simp only [ofWords, Except.bind_eq_ok] at h
  obtain ⟨points, hpoints, _, -, atZ, hatZ, atNext, hatNext, h⟩ := h
  obtain rfl := Except.ok.inj h
  have hcount : points.length = 11 := (Except.forall₂_of_mapM hpoints).length_eq.symm
  have hvalues : (((ws.drop 22).take 18).map Int.ofNat).length = 18 := by
    rw [List.length_map, List.length_take, List.length_drop, hlen]
    rfl
  have hopenings : ws.drop 40 = [ws.getD 40 0, ws.getD 41 0, ws.getD 42 0, ws.getD 43 0] := by
    rw [List.drop_eq_getElem_cons (by omega), List.drop_eq_getElem_cons (by omega),
      List.drop_eq_getElem_cons (by omega), List.drop_eq_getElem_cons (by omega),
      List.drop_eq_nil_of_le (by omega)]
    simp only [List.getD_eq_getElem?_getD, hlen, Nat.reduceLT, getElem?_pos, Option.getD_some]
  rw [toWords, commitments_of_points hcount rfl rfl rfl rfl rfl, flatMap_pointWords_of_mapM hpoints,
    flatMap_range_pairs (by omega), Evaluations.toList_ofList hvalues, pointWords_of_pointAt hatZ,
    pointWords_of_pointAt hatNext, List.append_assoc, List.append_assoc]
  conv_rhs =>
    rw [← List.take_append_drop 22 ws, ← List.take_append_drop 18 (ws.drop 22), List.drop_drop, hopenings,
      List.map_append, List.map_append]
  rfl

theorem toWords_of_ofValues {vs : List Value} {q : Proof} (h : ofValues vs = .ok q) :
    q.toWords.map Value.int = vs := by
  simp only [ofValues, Except.check_eq_ok, Except.bind_eq_ok, readWords_eq_ok, not_not] at h
  obtain ⟨hlen, ws, ⟨rfl, -⟩, h⟩ := h
  rw [List.length_map] at hlen
  rw [toWords_of_ofWords hlen h, List.map_map]
  rfl

theorem ofValues_of_words {ws : List ℕ} (hlen : ws.length = 44) (hlt : ∀ w ∈ ws, w < 256 ^ 32) :
    ofValues (ws.map fun w : ℕ => .int w) = ofWords ws := by
  have hread : readWords 0 (ws.map fun w : ℕ => .int w) = .ok ws := readWords_eq_ok.mpr ⟨rfl, hlt⟩
  have hcount : ¬(ws.map fun w : ℕ => Value.int w).length ≠ wordCount := by
    simp [hlen, wordCount]
  simp only [ofValues, if_neg hcount, hread, bind, Except.bind]

theorem ofBytes_of_words {ws : List ℕ} (hlen : ws.length = 44) (hlt : ∀ w ∈ ws, w < 256 ^ 32) :
    ofBytes (ws.flatMap (Bytes.ofNat 32)) = ofWords ws := by
  have hcount : ¬(ws.flatMap (Bytes.ofNat 32)).length ≠ 32 * wordCount := by
    simp [List.length_flatMap, Bytes.length_ofNat, hlen, wordCount]
  rw [ofBytes, if_neg hcount, Bytes.map_toNat_chunks (by decide) hlt]

theorem ofBytes_of_length_ne {bs : Bytes} (h : bs.length ≠ 32 * wordCount) :
    ofBytes bs = .error (.byteCount bs.length) := by
  rw [ofBytes, if_pos h]
  rfl

/-- Reading is exact: words are a proof just when they spell one, and all else is refused with the code of a
malformed proof. It is canonical: the proof is written in the very words it is read from. Bytes are refused
unless there are 32 for each of 44 words, and then they are read as these words. -/
theorem layout_canonical :
    (∀ vs : List Value,
      ((∃ q, ofValues vs = .ok q) ↔ ∃ ws : List ℕ, vs = ws.map (fun w : ℕ => .int w) ∧ Spelling ws) ∧
      ((¬∃ ws : List ℕ, vs = ws.map (fun w : ℕ => .int w) ∧ Spelling ws) →
        ∃ e, ofValues vs = .error e ∧ (Rejection.malformedProof e).code = "MALFORMED_PROOF")) ∧
    (∀ vs q, ofValues vs = .ok q → q.toWords.map Value.int = vs) ∧
    (∀ vs vs' q q', ofValues vs = .ok q → ofValues vs' = .ok q' → q.toWords = q'.toWords →
      vs = vs' ∧ q = q') ∧
    ∀ bs : Bytes,
      (bs.length ≠ 1408 → ProofInput.parse (.bytes bs) = .error (.byteCount bs.length)) ∧
      (bs.length = 1408 → ∃ ws : List ℕ, ws.length = 44 ∧ (∀ w ∈ ws, w < 2 ^ 256) ∧
        bs = ws.flatMap (Bytes.ofNat 32) ∧
        ProofInput.parse (.bytes bs) = ProofInput.parse (.words (ws.map fun w : ℕ => .int w))) := by
  refine ⟨?_, fun _ _ => toWords_of_ofValues, ?_, ?_⟩
  · intro vs
    refine ⟨ofValues_isOk_iff vs, ?_⟩
    intro h
    obtain ⟨e, he⟩ := Except.error_of_not_ok (mt (ofValues_isOk_iff vs).mp h)
    exact ⟨e, he, rfl⟩
  · intro vs vs' q q' h h' hwords
    have hvs : vs = vs' := by rw [← toWords_of_ofValues h, hwords, toWords_of_ofValues h']
    subst hvs
    exact ⟨rfl, Except.ok.inj (h.symm.trans h')⟩
  · intro bs
    refine ⟨ofBytes_of_length_ne, ?_⟩
    intro hbytes
    obtain ⟨ws, hlen, hlt, rfl⟩ := Bytes.exists_flatMap_ofNat (k := 32) (n := 44) hbytes
    refine ⟨ws, hlen, ?_, rfl, (ofBytes_of_words hlen hlt).trans (ofValues_of_words hlen hlt).symm⟩
    rwa [show 2 ^ 256 = 256 ^ 32 by decide]

open Linearization in
theorem layout_canonical_looseValues :
    (∃ ws : List ℕ, looseValues = ws.map (fun w : ℕ => .int w) ∧ Spelling ws) ∧
    looseProof.toWords.map Value.int = looseValues ∧
    (∃ e, ofValues looseValues.tail = .error e ∧ (Rejection.malformedProof e).code = "MALFORMED_PROOF") ∧
    ProofInput.parse (.bytes []) = .error (.byteCount 0) := by
  obtain ⟨hexact, hcanonical, -, hbytes⟩ := layout_canonical
  obtain ⟨ws, hws, hspelling⟩ := (hexact looseValues).1.mp ⟨looseProof, ofValues_looseValues⟩
  refine ⟨⟨ws, hws, hspelling⟩, hcanonical _ _ ofValues_looseValues, (hexact _).2 ?_, (hbytes []).1 (by decide)⟩
  rintro ⟨ws', hws', hspelling'⟩
  have hlen : looseValues.tail.length = ws'.length := by rw [hws', List.length_map]
  rw [List.length_tail, hws, List.length_map, hspelling.length, hspelling'.length] at hlen
  omega

end Proof

end Settlement
