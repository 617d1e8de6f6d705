import Mathlib
import Settlement.Proofs.Verifier.Challenges
import Settlement.Proofs.Verifier.Linearization

namespace Settlement

open Bn254

def IsWord (x : ℤ) : Prop := 0 ≤ x ∧ x < 256 ^ 32

instance : DecidablePred IsWord := fun x => inferInstanceAs (Decidable (0 ≤ x ∧ x < 256 ^ 32))

theorem isWord_natCast {n : ℕ} (hn : n < 256 ^ 32) : IsWord n :=
  ⟨Int.natCast_nonneg n, by exact_mod_cast hn⟩

theorem isWord_of_isCanonical {x : ℤ} (hx : Scalar.isCanonical x = true) : IsWord x := by
  obtain ⟨h0, hr⟩ := (Scalar.isCanonical_iff x).mp hx
  exact ⟨h0, hr.trans (by decide)⟩

theorem isWord_val (a : Fp) : IsWord a.val :=
  isWord_natCast (a.isLt.trans (by decide))

theorem isWord_of_mem_pointWords {a : G1} : ∀ w ∈ Proof.pointWords a, IsWord w := by
  unfold Proof.pointWords G1.toAffine
  cases Projective.toAffine? a with
  | none => simp [IsWord]
  | some t => simp [isWord_val]

theorem isWord_of_mem_g2Words {a : G2} : ∀ w ∈ Key.g2Words a, IsWord w := by
  unfold Key.g2Words G2.toAffine
  cases Projective.toAffine? a with
  | none => simp [IsWord]
  | some t => simp [isWord_val]

theorem length_encoded (x : ℤ) : (Transcript.encoded x).length = 32 := by
  rw [Transcript.encoded, Bytes.length_ofNat]

theorem toBytes32_eq_ok {x : ℤ} {b : Bytes} :
    toBytes32 x = .ok b ↔ IsWord x ∧ Transcript.encoded x = b := by
  have hbound : ((Nat.pow 2 256 : ℕ) : ℤ) = 256 ^ 32 := by norm_num
  rw [toBytes32, hbound, IsWord, Transcript.encoded]
  split
  · rename_i hneg
    simp [not_le.mpr hneg]
  · rename_i hpos
    split
    · rename_i hbig
      have hnot : ¬x < 256 ^ 32 := not_lt.mpr hbig
      simp only [reduceCtorEq, hnot, and_false, false_and]
    · rename_i hsmall
      rw [Except.ok.injEq]
      exact ⟨fun h => ⟨⟨not_lt.mp hpos, not_le.mp hsmall⟩, h⟩, fun h => h.2⟩

theorem encoded_inj {x y : ℤ} (hx : IsWord x) (hy : IsWord y)
    (h : Transcript.encoded x = Transcript.encoded y) : x = y := by
  have hxy := Bytes.ofNat_inj ((Int.toNat_lt hx.1).mpr (by exact_mod_cast hx.2))
    ((Int.toNat_lt hy.1).mpr (by exact_mod_cast hy.2)) h
  rw [← Int.toNat_of_nonneg hx.1, hxy, Int.toNat_of_nonneg hy.1]

theorem map_encoded_inj {xs ys : List ℤ} (hxs : ∀ x ∈ xs, IsWord x) (hys : ∀ y ∈ ys, IsWord y)
    (h : xs.map Transcript.encoded = ys.map Transcript.encoded) : xs = ys := by
  induction xs generalizing ys with
  | nil => exact (List.map_eq_nil_iff.mp h.symm).symm
  | cons x xs ih =>
    cases ys with
    | nil => cases h
    | cons y ys =>
      rw [List.forall_mem_cons] at hxs hys
      rw [List.map_cons, List.map_cons, List.cons.injEq] at h
      rw [encoded_inj hxs.1 hys.1 h.1, ih hxs.2 hys.2 h.2]

namespace Key

theorem length_words (key : Key) : key.words.length = 54 := by
  simp [words, g1Slots, List.length_flatMap, Proof.pointWords, g2Words]

theorem WellFormed.isWord {key : Key} (hkey : key.WellFormed) : ∀ w ∈ key.words, IsWord w := by
  have hsize := hkey.domain.size_lt
  have hword : (r : ℕ) < 256 ^ 32 := by decide
  have hinputs := hkey.numInputs_le
  have hshifts := hkey.shifts
  intro w hw
  simp only [words, List.mem_append, List.mem_cons, List.not_mem_nil, or_false, List.mem_flatMap] at hw
  obtain (((rfl | rfl | rfl) | ⟨a, -, hw⟩) | hw) | ⟨a, -, hw⟩ := hw
  · exact isWord_natCast (hsize.trans hword)
  · exact isWord_natCast ((hinputs.trans_lt hsize).trans hword)
  · exact isWord_of_isCanonical hkey.omega
  · exact isWord_of_mem_pointWords w hw
  · simp only [validShifts, Bool.and_eq_true, List.all_eq_true] at hshifts
    exact isWord_of_isCanonical (hshifts.1 w (List.mem_cons_of_mem _ hw)).1
  · exact isWord_of_mem_g2Words w hw

theorem map_length_encoded (ws : List ℤ) :
    (ws.map Transcript.encoded).map List.length = List.replicate ws.length 32 := by
  rw [List.map_map, List.map_eq_replicate_iff]
  intro w _
  rw [Function.comp_apply, length_encoded]

theorem wordBytes_eq (key : Key) : key.wordBytes = (key.words.map Transcript.encoded).flatten :=
  List.flatMap_def

theorem words_eq_of_wordBytes {key key' : Key} (hkey : key.WellFormed) (hkey' : key'.WellFormed)
    (h : key.wordBytes = key'.wordBytes) : key.words = key'.words := by
  apply map_encoded_inj hkey.isWord hkey'.isWord
  apply List.eq_iff_flatten_eq.mpr
  constructor
  · rw [← wordBytes_eq, h, wordBytes_eq]
  · rw [map_length_encoded, map_length_encoded, length_words, length_words]

end Key

namespace Proof

theorem WellFormed.length_toWords {p : Proof} (hp : p.WellFormed) : p.toWords.length = 44 := by
  simp [toWords, commitments, pointWords, List.length_flatMap, hp.wires, hp.quotients,
    Evaluations.length_toList]

theorem isWord_of_mem_toWords {p : Proof} (hp : ∀ x ∈ p.evaluations.toList, Scalar.isCanonical x = true) :
    ∀ w ∈ p.toWords, IsWord w := by
  intro w hw
  simp only [toWords, List.mem_append, List.mem_flatMap] at hw
  obtain ((⟨a, -, hw⟩ | hw) | hw) | hw := hw
  · exact isWord_of_mem_pointWords w hw
  · exact isWord_of_isCanonical (hp w hw)
  · exact isWord_of_mem_pointWords w hw
  · exact isWord_of_mem_pointWords w hw

end Proof

namespace Challenges

open Transcript

def hashed (key : Key) (inputs : List ℤ) (proof : Proof) : List Bytes :=
  key.wordBytes :: start.preimages (absorbed key inputs proof)

theorem absorbed_or_collision {key key' : Key} (hkey : key.WellFormed) (hkey' : key'.WellFormed)
    {inputs inputs' : List ℤ} (hinputs : ∀ x ∈ inputs, Scalar.isCanonical x = true)
    (hinputs' : ∀ x ∈ inputs', Scalar.isCanonical x = true) {proof proof' : Proof}
    (hproof : proof.WellFormed) (hproof' : proof'.WellFormed)
    (hvalues : ∀ x ∈ proof.evaluations.toList, Scalar.isCanonical x = true)
    (hvalues' : ∀ x ∈ proof'.evaluations.toList, Scalar.isCanonical x = true)
    (h : absorbed key inputs proof = absorbed key' inputs' proof') :
    key.words = key'.words ∧ inputs = inputs' ∧ proof.toWords = proof'.toWords ∨
      Collision (hashed key inputs proof ++ hashed key' inputs' proof') := by
  obtain ⟨hdigest, hmap⟩ := List.cons.inj h
  have hwords : ∀ x ∈ inputs ++ proof.toWords, IsWord x := by
    intro x hx
    obtain hx | hx := List.mem_append.mp hx
    · exact isWord_of_isCanonical (hinputs x hx)
    · exact Proof.isWord_of_mem_toWords hvalues x hx
  have hwords' : ∀ x ∈ inputs' ++ proof'.toWords, IsWord x := by
    intro x hx
    obtain hx | hx := List.mem_append.mp hx
    · exact isWord_of_isCanonical (hinputs' x hx)
    · exact Proof.isWord_of_mem_toWords hvalues' x hx
  -- the proofs have one length, so the inputs end at one place
  have hsplit := List.append_inj' (map_encoded_inj hwords hwords' hmap)
    (hproof.length_toWords.trans hproof'.length_toWords.symm)
  have hmem : key.wordBytes ∈ hashed key inputs proof ++ hashed key' inputs' proof' :=
    List.mem_append_left _ (List.mem_cons_self ..)
  have hmem' : key'.wordBytes ∈ hashed key inputs proof ++ hashed key' inputs' proof' :=
    List.mem_append_right _ (List.mem_cons_self ..)
  obtain hbytes | hcollision := eq_or_collision hmem hmem' hdigest
  · exact .inl ⟨Key.words_eq_of_wordBytes hkey hkey' hbytes, hsplit⟩
  · exact .inr hcollision

/-- Two runs whose transcripts are in one state before the last challenge have one key, one list of public
inputs and one proof, or two different strings hashed in them have one hash. -/
theorem trace_binds {doc doc' : KeyDocument} {key key' : Key} (hkey : Key.ofDocument doc = .ok key)
    (hkey' : Key.ofDocument doc' = .ok key') {inputs inputs' : List ℤ}
    (hinputs : ∀ x ∈ inputs, Scalar.isCanonical x = true)
    (hinputs' : ∀ x ∈ inputs', Scalar.isCanonical x = true) {values values' : List Value}
    {proof proof' : Proof} (hproof : Proof.ofValues values = .ok proof)
    (hproof' : Proof.ofValues values' = .ok proof') :
    ∃ ch t ch' t', trace key inputs proof = .ok (ch, t) ∧ trace key' inputs' proof' = .ok (ch', t') ∧
      (t.state0 = t'.state0 → t.state1 = t'.state1 →
        key.words = key'.words ∧ inputs = inputs' ∧ proof.toWords = proof'.toWords ∨
          Collision (hashed key inputs proof ++ hashed key' inputs' proof')) := by
  have hvalues := Proof.isCanonical_of_ofValues hproof
  have hvalues' := Proof.isCanonical_of_ofValues hproof'
  obtain ⟨ch, t, htrace, hstate⟩ := trace_ok hinputs hvalues key
  obtain ⟨ch', t', htrace', hstate'⟩ := trace_ok hinputs' hvalues' key'
  refine ⟨ch, t, ch', t', htrace, htrace', ?_⟩
  intro h0 h1
  have hsame : SameState (start.absorbAll (absorbed key inputs proof))
      (start.absorbAll (absorbed key' inputs' proof')) :=
    ⟨hstate.1.symm.trans (h0.trans hstate'.1), hstate.2.symm.trans (h1.trans hstate'.2)⟩
  have hsub : start.preimages (absorbed key inputs proof) ⊆
      hashed key inputs proof ++ hashed key' inputs' proof' :=
    List.subset_append_of_subset_left _ (List.subset_cons_self ..)
  have hsub' : start.preimages (absorbed key' inputs' proof') ⊆
      hashed key inputs proof ++ hashed key' inputs' proof' :=
    List.subset_append_of_subset_right _ (List.subset_cons_self ..)
  obtain heq | hcollision := absorbAll_or_collision hsub hsub' hsame
  · exact absorbed_or_collision (Key.wellFormed_of_ofDocument hkey) (Key.wellFormed_of_ofDocument hkey')
      hinputs hinputs' (Proof.wellFormed_of_ofValues hproof) (Proof.wellFormed_of_ofValues hproof')
      hvalues hvalues' heq
  · exact .inr hcollision

open Linearization in
theorem trace_binds_looseProof :
    ∃ ch t ch' t', trace twoRowKey [96] looseProof = .ok (ch, t) ∧
      trace twoRowKey [97] looseProof = .ok (ch', t') ∧
      (t.state0 = t'.state0 → t.state1 = t'.state1 →
        Collision (hashed twoRowKey [96] looseProof ++ hashed twoRowKey [97] looseProof)) := by
  obtain ⟨ch, t, ch', t', h, h', hbinds⟩ := trace_binds ofDocument_twoRowDocument ofDocument_twoRowDocument
    (by decide : ∀ x ∈ [(96 : ℤ)], Scalar.isCanonical x = true)
    (by decide : ∀ x ∈ [(97 : ℤ)], Scalar.isCanonical x = true) ofValues_looseValues ofValues_looseValues
  refine ⟨ch, t, ch', t', h, h', ?_⟩
  intro h0 h1
  exact (hbinds h0 h1).resolve_left fun heq => absurd heq.2.1 (by decide)

end Challenges

end Settlement
