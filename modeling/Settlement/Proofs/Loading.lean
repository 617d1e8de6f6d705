import Mathlib
import Settlement.Key.Store
import Settlement.Proofs.Cosets
import Settlement.Proofs.Json.Encoding
import Settlement.Proofs.Layout
import Settlement.Proofs.Verifier.Binding

namespace Settlement

open Bn254
open scoped Bn254.Fields

namespace Bn254

namespace G2

theorem order_of_inSubgroup {a : G2} (hcurve : onCurve a = true) (h : inSubgroup a = true) :
    r • Projective.toPoint b a = 0 := by
  rw [inSubgroup, isInfinity, Projective.isInfinity_iff] at h
  rw [← (Projective.toPoint_scale r hcurve).2, Projective.toPoint_of_z_eq_zero h]

theorem order_of_ofCoordinates {x y : Fp2} {a : G2} (h : ofCoordinates x y = .ok a) :
    r • Projective.toPoint b a = 0 := by
  unfold ofCoordinates at h
  split at h
  · obtain rfl := Except.ok.inj h
    rw [Projective.toPoint_of_z_eq_zero rfl, smul_zero]
  · simp only at h
    split at h
    · cases h
    rename_i hcurve
    split at h
    · cases h
    rename_i hsubgroup
    obtain rfl := Except.ok.inj h
    exact order_of_inSubgroup (not_not.mp hcurve) (not_not.mp hsubgroup)

theorem order_of_ofAffine {xs ys : List ℤ} {a : G2} (h : ofAffine xs ys = .ok a) :
    r • Projective.toPoint b a = 0 := by
  unfold ofAffine at h
  split at h
  · obtain ⟨_, _, h⟩ := Except.bind_eq_ok.mp h
    obtain ⟨_, _, h⟩ := Except.bind_eq_ok.mp h
    obtain ⟨_, _, h⟩ := Except.bind_eq_ok.mp h
    obtain ⟨_, _, h⟩ := Except.bind_eq_ok.mp h
    exact order_of_ofCoordinates h
  · cases h

theorem addOrderOf_eq {a : G2} (hcurve : onCurve a = true) (horder : r • Projective.toPoint b a = 0)
    (hinfinity : isInfinity a = false) : addOrderOf (Projective.toPoint b a) = r := by
  apply addOrderOf_eq_prime horder
  rw [Ne, Projective.toPoint_eq_zero_iff hcurve, ← Projective.isInfinity_iff]
  simpa [isInfinity] using hinfinity

end G2

theorem mapM_toBytes32 {ws : List ℤ} (h : ∀ w ∈ ws, IsWord w) :
    ws.mapM toBytes32 = .ok (ws.map Transcript.encoded) := by
  induction ws with
  | nil => rfl
  | cons w ws ih =>
    rw [List.forall_mem_cons] at h
    rw [List.mapM_cons, toBytes32_eq_ok.mpr ⟨h.1, rfl⟩, ih h.2]
    rfl

end Bn254

namespace KeyDocument

open Json

theorem readsText_point : ReadsText point := readsText_array readsText_integerOrText

theorem readsText_fields : ∀ f ∈ fields, ∀ d, ReadsText (f.2 d) := by
  simp only [fields, List.forall_mem_cons, List.not_mem_nil, false_imp_iff, implies_true, and_true]
  refine ⟨?_, ?_, ?_, ?_, ?_, ?_, ?_, ?_, ?_, ?_, ?_⟩
  all_goals apply readsText_field
  · exact readsText_integer
  · exact readsText_integer
  · exact readsText_integerOrText
  · exact readsText_array readsText_point
  · exact readsText_array readsText_point
  · exact readsText_array readsText_point
  · exact readsText_point
  · exact readsText_array readsText_point
  · exact readsText_point
  · exact readsText_array readsText_integerOrText
  · exact readsText_array (readsText_array readsText_point)

theorem readsText_reader : ReadsText reader := by
  intro bs h
  apply (readsText_object .refused readsText_fields {} bs h).bind
  rintro ⟨d, rest⟩ hrest
  simp only
  split
  · exact hrest
  · exact nofun

end KeyDocument

namespace Key

/-- A domain of at most `2 ^ 28` rows with a root of that very order, points of the first group in canonical
coordinates, shifts that differ, the generator of the second group and another point of its order, and
words that can all be hashed. -/
structure Valid (key : Key) : Prop where
  size : ∃ k, 1 ≤ k ∧ k ≤ 28 ∧ key.domain.size = 2 ^ k
  numInputs : key.numInputs ≤ key.domain.size
  omega : 0 ≤ key.domain.omega ∧ key.domain.omega < r
  order : orderOf (key.domain.omega : Fr) = key.domain.size
  slots : [key.gateSetup.toList.length, key.gateSelectors.toList.length, key.permutation.toList.length,
    key.lookupTable.toList.length, key.nonResidues.toList.length, key.g2Elements.toList.length] = [8, 2, 4, 4, 3, 2]
  points : key.g1Slots.length = 20 ∧
    ∀ a ∈ key.g1Slots, G1.onCurve a = true ∧ Coordinates (G1.toAffine a).1 (G1.toAffine a).2
  shifts : ∀ k ∈ key.nonResidues.toList, 0 < k ∧ k < r ∧ k ≠ 1
  shiftsNodup : key.nonResidues.toList.Nodup
  g2First : G2.toAffine key.g2Elements[0] = G2.toAffine G2.generator
  g2Second : G2.onCurve key.g2Elements[1] = true ∧ G2.isInfinity key.g2Elements[1] = false ∧
    addOrderOf (Projective.toPoint G2.b key.g2Elements[1]) = r
  g2Differ : G2.toAffine key.g2Elements[1] ≠ G2.toAffine G2.generator
  words : key.words.length = 54 ∧ ∀ w ∈ key.words, 0 ≤ w ∧ w < 2 ^ 256
  digest : ∃ bs, key.words.mapM toBytes32 = .ok bs ∧ key.digest = keccak256 bs.flatten

theorem order_of_readG2 {pairs : List (List WrittenWord)} {a : G2} (h : readG2 pairs = .ok a) :
    r • Projective.toPoint G2.b a = 0 := by
  unfold readG2 at h
  split at h
  · obtain ⟨xs, _, h⟩ := Except.bind_eq_ok.mp h
    obtain ⟨ys, _, h⟩ := Except.bind_eq_ok.mp h
    exact G2.order_of_ofAffine (Except.mapError_eq_ok.mp h)
  · cases h

theorem g2_of_ofDocument {doc : KeyDocument} {key : Key} (h : ofDocument doc = .ok key) :
    (∀ a ∈ key.g2Elements.toList, r • Projective.toPoint G2.b a = 0) ∧
      G2.isInfinity key.openingKey.xG2 = false ∧ G2.toAffine key.openingKey.g2 = G2.toAffine G2.generator ∧
      G2.toAffine key.openingKey.xG2 ≠ G2.toAffine key.openingKey.g2 := by
  simp only [ofDocument, ofParts, Except.bind_eq_ok, Except.check_eq_ok] at h
  obtain ⟨_, -, -, _, -, _, -, _, -, _, -, _, -, _, -, _, -, g2s, hg2s, _, -, _, -, _, -, _, -, _, -,
    g2Elements, hslot, _, -, -, -, hinfinity, hfirst, hsecond, h⟩ := h
  obtain rfl := Except.ok.inj h
  simp only [toList_of_slot hslot, Bool.or_eq_true, not_or, Bool.not_eq_true] at hinfinity ⊢
  exact ⟨Except.forall_of_mapM (fun _ _ => order_of_readG2) hg2s, hinfinity.2, not_not.mp hfirst, hsecond⟩

theorem valid_of_ofDocument {doc : KeyDocument} {key : Key} (h : ofDocument doc = .ok key) : key.Valid := by
  have hkey := wellFormed_of_ofDocument h
  obtain ⟨horder, hinfinity, hfirst, hsecond⟩ := g2_of_ofDocument h
  have hmem : key.g2Elements[1] ∈ key.g2Elements.toList := Vector.mem_toList_iff.mpr (Vector.getElem_mem _)
  have hcurve := hkey.g2OnCurve _ hmem
  have hshifts := hkey.shifts
  simp only [validShifts, Bool.and_eq_true, List.all_eq_true, bne_iff_ne, decide_eq_true_eq] at hshifts
  constructor
  case size =>
    obtain ⟨k, hk⟩ := hkey.domain.exists_log
    have htwo := hkey.domain.two_le
    have hdvd := hkey.domain.size_dvd
    rw [hk] at htwo hdvd
    refine ⟨k, Nat.pos_of_ne_zero ?_, (Nat.pow_dvd_pow_iff_le_right (by decide)).mp hdvd, hk⟩
    rintro rfl
    omega
  case numInputs => exact hkey.numInputs_le
  case omega => exact (Scalar.isCanonical_iff _).mp hkey.omega
  case order => exact hkey.domain.primitive.eq_orderOf.symm
  case slots => simp only [Vector.length_toList]
  case points =>
    refine ⟨by simp [g1Slots], ?_⟩
    exact fun a ha => ⟨hkey.onCurve a ha, G1.coordinates_toAffine (hkey.onCurve a ha)⟩
  case shifts =>
    intro k hk
    obtain ⟨hcanonical, hne⟩ := hshifts.1 k (List.mem_cons_of_mem _ hk)
    obtain ⟨hnonneg, hlt⟩ := (Scalar.isCanonical_iff k).mp hcanonical
    refine ⟨lt_of_le_of_ne hnonneg hne.symm, hlt, ?_⟩
    rintro rfl
    exact (List.nodup_cons.mp hshifts.2).1 hk
  case shiftsNodup => exact (List.nodup_cons.mp hshifts.2).2
  case g2First => exact hfirst
  case g2Second => exact ⟨hcurve, hinfinity, G2.addOrderOf_eq hcurve (horder _ hmem) hinfinity⟩
  case g2Differ => exact hfirst ▸ hsecond
  case words =>
    refine ⟨key.length_words, ?_⟩
    rw [show (2 : ℤ) ^ 256 = 256 ^ 32 by norm_num]
    exact hkey.isWord
  case digest =>
    refine ⟨_, mapM_toBytes32 hkey.isWord, ?_⟩
    rw [digest, wordBytes_eq]

theorem exists_document_of_load {path : String} {content : Option Bytes} {key : Key}
    (h : load path content = .ok key) : ∃ doc, ofDocument doc = .ok key := by
  unfold load at h
  split at h
  · cases h
  · split at h
    · cases h
    · cases h
    · exact ⟨_, Except.mapError_eq_ok.mp h⟩

theorem install_of_ok (store : KeyStore) (key : Key) (replace : Bool) :
    store.install (.ok key) replace = .ok (key, ⟨some key⟩) ∨
      store.install (.ok key) replace = .error .alreadyInstalled ∧ store.isInitialized = true ∧ replace = false := by
  rw [KeyStore.install]
  split
  · rename_i h
    simp only [Bool.and_eq_true, Bool.not_eq_true'] at h
    exact .inr ⟨rfl, h⟩
  · exact .inl rfl

/-- Without a file, and from every text, loading ends in one of the documented errors or in a valid key, which
can be installed unless another is in the way. Only a file that is not text can break it off. -/
theorem load_yields (path : String) (content : Option Bytes) :
    (∃ e, load path content = .error (.load e)) ∨
    (∃ key, load path content = .ok key ∧ key.Valid ∧ ∀ (store : KeyStore) (replace : Bool),
      store.install (load path content) replace = .ok (key, ⟨some key⟩) ∨
      store.install (load path content) replace = .error .alreadyInstalled ∧
        store.isInitialized = true ∧ replace = false) ∨
    load path content = .error .encoding ∧ ∃ bs, content = some bs ∧ ¬∃ s, bs = Bytes.ofString s := by
  cases content with
  | none => exact .inl ⟨_, rfl⟩
  | some bs =>
    rw [load]
    split
    · rename_i hdecode
      refine .inr (.inr ⟨rfl, bs, rfl, ?_⟩)
      intro htext
      exact Json.decode_ne_encoding KeyDocument.readsText_reader ((Bytes.isUtf8_iff bs).mpr htext) hdecode
    · exact .inl ⟨_, rfl⟩
    · rename_i doc hdecode
      cases hkey : ofDocument doc with
      | error e => exact .inl ⟨_, rfl⟩
      | ok key => exact .inr (.inl ⟨key, rfl, valid_of_ofDocument hkey, fun store => install_of_ok store key⟩)

theorem not_load_yields_invalidByte :
    ¬∀ content, (∃ e, load "vk.json" content = .error (.load e)) ∨
      ∃ key, load "vk.json" content = .ok key ∧ key.Valid := by
  intro h
  have hload : load "vk.json"
      (some [0x7b, 0x22, 0x6f, 0x6d, 0x65, 0x67, 0x61, 0x22, 0x3a, 0x22, 0xff, 0x22, 0x7d]) = .error .encoding := by
    decide +kernel
  obtain ⟨e, he⟩ | ⟨key, hkey, -⟩ :=
    h (some [0x7b, 0x22, 0x6f, 0x6d, 0x65, 0x67, 0x61, 0x22, 0x3a, 0x22, 0xff, 0x22, 0x7d])
  · cases hload.symm.trans he
  · cases hload.symm.trans hkey

end Key

end Settlement
