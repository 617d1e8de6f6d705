import Mathlib
import Settlement.Proofs.Canonical
import Settlement.Proofs.Key.Document
import Settlement.Proofs.Loading
import Settlement.Proofs.Verifier.Linearization

namespace Settlement

open Bn254
open scoped Bn254.Fields

theorem Bn254.coordinate_val (c : Coordinate) (x : Fp) : coordinate c x.val = .ok x :=
  coordinate_eq_ok.mpr rfl

namespace Bn254.G2

theorem toAffine_of_ofCoordinates {x y : Fp2} {a : G2} (h : ofCoordinates x y = .ok a) :
    toAffine a = ((x.re.val, x.im.val), (y.re.val, y.im.val)) := by
  unfold ofCoordinates at h
  split at h
  · rename_i hzero
    obtain rfl := Except.ok.inj h
    rw [hzero.1, hzero.2]
    rfl
  · simp only at h
    split at h
    · cases h
    split at h
    · cases h
    obtain rfl := Except.ok.inj h
    have haffine : Projective.toAffine? (⟨x, y, 1⟩ : G2) = some (x, y) := Projective.toAffine?_of_z_eq_one rfl
    rw [toAffine, haffine]

theorem exists_of_ofAffine {xs ys : List ℤ} {a : G2} (h : ofAffine xs ys = .ok a) :
    ∃ x y, ofCoordinates x y = .ok a := by
  unfold ofAffine at h
  split at h
  · obtain ⟨_, _, h⟩ := Except.bind_eq_ok.mp h
    obtain ⟨_, _, h⟩ := Except.bind_eq_ok.mp h
    obtain ⟨_, _, h⟩ := Except.bind_eq_ok.mp h
    obtain ⟨_, _, h⟩ := Except.bind_eq_ok.mp h
    exact ⟨_, _, h⟩
  · cases h

end Bn254.G2

namespace Key

theorem readWord_hexOfNat {n : ℕ} (hn : n < 256 ^ 32) : readWord (.inr (Word.hexOfNat n)) = .ok n := by
  rw [readWord, Word.read_hexOfNat hn]
  rfl

theorem readWord_val (x : Fp) : readWord (.inr (Word.hexOfNat x.val)) = .ok x.val :=
  readWord_hexOfNat (x.isLt.trans (by decide))

theorem readG1_writeG1 {x y : Fp} {a : G1} (h : G1.ofCoordinates x y = .ok a) : readG1 (writeG1 a) = .ok a := by
  rw [writeG1, G1.toAffine_of_ofCoordinates h]
  simp only [readG1, readWord_val, Except.bind_eq_ok, Except.mapError_eq_ok, G1.ofAffine]
  exact ⟨_, rfl, _, rfl, x, coordinate_val _ x, y, coordinate_val _ y, h⟩

theorem readG2_writeG2 {x y : Fp2} {a : G2} (h : G2.ofCoordinates x y = .ok a) : readG2 (writeG2 a) = .ok a := by
  have hpair (x : Fp2) :
      List.mapM readWord [.inr (Word.hexOfNat x.re), .inr (Word.hexOfNat x.im)] = .ok [x.re.val, x.im.val] := by
    simp only [List.mapM_cons, List.mapM_nil, readWord_val]
    rfl
  rw [writeG2, G2.toAffine_of_ofCoordinates h]
  simp only [readG2, hpair, Except.bind_eq_ok, Except.mapError_eq_ok]
  refine ⟨_, rfl, _, rfl, ?_⟩
  simp only [G2.ofAffine, Except.bind_eq_ok]
  exact ⟨x.re, coordinate_val _ _, x.im, coordinate_val _ _, y.re, coordinate_val _ _, y.im, coordinate_val _ _, h⟩

theorem exists_of_readG1 {pair : List WrittenWord} {a : G1} (h : readG1 pair = .ok a) :
    ∃ x y, G1.ofCoordinates x y = .ok a := by
  unfold readG1 at h
  split at h
  · obtain ⟨_, _, h⟩ := Except.bind_eq_ok.mp h
    obtain ⟨_, _, h⟩ := Except.bind_eq_ok.mp h
    obtain ⟨_, _, h⟩ := Except.bind_eq_ok.mp (Except.mapError_eq_ok.mp h)
    obtain ⟨_, _, h⟩ := Except.bind_eq_ok.mp h
    exact ⟨_, _, h⟩
  · cases h

theorem exists_of_readG2 {pairs : List (List WrittenWord)} {a : G2} (h : readG2 pairs = .ok a) :
    ∃ x y, G2.ofCoordinates x y = .ok a := by
  unfold readG2 at h
  split at h
  · obtain ⟨_, _, h⟩ := Except.bind_eq_ok.mp h
    obtain ⟨_, _, h⟩ := Except.bind_eq_ok.mp h
    exact G2.exists_of_ofAffine (Except.mapError_eq_ok.mp h)
  · cases h

def parts (k : Key) : Parts where
  domainSize := k.domain.size
  numInputs := k.numInputs
  omega := k.domain.omega
  gateSetup := k.gateSetup.toList
  gateSelectors := k.gateSelectors.toList
  permutation := k.permutation.toList
  lookupSelector := k.lookupSelector
  lookupTable := k.lookupTable.toList
  lookupTableType := k.lookupTableType
  nonResidues := k.nonResidues.toList
  g2Elements := k.g2Elements.toList

theorem parts_of_ofParts {p : Parts} {key : Key} (h : ofParts p = .ok key) : key.parts = p := by
  simp only [ofParts, Except.bind_eq_ok, Except.check_eq_ok] at h
  obtain ⟨gateSetup, hgateSetup, gateSelectors, hgateSelectors, permutation, hpermutation, lookupTable,
    hlookupTable, nonResidues, hnonResidues, g2Elements, hg2Elements, domain, hdomain, hinputs, -, -, -, -, h⟩ := h
  obtain ⟨-, hsize, hroot⟩ := Domain.accepted_of_ofRoot (Except.mapError_eq_ok.mp hdomain)
  obtain rfl := Except.ok.inj h
  have hnonneg : 0 ≤ p.numInputs := (not_not.mp hinputs).1
  simp only [parts, toList_of_slot hgateSetup, toList_of_slot hgateSelectors, toList_of_slot hpermutation,
    toList_of_slot hlookupTable, toList_of_slot hnonResidues, toList_of_slot hg2Elements, hsize, hroot,
    Int.toNat_of_nonneg hnonneg]

structure Readable (key : Key) : Prop where
  parts : ofParts key.parts = .ok key
  omega : 0 ≤ key.domain.omega ∧ key.domain.omega < r
  points : ∀ a ∈ key.g1Slots, readG1 (writeG1 a) = .ok a
  nonResidues : ∀ n ∈ key.nonResidues.toList, 0 ≤ n ∧ n < 256 ^ 32
  g2Elements : ∀ a ∈ key.g2Elements.toList, readG2 (writeG2 a) = .ok a

theorem readable_of_ofDocument {doc : KeyDocument} {key : Key} (h : ofDocument doc = .ok key) : key.Readable := by
  have hvalid := valid_of_ofDocument h
  simp only [ofDocument, Except.bind_eq_ok, Except.check_eq_ok] at h
  obtain ⟨omega, -, -, gateSetup, hgateSetup, gateSelectors, hgateSelectors, permutation, hpermutation, lookupSelector,
    hlookupSelector, lookupTable, hlookupTable, lookupTableType, hlookupTableType, nonResidues, -, g2Elements,
    hg2Elements, h⟩ := h
  have hparts := parts_of_ofParts h
  have hone {pair : List WrittenWord} {a : G1} (h : readG1 pair = .ok a) : readG1 (writeG1 a) = .ok a := by
    obtain ⟨x, y, h⟩ := exists_of_readG1 h
    exact readG1_writeG1 h
  have hslot {pairs : List (List WrittenWord)} {as : List G1} (h : pairs.mapM readG1 = .ok as) :
      ∀ a ∈ as, readG1 (writeG1 a) = .ok a :=
    Except.forall_of_mapM (fun _ _ => hone) h
  simp only [Key.parts, Parts.mk.injEq] at hparts
  obtain ⟨-, -, -, hgateSetup', hgateSelectors', hpermutation', hlookupSelector', hlookupTable', hlookupTableType', -,
    hg2Elements'⟩ := hparts
  constructor
  case parts => rwa [parts_of_ofParts h]
  case omega => exact hvalid.omega
  case points =>
    rw [g1Slots, hgateSetup', hgateSelectors', hpermutation', hlookupSelector', hlookupTable', hlookupTableType']
    simp only [List.forall_mem_append, List.forall_mem_singleton]
    exact ⟨⟨⟨⟨⟨hslot hgateSetup, hslot hgateSelectors⟩, hslot hpermutation⟩, hone hlookupSelector⟩, hslot hlookupTable⟩,
      hone hlookupTableType⟩
  case nonResidues =>
    intro n hn
    obtain ⟨hpos, hlt, -⟩ := hvalid.shifts n hn
    exact ⟨hpos.le, hlt.trans (by decide)⟩
  case g2Elements =>
    rw [hg2Elements']
    refine Except.forall_of_mapM (fun _ _ h => ?_) hg2Elements
    obtain ⟨x, y, h⟩ := exists_of_readG2 h
    exact readG2_writeG2 h

theorem ofDocument_toDocument {key : Key} (h : key.Readable) : ofDocument key.toDocument = .ok key := by
  have hpoints := h.points
  simp only [g1Slots, List.forall_mem_append, List.forall_mem_singleton] at hpoints
  obtain ⟨⟨⟨⟨⟨hgateSetup, hgateSelectors⟩, hpermutation⟩, hlookupSelector⟩, hlookupTable⟩, hlookupTableType⟩ := hpoints
  have hword {n : ℤ} (hn : 0 ≤ n ∧ n < 256 ^ 32) : readWord (.inr (Word.hexOfNat n.toNat)) = .ok n := by
    rw [readWord_hexOfNat (by omega), Int.toNat_of_nonneg hn.1]
  have homega := hword ⟨h.omega.1, h.omega.2.trans (by decide)⟩
  have hnonResidues := Except.mapM_map_of_ok fun n hn => hword (h.nonResidues n hn)
  have hcanonical : ¬key.domain.omega ≥ r := not_le.mpr h.omega.2
  simp only [ofDocument, toDocument, homega, bind, Except.bind, hcanonical, ↓reduceIte,
    Except.mapM_map_of_ok hgateSetup, Except.mapM_map_of_ok hgateSelectors, Except.mapM_map_of_ok hpermutation,
    hlookupSelector, Except.mapM_map_of_ok hlookupTable, hlookupTableType, hnonResidues,
    Except.mapM_map_of_ok h.g2Elements]
  exact h.parts

theorem isPrintable_toDocument {key : Key} (h : key.Valid) : key.toDocument.IsPrintable := by
  have hcount {n : ℕ} (hn : n ≤ 2 ^ 28) : Json.digitCount n ≤ Integer.maxDigits := by
    rw [Json.digitCount, Int.natAbs_natCast]
    exact (Nat.toDigits_length 10 n 9 (by decide) (by omega)).trans (by decide)
  have hsize : key.domain.size ≤ 2 ^ 28 := by
    obtain ⟨k, -, hk, hsize⟩ := h.size
    rw [hsize]
    exact Nat.pow_le_pow_right two_pos hk
  have hpoint (a : G1) : ∀ w ∈ writeG1 a, w.IsPrintable := by
    simp [writeG1, Word.isPrintable_hexOfNat]
  have hpoints (as : List G1) : ∀ ws ∈ as.map writeG1, ∀ w ∈ ws, w.IsPrintable :=
    List.forall_mem_map.mpr fun a _ => hpoint a
  constructor
  case domainSize => exact hcount hsize
  case numInputs => exact hcount (h.numInputs.trans hsize)
  case omega => exact Word.isPrintable_hexOfNat _
  case gateSetup => exact hpoints _
  case gateSelectors => exact hpoints _
  case permutation => exact hpoints _
  case lookupSelector => exact hpoint _
  case lookupTable => exact hpoints _
  case lookupTableType => exact hpoint _
  case nonResidues => simp [toDocument, Word.isPrintable_hexOfNat]
  case g2Elements => simp [toDocument, writeG2, Word.isPrintable_hexOfNat]

end Key

structure KeyDocument.SameWords (d d' : KeyDocument) : Prop where
  domainSize : d.domainSize = d'.domainSize
  numInputs : d.numInputs = d'.numInputs
  omega : Word.Same d.omega d'.omega
  gateSetup : List.Forall₂ (List.Forall₂ Word.Same) d.gateSetup d'.gateSetup
  gateSelectors : List.Forall₂ (List.Forall₂ Word.Same) d.gateSelectors d'.gateSelectors
  permutation : List.Forall₂ (List.Forall₂ Word.Same) d.permutation d'.permutation
  lookupSelector : List.Forall₂ Word.Same d.lookupSelector d'.lookupSelector
  lookupTable : List.Forall₂ (List.Forall₂ Word.Same) d.lookupTable d'.lookupTable
  lookupTableType : List.Forall₂ Word.Same d.lookupTableType d'.lookupTableType
  nonResidues : List.Forall₂ Word.Same d.nonResidues d'.nonResidues
  g2Elements : List.Forall₂ (List.Forall₂ (List.Forall₂ Word.Same)) d.g2Elements d'.g2Elements

namespace Key

theorem readWord_congr {w w' : WrittenWord} (h : Word.Same w w') : readWord w = readWord w' := by
  obtain ⟨n, hw, hw'⟩ := h
  rw [readWord, readWord, Word.read_of_spells hw, Word.read_of_spells hw']

theorem mapM_readWord_congr {ws ws' : List WrittenWord} (h : List.Forall₂ Word.Same ws ws') :
    ws.mapM readWord = ws'.mapM readWord :=
  Except.mapM_congr (h.imp fun _ _ => readWord_congr)

theorem readG1_congr {ws ws' : List WrittenWord} (h : List.Forall₂ Word.Same ws ws') : readG1 ws = readG1 ws' := by
  cases h with
  | nil => rfl
  | cons hx h =>
    cases h with
    | nil => rfl
    | cons hy h =>
      cases h with
      | nil => rw [readG1, readG1, readWord_congr hx, readWord_congr hy]
      | cons => rfl

theorem readG2_congr {xs xs' : List (List WrittenWord)} (h : List.Forall₂ (List.Forall₂ Word.Same) xs xs') :
    readG2 xs = readG2 xs' := by
  cases h with
  | nil => rfl
  | cons hx h =>
    cases h with
    | nil => rfl
    | cons hy h =>
      cases h with
      | nil => rw [readG2, readG2, mapM_readWord_congr hx, mapM_readWord_congr hy]
      | cons => rfl

theorem ofDocument_congr {d d' : KeyDocument} (h : d.SameWords d') : ofDocument d = ofDocument d' := by
  have hpoints {xs xs' : List (List WrittenWord)} (h : List.Forall₂ (List.Forall₂ Word.Same) xs xs') :
      xs.mapM readG1 = xs'.mapM readG1 :=
    Except.mapM_congr (h.imp fun _ _ => readG1_congr)
  have hg2 : d.g2Elements.mapM readG2 = d'.g2Elements.mapM readG2 :=
    Except.mapM_congr (h.g2Elements.imp fun _ _ => readG2_congr)
  rw [ofDocument, ofDocument, h.domainSize, h.numInputs, readWord_congr h.omega, hpoints h.gateSetup,
    hpoints h.gateSelectors, hpoints h.permutation, readG1_congr h.lookupSelector, hpoints h.lookupTable,
    readG1_congr h.lookupTableType, mapM_readWord_congr h.nonResidues, hg2]

theorem toAffine_of_flatMap_pointWords {as cs : List G1}
    (h : as.flatMap Proof.pointWords = cs.flatMap Proof.pointWords) :
    as.map G1.toAffine = cs.map G1.toAffine := by
  induction as generalizing cs with
  | nil =>
    cases cs with
    | nil => rfl
    | cons c cs => simp [Proof.pointWords] at h
  | cons a as ih =>
    cases cs with
    | nil => simp [Proof.pointWords] at h
    | cons c cs =>
      simp only [List.flatMap_cons, Proof.pointWords, List.cons_append, List.nil_append, List.cons.injEq,
        Nat.cast_inj] at h
      obtain ⟨hx, hy, h⟩ := h
      rw [List.map_cons, List.map_cons, ih h, Prod.ext hx hy]

theorem toAffine_of_flatMap_g2Words {as cs : List G2} (h : as.flatMap g2Words = cs.flatMap g2Words) :
    as.map G2.toAffine = cs.map G2.toAffine := by
  induction as generalizing cs with
  | nil =>
    cases cs with
    | nil => rfl
    | cons c cs => simp [g2Words] at h
  | cons a as ih =>
    cases cs with
    | nil => simp [g2Words] at h
    | cons c cs =>
      simp only [List.flatMap_cons, g2Words, List.cons_append, List.nil_append, List.cons.injEq, Nat.cast_inj] at h
      obtain ⟨hx0, hx1, hy0, hy1, h⟩ := h
      rw [List.map_cons, List.map_cons, ih h, Prod.ext (Prod.ext hx0 hx1) (Prod.ext hy0 hy1)]

theorem map_writeG1_congr {as cs : List G1} (h : as.map G1.toAffine = cs.map G1.toAffine) :
    as.map writeG1 = cs.map writeG1 := by
  have hcomp : writeG1 = (fun c => [.inr (Word.hexOfNat c.1), .inr (Word.hexOfNat c.2)]) ∘ G1.toAffine := rfl
  rw [hcomp, ← List.map_map, h, List.map_map]

theorem map_writeG2_congr {as cs : List G2} (h : as.map G2.toAffine = cs.map G2.toAffine) :
    as.map writeG2 = cs.map writeG2 := by
  have hcomp : writeG2 = (fun c => [[.inr (Word.hexOfNat c.1.1), .inr (Word.hexOfNat c.1.2)],
    [.inr (Word.hexOfNat c.2.1), .inr (Word.hexOfNat c.2.2)]]) ∘ G2.toAffine := rfl
  rw [hcomp, ← List.map_map, h, List.map_map]

theorem toDocument_eq_of_words {key key' : Key} (h : key.words = key'.words) : key.toDocument = key'.toDocument := by
  have hpoints (k : Key) : (k.g1Slots.flatMap Proof.pointWords).length = 40 := by
    simp [List.length_flatMap, Proof.pointWords, g1Slots]
  have hresidues (k : Key) : k.nonResidues.toList.length = 3 := Vector.length_toList
  simp only [words, List.append_assoc, List.cons_append, List.nil_append, List.cons.injEq, Nat.cast_inj] at h
  obtain ⟨hsize, hinputs, homega, h⟩ := h
  obtain ⟨hg1, h⟩ := List.append_inj h (by rw [hpoints, hpoints])
  obtain ⟨hnonResidues, hg2⟩ := List.append_inj h (by rw [hresidues, hresidues])
  have hslots := toAffine_of_flatMap_pointWords hg1
  -- each slot has a fixed number of points, so the coordinates split at known places
  simp only [g1Slots, List.map_append, List.append_assoc] at hslots
  obtain ⟨hgateSetup, hslots⟩ := List.append_inj hslots (by simp)
  obtain ⟨hgateSelectors, hslots⟩ := List.append_inj hslots (by simp)
  obtain ⟨hpermutation, hslots⟩ := List.append_inj hslots (by simp)
  obtain ⟨hlookupSelector, hslots⟩ := List.append_inj hslots (by simp)
  obtain ⟨hlookupTable, hlookupTableType⟩ := List.append_inj hslots (by simp)
  rw [toDocument, toDocument, hsize, hinputs, homega, hnonResidues, map_writeG1_congr hgateSetup,
    map_writeG1_congr hgateSelectors, map_writeG1_congr hpermutation, map_writeG1_congr hlookupTable,
    map_writeG2_congr (toAffine_of_flatMap_g2Words hg2), (List.cons.inj (map_writeG1_congr hlookupSelector)).1,
    (List.cons.inj (map_writeG1_congr hlookupTableType)).1]

end Key

open Linearization

def respelledDocument : KeyDocument :=
  { twoRowDocument with
    omega := .inr (Word.hexOfNat (r - 1))
    nonResidues := [.inr "003", .inr " 0x5\n", .inr "7 "] }

theorem sameWords_respelledDocument : twoRowDocument.SameWords respelledDocument := by
  have hword (n : ℤ) : Word.Same (.inl n) (.inl n) := ⟨n, .integer n, .integer n⟩
  have hpoint (a : G1) : List.Forall₂ Word.Same (writtenG1 a) (writtenG1 a) :=
    List.forall₂_same.mpr (List.forall_mem_map.mpr fun n _ => hword n)
  have hpoints (as : List G1) : List.Forall₂ (List.Forall₂ Word.Same) (as.map writtenG1) (as.map writtenG1) :=
    List.forall₂_same.mpr (List.forall_mem_map.mpr fun a _ => hpoint a)
  constructor
  case domainSize => rfl
  case numInputs => rfl
  case omega => exact ⟨(r - 1 : ℕ), .integer _, Word.spells_hexOfNat (by decide)⟩
  case gateSetup => exact hpoints _
  case gateSelectors => exact hpoints _
  case permutation => exact hpoints _
  case lookupSelector => exact hpoint twoRowKey.lookupSelector
  case lookupTable => exact hpoints _
  case lookupTableType => exact hpoint twoRowKey.lookupTableType
  case nonResidues =>
    have hthree : Word.Spells (.inr "003") 3 := by
      have hpads : Word.Pads "003" ['0', '0', '3'] := ⟨[], [], rfl, by simp, by simp⟩
      exact .decimal hpads (by simp) (by simp) (by simp [Text.isAsciiDigit])
    have hfive : Word.Spells (.inr " 0x5\n") 5 := by
      have hpads : Word.Pads " 0x5\n" ['0', 'x', '5'] :=
        ⟨[' '], ['\n'], rfl, by simp [Text.isBlank], by simp [Text.isBlank]⟩
      exact .hex hpads (by simp) (by simp) (by simp [Hex.isDigit, Hex.digit?])
    have hseven : Word.Spells (.inr "7 ") 7 := by
      have hpads : Word.Pads "7 " ['7'] := ⟨[], [' '], rfl, by simp, by simp [Text.isBlank]⟩
      exact .decimal hpads (by simp) (by simp) (by simp [Text.isAsciiDigit])
    exact .cons ⟨3, .integer 3, hthree⟩ (.cons ⟨5, .integer 5, hfive⟩ (.cons ⟨7, .integer 7, hseven⟩ .nil))
  case g2Elements =>
    apply List.forall₂_same.mpr
    simp only [twoRowDocument, List.forall_mem_map]
    intro a _
    exact .cons (.cons (hword _) (.cons (hword _) .nil)) (.cons (.cons (hword _) (.cons (hword _) .nil)) .nil)

namespace Key

/-- The line of a key's document gives a key of the same words and digest. Documents give the same result, be it
a key or a refusal, if they spell the same integers. Keys with the same words are one key. -/
theorem documents_determine_keys :
    (∀ (d : KeyDocument) (key : Key), ofDocument d = .ok key →
      ∃ d' key', KeyDocument.decode (Bytes.ofString key.toDocument.encode) = .ok d' ∧
        ofDocument d' = .ok key' ∧ key'.words = key.words ∧ key'.digest = key.digest) ∧
    (∀ d d' : KeyDocument, d.SameWords d' → ofDocument d = ofDocument d') ∧
    ∀ (d d' : KeyDocument) (key key' : Key), ofDocument d = .ok key → ofDocument d' = .ok key' →
      key.words = key'.words → key = key' := by
  refine ⟨?_, fun _ _ => ofDocument_congr, ?_⟩
  · intro d key h
    exact ⟨_, key, KeyDocument.decode_encode (isPrintable_toDocument (valid_of_ofDocument h)),
      ofDocument_toDocument (readable_of_ofDocument h), rfl, rfl⟩
  · intro d d' key key' h h' hwords
    have hkey := ofDocument_toDocument (readable_of_ofDocument h)
    rw [toDocument_eq_of_words hwords, ofDocument_toDocument (readable_of_ofDocument h')] at hkey
    exact (Except.ok.inj hkey).symm

theorem documents_determine_keys_respelled :
    (∃ d' key', KeyDocument.decode (Bytes.ofString twoRowKey.toDocument.encode) = .ok d' ∧
      ofDocument d' = .ok key' ∧ key'.words = twoRowKey.words ∧ key'.digest = twoRowKey.digest) ∧
    ofDocument respelledDocument = .ok twoRowKey ∧
    ∀ key, ofDocument respelledDocument = .ok key → key.words = twoRowKey.words → key = twoRowKey := by
  obtain ⟨hreads, hspelled, hwords⟩ := documents_determine_keys
  have hrespelled : ofDocument respelledDocument = .ok twoRowKey := by
    rw [← hspelled _ _ sameWords_respelledDocument, ofDocument_twoRowDocument]
  exact ⟨hreads _ _ ofDocument_twoRowDocument, hrespelled,
    fun key hkey => hwords _ _ _ _ hkey ofDocument_twoRowDocument⟩

end Key

end Settlement
