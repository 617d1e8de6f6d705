import Mathlib
import Settlement.Proofs.Verifier.Binding

namespace Settlement

open Bn254

namespace Transcript

theorem absorbScalar_eq_ok {t t' : Transcript} {x : ℤ} :
    t.absorbScalar x = .ok t' ↔ IsWord x ∧ t.absorb (encoded x) = t' := by
  rw [absorbScalar, Except.bind_eq_ok]
  constructor
  · rintro ⟨b, hb, h⟩
    obtain ⟨hx, rfl⟩ := toBytes32_eq_ok.mp hb
    exact ⟨hx, Except.ok.inj h⟩
  · rintro ⟨hx, rfl⟩
    exact ⟨_, toBytes32_eq_ok.mpr ⟨hx, rfl⟩, rfl⟩

theorem absorbScalars_eq_ok {t t' : Transcript} {xs : List ℤ} :
    t.absorbScalars xs = .ok t' ↔ (∀ x ∈ xs, IsWord x) ∧ t.absorbAll (xs.map encoded) = t' := by
  induction xs generalizing t with
  | nil =>
    constructor
    · intro h
      exact ⟨by simp, Except.ok.inj h⟩
    · rintro ⟨-, rfl⟩
      rfl
  | cons x xs ih =>
    rw [absorbScalars, List.foldlM_cons, Except.bind_eq_ok, List.forall_mem_cons]
    constructor
    · rintro ⟨s, hs, h⟩
      obtain ⟨hx, rfl⟩ := absorbScalar_eq_ok.mp hs
      obtain ⟨hxs, rfl⟩ := ih.mp h
      exact ⟨⟨hx, hxs⟩, rfl⟩
    · rintro ⟨⟨hx, hxs⟩, rfl⟩
      exact ⟨_, absorbScalar_eq_ok.mpr ⟨hx, rfl⟩, ih.mpr ⟨hxs, rfl⟩⟩

def after (ws : List Bytes) (n : ℕ) : Transcript :=
  { start.absorbAll ws with counter := n }

def drawn (ws : List Bytes) (n : ℕ) : ℤ :=
  (keccak256 ((start.absorbAll ws).preimage 2 (Bytes.ofNat 4 n))).toNat % r

theorem absorb_start (w : Bytes) : start.absorb w = after [w] 0 := rfl

theorem absorbAll_after (ws ws' : List Bytes) (n : ℕ) : (after ws n).absorbAll ws' = after (ws ++ ws') n := by
  rw [after, absorbAll_counter, ← absorbAll_append, after]

theorem absorbPoint_after (ws : List Bytes) (n : ℕ) (a : G1) :
    (after ws n).absorbPoint a = after (ws ++ (Proof.pointWords a).map encoded) n := by
  rw [absorbPoint_eq, absorbAll_after]

theorem absorbPoints_after (ws : List Bytes) (n : ℕ) (as : List G1) :
    (after ws n).absorbPoints as = after (ws ++ (as.flatMap Proof.pointWords).map encoded) n := by
  rw [absorbPoints_eq, absorbAll_after]

theorem absorbScalars_after {xs : List ℤ} (hxs : ∀ x ∈ xs, IsWord x) (ws : List Bytes) (n : ℕ) :
    (after ws n).absorbScalars xs = .ok (after (ws ++ xs.map encoded) n) :=
  absorbScalars_eq_ok.mpr ⟨hxs, absorbAll_after ..⟩

theorem challenge_after (ws : List Bytes) (n : ℕ) : (after ws n).challenge = (drawn ws n, after ws (n + 1)) := rfl

end Transcript

namespace Proof

def rounds (p : Proof) : List (List ℤ) :=
  [p.wires.flatMap pointWords, pointWords p.copyProduct ++ pointWords p.lookupS, pointWords p.lookupProduct,
    p.quotients.flatMap pointWords, p.evaluations.toList, pointWords p.openingAtZ ++ pointWords p.openingAtNext]

def known (p : Proof) (n : ℕ) : Proof where
  wires := if 1 ≤ n then p.wires else List.replicate 4 G1.infinity
  copyProduct := if 2 ≤ n then p.copyProduct else G1.infinity
  lookupS := if 2 ≤ n then p.lookupS else G1.infinity
  lookupProduct := if 3 ≤ n then p.lookupProduct else G1.infinity
  quotients := if 4 ≤ n then p.quotients else List.replicate 4 G1.infinity
  evaluations := if 5 ≤ n then p.evaluations else .ofList []
  openingAtZ := if 6 ≤ n then p.openingAtZ else G1.infinity
  openingAtNext := if 6 ≤ n then p.openingAtNext else G1.infinity

theorem pointWords_eq_of_toAffine {a c : G1} (h : G1.toAffine a = G1.toAffine c) :
    pointWords a = pointWords c := by
  rw [pointWords, pointWords, h]

theorem flatMap_pointWords_eq {as cs : List G1} (h : as.map G1.toAffine = cs.map G1.toAffine) :
    as.flatMap pointWords = cs.flatMap pointWords := by
  have hwords (l : List G1) :
      l.flatMap pointWords = (l.map G1.toAffine).flatMap fun t => [(t.1 : ℤ), (t.2 : ℤ)] := by
    rw [List.flatMap_map]
    rfl
  rw [hwords, hwords, h]

theorem take_rounds_known (p : Proof) (n : ℕ) : (p.known n).rounds.take n = p.rounds.take n := by
  by_cases hn : n < 6
  · interval_cases n <;> rfl
  · have h : p.known n = p := by
      obtain ⟨_, _, _, _, _, _, _, _⟩ := p
      simp only [known, Proof.mk.injEq]
      refine ⟨if_pos ?_, if_pos ?_, if_pos ?_, if_pos ?_, if_pos ?_, if_pos ?_, if_pos ?_, if_pos ?_⟩ <;> omega
    rw [h]

end Proof

namespace Challenges

open Transcript

inductive Label where
  | eta
  | beta
  | gamma
  | betaLookup
  | gammaLookup
  | alpha
  | z
  | v
  | u

namespace Label

def value (ch : Challenges) : Label → ℤ
  | eta => ch.eta
  | beta => ch.beta
  | gamma => ch.gamma
  | betaLookup => ch.betaLookup
  | gammaLookup => ch.gammaLookup
  | alpha => ch.alpha
  | z => ch.z
  | v => ch.v
  | u => ch.u

def number : Label → ℕ
  | eta => 0
  | beta => 1
  | gamma => 2
  | betaLookup => 3
  | gammaLookup => 4
  | alpha => 5
  | z => 6
  | v => 7
  | u => 8

def round : Label → ℕ
  | eta | beta | gamma => 1
  | betaLookup | gammaLookup => 2
  | alpha => 3
  | z => 4
  | v => 5
  | u => 6

end Label

def absorbedBefore (key : Key) (inputs : List ℤ) (proof : Proof) (c : Label) : List Bytes :=
  key.digest :: (inputs ++ (proof.rounds.take c.round).flatten).map encoded

theorem isWord_of_derive {key : Key} {inputs : List ℤ} {proof : Proof} {ch : Challenges}
    (h : derive key inputs proof = .ok ch) : ∀ x ∈ inputs ++ proof.evaluations.toList, IsWord x := by
  simp only [derive, trace, Except.bind_eq_ok, absorbScalars_eq_ok] at h
  obtain ⟨_, ⟨_, ⟨hinputs, -⟩, _, ⟨hvalues, -⟩, -⟩, -⟩ := h
  exact List.forall_mem_append.mpr ⟨hinputs, hvalues⟩

theorem exists_derive_value {inputs : List ℤ} {proof : Proof}
    (h : ∀ x ∈ inputs ++ proof.evaluations.toList, IsWord x) (key : Key) :
    ∃ ch, derive key inputs proof = .ok ch ∧
      ∀ c : Label, c.value ch = drawn (absorbedBefore key inputs proof c) c.number := by
  obtain ⟨hinputs, hvalues⟩ := List.forall_mem_append.mp h
  simp only [derive, trace, absorb_start, absorbScalars_after hinputs, absorbScalars_after hvalues,
    absorbPoints_after, absorbPoint_after, challenge_after, bind, Except.bind]
  refine ⟨_, rfl, ?_⟩
  intro c
  cases c <;> simp [Label.value, Label.number, Label.round, absorbedBefore, Proof.rounds]

theorem derive_isOk_iff (key : Key) (inputs : List ℤ) (proof : Proof) :
    (∃ ch, derive key inputs proof = .ok ch) ↔ ∀ x ∈ inputs ++ proof.evaluations.toList, IsWord x := by
  constructor
  · rintro ⟨ch, h⟩
    exact isWord_of_derive h
  · intro h
    obtain ⟨ch, hch, -⟩ := exists_derive_value h key
    exact ⟨ch, hch⟩

theorem derive_value {key : Key} {inputs : List ℤ} {proof : Proof} {ch : Challenges}
    (h : derive key inputs proof = .ok ch) (c : Label) :
    c.value ch = drawn (absorbedBefore key inputs proof c) c.number := by
  obtain ⟨ch', hch', hvalue⟩ := exists_derive_value (isWord_of_derive h) key
  obtain rfl := Except.ok.inj (h.symm.trans hch')
  exact hvalue c

section Agreement

variable {key key' : Key} {inputs : List ℤ} {proof proof' : Proof} {ch ch' : Challenges}

theorem value_eq_of_rounds (hdigest : key.digest = key'.digest) (h : derive key inputs proof = .ok ch)
    (h' : derive key' inputs proof' = .ok ch') {c : Label}
    (hrounds : proof.rounds.take c.round = proof'.rounds.take c.round) : c.value ch = c.value ch' := by
  rw [derive_value h, derive_value h', absorbedBefore, absorbedBefore, hdigest, hrounds]

theorem derive_known (h : derive key inputs proof = .ok ch) (n : ℕ) :
    ∃ ch', derive key inputs (proof.known n) = .ok ch' ∧ ∀ c : Label, c.round ≤ n → c.value ch' = c.value ch := by
  have hwords : ∀ x ∈ inputs ++ (proof.known n).evaluations.toList, IsWord x := by
    obtain ⟨hinputs, hvalues⟩ := List.forall_mem_append.mp (isWord_of_derive h)
    refine List.forall_mem_append.mpr ⟨hinputs, ?_⟩
    change ∀ x ∈ (if 5 ≤ n then proof.evaluations else .ofList []).toList, IsWord x
    split
    · exact hvalues
    · decide
  obtain ⟨ch', h', -⟩ := exists_derive_value hwords key
  refine ⟨ch', h', ?_⟩
  intro c hc
  apply value_eq_of_rounds rfl h' h
  rw [← min_eq_left hc, ← List.take_take, Proof.take_rounds_known, List.take_take]

end Agreement

/-- Every challenge is the hash of the words before it and of its own number. In two runs with one key
digest and one list of public inputs it is the same as soon as the proofs agree in the rounds before it;
so it can be drawn while the fields of later rounds are still zero. -/
theorem derive_causal {key key' : Key} (hdigest : key.digest = key'.digest) (inputs : List ℤ)
    (proof proof' : Proof) :
    ((∃ ch, derive key inputs proof = .ok ch) ↔ ∀ x ∈ inputs ++ proof.evaluations.toList, IsWord x) ∧
    ∀ ch, derive key inputs proof = .ok ch →
      (∀ c : Label, c.value ch = drawn (absorbedBefore key inputs proof c) c.number) ∧
      (∀ n, ∃ ch', derive key inputs (proof.known n) = .ok ch' ∧
        ∀ c : Label, c.round ≤ n → c.value ch' = c.value ch) ∧
      ∀ ch', derive key' inputs proof' = .ok ch' →
        proof.wires.map G1.toAffine = proof'.wires.map G1.toAffine →
        (ch.eta = ch'.eta ∧ ch.beta = ch'.beta ∧ ch.gamma = ch'.gamma) ∧
        (G1.toAffine proof.copyProduct = G1.toAffine proof'.copyProduct →
        G1.toAffine proof.lookupS = G1.toAffine proof'.lookupS →
        (ch.betaLookup = ch'.betaLookup ∧ ch.gammaLookup = ch'.gammaLookup) ∧
        (G1.toAffine proof.lookupProduct = G1.toAffine proof'.lookupProduct →
        ch.alpha = ch'.alpha ∧
        (proof.quotients.map G1.toAffine = proof'.quotients.map G1.toAffine →
        ch.z = ch'.z ∧
        (proof.evaluations = proof'.evaluations →
        ch.v = ch'.v ∧
        (G1.toAffine proof.openingAtZ = G1.toAffine proof'.openingAtZ →
        G1.toAffine proof.openingAtNext = G1.toAffine proof'.openingAtNext →
        ch.u = ch'.u))))) := by
  refine ⟨derive_isOk_iff key inputs proof, ?_⟩
  intro ch h
  refine ⟨derive_value h, derive_known h, ?_⟩
  intro ch' h' hwires
  have agree (c : Label) := value_eq_of_rounds (c := c) hdigest h h'
  simp only [Proof.rounds] at agree
  rw [Proof.flatMap_pointWords_eq hwires] at agree
  -- each rewriting makes one more round the same in both runs
  refine ⟨⟨agree .eta (by simp [Label.round]), agree .beta (by simp [Label.round]),
    agree .gamma (by simp [Label.round])⟩, ?_⟩
  intro hcopy hs
  rw [Proof.pointWords_eq_of_toAffine hcopy, Proof.pointWords_eq_of_toAffine hs] at agree
  refine ⟨⟨agree .betaLookup (by simp [Label.round]), agree .gammaLookup (by simp [Label.round])⟩, ?_⟩
  intro hproduct
  rw [Proof.pointWords_eq_of_toAffine hproduct] at agree
  refine ⟨agree .alpha (by simp [Label.round]), ?_⟩
  intro hquotients
  rw [Proof.flatMap_pointWords_eq hquotients] at agree
  refine ⟨agree .z (by simp [Label.round]), ?_⟩
  intro hvalues
  rw [hvalues] at agree
  refine ⟨agree .v (by simp [Label.round]), ?_⟩
  intro hatZ hatNext
  rw [Proof.pointWords_eq_of_toAffine hatZ, Proof.pointWords_eq_of_toAffine hatNext] at agree
  exact agree .u (by simp [Label.round])

open Linearization in
theorem derive_causal_looseProof :
    ∃ ch ch', derive twoRowKey [96] looseProof = .ok ch ∧
      derive twoRowKey [96] { looseProof with
        wires := [⟨2, 4, 2⟩, ⟨0, 1, 0⟩, G1.generator, G1.infinity], openingAtZ := G1.infinity } = .ok ch' ∧
      ch.eta = ch'.eta ∧ ch.gammaLookup = ch'.gammaLookup ∧ ch.alpha = ch'.alpha ∧ ch.z = ch'.z ∧ ch.v = ch'.v := by
  let moved : Proof := { looseProof with
    wires := [⟨2, 4, 2⟩, ⟨0, 1, 0⟩, G1.generator, G1.infinity], openingAtZ := G1.infinity }
  have hdigest : twoRowKey.digest = twoRowKey.digest := rfl
  obtain ⟨hiff, hrun⟩ := derive_causal hdigest [96] looseProof moved
  obtain ⟨ch, h⟩ := hiff.mpr (by decide)
  obtain ⟨ch', h'⟩ := (derive_causal hdigest [96] moved moved).1.mpr (by decide)
  obtain ⟨hfirst, hrest⟩ := (hrun ch h).2.2 ch' h' (by decide +kernel)
  obtain ⟨hsecond, hrest⟩ := hrest rfl rfl
  obtain ⟨hthird, hrest⟩ := hrest rfl
  obtain ⟨hfourth, hrest⟩ := hrest rfl
  exact ⟨ch, ch', h, h', hfirst.1, hsecond.2, hthird, hfourth, (hrest rfl).1⟩

end Challenges

end Settlement
