import Mathlib
import Settlement.Proofs.Command.Verify
import Settlement.Proofs.Key.RoundTrip
import Settlement.Proofs.Verifier.Representation

namespace Settlement

open Bn254

def spelled (xs : List ℤ) : List WrittenWord :=
  xs.map fun x => .inr (Word.hexOfNat x.toNat)

theorem Word.hex_eq_ok {x : ℤ} {s : String} : hex x = .ok s ↔ IsWord x ∧ hexOfNat x.toNat = s := by
  simp only [hex, Except.bind_eq_ok, toBytes32_eq_ok, hexOfNat]
  constructor
  · rintro ⟨bs, ⟨hx, rfl⟩, h⟩
    exact ⟨hx, Except.ok.inj h⟩
  · rintro ⟨hx, rfl⟩
    exact ⟨_, ⟨hx, rfl⟩, rfl⟩

theorem mapM_hex_eq_ok {xs : List ℤ} {ws : List WrittenWord} :
    xs.mapM (fun x => (do pure (.inr (← Word.hex x)) : Except WidthError WrittenWord)) = .ok ws ↔
      (∀ x ∈ xs, IsWord x) ∧ spelled xs = ws := by
  induction xs generalizing ws with
  | nil => simp [spelled, pure, Except.pure]
  | cons x xs ih =>
    simp only [List.mapM_cons, Except.bind_eq_ok, Word.hex_eq_ok, ih, List.forall_mem_cons]
    constructor
    · rintro ⟨w, ⟨s, ⟨hx, rfl⟩, hw⟩, ws', ⟨hxs, rfl⟩, hws⟩
      obtain rfl := Except.ok.inj hw
      exact ⟨⟨hx, hxs⟩, Except.ok.inj hws⟩
    · rintro ⟨⟨hx, hxs⟩, rfl⟩
      exact ⟨_, ⟨_, ⟨hx, rfl⟩, rfl⟩, _, ⟨hxs, rfl⟩, rfl⟩

theorem mapM_read_spelled {ns : List ℕ} (h : ∀ n ∈ ns, n < 256 ^ 32) :
    (spelled (ns.map Nat.cast)).mapM WrittenWord.read = .ok ns := by
  rw [spelled, List.map_map]
  exact Except.mapM_map_of_ok fun n hn => Word.read_hexOfNat (h n hn)

theorem mapM_read_of_spells {texts : List String} {ns : List ℕ} (hns : ∀ n ∈ ns, n < 256 ^ 32)
    (h : List.Forall₂ (fun (s : String) (n : ℕ) => Word.Spells (.inr s) n) texts ns) :
    (texts.map Sum.inr).mapM WrittenWord.read = .ok ns := by
  induction h with
  | nil => rfl
  | cons hs _ ih =>
    obtain ⟨hn, hns⟩ := List.forall_mem_cons.mp hns
    rw [List.map_cons, List.mapM_cons, Word.read_of_spells hs, Word.inRange_natCast hn, ih hns]
    rfl

namespace ProofDocument

theorem ofWords_eq_ok {xs : List ℤ} {inputs : Option (List ℤ)} {d : ProofDocument} :
    ofWords xs inputs = .ok d ↔
      (∀ x ∈ xs, IsWord x) ∧ (∀ ys ∈ inputs, ∀ y ∈ ys, IsWord y) ∧ d = ⟨spelled xs, inputs.map spelled⟩ := by
  cases inputs with
  | none =>
    simp only [ofWords, Except.bind_eq_ok, mapM_hex_eq_ok]
    constructor
    · rintro ⟨ws, ⟨hxs, rfl⟩, h⟩
      exact ⟨hxs, by simp, (Except.ok.inj h).symm⟩
    · rintro ⟨hxs, -, rfl⟩
      exact ⟨_, ⟨hxs, rfl⟩, rfl⟩
  | some ys =>
    simp only [ofWords, Except.bind_eq_ok, mapM_hex_eq_ok, Option.mem_def, Option.some.injEq, forall_eq']
    constructor
    · rintro ⟨ws, ⟨hxs, rfl⟩, ws', ⟨hys, rfl⟩, h⟩
      exact ⟨hxs, hys, (Except.ok.inj h).symm⟩
    · rintro ⟨hxs, hys, rfl⟩
      exact ⟨_, ⟨hxs, rfl⟩, _, ⟨hys, rfl⟩, rfl⟩

theorem decode_ofWords {xs : List ℤ} {inputs : Option (List ℤ)} {d : ProofDocument} (h : ofWords xs inputs = .ok d) :
    decode (Bytes.ofString d.encode) = .ok d := by
  obtain ⟨-, -, rfl⟩ := ofWords_eq_ok.mp h
  have hprintable (xs : List ℤ) : ∀ w ∈ spelled xs, w.IsPrintable :=
    List.forall_mem_map.mpr fun x _ => Word.isPrintable_hexOfNat _
  apply decode_encode (hprintable xs)
  simp only [Option.mem_def, Option.map_eq_some_iff]
  rintro _ ⟨ys, -, rfl⟩
  exact hprintable ys

end ProofDocument

theorem Key.load_toDocument {doc : KeyDocument} {key : Key} (h : ofDocument doc = .ok key) (path : String) :
    load path (some (Bytes.ofString key.toDocument.encode)) = .ok key := by
  simp only [load, KeyDocument.decode_encode (isPrintable_toDocument (valid_of_ofDocument h)),
    ofDocument_toDocument (readable_of_ofDocument h), Except.mapError]

namespace Verifier

open Command.Verify

/-- The forms in which words are handed over as a proof: the words, the 32 bytes of each if there are as many as a
proof has, and the proof they encode, in any coordinates of its points. -/
inductive Carries (ws : List ℕ) : ProofInput → Prop
  | words : Carries ws (.words (values ws))
  | bytes (hlen : ws.length = 44) : Carries ws (.bytes (ws.flatMap (Bytes.ofNat 32)))
  | parsed {p p' : Proof} (hp : Proof.ofValues (values ws) = .ok p) (h : p.SamePoints p') : Carries ws (.parsed p')

theorem run_of_carries {key : Key} (hkey : key.WellFormed) {ws : List ℕ} (hws : ∀ w ∈ ws, w < 256 ^ 32)
    {input : ProofInput} (h : Carries ws input) (inputs : List Value) :
    run key inputs input = run key inputs (.words (values ws)) := by
  cases h with
  | words => rfl
  | bytes hlen =>
    have hparse : ProofInput.parse (.bytes (ws.flatMap (Bytes.ofNat 32))) = ProofInput.parse (.words (values ws)) :=
      (Proof.ofBytes_of_words hlen hws).trans (Proof.ofValues_of_words hlen hws).symm
    rw [run, run, hparse]
  | @parsed p p' hp hsame =>
    have hparse : ProofInput.parse (.words (values ws)) = .ok p := hp
    have hdecide := decideProof_congr hkey (Proof.wellFormed_of_ofValues hp) hsame
    rw [run, run, hparse]
    simp only [ProofInput.parse, Metered.ofExcept, pure_bind, hdecide]

end Verifier

namespace Command.Verify

open Run Session

variable {σ : Type} {around : Surroundings σ} {p : Progress σ} {settings : Verifier.Settings}

inductive HoldsProof (inputs words : List ℕ) : List String → Bytes → Prop
  | encoded {d : ProofDocument}
      (h : ProofDocument.ofWords (words.map Nat.cast) (some (inputs.map Nat.cast)) = .ok d) :
      HoldsProof inputs words [] (Bytes.ofString d.encode)
  | overridden {given : List String} {bs : Bytes} {d : ProofDocument} {others : Option (List WrittenWord)}
      (hne : given ≠ [])
      (hgiven : List.Forall₂ (fun (s : String) (n : ℕ) => Word.Spells (.inr s) n) given inputs)
      (h : ProofDocument.ofWords (words.map Nat.cast) none = .ok d)
      (hdecode : ProofDocument.decode bs = .ok ⟨d.proof, others⟩) : HoldsProof inputs words given bs

theorem HoldsProof.of_ofWords {inputs words : List ℕ} {given : List String} {d : ProofDocument}
    {others : Option (List ℤ)} (hne : given ≠ [])
    (hgiven : List.Forall₂ (fun (s : String) (n : ℕ) => Word.Spells (.inr s) n) given inputs)
    (h : ProofDocument.ofWords (words.map Nat.cast) others = .ok d) :
    HoldsProof inputs words given (Bytes.ofString d.encode) := by
  have hdecode := ProofDocument.decode_ofWords h
  obtain ⟨hwords, -, rfl⟩ := ProofDocument.ofWords_eq_ok.mp h
  exact .overridden hne hgiven (ProofDocument.ofWords_eq_ok.mpr ⟨hwords, by simp, rfl⟩) hdecode

structure Filed (around : Surroundings σ) (settings : Verifier.Settings) (o : Options) (key : Key)
    (inputs words : List ℕ) : Prop where
  key : ∃ path, (o.key <|> settings.keyPath) = some path ∧
    around.files path.toString = .content (Bytes.ofString key.toDocument.encode)
  proof : ∃ bs, around.files o.proof.toString = .content bs ∧ HoldsProof inputs words o.publicInputs bs
  policy : (o.policy <|> settings.policyPath) = none

theorem Filed.prepared {o : Options} {doc : KeyDocument} {key : Key} (hkey : Key.ofDocument doc = .ok key)
    {inputs words : List ℕ} (hinputs : ∀ x ∈ inputs, x < 256 ^ 32) (hwords : ∀ w ∈ words, w < 256 ^ 32)
    (h : Filed around settings o key inputs words) : Prepared around settings o key inputs words where
  key := by
    obtain ⟨path, hpath, hfile⟩ := h.key
    exact ⟨path, _, hpath, hfile, Key.load_toDocument hkey _⟩
  proof := by
    obtain ⟨bs, hfile, hproof⟩ := h.proof
    generalize o.publicInputs = given at hproof ⊢
    cases hproof with
    | encoded hd =>
      have hdecode := ProofDocument.decode_ofWords hd
      obtain ⟨-, -, rfl⟩ := ProofDocument.ofWords_eq_ok.mp hd
      exact ⟨_, _, hfile, hdecode, mapM_read_spelled hinputs, mapM_read_spelled hwords⟩
    | overridden hne hgiven hd hdecode =>
      obtain ⟨-, -, rfl⟩ := ProofDocument.ofWords_eq_ok.mp hd
      have hempty : given.isEmpty = false := by simpa using hne
      refine ⟨_, _, hfile, hdecode, ?_, mapM_read_spelled hwords⟩
      rw [hempty]
      exact mapM_read_of_spells hinputs hgiven

section

variable [Platform]

theorem eval_readMeter_none {given : Option Path} (h : (given <|> settings.policyPath) = none) :
    eval around (readMeter settings given) p = (.ok none, p) := by
  rw [readMeter, h]
  rfl

/-- A proof has one verdict under a key, whether it comes as words, as bytes or in any coordinates, to the bare
verification, to a store that holds the key, without a store, or to the command in files: this prints the verdict,
with the code of the rejection, and its status says whether it accepts. -/
theorem entryPoints_agree {doc : KeyDocument} {key : Key} (hkey : Key.ofDocument doc = .ok key) {inputs words : List ℕ}
    (hinputs : ∀ x ∈ inputs, x < 2 ^ 256) (hwords : ∀ w ∈ words, w < 2 ^ 256) (m : Option Meter) :
    ∃ y m',
      (∀ input, Verifier.Carries words input →
        Verifier.run key (values inputs) input m = (y >>= Verifier.Verdict.result, m') ∧
        Verifier.verify ⟨some key⟩ (values inputs) input m = (y, m') ∧
        Verifier.verifyUnder key (values inputs) input m = (y, m')) ∧
      (m = none → ∃ v, y = .ok v ∧
        ∀ {σ : Type} (around : Surroundings σ) (p : Progress σ) (env : Environment) (args : List String) (o : Options),
          readRequest args = some (.verify o) → Filed around (.ofEnvironment env) o key inputs words →
          Session.run around (session env args) p = (.exit (status v), p.record (announcement v))) := by
  rw [show 2 ^ 256 = 256 ^ 32 by decide] at hinputs hwords
  obtain ⟨y, m', hverify, -, -⟩ := exists_verify ⟨doc, hkey⟩ inputs words m
  have hunder (input : ProofInput) (hinput : Verifier.Carries words input) :
      Verifier.verifyUnder key (values inputs) input m = (y, m') := by
    rw [Verifier.verifyUnder, Verifier.run_of_carries (Key.wellFormed_of_ofDocument hkey) hwords hinput,
      ← Verifier.verifyUnder, ← Verifier.verify_some]
    exact hverify
  refine ⟨y, m', ?_, ?_⟩
  · intro input hinput
    exact ⟨Verifier.result_of_verdict (hunder input hinput), Verifier.verify_some key _ input ▸ hunder input hinput,
      hunder input hinput⟩
  · rintro rfl
    obtain ⟨v, hnone⟩ := exists_verify_none ⟨doc, hkey⟩ inputs words
    obtain ⟨rfl, -⟩ := Prod.mk.inj (hverify.symm.trans hnone)
    refine ⟨v, rfl, ?_⟩
    intro σ around p env args o hargs hfiled
    exact run_of_meter hargs (hfiled.prepared hkey hinputs hwords) (eval_readMeter_none hfiled.policy) hverify

end

section Sample

open Linearization
open scoped Bn254.Fields

def looseWords : List ℕ :=
  looseProof.toWords.map Int.toNat

theorem values_looseWords : values looseWords = looseValues := by
  have hwords : looseWords.map Nat.cast = looseProof.toWords := by decide +kernel
  rw [looseValues, ← hwords, List.map_map]
  rfl

def rescaledProof : Proof :=
  { looseProof with openingAtZ := Projective.rescale 2 looseProof.openingAtZ }

theorem samePoints_rescaledProof : looseProof.SamePoints rescaledProof where
  wires := List.forall₂_same.mpr fun _ _ => rfl
  copyProduct := rfl
  lookupS := rfl
  lookupProduct := rfl
  quotients := List.forall₂_same.mpr fun _ _ => rfl
  evaluations := rfl
  openingAtZ := Projective.samePoint_rescale (by decide) _
  openingAtNext := rfl

def looseDocument (inputs : Option (List ℤ)) : ProofDocument :=
  ⟨spelled (looseWords.map Nat.cast), inputs.map spelled⟩

def sampleSurroundings (inputs : Option (List ℤ)) (policy : Bytes) : Surroundings Unit where
  files := FileState.among [("k", Bytes.ofString twoRowKey.toDocument.encode),
    ("p", Bytes.ofString (looseDocument inputs).encode), ("q", policy)]
  answer _ _ := (.unusable "" "", ())

theorem ofWords_looseWords {inputs : Option (List ℤ)} (h : ∀ ys ∈ inputs, ∀ y ∈ ys, IsWord y) :
    ProofDocument.ofWords (looseWords.map Nat.cast) inputs = .ok (looseDocument inputs) :=
  ProofDocument.ofWords_eq_ok.mpr ⟨by decide +kernel, h, rfl⟩

theorem toString_ofString_letter : ∀ s ∈ ["k", "p", "q"], (Path.ofString s).toString = s := by
  -- splitting does not evaluate, but it unfolds on a single letter
  simp only [List.forall_mem_cons, List.not_mem_nil, false_imp_iff, implies_true, and_true]
  refine ⟨?_, ?_, ?_⟩
  all_goals
    rw [Path.ofString, String.splitOn, if_neg (by decide), String.splitOnAux, if_neg (by decide +kernel),
      if_neg (by decide +kernel), String.splitOnAux, if_pos (by decide +kernel)]
    decide +kernel

theorem filed_sample {inputs : Option (List ℤ)} {given : List String}
    (h : HoldsProof [96] looseWords given (Bytes.ofString (looseDocument inputs).encode)) (policy : Bytes) :
    Filed (sampleSurroundings inputs policy) (.ofEnvironment fun _ => none)
      ⟨Path.ofString "p", some (Path.ofString "k"), given, none⟩ twoRowKey [96] looseWords where
  key := ⟨_, rfl, by rw [toString_ofString_letter _ (by simp)]; rfl⟩
  proof := ⟨_, by rw [toString_ofString_letter _ (by simp)]; rfl, h⟩
  policy := rfl

theorem entryPoints_agree_looseProof : letI := Platform.standard
    ∃ v, (Verifier.verify ⟨some twoRowKey⟩ [.int 96] (.words looseValues) none).1 = .ok v ∧
      (Verifier.verify ⟨some twoRowKey⟩ [.int 96] (.bytes (looseWords.flatMap (Bytes.ofNat 32))) none).1 = .ok v ∧
      (Verifier.verifyUnder twoRowKey [.int 96] (.parsed rescaledProof) none).1 = .ok v ∧
      (Session.run (sampleSurroundings (some [96]) []) (session (fun _ => none) ["verify", "--vk", "k", "--proof", "p"])
        ⟨(), .zero, []⟩).1 = .exit (status v) ∧
      (Session.run (sampleSurroundings none [])
        (session (fun _ => none) ["verify", "--vk", "k", "--proof", "p", "--public", "0x60"]) ⟨(), .zero, []⟩).1 =
        .exit (status v) := by
  let := Platform.standard
  have hinputs : ∀ x ∈ [96], x < 2 ^ 256 := by decide
  have hwords : ∀ w ∈ looseWords, w < 2 ^ 256 := by decide +kernel
  obtain ⟨y, m', hcarried, hnone⟩ := entryPoints_agree ofDocument_twoRowDocument hinputs hwords none
  obtain ⟨v, rfl, hsession⟩ := hnone rfl
  have hloose : Proof.ofValues (values looseWords) = .ok looseProof := by
    rw [values_looseWords, ofValues_looseValues]
  have hgiven : List.Forall₂ (fun (s : String) (n : ℕ) => Word.Spells (.inr s) n) ["0x60"] [96] := by
    have hpads : Word.Pads "0x60" ['0', 'x', '6', '0'] := ⟨[], [], rfl, by simp, by simp⟩
    exact .cons (.hex hpads (by simp) (by simp) (by simp [Hex.isDigit, Hex.digit?])) .nil
  have hbytes := (hcarried _ (.bytes (by decide +kernel))).2.1
  have hrescaled := (hcarried _ (.parsed hloose samePoints_rescaledProof)).2.2
  have hencoded := hsession (sampleSurroundings (some [96]) []) ⟨(), .zero, []⟩ (fun _ => none)
    ["verify", "--vk", "k", "--proof", "p"] _ rfl (filed_sample (.encoded (ofWords_looseWords (by decide))) [])
  have hoverridden := hsession (sampleSurroundings none []) ⟨(), .zero, []⟩ (fun _ => none)
    ["verify", "--vk", "k", "--proof", "p", "--public", "0x60"] _ rfl
    (filed_sample (.of_ofWords (List.cons_ne_nil _ _) hgiven (ofWords_looseWords (by simp))) [])
  refine ⟨v, ?_, congrArg Prod.fst hbytes, congrArg Prod.fst hrescaled, congrArg Prod.fst hencoded,
    congrArg Prod.fst hoverridden⟩
  rw [← values_looseWords]
  exact congrArg Prod.fst (hcarried _ .words).2.1

end Sample

end Command.Verify

end Settlement
