import Mathlib
import Settlement.Proofs.Layout
import Settlement.Proofs.Verifier.Completeness
import Settlement.Proofs.Verifier.EvaluationBinding

namespace Settlement

open Bn254

namespace Kzg

theorem batchVerify_decides [PairingSteps] {key : OpeningKey} (hg1 : key.g1.Represents 1)
    (hg2 : G2.onCurve key.g2 = true) (hx : G2.onCurve key.xG2 = true) {openings : List Opening}
    (hne : openings ≠ []) (hos : ∀ o ∈ openings, o.OnCurve) (u : ℤ) :
    ∃ b, (batchVerify openings u key).Ends (.ok b) := by
  let us := Scalar.powers (u % r) openings.length
  have hclaims := (log_msm_claimTerms hg1 hos us).1
  have hproofs := (log_msm_proofTerms hos us).1
  have hpairs : ∀ t ∈ [(G1.msm (claimTerms us openings key.g1), key.g2),
      (G1.neg (G1.msm (proofTerms us openings)), key.xG2)],
      G1.onCurve t.1 = true ∧ G2.onCurve t.2 = true := by
    simp only [List.forall_mem_cons, List.not_mem_nil, false_imp_iff, implies_true, and_true]
    exact ⟨⟨hclaims, hg2⟩, ((G1.represents_log hproofs).neg).onCurve, hx⟩
  obtain ⟨b, hb⟩ := Pairing.checkProduct_isOk hpairs
  have hempty : openings.isEmpty = false := by simpa using hne
  refine ⟨b, ?_⟩
  simp only [batchVerify, hempty, Bool.false_eq_true, ↓reduceIte]
  apply Metered.Ends.bind (.charge _ _)
  apply Metered.Ends.bind (.charge _ _)
  apply Metered.Ends.bind (.charge _ _)
  exact .ofExcept hb

end Kzg

namespace Verifier

open Linearization Openings

def Decided (res : Except Failure Unit) : Prop :=
  res = .ok () ∨ ∃ e, res = .error (.rejected (.invalidProof e))

section Decide

variable [PairingSteps] {key : Key} (hkey : key.WellFormed)

include hkey

theorem check_decides {os : List Kzg.Opening} (hne : os ≠ []) (hos : ∀ o ∈ os, o.OnCurve) (ch : Challenges) :
    ∃ res, (check key os ch).Ends res ∧ Decided res := by
  obtain ⟨b, hb⟩ := Kzg.batchVerify_decides G1.represents_generator hkey.g2 hkey.xG2 hne hos ch.u
  cases b with
  | true => exact ⟨.ok (), .bind hb (.pure _), .inl rfl⟩
  | false => exact ⟨_, .bind hb (.throw _), .inr ⟨_, rfl⟩⟩

theorem decideProof_decides {inputs : List ℤ} (hlen : inputs.length = key.numInputs)
    (hinputs : ∀ x ∈ inputs, Scalar.isCanonical x = true) {proof : Proof} (hproof : proof.WellFormed)
    (hvalues : ∀ x ∈ proof.evaluations.toList, Scalar.isCanonical x = true) :
    ∃ res, (decideProof key inputs proof).Ends res ∧ Decided res := by
  obtain ⟨ch, hch⟩ := Challenges.derive_ok hinputs hvalues key
  suffices h : ∃ res, (do
      let lin ← Linearization.build key inputs proof ch
      let openings ← Openings.build key proof ch lin
      Openings.check key openings ch : Metered Unit).Ends res ∧ Decided res by
    obtain ⟨res, hres, hdecided⟩ := h
    exact ⟨res, .bind (.ofExcept hch) (.bind (.ofExcept (checkArity_ok hproof)) hres), hdecided⟩
  by_cases hz : (ch.z : Fr) ^ key.domain.size = 1
  · exact ⟨_, .bind_error _ (build_ends_inDomain hz), .inr ⟨_, rfl⟩⟩
  obtain ⟨pt, hof, -⟩ := Point.of_ok hkey.domain (hlen.trans_le hkey.numInputs_le) hz
  have hbuild : (Linearization.build key inputs proof ch).Ends _ := Linearization.build_ends hof hz
  by_cases hholds : quotientHolds proof.evaluations ch pt = true
  · rw [if_pos hholds] at hbuild
    obtain ⟨c, y, c', y', hos, hcurve, -⟩ :=
      Openings.build_ends hkey hproof (onCurve_result hkey hproof ch pt) ch
    obtain ⟨res, hres, hdecided⟩ := check_decides hkey (List.cons_ne_nil _ _) hcurve ch
    exact ⟨res, .bind hbuild (.bind hos hres), hdecided⟩
  · rw [if_neg hholds] at hbuild
    exact ⟨_, .bind_error _ hbuild, .inr ⟨_, rfl⟩⟩

end Decide

structure Fits (key : Key) (inputs : List Value) : Prop where
  count : inputs.length = key.numInputs
  canonical : ∀ v ∈ inputs, ∃ n : ℤ, v = .int n ∧ 0 ≤ n ∧ n < r

theorem checkCanonical_eq_ok {start : ℕ} {inputs : List Value} {xs : List ℤ} :
    checkCanonical start inputs = .ok xs ↔ inputs = xs.map .int ∧ ∀ x ∈ xs, Scalar.isCanonical x = true := by
  constructor
  · intro h
    induction inputs generalizing start xs with
    | nil =>
      obtain rfl := Except.ok.inj h
      simp
    | cons v inputs ih =>
      unfold checkCanonical at h
      split at h
      · rename_i n
        split at h
        · rename_i hn
          obtain ⟨ys, hys, h⟩ := Except.bind_eq_ok.mp h
          obtain rfl := Except.ok.inj h
          obtain ⟨rfl, hcanonical⟩ := ih hys
          exact ⟨rfl, List.forall_mem_cons.mpr ⟨hn, hcanonical⟩⟩
        · cases h
      · cases h
  · rintro ⟨rfl, h⟩
    exact checkCanonical_ok h start

theorem exists_map_int_iff (inputs : List Value) :
    (∃ xs : List ℤ, inputs = xs.map .int ∧ ∀ x ∈ xs, Scalar.isCanonical x = true) ↔
      ∀ v ∈ inputs, ∃ n : ℤ, v = .int n ∧ 0 ≤ n ∧ n < r := by
  constructor
  · rintro ⟨xs, rfl, h⟩ v hv
    obtain ⟨x, hx, rfl⟩ := List.mem_map.mp hv
    exact ⟨x, rfl, (Scalar.isCanonical_iff x).mp (h x hx)⟩
  · intro h
    induction inputs with
    | nil => exact ⟨[], rfl, by simp⟩
    | cons v inputs ih =>
      obtain ⟨⟨n, rfl, hn⟩, hinputs⟩ := List.forall_mem_cons.mp h
      obtain ⟨xs, rfl, hxs⟩ := ih hinputs
      exact ⟨n :: xs, rfl, List.forall_mem_cons.mpr ⟨(Scalar.isCanonical_iff n).mpr hn, hxs⟩⟩

theorem readPublicInputs_eq_ok {key : Key} {inputs : List Value} {xs : List ℤ} :
    readPublicInputs key inputs = .ok xs ↔ inputs.length = key.numInputs ∧ inputs = xs.map .int ∧
      ∀ x ∈ xs, Scalar.isCanonical x = true := by
  unfold readPublicInputs
  split
  · rename_i hlen
    simp [hlen]
  · rename_i hlen
    rw [checkCanonical_eq_ok]
    simp [not_not.mp hlen]

theorem readPublicInputs_isOk_iff (key : Key) (inputs : List Value) :
    (∃ xs, readPublicInputs key inputs = .ok xs) ↔ Fits key inputs := by
  simp only [readPublicInputs_eq_ok, exists_and_left, exists_map_int_iff]
  exact ⟨fun h => ⟨h.1, h.2⟩, fun h => ⟨h.count, h.canonical⟩⟩

structure Affords (m : Meter) (key : Key) (count : ℕ) : Prop where
  inputs : (count : ℤ) ≤ m.policy.limits.maxPublicInputs
  domain : (key.domain.size : ℤ) ≤ m.policy.limits.maxDomainSize
  base : ∀ b, m.policy.budget = some b → m.used + m.policy.schedule.cost .base 1 ≤ b
  perInput : ∀ b, m.policy.budget = some b →
    m.used + m.policy.schedule.cost .base 1 + m.policy.schedule.cost .perPublicInput count ≤ b

def Admits (m? : Option Meter) (key : Key) (count : ℕ) : Prop :=
  ∀ m, m? = some m → Affords m key count

theorem payEntry_of_admits {m? : Option Meter} {key : Key} {xs : List ℤ} (h : Admits m? key xs.length) :
    ∃ m', m'.map (·.policy) = m?.map (·.policy) ∧ payEntry key xs m? = (.ok (), m') := by
  cases m? with
  | none => exact ⟨none, rfl, rfl⟩
  | some m =>
    obtain ⟨hinputs, hdomain, hbase, hperInput⟩ := h m rfl
    have hlimits : Metered.checkLimits xs.length key.domain.size (some m) = (.ok (), some m) :=
      Metered.checkLimits_of_le hinputs hdomain
    rw [payEntry, Metered.bind_ok hlimits, Metered.bind_ok (Metered.charge_of_within hbase)]
    exact ⟨some ((m.record .base 1).record .perPublicInput xs.length), rfl, Metered.charge_of_within hperInput⟩

theorem payEntry_of_not_admits {m? : Option Meter} {key : Key} {xs : List ℤ}
    (h : ¬Admits m? key xs.length) :
    ∃ e m', m'.map (·.policy) = m?.map (·.policy) ∧ Meter.Exhausted m' e ∧
      payEntry key xs m? = (.error (.ofExhaustion e), m') := by
  cases m? with
  | none => exact absurd (fun m hm => by cases hm) h
  | some m =>
    by_cases hlimits : (xs.length : ℤ) ≤ m.policy.limits.maxPublicInputs ∧
        (key.domain.size : ℤ) ≤ m.policy.limits.maxDomainSize
    · have hpass : Metered.checkLimits xs.length key.domain.size (some m) = (.ok (), some m) :=
        Metered.checkLimits_of_le hlimits.1 hlimits.2
      rw [payEntry, Metered.bind_ok hpass]
      by_cases hbase : Metered.Within m .base 1
      · rw [Metered.bind_ok (Metered.charge_of_within hbase)]
        by_cases hperInput : Metered.Within (m.record .base 1) .perPublicInput xs.length
        · refine absurd (fun m' hm' => ?_) h
          obtain rfl := Option.some.inj hm'
          exact ⟨hlimits.1, hlimits.2, hbase, hperInput⟩
        · obtain ⟨e, hexhausted, he⟩ := Metered.charge_of_not_within hperInput
          exact ⟨e, some ((m.record .base 1).record .perPublicInput xs.length), rfl, hexhausted, he⟩
      · obtain ⟨e, hexhausted, he⟩ := Metered.charge_of_not_within hbase
        exact ⟨e, some (m.record .base 1), rfl, hexhausted, Metered.bind_error he⟩
    · obtain ⟨e, hexhausted, he⟩ := Metered.checkLimits_of_not_le hlimits
      exact ⟨e, _, rfl, hexhausted, Metered.bind_error he⟩

def Spells : ProofInput → List ℕ → Prop
  | .parsed _, _ => False
  | .bytes bs, ws => bs = ws.flatMap (Bytes.ofNat 32)
  | .words vs, ws => vs = ws.map fun w : ℕ => .int w

def SpellsProof (input : ProofInput) : Prop :=
  ∃ ws, Spells input ws ∧ Proof.Spelling ws

def Raw : ProofInput → Prop
  | .parsed _ => False
  | _ => True

theorem parse_isOk_iff {input : ProofInput} (h : Raw input) :
    (∃ q, input.parse = .ok q) ↔ SpellsProof input := by
  cases input with
  | parsed q => exact h.elim
  | bytes bs => exact Proof.ofBytes_isOk_iff bs
  | words vs => exact Proof.ofValues_isOk_iff vs

theorem of_parse_ok {input : ProofInput} (h : Raw input) {q : Proof} (hq : input.parse = .ok q) :
    q.WellFormed ∧ ∀ x ∈ q.evaluations.toList, Scalar.isCanonical x = true := by
  cases input with
  | parsed q => exact h.elim
  | bytes bs =>
    simp only [ProofInput.parse, Proof.ofBytes, Except.check_eq_ok] at hq
    exact ⟨Proof.wellFormed_of_ofWords hq.2, Proof.isCanonical_of_ofWords hq.2⟩
  | words vs => exact ⟨Proof.wellFormed_of_ofValues hq, Proof.isCanonical_of_ofValues hq⟩

def reported (e : Exhaustion) : Except Failure Verdict :=
  if e.isWritable then .ok (.rejected (.resourceExhausted e)) else .error .unwritable

theorem reported_eq_ok {e : Exhaustion} {v : Verdict} :
    reported e = .ok v ↔ e.isWritable = true ∧ v = .rejected (.resourceExhausted e) := by
  unfold reported
  split <;> simp [*, eq_comm]

theorem reported_eq_error {e : Exhaustion} {f : Failure} :
    reported e = .error f ↔ e.isWritable = false ∧ f = .unwritable := by
  unfold reported
  split <;> simp [*, eq_comm]

/-- What a verification comes to, and the meter it leaves. -/
inductive Reports (inputs : List Value) (input : ProofInput) (m : Option Meter) :
    Option Key → Except Failure Verdict → Option Meter → Prop
  | uninitialized : Reports inputs input m none (.ok (.rejected .uninitialized)) m
  | malformedPublicInput {key : Key} {e : PublicInputError} (hinputs : ¬Fits key inputs) :
    Reports inputs input m (some key) (.ok (.rejected (.malformedPublicInput e))) m
  | notAdmitted {key : Key} {e : Exhaustion} {m' : Option Meter} (hinputs : Fits key inputs)
    (hadmits : ¬Admits m key inputs.length) (he : Meter.Exhausted m' e) :
    Reports inputs input m (some key) (reported e) m'
  | malformedProof {key : Key} {e : ProofError} {m' : Option Meter} (hinputs : Fits key inputs)
    (hadmits : Admits m key inputs.length) (hproof : ¬SpellsProof input) :
    Reports inputs input m (some key) (.ok (.rejected (.malformedProof e))) m'
  | exhausted {key : Key} {e : Exhaustion} {m' : Option Meter} (hinputs : Fits key inputs)
    (hadmits : Admits m key inputs.length) (hproof : SpellsProof input) (he : Meter.Exhausted m' e) :
    Reports inputs input m (some key) (reported e) m'
  | invalidProof {key : Key} {e : Unsound} {m' : Option Meter} (hinputs : Fits key inputs)
    (hadmits : Admits m key inputs.length) (hproof : SpellsProof input) :
    Reports inputs input m (some key) (.ok (.rejected (.invalidProof e))) m'
  | accepted {key : Key} {m' : Option Meter} (hinputs : Fits key inputs)
    (hadmits : Admits m key inputs.length) (hproof : SpellsProof input) :
    Reports inputs input m (some key) (.ok .accepted) m'

theorem Reports.verdict_or_unwritable {inputs : List Value} {input : ProofInput} {m m' : Option Meter}
    {active : Option Key} {y : Except Failure Verdict} (h : Reports inputs input m active y m') :
    (∃ v, y = .ok v) ∨ y = .error .unwritable ∧ ∃ e, Meter.Exhausted m' e ∧ e.isWritable = false := by
  have hreported {e : Exhaustion} (he : Meter.Exhausted m' e) :
      (∃ v, reported e = .ok v) ∨
        reported e = .error .unwritable ∧ ∃ e, Meter.Exhausted m' e ∧ e.isWritable = false := by
    cases hwritable : e.isWritable with
    | true => exact .inl ⟨_, reported_eq_ok.mpr ⟨hwritable, rfl⟩⟩
    | false => exact .inr ⟨reported_eq_error.mpr ⟨hwritable, rfl⟩, e, he, hwritable⟩
  cases h with
  | notAdmitted _ _ he => exact hreported he
  | exhausted _ _ _ he => exact hreported he
  | _ => exact .inl ⟨_, rfl⟩

theorem verdict_of_ok {x : Metered Unit} {m m' : Option Meter} (h : x m = (.ok (), m')) :
    verdict x m = (.ok .accepted, m') :=
  Metered.tryCatch_ok (Metered.bind_ok h)

theorem verdict_of_rejected {x : Metered Unit} {m m' : Option Meter} {e : Rejection}
    (h : x m = (.error (.rejected e), m')) : verdict x m = (.ok (.rejected e), m') :=
  Metered.tryCatch_error (Metered.bind_error h)

theorem verdict_of_exhausted {x : Metered Unit} {m m' : Option Meter} {e : Exhaustion}
    (h : x m = (.error (.ofExhaustion e), m')) : verdict x m = (reported e, m') := by
  unfold Failure.ofExhaustion at h
  unfold reported
  split at h
  · rename_i hwritable
    rw [if_pos hwritable]
    exact verdict_of_rejected h
  · rename_i hwritable
    rw [if_neg hwritable]
    exact Metered.tryCatch_error (Metered.bind_error h)

def Verdict.result : Verdict → Except Failure Unit
  | .accepted => .ok ()
  | .rejected r => .error (.rejected r)

theorem result_of_verdict {x : Metered Unit} {y : Except Failure Verdict} {m m' : Option Meter}
    (h : verdict x m = (y, m')) : x m = (y >>= Verdict.result, m') := by
  match hx : x m with
  | (.ok (), m₁) =>
    rw [verdict_of_ok hx] at h
    cases h
    rfl
  | (.error e, m₁) =>
    cases e with
    | rejected r =>
      rw [verdict_of_rejected hx] at h
      cases h
      rfl
    | _ =>
      rw [verdict, Metered.tryCatch_error (Metered.bind_error hx)] at h
      cases h
      rfl

section Verdict

variable [PairingSteps]

theorem runWith_of_active {store : KeyStore} {key : Key} (h : store.active = some key) (inputs : List Value)
    (input : ProofInput) (m : Option Meter) : runWith store inputs input m = run key inputs input m := by
  have hget : store.get = .ok key := by rw [KeyStore.get, h]
  exact Metered.bind_ok (Metered.ofExcept_ok hget m)

theorem verify_some (key : Key) (inputs : List Value) (input : ProofInput) :
    verify ⟨some key⟩ inputs input = verifyUnder key inputs input := by
  have hrun : runWith ⟨some key⟩ inputs input = run key inputs input := funext (runWith_of_active rfl inputs input)
  rw [verify, verifyUnder, hrun]

theorem exists_reports {store : KeyStore}
    (hstore : ∀ key, store.active = some key → ∃ doc, Key.ofDocument doc = .ok key) (inputs : List Value)
    {input : ProofInput} (hinput : Raw input) (m : Option Meter) :
    ∃ y m', verify store inputs input m = (y, m') ∧ m'.map (·.policy) = m.map (·.policy) ∧
      Reports inputs input m store.active y m' := by
  cases hactive : store.active with
  | none =>
    have hget : store.get = .error .uninitialized := by rw [KeyStore.get, hactive]
    have hverify : verify store inputs input m = (.ok (.rejected .uninitialized), m) :=
      verdict_of_rejected (Metered.bind_error (Metered.ofExcept_error hget m))
    exact ⟨_, m, hverify, rfl, .uninitialized⟩
  | some key =>
    obtain ⟨doc, hdoc⟩ := hstore key hactive
    have hkey := Key.wellFormed_of_ofDocument hdoc
    have hrun := runWith_of_active hactive inputs input m
    by_cases hfits : Fits key inputs
    · obtain ⟨xs, hxs⟩ := (readPublicInputs_isOk_iff key inputs).mpr hfits
      obtain ⟨hlen, hmap, hcanonical⟩ := readPublicInputs_eq_ok.mp hxs
      have hcount : xs.length = inputs.length := by rw [hmap, List.length_map]
      rw [run, Metered.bind_ok (Metered.ofExcept_ok hxs m)] at hrun
      by_cases hadmits : Admits m key inputs.length
      · obtain ⟨m₁, hpolicy₁, hentry⟩ := payEntry_of_admits (hcount ▸ hadmits)
        rw [Metered.bind_ok hentry] at hrun
        by_cases hproof : SpellsProof input
        · obtain ⟨q, hq⟩ := (parse_isOk_iff hinput).mpr hproof
          obtain ⟨hwellFormed, hvalues⟩ := of_parse_ok hinput hq
          rw [Metered.bind_ok (Metered.ofExcept_ok hq m₁)] at hrun
          obtain ⟨res, hends, hdecided⟩ :=
            decideProof_decides hkey (hcount.trans hlen) hcanonical hwellFormed hvalues
          obtain ⟨m₂, hpolicy₂, hres | ⟨e, he, hres⟩⟩ := hends.apply m₁
          · rw [hres] at hrun
            obtain rfl | ⟨e, rfl⟩ := hdecided
            · exact ⟨_, m₂, verdict_of_ok hrun, hpolicy₂.trans hpolicy₁, .accepted hfits hadmits hproof⟩
            · exact ⟨_, m₂, verdict_of_rejected hrun, hpolicy₂.trans hpolicy₁, .invalidProof hfits hadmits hproof⟩
          · rw [hres] at hrun
            exact ⟨_, m₂, verdict_of_exhausted hrun, hpolicy₂.trans hpolicy₁, .exhausted hfits hadmits hproof he⟩
        · obtain ⟨e, he⟩ := Except.error_of_not_ok (mt (parse_isOk_iff hinput).mp hproof)
          rw [Metered.bind_error (Metered.ofExcept_error he m₁)] at hrun
          exact ⟨_, m₁, verdict_of_rejected hrun, hpolicy₁, .malformedProof hfits hadmits hproof⟩
      · obtain ⟨e, m₁, hpolicy₁, he, hentry⟩ := payEntry_of_not_admits (hcount ▸ hadmits)
        rw [Metered.bind_error hentry] at hrun
        exact ⟨_, m₁, verdict_of_exhausted hrun, hpolicy₁, .notAdmitted hfits hadmits he⟩
    · obtain ⟨e, he⟩ := Except.error_of_not_ok (mt (readPublicInputs_isOk_iff key inputs).mp hfits)
      rw [run, Metered.bind_error (Metered.ofExcept_error he m)] at hrun
      exact ⟨_, m, verdict_of_rejected hrun, rfl, .malformedPublicInput hfits⟩

/-- A verification ends in a verdict, which names the first stage that fails; before the inputs are read
the meter is not touched. It is broken off only if the meter is exhausted and its numbers are too long to be
written. -/
theorem verify_reports {store : KeyStore}
    (hstore : ∀ key, store.active = some key → ∃ doc, Key.ofDocument doc = .ok key) (inputs : List Value)
    {input : ProofInput} (hinput : Raw input) (m : Option Meter) :
    ∃ y m', verify store inputs input m = (y, m') ∧ m'.map (·.policy) = m.map (·.policy) ∧
      ((∃ v, y = .ok v) ∨ y = .error .unwritable ∧ ∃ e, Meter.Exhausted m' e ∧ e.isWritable = false) ∧
      (y = .ok (.rejected .uninitialized) ↔ store.active = none) ∧
      ∀ key, store.active = some key →
        ((∃ e, y = .ok (.rejected (.malformedPublicInput e))) ↔ ¬Fits key inputs) ∧
        (¬Fits key inputs → m' = m) ∧
        (Fits key inputs → ¬Admits m key inputs.length → ∃ e, Meter.Exhausted m' e ∧ y = reported e) ∧
        (Fits key inputs → Admits m key inputs.length →
          ((∃ e, y = .ok (.rejected (.malformedProof e))) ↔ ¬SpellsProof input) ∧
          (SpellsProof input → y = .ok .accepted ∨ (∃ e, y = .ok (.rejected (.invalidProof e))) ∨
            ∃ e, Meter.Exhausted m' e ∧ y = reported e)) := by
  obtain ⟨y, m', hverify, hpolicy, h⟩ := exists_reports hstore inputs hinput m
  refine ⟨y, m', hverify, hpolicy, h.verdict_or_unwritable, ?_⟩
  generalize store.active = active at h
  cases h with
  | @notAdmitted key e m' hinputs hadmits he =>
    have hreported : ∃ e', Meter.Exhausted m' e' ∧ reported e = reported e' := ⟨e, he, rfl⟩
    simp [hinputs, hadmits, hreported, reported_eq_ok]
  | @exhausted key e m' hinputs hadmits hproof he =>
    have hreported : ∃ e', Meter.Exhausted m' e' ∧ reported e = reported e' := ⟨e, he, rfl⟩
    simp [hinputs, hproof, hreported, reported_eq_ok]
  | _ => simp [*]

end Verdict

open Linearization in
theorem verify_reports_twoRowKey :
    (∃ e, (verify ⟨some twoRowKey⟩ [.bool true] (.bytes []) none).1 =
      .ok (.rejected (.malformedPublicInput e))) ∧
    (∃ e, (verify ⟨some twoRowKey⟩ [.int 96] (.bytes []) (some (.ofPolicy { budget := some 0 }))).1 = reported e) ∧
    (∃ e, (verify ⟨some twoRowKey⟩ [.int 96] (.bytes []) none).1 = .ok (.rejected (.malformedProof e))) ∧
    ∃ v, (verify ⟨some twoRowKey⟩ [.int 96] (.words looseValues) none).1 = .ok v ∧
      (v = .accepted ∨ ∃ e, v = .rejected (.invalidProof e)) := by
  have hstore : ∀ key, (⟨some twoRowKey⟩ : KeyStore).active = some key → ∃ doc, Key.ofDocument doc = .ok key := by
    intro key hkey
    obtain rfl := Option.some.inj hkey
    exact ⟨twoRowDocument, ofDocument_twoRowDocument⟩
  have hbytes : Raw (.bytes []) := trivial
  have hwords : Raw (.words looseValues) := trivial
  have hbool : ¬Fits twoRowKey [.bool true] := by
    intro h
    obtain ⟨n, hn, -⟩ := h.canonical _ (List.mem_singleton.mpr rfl)
    cases hn
  have hfits : Fits twoRowKey [.int 96] := ⟨rfl, by
    intro v hv
    obtain rfl := List.mem_singleton.mp hv
    exact ⟨96, rfl, by decide⟩⟩
  have hadmits : Admits none twoRowKey 1 := fun m hm => by cases hm
  have hpoor : ¬Admits (some (.ofPolicy { budget := some 0 })) twoRowKey 1 := by
    intro h
    exact absurd ((h _ rfl).base 0 rfl) (by decide)
  have hshort : ¬SpellsProof (.bytes []) := by
    rintro ⟨ws, hws, hspelling⟩
    have hlen := congrArg List.length hws
    simp [List.length_flatMap, Bytes.length_ofNat, hspelling.length] at hlen
  have hloose : SpellsProof (.words looseValues) :=
    (parse_isOk_iff hwords).mp ⟨looseProof, ofValues_looseValues⟩
  refine ⟨?_, ?_, ?_, ?_⟩
  · obtain ⟨y, m', hverify, -, -, -, h⟩ := verify_reports hstore [.bool true] hbytes none
    obtain ⟨e, rfl⟩ := (h twoRowKey rfl).1.mpr hbool
    exact ⟨e, congrArg Prod.fst hverify⟩
  · obtain ⟨y, m', hverify, -, -, -, h⟩ := verify_reports hstore [.int 96] hbytes _
    obtain ⟨e, -, rfl⟩ := (h twoRowKey rfl).2.2.1 hfits hpoor
    exact ⟨e, congrArg Prod.fst hverify⟩
  · obtain ⟨y, m', hverify, -, -, -, h⟩ := verify_reports hstore [.int 96] hbytes none
    obtain ⟨e, rfl⟩ := ((h twoRowKey rfl).2.2.2 hfits hadmits).1.mpr hshort
    exact ⟨e, congrArg Prod.fst hverify⟩
  · obtain ⟨y, m', hverify, hpolicy, -, -, h⟩ := verify_reports hstore [.int 96] hwords none
    obtain rfl := Option.map_eq_none_iff.mp hpolicy
    obtain rfl | ⟨e, rfl⟩ | ⟨e, he, -⟩ := ((h twoRowKey rfl).2.2.2 hfits hadmits).2 hloose
    · exact ⟨_, congrArg Prod.fst hverify, .inl rfl⟩
    · exact ⟨_, congrArg Prod.fst hverify, .inr ⟨e, rfl⟩⟩
    · cases he

open Linearization in
theorem not_verdict_longBudget :
    ¬∀ m : Option Meter, ∃ v, (verify ⟨some twoRowKey⟩ [.int 96] (.bytes []) m).1 = .ok v := by
  intro h
  obtain ⟨v, hv⟩ := h (some (.ofPolicy { budget := some (-10 ^ Integer.maxDigits) }))
  have hbroken : (verify ⟨some twoRowKey⟩ [.int 96] (.bytes [])
      (some (.ofPolicy { budget := some (-10 ^ Integer.maxDigits) }))).1 = .error .unwritable := by
    decide +kernel
  cases hbroken.symm.trans hv

end Verifier

end Settlement
