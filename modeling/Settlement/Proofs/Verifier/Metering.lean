import Mathlib
import Settlement.Proofs.Verifier.Charges
import Settlement.Proofs.Verifier.Verdict

/-!
What a verification is charged. The charges are the same for every key and every proof, up to the stage
that rejects, and the verdict does not depend on whether anybody pays.
-/

namespace Settlement

open Bn254 Metered

namespace Metered

theorem charge_bind {β : Type} (op : Operation) (count : ℤ) {f : Unit → Metered β} {cs : List Charge}
    {res : Except Failure β} (hf : f () = paid cs res) :
    charge op count >>= f = paid ((op, count) :: cs) res := by
  rw [charge_eq_paid, paid_ok_bind _ _ hf]
  rfl

theorem throw_bind {α β : Type} (e : Failure) (f : α → Metered β) :
    throw e >>= f = paid [] (.error e) := by
  rw [throw_eq_paid, paid_error_bind]

theorem ofExcept_bind {ε α β : Type} {g : ε → Failure} {y : Except ε α} {a : α} (h : y = .ok a)
    (f : α → Metered β) : ofExcept g y >>= f = f a := by
  rw [h]
  rfl

theorem ofExcept_bind_error {ε α β : Type} {g : ε → Failure} {y : Except ε α} {e : ε} (h : y = .error e)
    (f : α → Metered β) : ofExcept g y >>= f = paid [] (.error (g e)) := by
  rw [h]
  exact throw_eq_paid (g e)

end Metered

namespace Verifier

def work : List Charge :=
  [(.inversion, 1), (.g1Mul, 13), (.g1Mul, 4), (.g1Mul, 4), (.g1Mul, 13), (.g1Mul, 5), (.g1Mul, 5), (.g1Mul, 2),
    (.pairing, 2)]

def charges (l : ℕ) : List Charge :=
  (.base, 1) :: (.perPublicInput, (l : ℤ)) :: work

def reached : Except Failure Unit → ℕ
  | .error (.rejected (.malformedPublicInput _)) => 0
  | .error (.rejected (.malformedProof _)) => 2
  | .error (.width _) => 2
  | .error (.rejected (.invalidProof .pointInDomain)) => 2
  | .error (.scalar _) => 3
  | .error (.rejected (.invalidProof .quotientIdentity)) => 3
  | _ => 11

def plan (l : ℕ) (res : Except Failure Unit) : List Charge :=
  (charges l).take (reached res)

theorem plan_ok (l : ℕ) : plan l (.ok ()) = charges l := rfl

theorem price_charges (s : UnitSchedule) (l : ℕ) :
    s.price (charges l) = s.base + l * s.perPublicInput + s.inversion + 46 * s.g1Mul + 2 * s.pairing := by
  simp only [charges, work, UnitSchedule.price_cons, UnitSchedule.price_nil, UnitSchedule.cost, UnitSchedule.unit]
  ring

section Stages

variable (key : Key) (inputs : List ℤ) {proof : Proof} (ch : Challenges)

theorem length_terms (pt : Linearization.Point) : (Linearization.terms key proof ch pt).length = 13 := by
  simp [Linearization.terms, Linearization.gateCoefficients]

theorem build_eq_paid (hquotients : proof.quotients.length = 4) :
    (∃ n e, Linearization.build key inputs proof ch = paid (work.take n) (.error e) ∧
      reached (.error e) = n + 2) ∨
    ∃ lin, Linearization.build key inputs proof ch = paid (work.take 4) (.ok lin) := by
  -- the inversion is charged before the point is computed, the sums only if the quotient agrees
  unfold Linearization.build
  split
  · exact .inl ⟨0, _, throw_bind _ _, rfl⟩
  · cases hof : Linearization.Point.of key inputs ch with
    | error e => exact .inl ⟨1, _, charge_bind _ _ (ofExcept_bind_error rfl _), rfl⟩
    | ok pt =>
      by_cases hq : Linearization.quotientHolds proof.evaluations ch pt = true
      · refine .inr ⟨Linearization.result key proof ch pt, charge_bind _ _ ((ofExcept_bind rfl _).trans ?_)⟩
        simp only [hq, not_true_eq_false, ↓reduceIte, length_terms, hquotients, Vector.length_toList]
        exact charge_bind _ _ (charge_bind _ _ (charge_bind _ _ (pure_eq_paid _)))
      · refine .inl ⟨1, .rejected (.invalidProof .quotientIdentity),
          charge_bind _ _ ((ofExcept_bind rfl _).trans ?_), rfl⟩
        simp only [hq]
        exact throw_bind _ _

theorem fold_eq_paid (claims : List (G1 × ℤ)) (v : ℤ) :
    ∃ c, Openings.fold claims v = paid [(.g1Mul, (claims.length : ℤ))] (.ok c) := by
  simp only [Openings.fold, Kzg.aggregate, List.length_map, ne_eq, not_true_eq_false, ↓reduceIte]
  exact ⟨_, charge_bind _ _ (pure_eq_paid _)⟩

theorem length_claimsAtZ (hwires : proof.wires.length = 4) (lin : Linearization) :
    (Openings.claimsAtZ key proof lin).length = 13 := by
  simp [Openings.claimsAtZ, Key.sigmas, Evaluations.wires, hwires]

theorem openings_eq_paid (hwires : proof.wires.length = 4) (lin : Linearization) :
    ∃ o o', Openings.build key proof ch lin = paid [(.g1Mul, 13), (.g1Mul, 5)] (.ok [o, o']) := by
  obtain ⟨⟨c, y⟩, hz⟩ := fold_eq_paid (Openings.claimsAtZ key proof lin) ch.v
  obtain ⟨⟨c', y'⟩, hnext⟩ := fold_eq_paid (Openings.claimsAtNext proof lin) ch.v
  rw [length_claimsAtZ key hwires] at hz
  refine ⟨⟨ch.z, c, y, proof.openingAtZ⟩, ⟨ch.z * key.domain.omega % r, c', y', proof.openingAtNext⟩, ?_⟩
  rw [Openings.build, hz]
  apply paid_ok_bind
  rw [hnext]
  exact paid_ok_bind _ _ (pure_eq_paid _)

theorem check_eq_paid [PairingSteps] (o o' : Kzg.Opening) :
    ∃ res, Openings.check key [o, o'] ch = paid [(.g1Mul, 5), (.g1Mul, 2), (.pairing, 2)] res ∧
      reached res = 11 := by
  -- two openings have five terms on one side of the equation and two on the other
  have hbatch : ∃ y : Except PointError Bool, Kzg.batchVerify [o, o'] ch.u key.openingKey =
      paid [(.g1Mul, 5), (.g1Mul, 2), (.pairing, 2)] (y.mapError .point) := by
    exact ⟨_, charge_bind _ _ (charge_bind _ _ (charge_bind _ _ (ofExcept_eq_paid _ _)))⟩
  obtain ⟨y, hy⟩ := hbatch
  rw [Openings.check, hy]
  match y with
  | .error e => exact ⟨_, paid_error_bind _ _ _, rfl⟩
  | .ok true => exact ⟨_, paid_ok_bind _ _ (pure_eq_paid _), rfl⟩
  | .ok false => exact ⟨_, paid_ok_bind _ _ (throw_eq_paid _), rfl⟩

theorem lengths_of_checkArity {key : Key} (h : checkArity key proof = .ok ()) :
    proof.wires.length = 4 ∧ proof.quotients.length = 4 := by
  simp only [checkArity, Vector.length_toList] at h
  split at h
  · cases h
  · split at h
    · cases h
    · split at h
      · cases h
      · exact ⟨not_not.mp ‹_›, not_not.mp ‹_›⟩

theorem decideProof_eq_paid [PairingSteps] (proof : Proof) :
    ∃ n res, decideProof key inputs proof = paid (work.take n) res ∧ reached res = n + 2 := by
  unfold decideProof
  cases hch : Challenges.derive key inputs proof with
  | error e => exact ⟨0, _, ofExcept_bind_error rfl _, rfl⟩
  | ok ch =>
    rw [ofExcept_bind rfl]
    cases harity : checkArity key proof with
    | error e => exact ⟨0, _, ofExcept_bind_error rfl _, rfl⟩
    | ok _ =>
      rw [ofExcept_bind rfl]
      obtain ⟨hwires, hquotients⟩ := lengths_of_checkArity harity
      obtain ⟨n, e, hbuild, hreached⟩ | ⟨lin, hbuild⟩ := build_eq_paid key inputs ch hquotients
      · exact ⟨n, _, by rw [hbuild, paid_error_bind], hreached⟩
      · obtain ⟨o, o', hopenings⟩ := openings_eq_paid key ch hwires lin
        obtain ⟨res, hcheck, hreached⟩ := check_eq_paid key ch o o'
        refine ⟨9, res, ?_, hreached⟩
        rw [hbuild]
        apply paid_ok_bind (work.take 4)
        rw [hopenings]
        exact paid_ok_bind _ _ hcheck

end Stages

section Run

variable [PairingSteps]

theorem run_eq_paid {key : Key} {inputs : List Value} (hinputs : Fits key inputs) (input : ProofInput) :
    ∃ n res, reached res = n + 2 ∧ run key inputs input =
      checkLimits inputs.length key.domain.size >>= fun _ => paid ((charges inputs.length).take (n + 2)) res := by
  obtain ⟨xs, hxs⟩ := (readPublicInputs_isOk_iff key inputs).mpr hinputs
  have hcount : xs.length = inputs.length := by
    rw [(readPublicInputs_eq_ok.mp hxs).2.1, List.length_map]
  have hrest : ∃ n res, reached res = n + 2 ∧
      (ofExcept malformedProof input.parse >>= decideProof key xs) = paid (work.take n) res := by
    cases hparse : input.parse with
    | error e => exact ⟨0, _, rfl, ofExcept_bind_error rfl _⟩
    | ok proof =>
      obtain ⟨n, res, hdecide, hreached⟩ := decideProof_eq_paid key xs proof
      exact ⟨n, res, hreached, (ofExcept_bind rfl _).trans hdecide⟩
  obtain ⟨n, res, hreached, hpaid⟩ := hrest
  refine ⟨n, res, hreached, ?_⟩
  rw [run, ofExcept_bind hxs, payEntry, bind_assoc, hcount]
  congr 1
  funext _
  rw [bind_assoc]
  exact charge_bind _ _ (charge_bind _ _ hpaid)

theorem run_of_not_fits {key : Key} {inputs : List Value} (hinputs : ¬Fits key inputs) (input : ProofInput) :
    ∃ e, ∀ m, run key inputs input m = (.error (.rejected (.malformedPublicInput e)), m) := by
  obtain ⟨e, he⟩ := Except.error_of_not_ok (mt (readPublicInputs_isOk_iff key inputs).mp hinputs)
  refine ⟨e, ?_⟩
  intro m
  rw [run]
  exact bind_error (ofExcept_error he m)

end Run

section Observes

variable {key : Key} {inputs : List Value} {p : Policy} {res : Except Failure Unit}

/-- How a run ends that a fresh meter for a policy watches: with a result and a meter, where `res` is the
result without a meter. -/
structure Observes (key : Key) (inputs : List Value) (p : Policy) (res res' : Except Failure Unit) (m' : Meter) :
    Prop where
  malformed : (∃ e, res = .error (.rejected (.malformedPublicInput e))) ↔ ¬Fits key inputs
  -- nothing is paid for inputs that cannot be read
  unread : ¬Fits key inputs → res' = res ∧ m' = .ofPolicy p
  manyInputs : Fits key inputs → p.limits.maxPublicInputs < inputs.length →
    res' = .error (.ofExhaustion (.publicInputs inputs.length p.limits.maxPublicInputs)) ∧ m' = .ofPolicy p
  largeDomain : Fits key inputs → inputs.length ≤ p.limits.maxPublicInputs →
    p.limits.maxDomainSize < key.domain.size →
    res' = .error (.ofExhaustion (.domainSize key.domain.size p.limits.maxDomainSize)) ∧ m' = .ofPolicy p
  covered : inputs.length ≤ p.limits.maxPublicInputs → key.domain.size ≤ p.limits.maxDomainSize →
    (Meter.ofPolicy p).Covers (plan inputs.length res) →
    res' = res ∧ m' = (Meter.ofPolicy p).recordAll (plan inputs.length res)
  -- the first charge that is not covered ends the run, whatever the work behind it comes to
  exceeded : inputs.length ≤ p.limits.maxPublicInputs → key.domain.size ≤ p.limits.maxDomainSize →
    ∀ pre op count post b, plan inputs.length res = pre ++ (op, count) :: post →
      (Meter.ofPolicy p).Covers pre → p.budget = some b → b < p.schedule.price (pre ++ [(op, count)]) →
      res' = .error (.ofExhaustion (.budget (p.schedule.price (pre ++ [(op, count)])) b op)) ∧
      m' = (Meter.ofPolicy p).recordAll (pre ++ [(op, count)])
  accepted : res' = .ok () → res = .ok () ∧ m'.used =
    p.schedule.base + inputs.length * p.schedule.perPublicInput + p.schedule.inversion +
      46 * p.schedule.g1Mul + 2 * p.schedule.pairing

theorem observes_of_not_fits (hinputs : ¬Fits key inputs) {e : PublicInputError}
    (hres : res = .error (.rejected (.malformedPublicInput e))) (p : Policy) :
    Observes key inputs p res res (.ofPolicy p) := by
  subst hres
  constructor
  case malformed => exact ⟨fun _ => hinputs, fun _ => ⟨e, rfl⟩⟩
  case unread => exact fun _ => ⟨rfl, rfl⟩
  case manyInputs => exact fun h => absurd h hinputs
  case largeDomain => exact fun h => absurd h hinputs
  case covered => exact fun _ _ _ => ⟨rfl, rfl⟩
  case exceeded =>
    intro _ _ pre op count post b hplan
    exact absurd hplan.symm (by simp [plan, reached])
  case accepted => exact fun h => nomatch h

section Fits

variable (hinputs : Fits key inputs) {n : ℕ} (hreached : reached res = n + 2)

include hinputs hreached

theorem malformed_iff_of_fits :
    (∃ e, res = .error (.rejected (.malformedPublicInput e))) ↔ ¬Fits key inputs := by
  constructor
  · rintro ⟨e, rfl⟩
    cases hreached
  · exact fun h => absurd hinputs h

theorem observes_of_manyInputs (h : p.limits.maxPublicInputs < inputs.length) :
    Observes key inputs p res (.error (.ofExhaustion (.publicInputs inputs.length p.limits.maxPublicInputs)))
      (.ofPolicy p) := by
  constructor
  case malformed => exact malformed_iff_of_fits hinputs hreached
  case unread => exact fun h => absurd hinputs h
  case manyInputs => exact fun _ _ => ⟨rfl, rfl⟩
  case largeDomain => exact fun _ hle => absurd h (not_lt.mpr hle)
  case covered => exact fun hle => absurd h (not_lt.mpr hle)
  case exceeded => exact fun hle => absurd h (not_lt.mpr hle)
  case accepted => exact fun h => nomatch h

theorem observes_of_largeDomain (hle : inputs.length ≤ p.limits.maxPublicInputs)
    (h : p.limits.maxDomainSize < key.domain.size) :
    Observes key inputs p res (.error (.ofExhaustion (.domainSize key.domain.size p.limits.maxDomainSize)))
      (.ofPolicy p) := by
  constructor
  case malformed => exact malformed_iff_of_fits hinputs hreached
  case unread => exact fun h => absurd hinputs h
  case manyInputs => exact fun _ hlt => absurd hle (not_le.mpr hlt)
  case largeDomain => exact fun _ _ _ => ⟨rfl, rfl⟩
  case covered => exact fun _ hle => absurd h (not_lt.mpr hle)
  case exceeded => exact fun _ hle => absurd h (not_lt.mpr hle)
  case accepted => exact fun h => nomatch h

theorem observes_of_paid (hle : inputs.length ≤ p.limits.maxPublicInputs)
    (hsize : key.domain.size ≤ p.limits.maxDomainSize) {res' : Except Failure Unit} {m' : Meter}
    (h : paid (plan inputs.length res) res (some (.ofPolicy p)) = (res', some m')) :
    Observes key inputs p res res' m' := by
  have hcovered (hcovers : (Meter.ofPolicy p).Covers (plan inputs.length res)) :
      res' = res ∧ m' = (Meter.ofPolicy p).recordAll (plan inputs.length res) := by
    obtain ⟨hres, hm⟩ := Prod.mk.inj (h.symm.trans (paid_of_covers hcovers res))
    exact ⟨hres, Option.some.inj hm⟩
  have hexceeded (pre : List Charge) (op : Operation) (count : ℤ) (post : List Charge) (b : ℤ)
      (hplan : plan inputs.length res = pre ++ (op, count) :: post) (hpre : (Meter.ofPolicy p).Covers pre)
      (hb : p.budget = some b) (hlt : b < p.schedule.price (pre ++ [(op, count)])) :
      res' = .error (.ofExhaustion (.budget (p.schedule.price (pre ++ [(op, count)])) b op)) ∧
      m' = (Meter.ofPolicy p).recordAll (pre ++ [(op, count)]) := by
    rw [← zero_add (p.schedule.price _)] at hlt ⊢
    rw [hplan] at h
    obtain ⟨hres, hm⟩ := Prod.mk.inj (h.symm.trans (paid_of_exceeds hpre hb hlt res))
    exact ⟨hres, Option.some.inj hm⟩
  constructor
  case malformed => exact malformed_iff_of_fits hinputs hreached
  case unread => exact fun h => absurd hinputs h
  case manyInputs => exact fun _ hlt => absurd hle (not_le.mpr hlt)
  case largeDomain => exact fun _ _ hlt => absurd hsize (not_le.mpr hlt)
  case covered => exact fun _ _ => hcovered
  case exceeded => exact fun _ _ => hexceeded
  case accepted =>
    rintro rfl
    obtain hcovers | ⟨pre, ⟨op, count⟩, post, b, hplan, hpre, hb, hlt⟩ :=
      Meter.covers_or_exceeds (.ofPolicy p) (plan inputs.length res)
    · obtain ⟨rfl, rfl⟩ := hcovered hcovers
      refine ⟨rfl, ?_⟩
      rw [Meter.used_recordAll, plan_ok, price_charges]
      exact zero_add _
    · rw [Meter.ofPolicy, zero_add] at hlt
      cases (hexceeded pre op count post b hplan hpre hb hlt).1

end Fits

end Observes

/-- A fresh meter that follows a policy only watches a run: if the limits and the budget admit all that is
charged the result is that without a meter, and otherwise the run stops at the first limit or charge that
they do not admit, with a rejection if the message about it can be written. -/
theorem run_meters [PairingSteps] (key : Key) (inputs : List Value) (input : ProofInput) (p : Policy) :
    ∃ res res' m', run key inputs input none = (res, none) ∧
      run key inputs input (some (.ofPolicy p)) = (res', some m') ∧ Observes key inputs p res res' m' := by
  by_cases hinputs : Fits key inputs
  · obtain ⟨n, res, hreached, hrun⟩ := run_eq_paid hinputs input
    have hplan : (charges inputs.length).take (n + 2) = plan inputs.length res := by rw [plan, hreached]
    rw [hrun, hplan]
    by_cases hle : (inputs.length : ℤ) ≤ p.limits.maxPublicInputs
    · by_cases hsize : (key.domain.size : ℤ) ≤ p.limits.maxDomainSize
      · obtain ⟨res', m', hpaid⟩ := exists_paid_some (plan inputs.length res) res (.ofPolicy p)
        refine ⟨res, res', m', rfl, ?_, observes_of_paid hinputs hreached hle hsize hpaid⟩
        rw [bind_ok (checkLimits_of_le hle hsize), hpaid]
      · have hlarge := not_le.mp hsize
        refine ⟨res, _, _, rfl, ?_, observes_of_largeDomain hinputs hreached hle hlarge⟩
        exact bind_error (checkLimits_of_largeDomain hle hlarge)
    · have hmany := not_le.mp hle
      refine ⟨res, _, _, rfl, ?_, observes_of_manyInputs hinputs hreached hmany⟩
      exact bind_error (checkLimits_of_manyInputs hmany)
  · obtain ⟨e, hrun⟩ := run_of_not_fits hinputs input
    exact ⟨_, _, _, hrun none, hrun _, observes_of_not_fits hinputs rfl p⟩

open Linearization in
theorem run_meters_twoRowKey :
    (∃ res m', run twoRowKey [.int 96] (.words looseValues) none = (res, none) ∧
      run twoRowKey [.int 96] (.words looseValues) (some (.ofPolicy .standard)) = (res, some m')) ∧
    ∃ m', run twoRowKey [.int 96] (.bytes []) (some (.ofPolicy { budget := some 20500 })) =
      (.error (.rejected (.resourceExhausted (.budget 21000 20500 .perPublicInput))), some m') := by
  constructor
  · obtain ⟨res, res', m', hnone, hsome, h⟩ := run_meters twoRowKey [.int 96] (.words looseValues) .standard
    have hcovers : (Meter.ofPolicy .standard).Covers (plan 1 res) := by
      intro b hb pre _ hpre
      obtain rfl := Option.some.inj hb
      have hall : ∀ cs ∈ (charges 1).inits, 0 + Policy.standard.schedule.price cs ≤ 2000000 := by decide
      exact hall pre ((List.mem_inits _ _).mpr (hpre.trans (List.take_prefix _ _)))
    obtain ⟨rfl, -⟩ := h.covered (by decide) (by decide) hcovers
    exact ⟨_, m', hnone, hsome⟩
  · obtain ⟨res, res', m', hnone, hsome, h⟩ :=
      run_meters twoRowKey [.int 96] (.bytes []) { budget := some 20500 }
    have hres : (.error (malformedProof (.byteCount 0)), none) = (res, (none : Option Meter)) := hnone
    obtain rfl := (Prod.mk.inj hres).1
    have hbase : (Meter.ofPolicy { budget := some 20500 }).Covers [(.base, 1)] := by
      intro b hb pre _ hpre
      obtain rfl := Option.some.inj hb
      have hall : ∀ cs ∈ [((.base, 1) : Charge)].inits, 0 + Policy.standard.schedule.price cs ≤ 20500 := by decide
      exact hall pre ((List.mem_inits _ _).mpr hpre)
    have hprice : ({ budget := some 20500 } : Policy).schedule.price [(.base, 1), (.perPublicInput, 1)] = 21000 := by
      decide
    have hwritable : (Exhaustion.budget 21000 20500 .perPublicInput).isWritable = true := by decide +kernel
    obtain ⟨hres, -⟩ := h.exceeded (by decide) (by decide) [(.base, 1)] .perPublicInput 1 [] 20500 rfl hbase rfl
      (by decide)
    rw [List.singleton_append, hprice, Failure.ofExhaustion, if_pos hwritable] at hres
    rw [hres] at hsome
    exact ⟨m', hsome⟩

open Linearization in
theorem not_observes_longBudget :
    ¬∀ p : Policy, ∃ res res' m', run twoRowKey [.int 96] (.bytes []) none = (res, none) ∧
      run twoRowKey [.int 96] (.bytes []) (some (.ofPolicy p)) = (res', some m') ∧
        (res' = res ∨ ∃ e, res' = .error (.rejected (.resourceExhausted e))) := by
  intro h
  obtain ⟨res, res', m', hnone, hsome, hclaim⟩ := h { budget := some (-10 ^ Integer.maxDigits) }
  have hres : (run twoRowKey [.int 96] (.bytes []) none).1 = .error (malformedProof (.byteCount 0)) := rfl
  have hres' : (run twoRowKey [.int 96] (.bytes [])
      (some (.ofPolicy { budget := some (-10 ^ Integer.maxDigits) }))).1 = .error .unwritable := by
    decide +kernel
  rw [hnone] at hres
  rw [hsome] at hres'
  subst hres hres'
  simp [malformedProof] at hclaim

end Verifier

end Settlement
