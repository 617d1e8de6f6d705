import Mathlib
import Settlement.Proofs.Loading
import Settlement.Proofs.Verifier.Verdict
import Settlement.Verifier.History

namespace Settlement

open Bn254 Metered

namespace Metered

variable {α β : Type}

def Keyed (x : Metered α) : Prop :=
  ∀ m, (x m).1 ≠ .error (.rejected .uninitialized)

theorem keyed_pure (a : α) : Keyed (pure a : Metered α) := fun _ => nofun

theorem keyed_throw {e : Failure} (h : e ≠ .rejected .uninitialized) : Keyed (throw e : Metered α) :=
  fun _ heq => h (Except.error.inj heq)

theorem Keyed.bind {x : Metered α} {f : α → Metered β} (hx : Keyed x) (hf : ∀ a, Keyed (f a)) : Keyed (x >>= f) := by
  intro m
  match hend : x m with
  | (.ok a, m') =>
    rw [bind_ok hend]
    exact hf a m'
  | (.error e, m') =>
    have hne := hx m
    rw [hend] at hne
    rw [bind_error hend]
    exact fun heq => hne (congrArg Except.error (Except.error.inj heq))

theorem keyed_ofExcept {ε : Type} {f : ε → Failure} (hf : ∀ e, f e ≠ .rejected .uninitialized) (y : Except ε α) :
    Keyed (ofExcept f y) := by
  cases y with
  | ok a => exact keyed_pure a
  | error e => exact keyed_throw (hf e)

theorem Ends.keyed {x : Metered α} {a : α} (h : x.Ends (.ok a)) : Keyed x := by
  intro m
  obtain ⟨m', -, hend | ⟨e, -, hend⟩⟩ := h.apply m
  · rw [hend]
    exact nofun
  · rw [hend, Failure.ofExhaustion]
    split <;> exact nofun

theorem keyed_charge (op : Operation) (count : ℤ) : Keyed (charge op count) :=
  (Ends.charge op count).keyed

theorem keyed_checkLimits (inputs size : ℤ) : Keyed (checkLimits inputs size) :=
  (Ends.checkLimits inputs size).keyed

end Metered

section Stages

variable (key : Key) (p : Proof) (ch : Challenges)

theorem Linearization.keyed_build (inputs : List ℤ) : Keyed (build key inputs p ch) := by
  unfold build
  split
  · exact keyed_throw nofun
  apply (keyed_charge _ _).bind
  intro _
  apply Keyed.bind
  · exact keyed_ofExcept nofun _
  intro pt
  dsimp only
  split
  · exact keyed_throw nofun
  apply (keyed_charge _ _).bind
  intro _
  apply (keyed_charge _ _).bind
  intro _
  apply (keyed_charge _ _).bind
  intro _
  exact keyed_pure _

theorem Openings.keyed_fold (claims : List (G1 × ℤ)) (v : ℤ) : Keyed (fold claims v) := by
  unfold fold Kzg.aggregate
  split
  · exact keyed_throw nofun
  apply (keyed_charge _ _).bind
  intro _
  exact keyed_pure _

theorem Openings.keyed_build (lin : Linearization) : Keyed (build key p ch lin) := by
  apply (keyed_fold _ _).bind
  intro _
  apply (keyed_fold _ _).bind
  intro _
  exact keyed_pure _

theorem Verifier.keyed_payEntry (inputs : List ℤ) : Keyed (payEntry key inputs) := by
  apply (keyed_checkLimits _ _).bind
  intro _
  apply (keyed_charge _ _).bind
  intro _
  exact keyed_charge _ _

variable [PairingSteps]

theorem Kzg.keyed_batchVerify (os : List Opening) (u : ℤ) (key : OpeningKey) : Keyed (batchVerify os u key) := by
  unfold batchVerify
  split
  · exact keyed_throw nofun
  apply (keyed_charge _ _).bind
  intro _
  apply (keyed_charge _ _).bind
  intro _
  apply (keyed_charge _ _).bind
  intro _
  exact keyed_ofExcept nofun _

theorem Openings.keyed_check (os : List Kzg.Opening) : Keyed (check key os ch) := by
  apply (Kzg.keyed_batchVerify _ _ _).bind
  intro b
  split
  · exact keyed_throw nofun
  · exact keyed_pure _

theorem Verifier.keyed_decideProof (inputs : List ℤ) : Keyed (decideProof key inputs p) := by
  apply Keyed.bind
  · exact keyed_ofExcept nofun _
  intro ch
  apply Keyed.bind
  · exact keyed_ofExcept nofun _
  intro _
  apply (Linearization.keyed_build key p ch inputs).bind
  intro lin
  apply (Openings.keyed_build key p ch lin).bind
  intro os
  exact Openings.keyed_check key ch os

theorem Verifier.keyed_run (inputs : List Value) (input : ProofInput) : Keyed (run key inputs input) := by
  apply Keyed.bind
  · exact keyed_ofExcept nofun _
  intro xs
  apply (keyed_payEntry key xs).bind
  intro _
  apply Keyed.bind
  · exact keyed_ofExcept nofun _
  intro p
  exact keyed_decideProof key p xs

end Stages

theorem KeyLoader.exists_document {loader : KeyLoader} {key : Key} (h : loader.load = .ok key) :
    ∃ doc, Key.ofDocument doc = .ok key := by
  cases loader with
  | json path content => exact Key.exists_document_of_load h
  | static doc key' built =>
    obtain rfl := Except.ok.inj h
    exact ⟨doc, built⟩

theorem Key.digest?_of_ofDocument {doc : KeyDocument} {key : Key} (h : ofDocument doc = .ok key) :
    key.digest? = .ok key.digest := by
  obtain ⟨bs, hwords, hdigest⟩ := (valid_of_ofDocument h).digest
  rw [digest?, hwords, hdigest]
  rfl

namespace KeyStore

def Reply.installed? : Reply → Option Key
  | .installed key _ => some key
  | _ => none

def installedKeys (replies : List Reply) : List Key :=
  replies.filterMap Reply.installed?

theorem installedKeys_cons (reply : Reply) (replies : List Reply) :
    installedKeys (reply :: replies) = reply.installed?.toList ++ installedKeys replies := by
  rw [installedKeys, List.filterMap_cons]
  cases reply.installed? <;> rfl

section Run

variable [PairingSteps] (store : KeyStore)

theorem step_install (loader : KeyLoader) (replace : Bool) :
    (∃ e, loader.load = .error e ∧ store.step (.install loader replace) = (.refused (.loader e), store)) ∨
    (∃ key, loader.load = .ok key ∧ (store.active ≠ none ∧ replace = false) ∧
      store.step (.install loader replace) = (.refused .alreadyInstalled, store)) ∨
    ∃ key, loader.load = .ok key ∧ ¬(store.active ≠ none ∧ replace = false) ∧
      store.step (.install loader replace) = (.installed key key.digest, ⟨some key⟩) := by
  cases hload : loader.load with
  | error e => exact .inl ⟨e, rfl, by simp only [step, hload, install]⟩
  | ok key =>
    obtain ⟨doc, hdoc⟩ := KeyLoader.exists_document hload
    have hblocked : (store.isInitialized && !replace) = true ↔ store.active ≠ none ∧ replace = false := by
      simp [isInitialized, Option.isSome_iff_ne_none]
    by_cases h : (store.isInitialized && !replace) = true
    · refine .inr (.inl ⟨key, rfl, hblocked.mp h, ?_⟩)
      simp only [step, hload, install, h, ↓reduceIte]
    · refine .inr (.inr ⟨key, rfl, mt hblocked.mpr h, ?_⟩)
      simp only [step, hload, install, h, Bool.false_eq_true, ↓reduceIte, Key.digest?_of_ofDocument hdoc]

theorem step_store (a : Step) :
    (∃ key, (store.step a).1.installed? = some key ∧ (store.step a).2 = ⟨some key⟩) ∨
      (store.step a).1.installed? = none ∧ (store.step a).2 = store := by
  cases a with
  | install loader replace =>
    obtain ⟨e, -, hstep⟩ | ⟨key, -, -, hstep⟩ | ⟨key, -, -, hstep⟩ := step_install store loader replace
    · rw [hstep]
      exact .inr ⟨rfl, rfl⟩
    · rw [hstep]
      exact .inr ⟨rfl, rfl⟩
    · rw [hstep]
      exact .inl ⟨key, rfl, rfl⟩
  | get => exact .inr ⟨rfl, rfl⟩
  | initialized => exact .inr ⟨rfl, rfl⟩
  | verify inputs proof m => exact .inr ⟨rfl, rfl⟩

theorem run_cons (a : Step) (steps : List Step) :
    store.run (a :: steps) = ((store.step a).1 :: ((store.step a).2.run steps).1, ((store.step a).2.run steps).2) := rfl

theorem run_append (as cs : List Step) :
    store.run (as ++ cs) = ((store.run as).1 ++ ((store.run as).2.run cs).1, ((store.run as).2.run cs).2) := by
  induction as generalizing store with
  | nil => rfl
  | cons a as ih => simp only [List.cons_append, run_cons, ih]

theorem active_run (steps : List Step) :
    (store.run steps).2.active = (installedKeys (store.run steps).1).getLast?.or store.active := by
  induction steps generalizing store with
  | nil => rfl
  | cons a steps ih =>
    rw [run_cons, ih, installedKeys_cons]
    obtain ⟨key, hinstalled, hstore⟩ | ⟨hinstalled, hstore⟩ := step_store store a
    -- this key counts if none is installed after it
    · rw [hinstalled, hstore, Option.toList_some, List.singleton_append, List.getLast?_cons]
      cases (installedKeys _).getLast? <;> rfl
    · rw [hinstalled, hstore, Option.toList_none, List.nil_append]

theorem step_verify (inputs : List Value) (proof : ProofInput) (m : Option Meter) :
    store.step (.verify inputs proof m) =
      (.verdict (Verifier.verify store inputs proof m).1 (Verifier.verify store inputs proof m).2, store) := rfl

theorem verdict_ne_uninitialized (key : Key) (inputs : List Value) (proof : ProofInput) (m : Option Meter) :
    (Verifier.verdict (Verifier.run key inputs proof) m).1 ≠ .ok (.rejected .uninitialized) := by
  intro h
  have hrun := Verifier.result_of_verdict (Prod.ext h rfl)
  exact Verifier.keyed_run key inputs proof m (congrArg Prod.fst hrun)

theorem step_verify_of_active {key : Key} (h : store.active = some key) (inputs : List Value) (proof : ProofInput)
    (m : Option Meter) : store.step (.verify inputs proof m) =
      (.verdict (Verifier.verdict (Verifier.run key inputs proof) m).1
        (Verifier.verdict (Verifier.run key inputs proof) m).2, store) := by
  obtain ⟨active⟩ := store
  obtain rfl : active = some key := h
  have hverify := Verifier.verify_some key inputs proof
  rw [Verifier.verifyUnder] at hverify
  rw [step_verify, hverify]

theorem step_verify_of_none (h : store.active = none) (inputs : List Value) (proof : ProofInput) (m : Option Meter) :
    store.step (.verify inputs proof m) = (.verdict (.ok (.rejected .uninitialized)) m, store) := by
  have hget : store.get = .error .uninitialized := by rw [get, h]
  have hverify : Verifier.verify store inputs proof m = (.ok (.rejected .uninitialized), m) :=
    Verifier.verdict_of_rejected (Metered.bind_error (Metered.ofExcept_error hget m))
  rw [step_verify, hverify]

/-- Whatever steps a new store has been through, the key that was installed last is active, or none if none was. An
installation is refused for a key in the way just if its loader succeeds, a key is active and it is not to be replaced,
and for its loader whenever that fails; it installs what its loader gives, or leaves the store as it is. No other step
changes the store. The store answers that it has no key until an installation has succeeded, and from then on verifies
under the active key and nothing else. -/
theorem run_follows_installs {steps : List Step} {replies : List Reply} {store : KeyStore}
    (h : run {} steps = (replies, store)) :
    store.active = (installedKeys replies).getLast? ∧
    (∀ a, run {} (steps ++ [a]) = (replies ++ [(store.step a).1], (store.step a).2)) ∧
    (∀ loader replace,
      ((store.step (.install loader replace)).1 = .refused .alreadyInstalled ↔
        (∃ key, loader.load = .ok key) ∧ store.active ≠ none ∧ replace = false) ∧
      (∀ e, (store.step (.install loader replace)).1 = .refused (.loader e) ↔ loader.load = .error e) ∧
      ((∃ key, loader.load = .ok key ∧
          store.step (.install loader replace) = (.installed key key.digest, ⟨some key⟩)) ∨
        ∃ e, store.step (.install loader replace) = (.refused e, store))) ∧
    (store.step .initialized = (.initialized (!(installedKeys replies).isEmpty), store)) ∧
    ((store.step .get).2 = store ∧
      ((store.step .get).1 = .active (.error .uninitialized) ↔ installedKeys replies = []) ∧
      ∀ key, store.active = some key → (store.step .get).1 = .active (.ok key)) ∧
    ∀ inputs proof m,
      (store.step (.verify inputs proof m)).2 = store ∧
      ((∃ m', (store.step (.verify inputs proof m)).1 = .verdict (.ok (.rejected .uninitialized)) m') ↔
        installedKeys replies = []) ∧
      ∀ key, store.active = some key →
        (store.step (.verify inputs proof m)).1 =
          .verdict (Verifier.verdict (Verifier.run key inputs proof) m).1
            (Verifier.verdict (Verifier.run key inputs proof) m).2 := by
  have hactive := active_run {} steps
  rw [h, Option.or_none] at hactive
  have hnone : store.active = none ↔ installedKeys replies = [] := by rw [hactive, List.getLast?_eq_none_iff]
  refine ⟨hactive, ?_, ?_, ?_, ?_, ?_⟩
  · intro a
    rw [run_append, h]
    rfl
  · intro loader replace
    obtain ⟨e, hload, hstep⟩ | ⟨key, hload, hblocked, hstep⟩ | ⟨key, hload, hfree, hstep⟩ :=
      step_install store loader replace
    · simp [hstep, hload]
    · obtain ⟨hactive, rfl⟩ := hblocked
      simp [hstep, hload, hactive]
    · simp [hstep, hload, hfree]
  · have hinitialized : store.isInitialized = !(installedKeys replies).isEmpty := by
      rw [isInitialized, hactive]
      cases installedKeys replies <;> simp
    rw [step, hinitialized]
  · refine ⟨rfl, ?_, ?_⟩
    · rw [← hnone]
      cases hkey : store.active <;> simp [step, get, hkey]
    · intro key hkey
      simp only [step, get, hkey]
  · intro inputs proof m
    refine ⟨rfl, ?_, ?_⟩
    · rw [← hnone]
      cases hkey : store.active with
      | none => simp [step_verify_of_none store hkey]
      | some key =>
        rw [step_verify_of_active store hkey]
        simp [verdict_ne_uninitialized]
    · intro key hkey
      rw [step_verify_of_active store hkey]

end Run

open Linearization

def twoRowLoader : KeyLoader :=
  .static twoRowDocument twoRowKey ofDocument_twoRowDocument

def missingLoader : KeyLoader :=
  .json "vk.json" none

def sampleSteps : List Step :=
  [.install missingLoader false, .install twoRowLoader false, .verify [.int 96] (.words looseValues) none,
    .install twoRowLoader false]

theorem run_follows_installs_sampleSteps :
    (run {} sampleSteps).2.active = some twoRowKey ∧
    ((run {} sampleSteps).2.step (.install twoRowLoader false)).1 = .refused .alreadyInstalled ∧
    ((run {} sampleSteps).2.step (.install missingLoader true)).1 =
      .refused (.loader (.load (.unreadable "vk.json"))) ∧
    ((run {} sampleSteps).2.step .get).1 = .active (.ok twoRowKey) ∧
    ((run {} sampleSteps).2.step (.verify [.int 97] (.bytes []) none)).1 =
      .verdict (Verifier.verdict (Verifier.run twoRowKey [.int 97] (.bytes [])) none).1
        (Verifier.verdict (Verifier.run twoRowKey [.int 97] (.bytes [])) none).2 ∧
    (step {} .get).1 = .active (.error .uninitialized) := by
  have hfirst : step {} (.install twoRowLoader false) = (.installed twoRowKey twoRowKey.digest, ⟨some twoRowKey⟩) := by
    have hdigest := Key.digest?_of_ofDocument ofDocument_twoRowDocument
    simp only [step, twoRowLoader, KeyLoader.load, install, isInitialized, Option.isSome_none, Bool.false_and,
      Bool.false_eq_true, ↓reduceIte, hdigest]
  have hkeys : installedKeys (run {} sampleSteps).1 = [twoRowKey] := by
    have hmissing : step {} (.install missingLoader false) =
        (.refused (.loader (.load (.unreadable "vk.json"))), {}) := rfl
    have hsecond : step ⟨some twoRowKey⟩ (.install twoRowLoader false) =
        (.refused .alreadyInstalled, ⟨some twoRowKey⟩) := rfl
    rw [sampleSteps, run_cons, hmissing, run_cons, hfirst, run_cons, step_verify, run_cons, hsecond, installedKeys_cons,
      installedKeys_cons, installedKeys_cons, installedKeys_cons]
    rfl
  have hrun : run {} sampleSteps = ((run {} sampleSteps).1, (run {} sampleSteps).2) := Prod.mk.eta.symm
  obtain ⟨hactive, -, hinstall, -, hget, hverify⟩ := run_follows_installs hrun
  rw [hkeys] at hactive
  have hempty : run {} [] = ([], {}) := rfl
  obtain ⟨-, -, -, -, ⟨-, hnone, -⟩, -⟩ := run_follows_installs hempty
  refine ⟨hactive, ?_, ?_, hget.2.2 _ hactive, (hverify _ _ _).2.2 _ hactive, hnone.mpr rfl⟩
  · exact (hinstall twoRowLoader false).1.mpr ⟨⟨_, rfl⟩, by simp [hactive], rfl⟩
  · exact ((hinstall missingLoader true).2.1 _).mpr rfl

end KeyStore

end Settlement
