import Mathlib
import Settlement.Proofs.Rpc.Client

namespace Settlement

open Session

namespace Session.Progress

variable {σ : Type} (p : Progress σ)

theorem requests_posted (url : String) (r : Request) (remote : σ) :
    requests { p.record (.posted url r) with remote } = p.requests ++ [r] := by
  simp [requests, events, record, List.filterMap_append]

theorem requests_slept (seconds time : Binary64) :
    requests { p.record (.slept seconds) with time } = p.requests := by
  simp [requests, events, record, List.filterMap_append]

end Session.Progress

namespace Rpc

def problem? : Exchange → Option String
  | .response status _ => if status ∈ [429, 502, 503, 504] then some s!"HTTP {status}" else none
  | .transportFailed message => some message
  | .badEndpoint .. => none
  | .unusable .. => none

def Transient (x : Exchange) : Prop :=
  (problem? x).isSome = true

section

variable [Platform]

theorem ofExchange_eq_again_iff (url method : String) {problem : String} {x : Exchange} :
    Outcome.ofExchange url method x = .again problem ↔ problem? x = some problem := by
  cases x with
  | response status body =>
    simp only [Outcome.ofExchange, problem?, isTransient, List.contains_iff_mem]
    split <;> simp
  | transportFailed message => simp [Outcome.ofExchange, problem?]
  | badEndpoint reason detail => simp [Outcome.ofExchange, problem?]
  | unusable reason detail => simp [Outcome.ofExchange, problem?]

theorem Transient.again {x : Exchange} (h : Transient x) (url method : String) :
    ∃ problem, problem? x = some problem ∧ Outcome.ofExchange url method x = .again problem := by
  obtain ⟨problem, hproblem⟩ := Option.isSome_iff_exists.mp h
  exact ⟨problem, hproblem, (ofExchange_eq_again_iff url method).mpr hproblem⟩

theorem transient_of_again {url method problem : String} {x : Exchange}
    (h : Outcome.ofExchange url method x = .again problem) : Transient x := by
  rw [ofExchange_eq_again_iff] at h
  rw [Transient, h]
  rfl

theorem final_or_transient (url method : String) (x : Exchange) :
    (∃ result, Outcome.ofExchange url method x = .final result) ∨ Transient x := by
  cases hx : Outcome.ofExchange url method x with
  | final result => exact .inl ⟨result, rfl⟩
  | again problem => exact .inr (transient_of_again hx)

/-- The law for one call whose posts get these answers: how often it is posted, and its result. The first answer that
is not transient ends the call, and its result is in that answer. -/
inductive Concludes (c : Client) (method : String) (answers : ℕ → Exchange) : ℕ → Except Error Value → Prop
  | final {k : ℕ} {result : Except Error Value} (hk : k < c.attempts) (hbefore : ∀ j < k, Transient (answers j))
    (hfinal : Outcome.ofExchange c.url method (answers k) = .final result)
    (hresult : ∀ e, result = .error e → e.IsRemote) :
    Concludes c method answers (k + 1) result
  | exhausted (hall : ∀ j < c.attempts, Transient (answers j)) :
    Concludes c method answers c.attempts (.error (.transport method (problem? (answers c.maxRetries.toNat))))

structure Reaches (c : Client) (params : List Value) (answers : ℕ → Exchange) (k : ℕ) : Prop where
  params : Json.checkParams 1 params = .ok ()
  attempts : k < c.attempts
  transient : ∀ j < k, Transient (answers j)
  pauses : ∀ j < k, ∃ seconds, c.nextPause j = .ok seconds

theorem Reaches.again {c : Client} {params : List Value} {answers : ℕ → Exchange} {k : ℕ}
    (h : Reaches c params answers k) (hk : k < c.maxRetries) (hanswer : Transient (answers k)) {seconds : Binary64}
    (hpause : c.nextPause k = .ok seconds) : Reaches c params answers (k + 1) where
  params := h.params
  attempts := by
    rw [Client.attempts]
    omega
  transient := Nat.forall_lt_succ_right.mpr ⟨h.transient, hanswer⟩
  pauses := Nat.forall_lt_succ_right.mpr ⟨h.pauses, seconds, hpause⟩

/-- The law of a client that may be kept from a post or a pause. -/
inductive Settles (c : Client) (method : String) (params : List Value) (answers : ℕ → Exchange) :
    ℕ → Except Error Value → Prop
  | unwritable {e : Json.WriteError} (h : Json.checkParams 1 params = .error e) :
    Settles c method params answers 0 (.error (.unwritable e))
  | final {k : ℕ} {result : Except Error Value} (h : Reaches c params answers k)
    (hfinal : Outcome.ofExchange c.url method (answers k) = .final result) :
    Settles c method params answers (k + 1) result
  | stopped {k : ℕ} {e : Error} (h : Reaches c params answers k) (hk : k < c.maxRetries) (hanswer : Transient (answers k))
    (hpause : c.nextPause k = .error e) : Settles c method params answers (k + 1) (.error e)
  | exhausted (h : Reaches c params answers c.maxRetries.toNat) (hanswer : Transient (answers c.maxRetries.toNat)) :
    Settles c method params answers c.attempts (.error (.transport method (problem? (answers c.maxRetries.toNat))))

structure Undisturbed (c : Client) (calls : List (String × List Value)) (answers : ℕ → Exchange) : Prop where
  params : ∀ call ∈ calls, Json.checkParams 1 call.2 = .ok ()
  pauses : ∀ k : ℕ, k < c.maxRetries → ∃ seconds, c.nextPause k = .ok seconds
  answers : ∀ method j, Outcome.ofExchange c.url method (answers j) ≠ .final (.error .tooDeep)

theorem Settles.conclude {c : Client} {method : String} {params : List Value} {answers : ℕ → Exchange} {posts : ℕ}
    {result : Except Error Value} (h : Settles c method params answers posts result)
    (hparams : Json.checkParams 1 params = .ok ())
    (hpauses : ∀ k : ℕ, k < c.maxRetries → ∃ seconds, c.nextPause k = .ok seconds)
    (hanswers : ∀ j, Outcome.ofExchange c.url method (answers j) ≠ .final (.error .tooDeep)) :
    Concludes c method answers posts result := by
  cases h with
  | unwritable h => cases h.symm.trans hparams
  | @final k _ h hfinal =>
    refine .final h.attempts h.transient hfinal ?_
    rintro e rfl
    obtain hremote | ⟨rfl, -⟩ := isRemote_of_final hfinal
    · exact hremote
    · exact absurd hfinal (hanswers k)
  | stopped _ hk _ hpause =>
    obtain ⟨seconds, hseconds⟩ := hpauses _ hk
    cases hpause.symm.trans hseconds
  | exhausted h hanswer =>
    refine .exhausted fun j hj => ?_
    rw [Client.attempts] at hj
    obtain hlt | rfl : j < c.maxRetries.toNat ∨ j = c.maxRetries.toNat := by omega
    · exact h.transient j hlt
    · exact hanswer

theorem Concludes.isRemote {c : Client} {method : String} {answers : ℕ → Exchange} {posts : ℕ} {e : Error}
    (h : Concludes c method answers posts (.error e)) : e.IsRemote := by
  cases h with
  | final _ _ _ hresult => exact hresult e rfl
  | exhausted => trivial

theorem Settles.eq_error {c : Client} {method : String} {params : List Value} {answers : ℕ → Exchange} {posts : ℕ}
    {result : Except Error Value} (h : Settles c method params answers posts result)
    (hparams : Json.checkParams 1 params = .ok ()) (hretries : pauseLimit < c.maxRetries)
    (hall : ∀ j, Transient (answers j)) : ∃ k e, c.nextPause k = .error e ∧ result = .error e := by
  cases h with
  | unwritable h => cases h.symm.trans hparams
  | @final k _ h hfinal =>
    obtain ⟨problem, -, hagain⟩ := (hall k).again c.url method
    cases hagain.symm.trans hfinal
  | stopped _ _ _ hpause => exact ⟨_, _, hpause, rfl⟩
  | exhausted h _ =>
    obtain ⟨seconds, hseconds⟩ := h.pauses pauseLimit (by omega)
    cases (nextPause_of_limit le_rfl).symm.trans hseconds

/-- Calls one after the other under a law for each: the first has the number behind `made` and meets the answers behind
the first `used`. All posts of a call are the same request. -/
inductive Served (law : String → List Value → (ℕ → Exchange) → ℕ → Except Error Value → Prop) (answers : ℕ → Exchange) :
    ℕ → ℕ → List (String × List Value) → List (Except Error Value) → List Request → Prop
  | nil {made used : ℕ} : Served law answers made used [] [] []
  | cons {made used posts : ℕ} {method : String} {params : List Value} {result : Except Error Value}
    {calls : List (String × List Value)} {results : List (Except Error Value)} {requests : List Request}
    (h : law method params (fun j => answers (used + j)) posts result)
    (hrest : Served law answers (made + 1) (used + posts) calls results requests) :
    Served law answers made used ((method, params) :: calls) (result :: results)
      (List.replicate posts ⟨made + 1, method, params⟩ ++ requests)

theorem Served.conclude {c : Client} {answers : ℕ → Exchange} {made used : ℕ} {calls : List (String × List Value)}
    {results : List (Except Error Value)} {requests : List Request}
    (h : Served (Settles c) answers made used calls results requests) (hcalm : Undisturbed c calls answers) :
    Served (fun method _ => Concludes c method) answers made used calls results requests := by
  induction h with
  | nil => exact .nil
  | @cons made used posts method params result calls results requests h _ ih =>
    have hparams := List.forall_mem_cons.mp hcalm.params
    refine .cons (h.conclude hparams.1 hcalm.pauses fun j => hcalm.answers method (used + j)) (ih ?_)
    exact { hcalm with params := hparams.2 }

end

def scripted (files : String → FileState) (answers : ℕ → Exchange) : Surroundings ℕ :=
  { files, answer := fun n _ => (answers n, n + 1) }

def Client.requestEach [Platform] (c : Client) (calls : List (String × List Value)) :
    StateT ℕ Session (List (Except Error Value)) :=
  calls.mapM fun call => (c.request call.1 call.2).run

def Spends (r : Request) (posts : ℕ) (p p' : Progress ℕ) : Prop :=
  p'.remote = p.remote + posts ∧ p'.requests = p.requests ++ List.replicate posts r

theorem Spends.trans {r : Request} {j k : ℕ} {p p' p'' : Progress ℕ} (h : Spends r j p p') (h' : Spends r k p' p'') :
    Spends r (j + k) p p'' := by
  obtain ⟨hremote, hrequests⟩ := h
  obtain ⟨hremote', hrequests'⟩ := h'
  refine ⟨by omega, ?_⟩
  rw [hrequests', hrequests, List.append_assoc, List.replicate_add]

variable {c : Client} (files : String → FileState) {answers : ℕ → Exchange} {p : Progress ℕ} {r : Request}

theorem spends_posted (url : String) : Spends r 1 p { p.record (.posted url r) with remote := p.remote + 1 } :=
  ⟨rfl, p.requests_posted url r (p.remote + 1)⟩

theorem Spends.paused {posts : ℕ} {p' : Progress ℕ} (h : Spends r posts p p') (seconds time : Binary64) :
    Spends r posts p { p'.record (.slept seconds) with time } :=
  ⟨h.1, (p'.requests_slept seconds time).trans h.2⟩

variable [Platform]

section Attempt

variable {made : ℕ} (hparams : Json.checkParams 1 r.params = .ok ())

include hparams

theorem run_attempt_final (left : ℕ) (last : Option String) {result : Except Error Value}
    (h : Outcome.ofExchange c.url r.method (answers p.remote) = .final result) :
    ∃ p', Session.run (scripted files answers) (c.attempt r (left + 1) made last) p = (result, p') ∧ Spends r 1 p p' := by
  refine ⟨_, ?_, spends_posted c.url⟩
  rw [attempt_succ _ _ _ hparams]
  simp only [Session.run, scripted, h]

theorem run_attempt_last (last : Option String) (h : Transient (answers p.remote)) :
    ∃ p', Session.run (scripted files answers) (c.attempt r 1 made last) p =
      (.error (.transport r.method (problem? (answers p.remote))), p') ∧ Spends r 1 p p' := by
  obtain ⟨problem, hproblem, hagain⟩ := h.again c.url r.method
  refine ⟨_, ?_, spends_posted c.url⟩
  rw [attempt_succ _ _ _ hparams, hproblem]
  simp only [Session.run, scripted, hagain, ↓reduceIte]
  rfl

theorem run_attempt_again (left : ℕ) (last : Option String) (h : Transient (answers p.remote)) {seconds : Binary64}
    (hpause : c.nextPause made = .ok seconds) : ∃ last' p', Session.run (scripted files answers)
      (c.attempt r (left + 2) made last) p =
        Session.run (scripted files answers) (c.attempt r (left + 1) (made + 1) last') p' ∧
        Spends r 1 p p' := by
  obtain ⟨problem, -, hagain⟩ := h.again c.url r.method
  refine ⟨some problem, _, ?_, (spends_posted c.url).paused seconds (p.time.add seconds)⟩
  rw [attempt_succ _ _ _ hparams]
  simp only [Session.run, scripted, hagain, hpause, Nat.add_eq_zero_iff, one_ne_zero, and_false, ↓reduceIte]
  rfl

theorem run_attempt_stopped (left : ℕ) (last : Option String) (h : Transient (answers p.remote)) {e : Error}
    (hpause : c.nextPause made = .error e) :
    ∃ p', Session.run (scripted files answers) (c.attempt r (left + 2) made last) p = (.error e, p') ∧
      Spends r 1 p p' := by
  obtain ⟨problem, -, hagain⟩ := h.again c.url r.method
  refine ⟨_, ?_, spends_posted c.url⟩
  rw [attempt_succ _ _ _ hparams]
  simp only [Session.run, scripted, hagain, hpause, Nat.add_eq_zero_iff, one_ne_zero, and_false, ↓reduceIte]

end Attempt

theorem run_attempt_settles {made first : ℕ} (left : ℕ) (last : Option String) (hremote : p.remote = first + made)
    (hreaches : Reaches c r.params (fun j => answers (first + j)) made) {result : Except Error Value}
    (hfinal : Outcome.ofExchange c.url r.method (answers p.remote) = .final result) :
    ∃ posts result p', Session.run (scripted files answers) (c.attempt r (left + 1) made last) p = (result, p') ∧
      Settles c r.method r.params (fun j => answers (first + j)) (made + posts) result ∧ Spends r posts p p' := by
  obtain ⟨p', hrun, hspends⟩ := run_attempt_final files hreaches.params left last hfinal
  exact ⟨1, result, p', hrun, .final hreaches (hremote ▸ hfinal), hspends⟩

theorem run_attempt {left made first : ℕ} (last : Option String) (hleft : made + left = c.maxRetries)
    (hremote : p.remote = first + made) (hreaches : Reaches c r.params (fun j => answers (first + j)) made) :
    ∃ posts result p', Session.run (scripted files answers) (c.attempt r (left + 1) made last) p = (result, p') ∧
      Settles c r.method r.params (fun j => answers (first + j)) (made + posts) result ∧ Spends r posts p p' := by
  -- by induction on the attempts that are left, the answers being counted from the first attempt on
  induction left generalizing made last p with
  | zero =>
    obtain ⟨result, hfinal⟩ | htransient := final_or_transient c.url r.method (answers p.remote)
    · exact run_attempt_settles files 0 last hremote hreaches hfinal
    · obtain ⟨p', hrun, hspends⟩ := run_attempt_last files hreaches.params last htransient
      have hlast : c.maxRetries.toNat = made := by omega
      have hattempts : made + 1 = c.attempts := by
        rw [Client.attempts]
        omega
      have hsettles : Settles c r.method r.params (fun j => answers (first + j)) c.attempts _ :=
        .exhausted (hlast.symm ▸ hreaches) (by rwa [hlast, ← hremote])
      rw [hlast, ← hremote, ← hattempts] at hsettles
      exact ⟨1, _, p', hrun, hsettles, hspends⟩
  | succ left ih =>
    obtain ⟨result, hfinal⟩ | htransient := final_or_transient c.url r.method (answers p.remote)
    · exact run_attempt_settles files (left + 1) last hremote hreaches hfinal
    · have hanswer : Transient (answers (first + made)) := hremote ▸ htransient
      cases hpause : c.nextPause made with
      | error e =>
        obtain ⟨p', hrun, hspends⟩ := run_attempt_stopped files hreaches.params left last htransient hpause
        exact ⟨1, _, p', hrun, .stopped hreaches (by omega) hanswer hpause, hspends⟩
      | ok seconds =>
        obtain ⟨last', p', hrun, hspends⟩ := run_attempt_again files hreaches.params left last htransient hpause
        have hnext := hreaches.again (by omega) hanswer hpause
        obtain ⟨posts, result, p'', hrun', hsettles, hspends'⟩ :=
          ih (p := p') last' (by omega) (by rw [hspends.1]; omega) hnext
        refine ⟨1 + posts, result, p'', hrun.trans hrun', ?_, hspends.trans hspends'⟩
        rwa [← add_assoc]

theorem run_attempts (answers : ℕ → Exchange) (hretries : 0 ≤ c.maxRetries) :
    ∃ posts result p', Session.run (scripted files answers) (c.attempt r c.attempts 0 none) p = (result, p') ∧
      Settles c r.method r.params (fun j => answers (p.remote + j)) posts result ∧ Spends r posts p p' := by
  obtain ⟨retries, hretried⟩ := Int.eq_ofNat_of_zero_le hretries
  have hattempts : c.attempts = retries + 1 := by
    rw [Client.attempts]
    omega
  rw [hattempts]
  cases hparams : Json.checkParams 1 r.params with
  | error e =>
    rw [attempt_unwritable _ _ _ hparams]
    exact ⟨0, _, p, rfl, .unwritable hparams, by simp [Spends]⟩
  | ok u =>
    have hreaches : Reaches c r.params (fun j => answers (p.remote + j)) 0 :=
      ⟨hparams, by omega, by simp, by simp⟩
    have hleft : ((0 : ℕ) : ℤ) + retries = c.maxRetries := by omega
    obtain ⟨posts, result, p', hrun, hsettles, hspends⟩ := run_attempt files none hleft rfl hreaches
    exact ⟨posts, result, p', hrun, by rwa [zero_add] at hsettles, hspends⟩

theorem run_requestEach_cons (made : ℕ) (method : String) (params : List Value) (calls : List (String × List Value)) :
    (c.requestEach ((method, params) :: calls)).run made =
      (c.attempt ⟨made + 1, method, params⟩ c.attempts 0 none).bind fun result =>
        ((c.requestEach calls).run (made + 1)).bind fun after => .done (result :: after.1, after.2) := by
  rw [Client.requestEach, List.mapM_cons]
  exact bind_bind (c.attempt ⟨made + 1, method, params⟩ c.attempts 0 none) (fun result => .done (result, made + 1)) _

theorem served_run (answers : ℕ → Exchange) (hretries : 0 ≤ c.maxRetries) (calls : List (String × List Value))
    (made : ℕ) (p : Progress ℕ) :
    ∃ results n requests p', Session.run (scripted files answers) ((c.requestEach calls).run made) p =
      ((results, n), p') ∧ Served (Settles c) answers made p.remote calls results requests ∧
        p'.requests = p.requests ++ requests := by
  -- by induction on the calls: each has the number behind the one before and meets the answers that it has left
  induction calls generalizing made p with
  | nil => exact ⟨[], made, [], p, rfl, .nil, (List.append_nil _).symm⟩
  | cons call calls ih =>
    obtain ⟨method, params⟩ := call
    obtain ⟨posts, result, p', hrun, hsettles, hremote, hrequests⟩ :=
      run_attempts (p := p) (r := ⟨made + 1, method, params⟩) files answers hretries
    obtain ⟨results, n, requests, p'', hrun', hserved, hrequests'⟩ := ih (made + 1) p'
    refine ⟨result :: results, n, List.replicate posts ⟨made + 1, method, params⟩ ++ requests, p'', ?_, ?_, ?_⟩
    · rw [run_requestEach_cons, run_bind, hrun, run_bind, hrun']
      rfl
    · rw [hremote] at hserved
      exact .cons hsettles hserved
    · rw [hrequests', hrequests, List.append_assoc]

/-- Calls of one client, whatever is answered to them, are numbered from one and obey the law of attempts with its
exceptions, and without them where nothing disturbs the client. -/
theorem requestEach_obeys (c : Client) (hretries : 0 ≤ c.maxRetries) (files : String → FileState)
    (answers : ℕ → Exchange) (calls : List (String × List Value)) :
    let after := Session.run (scripted files answers) ((c.requestEach calls).run 0) { remote := 0 }
    Served (Settles c) answers 0 0 calls after.1.1 after.2.requests ∧ (Undisturbed c calls answers →
      Served (fun method _ => Concludes c method) answers 0 0 calls after.1.1 after.2.requests) := by
  obtain ⟨results, n, requests, p', hrun, hserved, hrequests⟩ :=
    served_run files answers hretries calls 0 { remote := 0 }
  have hrequests : p'.requests = requests := hrequests
  simp only [hrun, hrequests]
  exact ⟨hserved, hserved.conclude⟩

omit [Platform]

def patient : Client :=
  { url := "http://127.0.0.1:8545" }

def recovering : ℕ → Exchange
  | 0 => .response 503 "busy"
  | 1 => .transportFailed "connection refused"
  | _ => .response 200 "\x7b\"result\": \"0x1\"\x7d"

theorem undisturbed_recovering : letI := Platform.standard
    Undisturbed patient [("eth_chainId", []), ("eth_gasPrice", [])] recovering := by
  let := Platform.standard
  have hflat : ∀ body ∈ ["busy", "\x7b\"result\": \"0x1\"\x7d"],
      Json.openings (Bytes.ofString (dropByteOrderMark body)) ≤ Platform.jsonDepth := by decide +kernel
  refine ⟨by decide, exists_nextPause _, fun method j hdeep => ?_⟩
  obtain hremote | ⟨-, status, body, hbody, hopen⟩ := isRemote_of_final hdeep
  · exact hremote
  · refine absurd (hflat body ?_) (not_le.mpr hopen)
    match j, hbody with
    | 0, rfl => exact List.mem_cons_self
    | _ + 2, rfl => exact List.mem_cons_of_mem _ List.mem_cons_self

theorem requestEach_obeys_recovering : letI := Platform.standard
    let calls := [("eth_chainId", []), ("eth_gasPrice", [])]
    let after := Session.run (scripted (fun _ => .missing) recovering) ((patient.requestEach calls).run 0) { remote := 0 }
    0 ≤ patient.maxRetries ∧ Undisturbed patient calls recovering ∧
      Served (Settles patient) recovering 0 0 calls after.1.1 after.2.requests ∧
      Served (fun method _ => Concludes patient method) recovering 0 0 calls after.1.1 after.2.requests := by
  let := Platform.standard
  have hretries : 0 ≤ patient.maxRetries := by decide
  obtain ⟨hsettles, hconcludes⟩ := requestEach_obeys patient hretries (fun _ => .missing) recovering
    [("eth_chainId", []), ("eth_gasPrice", [])]
  exact ⟨hretries, undisturbed_recovering, hsettles, hconcludes undisturbed_recovering⟩

def stubborn : Client :=
  { url := "http://127.0.0.1:8545", maxRetries := 1025, backoff := .finite false 1 (-1074) }

def lost (_ : ℕ) : Exchange :=
  .transportFailed "script exhausted"

theorem not_concluded_stubborn : letI := Platform.standard
    let after := Session.run (scripted (fun _ => .missing) lost) ((stubborn.requestEach [("eth_chainId", [])]).run 0)
      { remote := 0 }
    ¬Served (fun method _ => Concludes stubborn method) lost 0 0 [("eth_chainId", [])] after.1.1 after.2.requests := by
  let := Platform.standard
  obtain ⟨results, n, requests, p', hrun, hserved, -⟩ := served_run (c := stubborn) (fun _ => .missing)
    lost (by decide) [("eth_chainId", [])] 0 { remote := 0 }
  simp only [hrun]
  generalize p'.requests = observed
  cases hserved with
  | cons hsettles _ =>
    obtain ⟨k, e, hpause, rfl⟩ := hsettles.eq_error (by decide) (by decide) fun j => rfl
    intro h
    cases h with
    | cons hconcludes _ => exact not_isRemote_of_nextPause hpause hconcludes.isRemote

end Rpc

end Settlement
