import Mathlib
import Settlement.Proofs.Address
import Settlement.Proofs.Bridge.Preparation

namespace Settlement.Bridge.BringUp

open Session

variable {files : String → FileState} {ms : List Move}

def Succeeded (receipt : Value) : Prop :=
  ∃ es, receipt = .mapping es ∧
    (Value.field? es "status" = none ∨ ∃ v, Value.field? es "status" = some v ∧ Rpc.Numeral v (.ok 1))

theorem readNumber_eq_ok {v : Value} {n : ℤ} (h : readNumber v = .ok n) : Rpc.Numeral v (.ok n) := by
  cases v with
  | text s => exact Except.mapError_eq_ok.mp h ▸ .text s
  | halves bs => exact Except.mapError_eq_ok.mp h ▸ .halves bs
  | _ => cases h

theorem succeeded_of_checkStatus {hash : Value} {receipt : Value} (h : checkStatus hash receipt = .ok ()) :
    Succeeded receipt := by
  cases receipt with
  | mapping es =>
    refine ⟨es, rfl, ?_⟩
    obtain ⟨status, hstatus, hone⟩ := Except.bind_eq_ok.mp h
    split at hone
    · cases hone
    · rename_i heq
      obtain rfl := not_not.mp heq
      cases hfield : Value.field? es "status" with
      | none => exact .inl rfl
      | some v =>
        rw [hfield] at hstatus
        exact .inr ⟨v, rfl, readNumber_eq_ok hstatus⟩
  | _ => cases h

def Settling (m : Move) : Prop :=
  ¬m.Calls sendMethod ∧ ∀ a, m ≠ .printed .out (announcement a)

theorem settling_of_within {method : String} (hsend : sendMethod ≠ method) {m : Move} (h : m.Within method) :
    Settling m :=
  ⟨fun hcalls => hsend (h.method_eq hcalls), fun _ => h.ne_printed _ _⟩

theorem does_checks {pairs : List (Value × Value)} {r : Except Error PUnit}
    (h : Does files (forIn pairs PUnit.unit fun x _ => do
      ofExcept id (checkStatus x.1 x.2)
      pure (ForInStep.yield PUnit.unit)) ms r) :
    ms = [] ∧ (∀ x ∈ pairs, r = .ok PUnit.unit → checkStatus x.1 x.2 = .ok ()) ∧
      ∀ e, r = .error e → ∃ x ∈ pairs, checkStatus x.1 x.2 = .error e := by
  induction pairs generalizing ms with
  | nil =>
    obtain ⟨rfl, rfl⟩ := does_pure h
    exact ⟨rfl, by simp, nofun⟩
  | cons x pairs ih =>
    rw [List.forIn_cons, bind_assoc] at h
    obtain ⟨e, rfl, hcheck⟩ | ⟨u, ms₁, ms₂, rfl, hcheck, hrest⟩ := does_bind h
    · obtain ⟨rfl, herror⟩ := does_ofExcept hcheck
      obtain ⟨e', he', rfl⟩ := Except.mapError_eq_error herror.symm
      refine ⟨rfl, nofun, fun e he => ⟨x, List.mem_cons_self, ?_⟩⟩
      cases he
      exact he'
    · obtain ⟨rfl, hok⟩ := does_ofExcept hcheck
      rw [pure_bind] at hrest
      obtain ⟨rfl, hall, hsome⟩ := ih hrest
      refine ⟨rfl, List.forall_mem_cons.mpr ⟨fun _ => Except.mapError_eq_ok.mp hok.symm, hall⟩, fun e he => ?_⟩
      obtain ⟨y, hy, hcheck⟩ := hsome e he
      exact ⟨y, List.mem_cons_of_mem x hy, hcheck⟩

theorem announcement_inj {a b : Address} (h : announcement a = announcement b) : a = b := by
  rw [announcement_eq, announcement_eq, ← String.toList_inj, String.toList_append, String.toList_append] at h
  exact Address.checksum_inj (String.toList_inj.mp (List.append_cancel_left h))

def Announces (ms : List Move) (r : Except Error Result) : Prop :=
  ∀ a, .printed .out (announcement a) ∈ ms ↔ ∃ result, r = .ok result ∧ result.l2Bridge = a

theorem announces_error (h : ∀ m ∈ ms, ∀ a, m ≠ .printed .out (announcement a)) (e : Error) : Announces ms (.error e) :=
  fun a => iff_of_false (fun hmem => h _ hmem a rfl) (by simp)

theorem Announces.append {front : List Move} {r : Except Error Result} (h : Announces ms r)
    (hfront : ∀ m ∈ front, ∀ a, m ≠ .printed .out (announcement a)) : Announces (front ++ ms) r := by
  intro a
  rw [List.mem_append, ← h a]
  exact or_iff_right fun hmem => hfront _ hmem a rfl

variable [Platform] {c : Rpc.Client} {account : Account} {chainId gasPrice nonce : ℤ}

def transaction (chainId gasPrice nonce gas : ℤ) (call : ContractCall) : Transaction :=
  { nonce, gasPrice, gas, recipient := call.contract, value := 0, data := call.data, chainId }

/-- Calls are submitted with consecutive nonces, each by posts of one signed transaction, after the one before has been
answered with its hash. -/
inductive Submitted (c : Rpc.Client) (account : Account) (chainId gasPrice : ℤ) :
    ℤ → List ContractCall → List Move → Except Error (List Value) → Prop
  | done (nonce : ℤ) : Submitted c account chainId gasPrice nonce [] [] (.ok [])
  | unsent {nonce : ℤ} {call : ContractCall} {calls : List ContractCall} {ms : List Move} {e : Error}
    (h : ∀ m ∈ ms, Quiet m) : Submitted c account chainId gasPrice nonce (call :: calls) ms (.error e)
  | refused {nonce gas : ℤ} {call : ContractCall} {calls : List ContractCall} {before posts : List Move} {raw : Bytes}
    {answer : Except Rpc.Error Value} {e : Error} (hbefore : ∀ m ∈ before, Quiet m)
    (hraw : (transaction chainId gasPrice nonce gas call).sign account.secret = .ok raw)
    (hposts : Rpc.Posts c sendMethod [Rpc.Client.hexData raw] posts answer)
    (hrefused : ∀ hash, Rpc.IsHash hash → answer ≠ .ok hash) :
    Submitted c account chainId gasPrice nonce (call :: calls) (before ++ posts) (.error e)
  | accepted {nonce gas : ℤ} {call : ContractCall} {calls : List ContractCall} {before posts rest : List Move}
    {raw : Bytes} {hash : Value} {r : Except Error (List Value)} (hbefore : ∀ m ∈ before, Quiet m)
    (hraw : (transaction chainId gasPrice nonce gas call).sign account.secret = .ok raw)
    (hposts : Rpc.Posts c sendMethod [Rpc.Client.hexData raw] posts (.ok hash)) (hhash : Rpc.IsHash hash)
    (hrest : Submitted c account chainId gasPrice (nonce + 1) calls rest r) :
    Submitted c account chainId gasPrice nonce (call :: calls) (before ++ (posts ++ rest)) (r.map (hash :: ·))

theorem does_submit {call : ContractCall} {r : Except Error Value}
    (h : Does files (submit c account chainId gasPrice nonce call) ms r) :
    ((∀ m ∈ ms, Quiet m) ∧ ∃ e, r = .error e) ∨ ∃ before posts gas raw answer, ms = before ++ posts ∧
      (∀ m ∈ before, Quiet m) ∧ (transaction chainId gasPrice nonce gas call).sign account.secret = .ok raw ∧
      Rpc.Posts c sendMethod [Rpc.Client.hexData raw] posts answer ∧
      r = (answer >>= Rpc.readHash).mapError .rpc := by
  have hestimate : Keeps files Quiet (ofCall (c.estimateGas (estimateObject account.address call))) :=
    keeps_requestQuantity fun _ => quiet_of_quantity (by decide)
  obtain ⟨e, rfl, hgas⟩ | ⟨gas, ms₁, ms₂, rfl, hgas, hrest₁⟩ := does_bind h
  · exact .inl ⟨hestimate _ _ hgas, e, rfl⟩
  obtain ⟨e, rfl, hsign⟩ | ⟨raw, ms₃, ms₄, rfl, hsign, hrest₂⟩ := does_bind hrest₁
  · obtain ⟨rfl, -⟩ := does_ofExcept hsign
    exact .inl ⟨by simpa using hestimate _ _ hgas, e, rfl⟩
  obtain ⟨rfl, hraw⟩ := does_ofExcept hsign
  obtain ⟨r', hsend, rfl⟩ := does_ofCall hrest₂
  obtain ⟨answer, hposts, rfl⟩ := Rpc.does_sendRawTransaction hsend
  exact .inr ⟨ms₁, ms₄, gas, raw, answer, rfl, hestimate _ _ hgas, Except.mapError_eq_ok.mp hraw.symm, hposts, rfl⟩

theorem does_submitAll {calls : List ContractCall} {r : Except Error (List Value)}
    (h : Does files (submitAll c account chainId gasPrice nonce calls) ms r) :
    Submitted c account chainId gasPrice nonce calls ms r := by
  -- by induction on the calls
  induction calls generalizing nonce ms r with
  | nil =>
    obtain ⟨rfl, rfl⟩ := does_pure h
    exact .done nonce
  | cons call calls ih =>
    obtain ⟨e, rfl, hsubmit⟩ | ⟨hash, ms₁, ms₂, rfl, hsubmit, hrest⟩ := does_bind h
    · obtain ⟨hquiet, -⟩ | ⟨before, posts, gas, raw, answer, rfl, hbefore, hraw, hposts, hresult⟩ := does_submit hsubmit
      · exact .unsent hquiet
      · refine .refused hbefore hraw hposts fun hash hhash hanswer => ?_
        subst hanswer
        have hread : Rpc.readHash hash = .ok hash := Rpc.readHash_eq_ok.mpr ⟨rfl, hhash⟩
        obtain ⟨e', he', -⟩ := Except.mapError_eq_error hresult.symm
        cases hread.symm.trans he'
    · obtain ⟨-, e, he⟩ | ⟨before, posts, gas, raw, answer, rfl, hbefore, hraw, hposts, hresult⟩ := does_submit hsubmit
      · cases he
      · obtain ⟨v, rfl, hread⟩ := Except.bind_eq_ok.mp (Except.mapError_eq_ok.mp hresult.symm)
        obtain ⟨rfl, hhash⟩ := Rpc.readHash_eq_ok.mp hread
        obtain ⟨e, rfl, hall⟩ | ⟨hashes, ms₃, ms₄, rfl, hall, hdone⟩ := does_bind hrest
        · rw [List.append_assoc]
          exact .accepted hbefore hraw hposts hhash (ih hall)
        · obtain ⟨rfl, rfl⟩ := does_pure hdone
          rw [List.append_nil, List.append_assoc]
          exact .accepted hbefore hraw hposts hhash (ih hall)

theorem Submitted.length_eq {calls : List ContractCall} {hashes : List Value}
    (h : Submitted c account chainId gasPrice nonce calls ms (.ok hashes)) : hashes.length = calls.length := by
  generalize hr : Except.ok hashes = r at h
  induction h generalizing hashes with
  | done nonce =>
    cases hr
    rfl
  | unsent h => cases hr
  | refused => cases hr
  | @accepted _ _ _ _ _ _ _ _ hash r _ _ _ _ _ ih =>
    cases r with
    | error e => cases hr
    | ok hashes' =>
      cases hr
      rw [List.length_cons, List.length_cons, ih rfl]

theorem Submitted.awaits_nothing {calls : List ContractCall} {r : Except Error (List Value)}
    (h : Submitted c account chainId gasPrice nonce calls ms r) :
    ∀ m ∈ ms, ¬m.Calls Rpc.receiptMethod ∧ ∀ a, m ≠ .printed .out (announcement a) := by
  have hquiet {ms : List Move} (h : ∀ m ∈ ms, Quiet m) (m : Move) (hm : m ∈ ms) := (h m hm).2
  have hposts {raw : Bytes} {ms : List Move} {answer : Except Rpc.Error Value}
      (h : Rpc.Posts c sendMethod [Rpc.Client.hexData raw] ms answer) (m : Move) (hm : m ∈ ms) :
      ¬m.Calls Rpc.receiptMethod ∧ ∀ a, m ≠ .printed .out (announcement a) :=
    ⟨fun hcalls => absurd ((h.within m hm).method_eq hcalls) (by decide), fun _ => (h.within m hm).ne_printed _ _⟩
  induction h with
  | done nonce => simp
  | unsent h => exact hquiet h
  | refused hbefore _ hsend _ => exact List.forall_mem_append.mpr ⟨hquiet hbefore, hposts hsend⟩
  | accepted hbefore _ hsend _ _ ih =>
    exact List.forall_mem_append.mpr ⟨hquiet hbefore, List.forall_mem_append.mpr ⟨hposts hsend, ih⟩⟩

def settle (config : Config) (c : Rpc.Client) (o : Options) (hashes : List Value) : Action (ℤ × Address) := do
  let receipts ← hashes.mapM fun h => ofCall (c.waitForReceipt h o.receiptTimeout o.pollInterval)
  for (h, receipt) in hashes.zip receipts do
    ofExcept id (checkStatus h receipt)
  let gas ← ofExcept id (gasUsed (receipts.getLastD .null))
  echo ("ERC20 bridge initialized, gasUsed: " ++ (← decimal gas))
  let l2Bridge ← callAddress c config.l1Bridge.checksum l2BridgeSignature
  pure (gas, l2Bridge)

def conclude (config : Config) (c : Rpc.Client) (o : Options) (p : Plan) (hashes : List Value) : Action Result := do
  let (gas, l2Bridge) ← settle config c o hashes
  echo (announcement l2Bridge)
  pure ⟨p.addresses, p.governor, hashes, gas, l2Bridge⟩

theorem run_eq (config : Config) (c : Rpc.Client) (account : Account) (o : Options) : run config c account o = (do
    let (t, p, chainId) ← prepare config c account o
    let hashes ← submitAll c account chainId t.gasPrice t.nonce p.calls
    conclude config c o p hashes) := by
  simp only [run, prepare, settle, conclude, announcement_eq, bind_assoc, pure_bind]

section Settle

variable {config : Config} {o : Options} {hashes : List Value}

theorem does_receipts {receipts : List Value}
    (h : Does files (hashes.mapM fun h => ofCall (c.waitForReceipt h o.receiptTimeout o.pollInterval)) ms
      (.ok receipts)) :
    List.Forall₂ (fun hash receipt => Rpc.Polled c.url hash ms receipt) hashes receipts := by
  refine (does_mapM_ok h).imp ?_
  rintro hash receipt ⟨part, hsub, hwait⟩
  obtain ⟨r', hcall, heq⟩ := does_ofCall hwait
  obtain rfl := Except.mapError_eq_ok.mp heq.symm
  exact ((Rpc.does_waitForReceipt hcall).2.1 receipt rfl).mono hsub

theorem keeps_settle : Keeps files Settling (settle config c o hashes) := by
  unfold settle
  refine (Keeps.mapM fun h _ => ?_).bind fun receipts => ?_
  · intro ms r hdoes
    obtain ⟨r', hcall, -⟩ := does_ofCall hdoes
    exact fun m hm => settling_of_within (by decide) ((Rpc.does_waitForReceipt hcall).1 m hm)
  refine Keeps.bind (fun ms r hdoes => by simp [(does_checks hdoes).1]) fun _ => (keeps_ofExcept _ _).bind fun gas =>
    (keeps_decimal _).bind fun line => (keeps_echo ?_).bind fun _ =>
    (keeps_callAddress fun m hm => settling_of_within (by decide) hm).bind fun _ => keeps_pure _
  have hhead : "ERC20 bridge initialized, gasUsed: ".toList.head? = some 'E' := by decide
  obtain ⟨hsend, -, hname⟩ := quiet_printed (head_append hhead line) (by decide)
  exact ⟨hsend, hname⟩

theorem does_settle {x : ℤ × Address} (h : Does files (settle config c o hashes) ms (.ok x)) :
    ∀ hash ∈ hashes, ∃ receipt, Rpc.Answered c.url Rpc.receiptMethod [hash] ms receipt ∧ Succeeded receipt := by
  obtain ⟨receipts, ms₁, ms₂, rfl, hreceipts, hrest⟩ := does_bind_ok h
  obtain ⟨u, ms₃, ms₄, rfl, hchecks, -⟩ := does_bind_ok hrest
  obtain ⟨rfl, hall, -⟩ := does_checks hchecks
  have hrel := does_receipts hreceipts
  intro hash hmem
  obtain ⟨i, hi, rfl⟩ := List.getElem_of_mem hmem
  have hlen := hrel.length_eq
  have hpair : (hashes[i], receipts[i]) ∈ hashes.zip receipts := List.mem_iff_getElem.mpr ⟨i, by simp; omega, by simp⟩
  exact ⟨receipts[i], (hrel.get hi (by omega)).2.mono (List.subset_append_left _ _),
    succeeded_of_checkStatus (hall _ hpair rfl)⟩

end Settle

section Run

variable {config : Config} {o : Options}

theorem does_conclude {p : Plan} {hashes : List Value} {r : Except Error Result}
    (h : Does files (conclude config c o p hashes) ms r) :
    (∀ m ∈ ms, ¬m.Calls sendMethod) ∧ Announces ms r ∧ ∀ result, r = .ok result → result.transactions = hashes ∧
      ∀ hash ∈ hashes, ∃ receipt, Rpc.Answered c.url Rpc.receiptMethod [hash] ms receipt ∧ Succeeded receipt := by
  obtain ⟨e, rfl, hsettle⟩ | ⟨⟨gas, b⟩, ms₁, ms₂, rfl, hsettle, hend⟩ := does_bind h
  · have hsettling := keeps_settle _ _ hsettle
    exact ⟨fun m hm => (hsettling m hm).1, announces_error (fun m hm => (hsettling m hm).2) e, nofun⟩
  · have hsettling := keeps_settle _ _ hsettle
    obtain ⟨e, -, hecho⟩ | ⟨u, ms₃, ms₄, rfl, hecho, hdone⟩ := does_bind hend
    · cases (does_echo hecho).2
    · obtain ⟨rfl, -⟩ := does_echo hecho
      obtain ⟨rfl, rfl⟩ := does_pure hdone
      refine ⟨?_, Announces.append ?_ fun m hm => (hsettling m hm).2, ?_⟩
      · rw [List.append_nil, List.forall_mem_append, List.forall_mem_singleton]
        exact ⟨fun m hm => (hsettling m hm).1, calls_printed⟩
      · intro a
        rw [List.append_nil, List.mem_singleton]
        constructor
        · intro heq
          exact ⟨_, rfl, (announcement_inj (Move.printed.inj heq).2).symm⟩
        · rintro ⟨result, hresult, rfl⟩
          cases hresult
          rfl
      · rintro result hresult
        cases hresult
        refine ⟨rfl, fun hash hmem => ?_⟩
        obtain ⟨receipt, hanswered, hsucceeded⟩ := does_settle hsettle hash hmem
        exact ⟨receipt, hanswered.mono (List.subset_append_left _ _), hsucceeded⟩

theorem getLast?_of_run {result : Result} (h : Does files (run config c account o) ms (.ok result)) :
    ms.getLast? = some (.printed .out (announcement result.l2Bridge)) := by
  rw [run_eq] at h
  obtain ⟨⟨t, p, chainId⟩, ms₁, ms₂, rfl, -, hrest₁⟩ := does_bind_ok h
  obtain ⟨hashes, ms₃, ms₄, rfl, -, hrest₂⟩ := does_bind_ok hrest₁
  obtain ⟨⟨gas, b⟩, ms₅, ms₆, rfl, -, hrest₃⟩ := does_bind_ok hrest₂
  obtain ⟨u, ms₇, ms₈, rfl, hecho, hrest₄⟩ := does_bind_ok hrest₃
  obtain ⟨rfl, -⟩ := does_echo hecho
  obtain ⟨rfl, heq⟩ := does_pure hrest₄
  cases heq
  simp

/-- What a run does in order: all is prepared, the calls are submitted, and behind them nothing more is. If it ends
well, all transactions have succeeded. -/
structure InOrder (files : String → FileState) (config : Config) (c : Rpc.Client) (account : Account) (o : Options)
    (before sent after : List Move) (result : Except Error Result) : Prop where
  quiet : ∀ m ∈ before, Quiet m
  unpolled : ∀ m ∈ sent, ¬m.Calls Rpc.receiptMethod
  unsent : ∀ m ∈ after, ¬m.Calls sendMethod
  submitted : (sent = [] ∧ after = [] ∧ ∃ e, result = .error e) ∨
    ∃ t plan chainId hashes, Prepared files config c.url account.address o before t plan chainId ∧
      Submitted c account chainId t.gasPrice t.nonce plan.calls sent hashes ∧
      (∀ e, hashes = .error e → after = [] ∧ result = .error e) ∧
      ∀ r, result = .ok r → hashes = .ok r.transactions ∧ r.transactions.length = 2 ∧
        ∀ hash ∈ r.transactions, ∃ receipt,
          Rpc.Answered c.url Rpc.receiptMethod [hash] after receipt ∧ Succeeded receipt

theorem does_run {r : Except Error Result} (h : Does files (run config c account o) ms r) :
    Announces ms r ∧ ∃ before sent after, ms = before ++ (sent ++ after) ∧
      InOrder files config c account o before sent after r := by
  rw [run_eq] at h
  obtain ⟨e, rfl, hprepare⟩ | ⟨⟨t, p, chainId⟩, before, ms₁, rfl, hprepare, hrest⟩ := does_bind h
  · have hquiet := keeps_prepare _ _ hprepare
    refine ⟨announces_error (fun m hm => (hquiet m hm).2.2) e, ms, [], [], by simp, hquiet, by simp, by simp, ?_⟩
    exact .inl ⟨rfl, rfl, e, rfl⟩
  have hquiet := keeps_prepare _ _ hprepare
  have hprepared := does_prepare hprepare
  obtain ⟨e, rfl, hsubmit⟩ | ⟨hashes, sent, after, rfl, hsubmit, hconclude⟩ := does_bind hrest
  · have hsubmitted := does_submitAll hsubmit
    have hawaits := hsubmitted.awaits_nothing
    refine ⟨(announces_error (fun m hm => (hawaits m hm).2) e).append fun m hm => (hquiet m hm).2.2,
      before, ms₁, [], by simp, hquiet, fun m hm => (hawaits m hm).1, by simp, ?_⟩
    refine .inr ⟨t, p, chainId, _, hprepared, hsubmitted, fun e' he => ?_, nofun⟩
    cases he
    exact ⟨rfl, rfl⟩
  · have hsubmitted := does_submitAll hsubmit
    have hawaits := hsubmitted.awaits_nothing
    obtain ⟨hunsent, hannounces, hsucceeded⟩ := does_conclude hconclude
    refine ⟨(hannounces.append fun m hm => (hawaits m hm).2).append fun m hm => (hquiet m hm).2.2,
      before, sent, after, rfl, hquiet, fun m hm => (hawaits m hm).1, hunsent, ?_⟩
    refine .inr ⟨t, p, chainId, _, hprepared, hsubmitted, nofun, fun result hresult => ?_⟩
    obtain ⟨rfl, hreceipts⟩ := hsucceeded result hresult
    obtain ⟨a, hplanned⟩ := hprepared.planned
    obtain ⟨first, second, hcalls, -⟩ := hplanned.calls
    refine ⟨rfl, ?_, hreceipts⟩
    rw [hsubmitted.length_eq, hcalls]
    rfl

/-- In any surroundings a run does its moves in order. -/
theorem run_inOrder {σ : Type} (around : Surroundings σ) (p : Progress σ) (config : Config) (c : Rpc.Client)
    (account : Account) (o : Options) (n : ℕ) :
    let s := (run config c account o).run.run n
    let ms := moves around s p
    let result := (Session.run around s p).1.1
    (Session.run around s p).2.past = (ms.map Move.event).reverse ++ p.past ∧ Announces ms result ∧
      ∃ before sent after, ms = before ++ (sent ++ after) ∧
        InOrder around.files config c account o before sent after result := by
  intro s ms result
  refine ⟨past_run around s p, ?_⟩
  exact does_run ⟨n, (Session.run around s p).1.2, goes_moves around s p⟩

end Run

end Settlement.Bridge.BringUp
