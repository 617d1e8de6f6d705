import Mathlib
import Settlement.Bridge.BringUp
import Settlement.Proofs.Rpc.Client

namespace Settlement

open Session

def Artifacts.code {Code : Type} (a : Artifacts Code) : Contract → Code
  | .l2Bridge => a.l2Bridge
  | .l2StandardToken => a.l2StandardToken
  | .transparentProxy => a.transparentProxy
  | .beaconProxy => a.beaconProxy
  | .upgradeableBeacon => a.upgradeableBeacon

namespace Bridge.BringUp

variable {files : String → FileState} {ms : List Move}

section Actions

variable {α ε : Type} {r : Except Error α}

theorem does_ofCall {x : Rpc.Call α} (h : Does files (ofCall x) ms r) :
    ∃ r', Does files x ms r' ∧ r = r'.mapError .rpc := by
  obtain ⟨n, n', h⟩ := h
  obtain ⟨⟨r', k⟩, ms₁, ms₂, rfl, hx, hdone⟩ := goes_bind (s := x.run.run n) h
  cases r' with
  | ok a =>
    obtain ⟨rfl, heq⟩ := goes_done hdone
    exact ⟨.ok a, ⟨n, k, by rwa [List.append_nil]⟩, congrArg Prod.fst heq⟩
  | error e =>
    obtain ⟨rfl, heq⟩ := goes_done hdone
    exact ⟨.error e, ⟨n, k, by rwa [List.append_nil]⟩, congrArg Prod.fst heq⟩

theorem does_ofSession {s : Session (Except Error α)} (h : Does files (ofSession s) ms r) : Goes files s ms r := by
  obtain ⟨n, n', h⟩ := h
  obtain ⟨r', ms₁, ms₂, rfl, hs, hdone⟩ := goes_bind (s := s) h
  obtain ⟨rfl, heq⟩ := goes_done hdone
  cases heq
  rwa [List.append_nil]

theorem does_ofExcept {f : ε → Error} {x : Except ε α} (h : Does files (ofExcept f x) ms r) :
    ms = [] ∧ r = x.mapError f := by
  obtain ⟨n, n', h⟩ := h
  obtain ⟨rfl, heq⟩ := goes_done h
  exact ⟨rfl, congrArg Prod.fst heq⟩

theorem does_echo {line : String} {r : Except Error Unit} (h : Does files (echo line) ms r) :
    ms = [.printed .out line] ∧ r = .ok () := by
  have hprint := does_ofSession h
  cases hprint with
  | print hdone =>
    obtain ⟨rfl, heq⟩ := goes_done hdone
    exact ⟨rfl, heq⟩

end Actions

def sendMethod : String := "eth_sendRawTransaction"

def announcement (a : Address) : String :=
  "CONTRACTS_L2_ERC20_BRIDGE_ADDR=" ++ a.checksum

theorem announcement_eq (a : Address) : announcement a = "CONTRACTS_L2_ERC20_BRIDGE_ADDR=" ++ a.checksum := rfl

def Quiet (m : Move) : Prop :=
  ¬m.Calls sendMethod ∧ ¬m.Calls Rpc.receiptMethod ∧ ∀ a, m ≠ .printed .out (announcement a)

theorem quiet_of_within {method : String} (hsend : sendMethod ≠ method) (hreceipt : Rpc.receiptMethod ≠ method)
    {m : Move} (h : m.Within method) : Quiet m :=
  ⟨fun hcalls => hsend (h.method_eq hcalls), fun hcalls => hreceipt (h.method_eq hcalls), fun _ => h.ne_printed _ _⟩

theorem head_append {front : String} {c : Char} (h : front.toList.head? = some c) (line : String) :
    (front ++ line).toList.head? = some c := by
  rw [String.toList_append, List.head?_append, h, Option.some_or]

theorem head_announcement (a : Address) : (announcement a).toList.head? = some 'C' :=
  head_append (by decide) _

theorem calls_printed {method line : String} {channel : Channel} : ¬(Move.printed channel line).Calls method := by
  rintro ⟨url, r, x, heq, -⟩
  cases heq

theorem quiet_printed {line : String} {c : Char} (hline : line.toList.head? = some c) (hc : c ≠ 'C') :
    Quiet (.printed .out line) := by
  refine ⟨calls_printed, calls_printed, fun a heq => hc ?_⟩
  rw [(Move.printed.inj heq).2, head_announcement] at hline
  exact (Option.some.inj hline).symm

section Keeps

variable {P : Move → Prop} {α ε : Type}

theorem keeps_ofExcept (f : ε → Error) (x : Except ε α) : Keeps files P (ofExcept f x) := by
  intro ms r h
  simp [(does_ofExcept h).1]

theorem keeps_echo {line : String} (h : P (.printed .out line)) : Keeps files P (echo line) := by
  intro ms r hdoes
  simpa [(does_echo hdoes).1] using h

theorem keeps_decimal (n : ℤ) : Keeps files P (decimal n) := by
  unfold decimal
  split
  · exact (keeps_throw _).bind fun _ => keeps_pure _
  · exact keeps_pure _

variable [Platform]

theorem keeps_requestQuantity {c : Rpc.Client} {method : String} {params : List Value}
    (h : ∀ m : Move, m.Within method → P m) : Keeps files P (ofCall (c.requestQuantity method params)) := by
  intro ms r hdoes
  obtain ⟨r', hcall, -⟩ := does_ofCall hdoes
  obtain ⟨answer, hposts, -⟩ := Rpc.does_requestQuantity hcall
  exact fun m hm => h m (hposts.within m hm)

theorem keeps_callAddress {c : Rpc.Client} {contract signature : String} (h : ∀ m : Move, m.Within "eth_call" → P m) :
    Keeps files P (callAddress c contract signature) := by
  unfold callAddress
  apply Keeps.bind
  · intro ms r hdoes
    obtain ⟨r', hcall, -⟩ := does_ofCall hdoes
    obtain ⟨answer, hposts, -⟩ := Rpc.does_call hcall
    exact fun m hm => h m (hposts.within m hm)
  · intro out
    split
    · exact keeps_pure _
    · exact keeps_throw _

end Keeps

section Artifacts

variable [Platform]

def codeIn (files : String → FileState) (root : Path) (c : Contract) : Except Artifact.Error Bytes :=
  let path := (Artifact.file (root.join c.folder) c.name).toString
  Artifact.ofContent c.name path (files path).content?

theorem goes_load_bind {α : Type} {root : Path} {c : Contract} {f : Bytes → ExceptT Artifact.Error Session α}
    {r : Except Artifact.Error α} (h : Goes files (Artifact.load (root.join c.folder) c.name >>= f).run ms r) :
    (ms = [] ∧ ∃ e, r = .error e ∧ codeIn files root c = .error e) ∨
      ∃ code, codeIn files root c = .ok code ∧ Goes files (f code).run ms r := by
  have hload {ms : List Move} {r : Except Artifact.Error Bytes}
      (h : Goes files (Artifact.load (root.join c.folder) c.name).run ms r) : ms = [] ∧ r = codeIn files root c := by
    cases h with
    | read h => exact goes_done h
  obtain ⟨e, rfl, hx⟩ | ⟨code, ms₁, ms₂, rfl, hx, hf⟩ := goes_run_bind h
  · exact .inl ⟨(hload hx).1, e, rfl, (hload hx).2.symm⟩
  · obtain ⟨rfl, hcode⟩ := hload hx
    exact .inr ⟨code, hcode.symm, hf⟩

theorem goes_artifacts {root : Path} {r : Except Artifact.Error (Artifacts Bytes)}
    (h : Goes files (Artifacts.load root).run ms r) :
    ms = [] ∧ (∀ a, r = .ok a → ∀ c, codeIn files root c = .ok (a.code c)) ∧
      ∀ e, r = .error e → ∃ c, codeIn files root c = .error e := by
  have hfails {c : Contract} {e : Artifact.Error} (h : codeIn files root c = .error e) (e' : Artifact.Error)
      (he' : (Except.error e : Except Artifact.Error (Artifacts Bytes)) = .error e') :
      ∃ c, codeIn files root c = .error e' := ⟨c, Except.error.inj he' ▸ h⟩
  obtain ⟨rfl, e, rfl, he⟩ | ⟨code₁, h₁, hrest⟩ := goes_load_bind (c := .l2Bridge) h
  · exact ⟨rfl, nofun, hfails he⟩
  obtain ⟨rfl, e, rfl, he⟩ | ⟨code₂, h₂, hrest⟩ := goes_load_bind (c := .l2StandardToken) hrest
  · exact ⟨rfl, nofun, hfails he⟩
  obtain ⟨rfl, e, rfl, he⟩ | ⟨code₃, h₃, hrest⟩ := goes_load_bind (c := .transparentProxy) hrest
  · exact ⟨rfl, nofun, hfails he⟩
  obtain ⟨rfl, e, rfl, he⟩ | ⟨code₄, h₄, hrest⟩ := goes_load_bind (c := .beaconProxy) hrest
  · exact ⟨rfl, nofun, hfails he⟩
  obtain ⟨rfl, e, rfl, he⟩ | ⟨code₅, h₅, hrest⟩ := goes_load_bind (c := .upgradeableBeacon) hrest
  · exact ⟨rfl, nofun, hfails he⟩
  obtain ⟨rfl, rfl⟩ := goes_done hrest
  refine ⟨rfl, fun a ha c => ?_, nofun⟩
  cases ha
  cases c <;> assumption

end Artifacts

section Terms

theorem quiet_of_quantity {method : String}
    (hmethod : method ∈ ["eth_gasPrice", "eth_getTransactionCount", "eth_chainId", "eth_estimateGas", "eth_call"])
    {m : Move} (h : m.Within method) : Quiet m := by
  have hne : ∀ method ∈ ["eth_gasPrice", "eth_getTransactionCount", "eth_chainId", "eth_estimateGas", "eth_call"],
      sendMethod ≠ method ∧ Rpc.receiptMethod ≠ method := by decide
  exact quiet_of_within (hne method hmethod).1 (hne method hmethod).2 h

variable [Platform]

def Chosen (url method : String) (params : List Value) (ms : List Move) (n : ℤ) : Option ℤ → Prop
  | some k => n = k
  | none => ∃ v, Rpc.Answered url method params ms v ∧ Rpc.Client.quantity method v = .ok n

theorem Chosen.mono {url method : String} {params : List Value} {ms' : List Move} {n : ℤ} {o : Option ℤ}
    (h : Chosen url method params ms n o) (hsub : ms ⊆ ms') : Chosen url method params ms' n o := by
  cases o with
  | some k => exact h
  | none =>
    obtain ⟨v, hanswered, hquantity⟩ := h
    exact ⟨v, hanswered.mono hsub, hquantity⟩

def chosen (c : Rpc.Client) (method : String) (params : List Value) (o : Option ℤ) : Action ℤ :=
  match o with
  | some n => pure n
  | none => ofCall (c.requestQuantity method params)

theorem does_chosen {c : Rpc.Client} {method : String} {params : List Value} {o : Option ℤ} {n : ℤ}
    (h : Does files (chosen c method params o) ms (.ok n)) : Chosen c.url method params ms n o := by
  cases o with
  | some k => exact Except.ok.inj (does_pure h).2
  | none =>
    obtain ⟨r, hcall, heq⟩ := does_ofCall h
    obtain ⟨answer, hposts, rfl⟩ := Rpc.does_requestQuantity hcall
    obtain ⟨v, rfl, hquantity⟩ := Except.bind_eq_ok.mp (Except.mapError_eq_ok.mp heq.symm)
    exact ⟨v, hposts.answered, hquantity⟩

theorem terms_eq (c : Rpc.Client) (deployer : String) (o : Options) : terms c deployer o = (do
    let gasPrice ← chosen c "eth_gasPrice" [] o.gasPrice
    if gasPrice < 0 ∨ gasPrice > GasPrice.maxWei then throw .gasPrice
    echo ("Using gas price: " ++ GasPrice.inGwei gasPrice.toNat ++ " gwei")
    let nonce ← chosen c "eth_getTransactionCount" [.text deployer, latest] o.nonce
    echo ("Using nonce: " ++ (← decimal nonce))
    pure ⟨gasPrice, nonce⟩) := by
  obtain ⟨gasPrice, nonce, timeout, interval⟩ := o
  cases gasPrice <;> cases nonce <;> rfl

theorem keeps_chosen {c : Rpc.Client} {method : String} {params : List Value} (o : Option ℤ)
    (h : ∀ m : Move, m.Within method → Quiet m) : Keeps files Quiet (chosen c method params o) := by
  cases o with
  | some k => exact keeps_pure k
  | none => exact keeps_requestQuantity h

theorem keeps_terms (c : Rpc.Client) (deployer : String) (o : Options) : Keeps files Quiet (terms c deployer o) := by
  have hnonce : Keeps files Quiet (chosen c "eth_getTransactionCount" [.text deployer, latest] o.nonce) :=
    keeps_chosen _ fun _ => quiet_of_quantity (by decide)
  have hend (gasPrice : ℤ) : Keeps files Quiet (do
      echo ("Using gas price: " ++ GasPrice.inGwei gasPrice.toNat ++ " gwei")
      let nonce ← chosen c "eth_getTransactionCount" [.text deployer, latest] o.nonce
      echo ("Using nonce: " ++ (← decimal nonce))
      pure (⟨gasPrice, nonce⟩ : Terms)) := by
    refine (keeps_echo (quiet_printed (c := 'U') ?_ (by decide))).bind fun _ => hnonce.bind fun nonce =>
      (keeps_decimal nonce).bind fun line =>
      (keeps_echo (quiet_printed (c := 'U') ?_ (by decide))).bind fun _ => keeps_pure _
    · exact head_append (head_append (by decide) _) _
    · exact head_append (by decide) _
  rw [terms_eq]
  refine (keeps_chosen _ fun _ => quiet_of_quantity (by decide)).bind fun gasPrice => ?_
  split
  · exact (keeps_throw _).bind fun _ => hend gasPrice
  · exact hend gasPrice

theorem does_terms {c : Rpc.Client} {deployer : String} {o : Options} {t : Terms}
    (h : Does files (terms c deployer o) ms (.ok t)) :
    Chosen c.url "eth_gasPrice" [] ms t.gasPrice o.gasPrice ∧
      Chosen c.url "eth_getTransactionCount" [.text deployer, latest] ms t.nonce o.nonce := by
  rw [terms_eq] at h
  obtain ⟨gasPrice, ms₁, ms₂, rfl, hgasPrice, hrest⟩ := does_bind_ok h
  split at hrest
  · obtain ⟨u, ms₃, ms₄, rfl, hthrow, -⟩ := does_bind_ok hrest
    cases (does_throw hthrow).2
  · obtain ⟨u, ms₃, ms₄, rfl, -, hrest⟩ := does_bind_ok hrest
    obtain ⟨nonce, ms₅, ms₆, rfl, hnonce, hrest⟩ := does_bind_ok hrest
    obtain ⟨line, ms₇, ms₈, rfl, -, hrest⟩ := does_bind_ok hrest
    obtain ⟨u, ms₉, ms₁₀, rfl, -, hrest⟩ := does_bind_ok hrest
    cases (does_pure hrest).2
    refine ⟨(does_chosen hgasPrice).mono (List.subset_append_left _ _), (does_chosen hnonce).mono ?_⟩
    intro m hm
    simp [hm]

end Terms

section Plan

theorem hashed_of_derive {Code : Type} {hash : Code → Except Bytecode.Error Bytes} {l1Bridge governor : Address}
    {a : Artifacts Code} {addresses : Addresses} (h : derive hash l1Bridge governor a = .ok addresses) (c : Contract) :
    ∃ bs, hash (a.code c) = .ok bs := by
  have hplace {sender : Address} {code : Code} {input : Bytes} {b : Address}
      (h : place hash sender code input = .ok b) : ∃ bs, hash code = .ok bs := by
    obtain ⟨bs, hbs, -⟩ := Except.bind_eq_ok.mp h
    exact ⟨bs, Except.mapError_eq_ok.mp hbs⟩
  obtain ⟨implementation, himplementation, h⟩ := Except.bind_eq_ok.mp h
  obtain ⟨beaconHash, hbeacon, h⟩ := Except.bind_eq_ok.mp h
  obtain ⟨initData, -, h⟩ := Except.bind_eq_ok.mp h
  obtain ⟨proxyInput, -, h⟩ := Except.bind_eq_ok.mp h
  obtain ⟨proxy, hproxy, h⟩ := Except.bind_eq_ok.mp h
  obtain ⟨token, htoken, h⟩ := Except.bind_eq_ok.mp h
  obtain ⟨factoryInput, -, h⟩ := Except.bind_eq_ok.mp h
  obtain ⟨factory, hfactory, -⟩ := Except.bind_eq_ok.mp h
  cases c with
  | l2Bridge => exact hplace himplementation
  | l2StandardToken => exact hplace htoken
  | transparentProxy => exact hplace hproxy
  | beaconProxy => exact ⟨beaconHash, Except.mapError_eq_ok.mp hbeacon⟩
  | upgradeableBeacon => exact hplace hfactory

variable [Platform]

theorem does_callAddress {c : Rpc.Client} {contract signature : String} {a : Address}
    (h : Does files (callAddress c contract signature) ms (.ok a)) :
    ∃ v out, Rpc.Answered c.url "eth_call"
        [.object [("to", .text contract), ("data", Rpc.Client.hexData (Abi.selector signature))], latest] ms v ∧
      Rpc.Client.data "eth_call" v = .ok out ∧ Abi.decodeAddress? out = some a := by
  obtain ⟨out, ms₁, ms₂, rfl, hcall, hrest⟩ := does_bind_ok h
  obtain ⟨r, hcall, heq⟩ := does_ofCall hcall
  obtain ⟨answer, hposts, rfl⟩ := Rpc.does_call hcall
  obtain ⟨v, rfl, hdata⟩ := Except.bind_eq_ok.mp (Except.mapError_eq_ok.mp heq.symm)
  split at hrest
  · rename_i b hdecode
    cases (does_pure hrest).2
    exact ⟨v, out, hposts.answered.mono (List.subset_append_left _ _), hdata, hdecode⟩
  · cases (does_throw hrest).2

variable {config : Config} {c : Rpc.Client} {deployer : Address}

/-- What a plan is made of: the bytecodes of all files, each with a hash, the governor that the node has answered, the
addresses derived from these, and the two calls. -/
structure Planned (files : String → FileState) (config : Config) (url : String) (deployer : Address) (ms : List Move)
    (a : Artifacts Bytes) (plan : Plan) : Prop where
  loaded : ∀ c, codeIn files config.artifactsRoot c = .ok (a.code c)
  hashed : ∀ c, ∃ bs, Bytecode.hash (a.code c) = .ok bs
  governor : ∃ v out, Rpc.Answered url "eth_call" [.object [("to", .text config.diamondProxy.checksum),
      ("data", Rpc.Client.hexData (Abi.selector governorSignature))], latest] ms v ∧
    Rpc.Client.data "eth_call" v = .ok out ∧ Abi.decodeAddress? out = some plan.governor
  addresses : derive Bytecode.hash config.l1Bridge plan.governor a = .ok plan.addresses
  calls : ∃ first second, plan.calls = [⟨config.diamondProxy, first⟩, ⟨config.l1Bridge, second⟩] ∧
    requestCalldata config.priorityGasLimit config.gasPerPubdata [a.upgradeableBeacon, a.l2StandardToken] deployer =
      .ok first ∧
    l1InitializeCalldata [a.l2Bridge, a.transparentProxy, a.beaconProxy] plan.addresses.l2TokenFactory plan.governor =
      .ok second

theorem does_loaded {r : Except Error (Artifacts Bytes)} {root : Path}
    (h : Does files (ofSession do pure ((← (Artifacts.load root).run).mapError .artifact)) ms r) :
    ms = [] ∧ (∀ a, r = .ok a → ∀ c, codeIn files root c = .ok (a.code c)) ∧
      ∀ e, r = .error e → ∃ e' c, e = .artifact e' ∧ codeIn files root c = .error e' := by
  obtain ⟨loaded, ms₁, ms₂, rfl, hload, hdone⟩ := goes_bind (s := (Artifacts.load root).run) (does_ofSession h)
  obtain ⟨rfl, hall, hfails⟩ := goes_artifacts hload
  obtain ⟨rfl, rfl⟩ := goes_done hdone
  refine ⟨rfl, fun a ha => hall a (Except.mapError_eq_ok.mp ha), fun e he => ?_⟩
  obtain ⟨e', he', rfl⟩ := Except.mapError_eq_error he
  obtain ⟨c, hc⟩ := hfails e' he'
  exact ⟨e', c, rfl, hc⟩

theorem keeps_plan : Keeps files Quiet (plan config c deployer) := by
  unfold plan
  apply Keeps.bind
  · intro ms r h
    simp [(does_loaded h).1]
  · intro artifacts
    exact (keeps_callAddress fun _ => quiet_of_quantity (by decide)).bind fun _ => (keeps_ofExcept _ _).bind fun _ =>
      (keeps_ofExcept _ _).bind fun _ => (keeps_ofExcept _ _).bind fun _ => keeps_pure _

theorem does_plan {p : Plan} (h : Does files (plan config c deployer) ms (.ok p)) :
    ∃ a, Planned files config c.url deployer ms a p := by
  obtain ⟨a, ms₁, ms₂, rfl, hload, hrest₁⟩ := does_bind_ok h
  obtain ⟨governor, ms₃, ms₄, rfl, hgovernor, hrest₂⟩ := does_bind_ok hrest₁
  obtain ⟨addresses, ms₅, ms₆, rfl, hplace, hrest₃⟩ := does_bind_ok hrest₂
  obtain ⟨first, ms₇, ms₈, rfl, hpublish, hrest₄⟩ := does_bind_ok hrest₃
  obtain ⟨second, ms₉, ms₁₀, rfl, hdeploy, hrest₅⟩ := does_bind_ok hrest₄
  obtain ⟨rfl, hloaded, -⟩ := does_loaded hload
  obtain ⟨rfl, haddresses⟩ := does_ofExcept hplace
  obtain ⟨rfl, hfirst⟩ := does_ofExcept hpublish
  obtain ⟨rfl, hsecond⟩ := does_ofExcept hdeploy
  obtain ⟨rfl, hp⟩ := does_pure hrest₅
  cases hp
  have hderive := Except.mapError_eq_ok.mp haddresses.symm
  obtain ⟨data₁, hdata₁, heq⟩ := Except.bind_eq_ok.mp (Except.mapError_eq_ok.mp hfirst.symm)
  cases heq
  obtain ⟨data₂, hdata₂, heq⟩ := Except.bind_eq_ok.mp (Except.mapError_eq_ok.mp hsecond.symm)
  cases heq
  refine ⟨a, hloaded a rfl, fun c => hashed_of_derive hderive c, ?_, hderive, data₁, data₂, rfl, hdata₁, hdata₂⟩
  simpa using does_callAddress hgovernor

end Plan

variable [Platform]

def prepare (config : Config) (c : Rpc.Client) (account : Account) (o : Options) : Action (Terms × Plan × ℤ) := do
  echo ("Using deployer wallet: " ++ account.address.checksum)
  let terms ← terms c account.address.checksum o
  let plan ← plan config c account.address
  let chainId ← ofCall c.chainId
  pure (terms, plan, chainId)

structure Prepared (files : String → FileState) (config : Config) (url : String) (deployer : Address) (o : Options)
    (ms : List Move) (t : Terms) (plan : Plan) (chainId : ℤ) : Prop where
  gasPrice : Chosen url "eth_gasPrice" [] ms t.gasPrice o.gasPrice
  nonce : Chosen url "eth_getTransactionCount" [.text deployer.checksum, latest] ms t.nonce o.nonce
  planned : ∃ a, Planned files config url deployer ms a plan
  chainId : ∃ v, Rpc.Answered url "eth_chainId" [] ms v ∧ Rpc.Client.quantity "eth_chainId" v = .ok chainId

section Prepare

variable {config : Config} {c : Rpc.Client} {account : Account} {o : Options}

theorem keeps_prepare : Keeps files Quiet (prepare config c account o) := by
  refine (keeps_echo (quiet_printed (c := 'U') ?_ (by decide))).bind fun _ => (keeps_terms _ _ _).bind fun _ =>
    keeps_plan.bind fun _ => (keeps_requestQuantity fun _ => quiet_of_quantity (by decide)).bind fun _ => keeps_pure _
  exact head_append (by decide) _

theorem Planned.mono {url : String} {deployer : Address} {ms' : List Move} {a : Artifacts Bytes} {plan : Plan}
    (h : Planned files config url deployer ms a plan) (hsub : ms ⊆ ms') :
    Planned files config url deployer ms' a plan := by
  obtain ⟨v, out, hanswered, hout⟩ := h.governor
  exact { h with governor := ⟨v, out, hanswered.mono hsub, hout⟩ }

theorem does_prepare {t : Terms} {p : Plan} {chainId : ℤ}
    (h : Does files (prepare config c account o) ms (.ok (t, p, chainId))) :
    Prepared files config c.url account.address o ms t p chainId := by
  obtain ⟨u, ms₁, ms₂, rfl, -, hrest⟩ := does_bind_ok h
  obtain ⟨t', ms₃, ms₄, rfl, hterms, hrest⟩ := does_bind_ok hrest
  obtain ⟨p', ms₅, ms₆, rfl, hplan, hrest⟩ := does_bind_ok hrest
  obtain ⟨chainId', ms₇, ms₈, rfl, hchain, hrest⟩ := does_bind_ok hrest
  obtain ⟨rfl, heq⟩ := does_pure hrest
  cases heq
  obtain ⟨hgasPrice, hnonce⟩ := does_terms hterms
  obtain ⟨a, hplanned⟩ := does_plan hplan
  have hsub₃ : ms₃ ⊆ ms₁ ++ (ms₃ ++ (ms₅ ++ (ms₇ ++ []))) := fun m hm => by simp [hm]
  have hsub₅ : ms₅ ⊆ ms₁ ++ (ms₃ ++ (ms₅ ++ (ms₇ ++ []))) := fun m hm => by simp [hm]
  have hsub₇ : ms₇ ⊆ ms₁ ++ (ms₃ ++ (ms₅ ++ (ms₇ ++ []))) := fun m hm => by simp [hm]
  obtain ⟨r, hcall, heq⟩ := does_ofCall hchain
  obtain ⟨answer, hposts, rfl⟩ := Rpc.does_requestQuantity hcall
  obtain ⟨v, rfl, hquantity⟩ := Except.bind_eq_ok.mp (Except.mapError_eq_ok.mp heq.symm)
  exact ⟨hgasPrice.mono hsub₃, hnonce.mono hsub₃, ⟨a, hplanned.mono hsub₅⟩, v, hposts.answered.mono hsub₇, hquantity⟩

end Prepare

end Bridge.BringUp

end Settlement
