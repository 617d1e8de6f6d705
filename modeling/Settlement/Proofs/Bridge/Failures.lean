import Mathlib
import Settlement.Command.Bridge
import Settlement.Proofs.Artifact
import Settlement.Proofs.Bridge.BringUp
import Settlement.Proofs.Bridge.Encoding

/-!
How bringing up a bridge can fail: with an error that the command reports, or for one of a few causes that it does not
look for. Each of these is in what the command was given or in what the node has answered.
-/

namespace Settlement.Bridge.BringUp

open Session Command.Bridge

theorem reported_of_isRemote {e : Rpc.Error} (h : e.IsRemote) : ∃ message, report? (.rpc e) = some message := by
  cases e with
  | quantity e => cases h
  | digits => cases h
  | overflow => cases h
  | pause f => cases h
  | unwritable e => cases h
  | tooDeep => cases h
  | _ => exact ⟨_, rfl⟩

theorem exists_sign {t : Transaction} (hnonce : 0 ≤ t.nonce) (hgasPrice : 0 ≤ t.gasPrice) (hgas : 0 ≤ t.gas)
    (hchain : 0 ≤ t.chainId) (d : Secret) : ∃ raw, t.sign d = .ok raw := by
  have hnatural {n : ℤ} (hn : 0 ≤ n) : Transaction.natural n = .ok n.toNat := if_pos hn
  rw [Transaction.sign, Transaction.fields, hnatural hnonce, hnatural hgasPrice, hnatural hgas, hnatural hchain]
  exact ⟨_, rfl⟩

variable [Platform]

/-- What leads to an error that is not reported. -/
inductive Unforeseen (files : String → FileState) (config : Config) (nonce : Option ℤ) (url : String) (ms : List Move) :
    Error → Prop
  -- a quantity of `0x` and wrong digits
  | quantity {method : String} {params : List Value} {v : Value} {e : Integer.LiteralError}
    (h : Rpc.Answered url method params ms v) (hmarked : Rpc.Marked v) (he : Rpc.Numeral v (.error e)) :
    Unforeseen files config nonce url ms (.rpc (.quantity e))
  -- data of `0x` and wrong digits
  | digits {params : List Value} {v : Value} (h : Rpc.Answered url "eth_call" params ms v) (hmarked : Rpc.Marked v)
    (hv : ∀ s, v = .text s → ∃ cs, s.toList = '0' :: 'x' :: cs ∧ Hex.decodeSpaced? cs = none) :
    Unforeseen files config nonce url ms (.rpc .digits)
  -- an answer that nests too deep
  | answer {method : String} {params : List Value} (h : Rpc.AnsweredDeep url method params ms) :
    Unforeseen files config nonce url ms (.rpc .tooDeep)
  -- a hash that cannot be sent back
  | hash {params : List Value} {bs : Bytes} (h : Rpc.Answered url sendMethod params ms (.halves bs))
    (hposts : Platform.postsHalves = false) : Unforeseen files config nonce url ms (.rpc (.unwritable .halves))
  -- a bytecode in a file that nests too deep
  | artifact {c : Contract} {bs : Bytes}
    (h : (files (Artifact.file (config.artifactsRoot.join c.folder) c.name).toString).content? = some bs)
    (hbs : Platform.jsonDepth < Json.openings bs) : Unforeseen files config nonce url ms (.artifact .tooDeep)
  -- a configured number that no word holds
  | encoding {e : Abi.Error} (h : ¬IsEncodable config) : Unforeseen files config nonce url ms (.deployment (.encoding e))
  -- a gas price beyond all amounts
  | gasPrice {v : Value} {n : ℤ} (h : Rpc.Answered url "eth_gasPrice" [] ms v)
    (hv : Rpc.Client.quantity "eth_gasPrice" v = .ok n) (hn : GasPrice.maxWei < n) :
    Unforeseen files config nonce url ms .gasPrice
  -- a nonce with too many digits
  | nonceDigits {params : List Value} {n : ℤ} (h : Chosen url "eth_getTransactionCount" params ms n nonce)
    (hn : Nat.pow 10 Integer.maxDigits ≤ n.natAbs) : Unforeseen files config nonce url ms .tooLong
  -- an amount of gas with too many digits
  | gasDigits {hash v : Value} {es : List (Value × Value)} {n : ℤ}
    (h : Rpc.Answered url Rpc.receiptMethod [hash] ms (.mapping es)) (hes : Value.field? es "gasUsed" = some v)
    (hv : Rpc.Numeral v (.ok n)) (hn : Nat.pow 10 Integer.maxDigits ≤ n.natAbs) :
    Unforeseen files config nonce url ms .tooLong
  | negativeNonce {n : ℤ} (h : nonce = some n) (hn : n < 0) : Unforeseen files config nonce url ms (.sign .negative)
  | notReceipt {hash v : Value} (h : Rpc.Polled url hash ms v) (hv : ∀ es, v ≠ .mapping es) :
    Unforeseen files config nonce url ms .notReceipt
  | noGas {hash : Value} {es : List (Value × Value)} (h : Rpc.Answered url Rpc.receiptMethod [hash] ms (.mapping es))
    (hes : Value.field? es "gasUsed" = none) : Unforeseen files config nonce url ms (.missing "gasUsed")
  -- a field of a receipt that is no text
  | mistyped {hash v : Value} {name : String} {es : List (Value × Value)}
    (h : Rpc.Answered url Rpc.receiptMethod [hash] ms (.mapping es)) (hname : name = "status" ∨ name = "gasUsed")
    (hes : Value.field? es name = some v) (hv : ∀ x, ¬Rpc.Numeral v x) : Unforeseen files config nonce url ms .mistyped
  -- a field of a receipt with wrong digits
  | number {hash v : Value} {name : String} {es : List (Value × Value)} {e : Integer.LiteralError}
    (h : Rpc.Answered url Rpc.receiptMethod [hash] ms (.mapping es)) (hname : name = "status" ∨ name = "gasUsed")
    (hes : Value.field? es name = some v) (he : Rpc.Numeral v (.error e)) :
    Unforeseen files config nonce url ms (.number e)

variable {files : String → FileState} {ms ms' : List Move} {config : Config} {c : Rpc.Client} {account : Account}
  {o : Options} {nonce : Option ℤ} {url : String} {e : Error}

theorem Unforeseen.mono (h : Unforeseen files config nonce url ms e) (hsub : ms ⊆ ms') :
    Unforeseen files config nonce url ms' e := by
  cases h with
  | quantity h hmarked he => exact .quantity (h.mono hsub) hmarked he
  | digits h hmarked hv => exact .digits (h.mono hsub) hmarked hv
  | answer h => exact .answer (h.mono hsub)
  | hash h hposts => exact .hash (h.mono hsub) hposts
  | artifact h hbs => exact .artifact h hbs
  | encoding h => exact .encoding h
  | gasPrice h hv hn => exact .gasPrice (h.mono hsub) hv hn
  | nonceDigits h hn => exact .nonceDigits (h.mono hsub) hn
  | gasDigits h hes hv hn => exact .gasDigits (h.mono hsub) hes hv hn
  | negativeNonce h hn => exact .negativeNonce h hn
  | notReceipt h hv => exact .notReceipt (h.mono hsub) hv
  | noGas h hes => exact .noGas (h.mono hsub) hes
  | mistyped h hname hes hv => exact .mistyped (h.mono hsub) hname hes hv
  | number h hname hes he => exact .number (h.mono hsub) hname hes he

def Explained (files : String → FileState) (config : Config) (o : Options) (url : String) (ms : List Move)
    (e : Error) : Prop :=
  (∃ message, report? e = some message) ∨ Unforeseen files config o.nonce url ms e

theorem Explained.mono (h : Explained files config o url ms e) (hsub : ms ⊆ ms') : Explained files config o url ms' e :=
  h.imp_right fun h => h.mono hsub

def Explains (files : String → FileState) (config : Config) (o : Options) (url : String) (prior : List Move) {α : Type}
    (x : Action α) : Prop :=
  ∀ ms e, Does files x ms (.error e) → Explained files config o url (prior ++ ms) e

variable {prior : List Move}

section Parts

variable {α β ε : Type}

theorem explains_of {x : Action α} (h : ∀ ms e, Does files x ms (.error e) → Explained files config o url ms e) :
    Explains files config o url prior x :=
  fun ms e hx => (h ms e hx).mono (List.subset_append_right _ _)

theorem explains_pure (a : α) : Explains files config o url prior (pure a : Action α) := by
  intro ms e h
  cases (does_pure h).2

theorem Explains.bind {x : Action α} {f : α → Action β} (hx : Explains files config o url prior x)
    (hf : ∀ a ms, Does files x ms (.ok a) → Explains files config o url (prior ++ ms) (f a)) :
    Explains files config o url prior (x >>= f) := by
  intro ms e h
  obtain ⟨e', he, h⟩ | ⟨a, ms₁, ms₂, rfl, hfirst, hrest⟩ := does_bind h
  · cases he
    exact hx ms _ h
  · rw [← List.append_assoc]
    exact hf a ms₁ hfirst ms₂ e hrest

theorem explains_check {cond : Prop} [Decidable cond] {f : PUnit → Action α}
    (hcond : cond → Explained files config o url prior e) (hf : Explains files config o url prior (f ⟨⟩)) :
    Explains files config o url prior (if cond then throw e >>= f else f ⟨⟩) := by
  split
  · rename_i hc
    refine Explains.bind ?_ fun u ms h => ?_
    · intro ms e' h
      obtain ⟨rfl, heq⟩ := does_throw h
      cases heq
      rw [List.append_nil]
      exact hcond hc
    · cases (does_throw h).2
  · exact hf

theorem explains_ofExcept {f : ε → Error} {x : Except ε α}
    (h : ∀ e, x = .error e → Explained files config o url prior (f e)) :
    Explains files config o url prior (ofExcept f x) := by
  intro ms e hx
  obtain ⟨rfl, herror⟩ := does_ofExcept hx
  obtain ⟨e', he', rfl⟩ := Except.mapError_eq_error herror.symm
  rw [List.append_nil]
  exact h e' he'

theorem explains_mapM {f : α → Action β} {xs : List α}
    (h : ∀ x ∈ xs, ∀ more, Explains files config o url (prior ++ more) (f x)) :
    Explains files config o url prior (xs.mapM f) := by
  induction xs generalizing prior with
  | nil => exact explains_pure []
  | cons x xs ih =>
    obtain ⟨hx, hxs⟩ := List.forall_mem_cons.mp h
    have hfirst := hx []
    rw [List.append_nil] at hfirst
    rw [List.mapM_cons]
    refine hfirst.bind fun _ ms _ => (ih fun y hy more => ?_).bind fun _ _ _ => explains_pure _
    rw [List.append_assoc]
    exact hxs y hy (ms ++ more)

theorem explains_echo (line : String) : Explains files config o url prior (echo line) := by
  intro ms e h
  cases (does_echo h).2

theorem explains_decimal {n : ℤ}
    (h : Nat.pow 10 Integer.maxDigits ≤ n.natAbs → Explained files config o url prior .tooLong) :
    Explains files config o url prior (decimal n) := by
  unfold decimal
  exact explains_check (fun hn => h hn) (explains_pure _)

end Parts

section Calls

theorem explained_of_quantity {method : String} {params : List Value} {v : Value} {e : Rpc.Error}
    (h : Rpc.Answered url method params ms v) (he : Rpc.Client.quantity method v = .error e) :
    Explained files config o url ms (.rpc e) := by
  obtain rfl | ⟨e', rfl, hmarked, hnumeral⟩ := Rpc.quantity_eq_error he
  · exact .inl ⟨_, rfl⟩
  · exact .inr (.quantity h hmarked hnumeral)

theorem explained_of_data {params : List Value} {v : Value} {e : Rpc.Error}
    (h : Rpc.Answered url "eth_call" params ms v) (he : Rpc.Client.data "eth_call" v = .error e) :
    Explained files config o url ms (.rpc e) := by
  obtain rfl | ⟨rfl, hmarked, hv⟩ := Rpc.data_eq_error he
  · exact .inl ⟨_, rfl⟩
  · exact .inr (.digits h hmarked hv)

theorem checkParams_eq {params : List Value} (h : ∀ depth, Json.checkItems (depth + 2) params = .ok ()) :
    Json.checkParams 1 params =
      if !Platform.postsHalves && Json.itemsHoldHalves params then .error .halves else .ok () := by
  have hdepth := Platform.sixteen_le_jsonDepth
  obtain ⟨depth, hd⟩ : ∃ depth, Platform.jsonDepth - 1 = depth + 3 := ⟨Platform.jsonDepth - 4, by omega⟩
  rw [Json.checkParams, hd, Json.checkValue, if_neg (by omega), show depth + 3 - 1 = depth + 2 from rfl, h]
  rfl

theorem checkParams_eq_ok {params : List Value} (h : ∀ depth, Json.checkItems (depth + 2) params = .ok ())
    (hhalves : Json.itemsHoldHalves params = false) : Json.checkParams 1 params = .ok () := by
  rw [checkParams_eq h, hhalves, Bool.and_false]
  rfl

theorem checkParams_estimate (deployer : Address) (call : ContractCall) :
    Json.checkParams 1 [estimateObject deployer call] = .ok () := by
  have hzero : Json.checkInteger 0 = .ok () := by decide +kernel
  refine checkParams_eq_ok (fun depth => ?_) rfl
  simp only [estimateObject, Value.object, List.map_cons, List.map_nil, Rpc.Client.hexData, Json.checkItems,
    Json.checkValue, Json.checkFields, Json.checkKey, hzero, Nat.add_eq_zero_iff, OfNat.ofNat_ne_zero,
    and_false, ↓reduceIte]
  rfl

def Waits (c : Rpc.Client) : Prop :=
  ∀ k : ℕ, k < c.maxRetries → ∃ seconds, c.nextPause k = .ok seconds

variable (hwaits : Waits c)

include hwaits

theorem eq_unwritable {params : List Value} {e : Rpc.Error} (h : c.Stops params e) :
    ∃ e', e = .unwritable e' ∧ Json.checkParams 1 params = .error e' := by
  cases h with
  | unwritable h => exact ⟨_, rfl, h⟩
  | pause hk h =>
    obtain ⟨seconds, hseconds⟩ := hwaits _ hk
    cases hseconds.symm.trans h

theorem explained_of_posts {method : String} {params : List Value} {e : Rpc.Error}
    (hparams : Json.checkParams 1 params = .ok ()) (h : Rpc.Posts c method params ms (.error e)) :
    Explained files config o c.url ms (.rpc e) := by
  obtain hremote | ⟨rfl, hdeep⟩ | hstops := h.isRemote_or
  · exact .inl (reported_of_isRemote hremote)
  · exact .inr (.answer hdeep)
  · obtain ⟨e', -, herror⟩ := eq_unwritable hwaits hstops
    cases hparams.symm.trans herror

theorem explains_read {α : Type} {x : Rpc.Call α} {method : String} {params : List Value}
    {read : Value → Except Rpc.Error α} (hparams : Json.checkParams 1 params = .ok ())
    (hx : ∀ ms r, Does files x ms r → ∃ answer, Rpc.Posts c method params ms answer ∧ r = answer >>= read)
    (hread : ∀ ms v e, Rpc.Answered c.url method params ms v → read v = .error e →
      Explained files config o c.url ms (.rpc e)) :
    Explains files config o c.url prior (ofCall x) := by
  refine explains_of fun ms e h => ?_
  obtain ⟨r, hcall, he⟩ := does_ofCall h
  obtain ⟨answer, hposts, rfl⟩ := hx ms r hcall
  obtain ⟨e', herror, rfl⟩ := Except.mapError_eq_error he.symm
  obtain rfl | ⟨v, rfl, hv⟩ := Except.bind_eq_error.mp herror
  · exact explained_of_posts hwaits hparams hposts
  · exact hread ms v e' hposts.answered hv

theorem explains_requestQuantity (method : String) {params : List Value} (hparams : Json.checkParams 1 params = .ok ()) :
    Explains files config o c.url prior (ofCall (c.requestQuantity method params)) :=
  explains_read hwaits hparams (fun _ _ => Rpc.does_requestQuantity) fun _ _ _ => explained_of_quantity

theorem explains_callAddress (contract signature : String) :
    Explains files config o c.url prior (callAddress c contract signature) := by
  refine Explains.bind (explains_read hwaits (checkParams_eq_ok (fun _ => rfl) rfl) (fun _ _ => Rpc.does_call)
    fun _ _ _ => explained_of_data) fun out _ _ => ?_
  split
  · exact explains_pure _
  · intro ms e h
    cases (does_throw h).2
    exact .inl ⟨_, rfl⟩

theorem explains_sendRawTransaction (raw : Bytes) :
    Explains files config o c.url prior (ofCall (c.sendRawTransaction raw)) := by
  refine explains_read hwaits (checkParams_eq_ok (fun _ => rfl) rfl) (fun _ _ => Rpc.does_sendRawTransaction)
    fun ms v e _ he => ?_
  obtain rfl := Rpc.readHash_eq_error he
  exact .inl ⟨_, rfl⟩

theorem explains_waitForReceipt {hash : Value} {params : List Value} (timeout : Binary64) {interval : Binary64}
    (hinterval : pauseFault? interval = none) (hhash : Rpc.IsHash hash)
    (hanswered : Rpc.Answered c.url sendMethod params prior hash) :
    Explains files config o c.url prior (ofCall (c.waitForReceipt hash timeout interval)) := by
  intro ms e h
  obtain ⟨r, hcall, he⟩ := does_ofCall h
  obtain ⟨e', rfl, rfl⟩ := Except.mapError_eq_error he.symm
  cases (Rpc.does_waitForReceipt hcall).2.2 e' rfl with
  | remote hremote => exact .inl (reported_of_isRemote hremote)
  | timedOut => exact .inl ⟨_, rfl⟩
  | tooDeep hdeep => exact .inr (.answer (hdeep.mono (List.subset_append_right _ _)))
  | pause hfault => cases hinterval.symm.trans hfault
  | stops hstops =>
    obtain ⟨e', rfl, herror⟩ := eq_unwritable hwaits hstops
    cases hhash with
    | text s => cases (checkParams_eq_ok (fun _ => rfl) rfl).symm.trans herror
    | halves bs =>
      rw [checkParams_eq fun _ => rfl] at herror
      split at herror
      · rename_i hposts
        cases herror
        simp only [Bool.and_eq_true, Bool.not_eq_true'] at hposts
        exact .inr (.hash (hanswered.mono (List.subset_append_left _ _)) hposts.1)
      · cases herror

end Calls

section Preparation

def GivesAmount (o : Options) : Prop :=
  ∀ n ∈ o.gasPrice, 0 ≤ n ∧ n ≤ GasPrice.maxWei

theorem Chosen.nonneg_or {method : String} {params : List Value} {n : ℤ} {given : Option ℤ}
    (h : Chosen url method params ms n given) : 0 ≤ n ∨ given = some n := by
  cases given with
  | some k => exact .inr (congrArg some (Eq.symm h))
  | none =>
    obtain ⟨v, -, hquantity⟩ := h
    exact .inl (Rpc.quantity_nonneg hquantity)

section Calling

variable (hwaits : Waits c)

include hwaits

theorem explains_chosen (method : String) {params : List Value} (hparams : Json.checkParams 1 params = .ok ())
    (given : Option ℤ) : Explains files config o c.url prior (chosen c method params given) := by
  cases given with
  | some n => exact explains_pure n
  | none => exact explains_requestQuantity hwaits method hparams

omit hwaits in
theorem explained_of_gasPrice (hamount : GivesAmount o) {n : ℤ} (h : Chosen url "eth_gasPrice" [] ms n o.gasPrice)
    (hn : n < 0 ∨ n > GasPrice.maxWei) : Explained files config o url ms .gasPrice := by
  cases hgiven : o.gasPrice with
  | some k =>
    rw [hgiven] at h
    obtain rfl : n = k := h
    have hbounds := hamount n hgiven
    omega
  | none =>
    rw [hgiven] at h
    obtain ⟨v, hanswered, hquantity⟩ := h
    have hnonneg := Rpc.quantity_nonneg hquantity
    exact .inr (.gasPrice hanswered hquantity (by omega))

theorem explains_terms (hamount : GivesAmount o) (deployer : String) :
    Explains files config o c.url prior (terms c deployer o) := by
  rw [terms_eq]
  refine (explains_chosen hwaits _ (checkParams_eq_ok (fun _ => rfl) rfl) _).bind fun gasPrice ms₁ hgasPrice => ?_
  refine explains_check (fun hrange => ?_) ?_
  · exact explained_of_gasPrice hamount ((does_chosen hgasPrice).mono (List.subset_append_right _ _)) hrange
  refine (explains_echo _).bind fun _ ms₂ _ => ?_
  refine (explains_chosen hwaits _ (checkParams_eq_ok (fun _ => rfl) rfl) _).bind fun nonce ms₃ hnonce => ?_
  refine (explains_decimal fun hdigits => ?_).bind fun _ _ _ => (explains_echo _).bind fun _ _ _ => explains_pure _
  exact .inr (.nonceDigits ((does_chosen hnonce).mono (List.subset_append_right _ _)) hdigits)

omit hwaits in
theorem explained_of_artifact {contract : Contract} {e : Artifact.Error}
    (h : codeIn files config.artifactsRoot contract = .error e) : Explained files config o url ms (.artifact e) := by
  obtain hreported | ⟨bs, hbs, hdeep⟩ := Artifact.reported_or_deep (Artifact.ofContent_eq_error.mp h)
  · refine .inl ?_
    cases e with
    | tooDeep => exact absurd rfl hreported
    | _ => exact ⟨_, rfl⟩
  · cases e with
    | tooDeep => exact .inr (.artifact hbs hdeep)
    | _ => exact .inl ⟨_, rfl⟩

theorem explains_plan (deployer : Address) : Explains files config o c.url prior (plan config c deployer) := by
  refine (explains_of fun ms e h => ?_).bind fun artifacts _ _ => ?_
  · obtain ⟨-, -, hfails⟩ := does_loaded h
    obtain ⟨e', c, rfl, hcode⟩ := hfails e rfl
    exact explained_of_artifact hcode
  refine (explains_callAddress hwaits _ _).bind fun governor _ _ => ?_
  refine (explains_ofExcept fun e he => ?_).bind fun addresses _ _ => ?_
  · obtain ⟨e', rfl⟩ := exists_bytecode_of_derive (fun _ _ hhash => Bytecode.length_hash hhash) he
    exact .inl ⟨_, rfl⟩
  refine (explains_ofExcept fun e he => ?_).bind fun first _ _ => ?_
  · refine .inr (.encoding fun hconfig => ?_)
    obtain ⟨call, hcall⟩ := exists_publish (a := artifacts) hconfig deployer
    rw [hcall] at he
    cases he
  refine (explains_ofExcept fun e he => ?_).bind fun second _ _ => explains_pure _
  obtain ⟨call, hcall⟩ : ∃ call, deploy config artifacts addresses.l2TokenFactory governor = .ok call :=
    exists_deploy _ _
  rw [hcall] at he
  cases he

theorem explains_prepare (hamount : GivesAmount o) :
    Explains files config o c.url prior (prepare config c account o) := by
  refine (explains_echo _).bind fun _ _ _ => ?_
  refine (explains_terms hwaits hamount _).bind fun _ _ _ => ?_
  refine (explains_plan hwaits _).bind fun _ _ _ => ?_
  exact (explains_requestQuantity hwaits _ (checkParams_eq_ok (fun _ => rfl) rfl)).bind fun _ _ _ => explains_pure _

end Calling

end Preparation

section Submission

variable {chainId gasPrice nonce : ℤ} (hwaits : Waits c) (hgasPrice : 0 ≤ gasPrice)
  (hchain : 0 ≤ chainId)

include hwaits hgasPrice hchain

theorem explains_submit (hnonce : 0 ≤ nonce ∨ ∃ n, o.nonce = some n ∧ n < 0) (call : ContractCall) :
    Explains files config o c.url prior (submit c account chainId gasPrice nonce call) := by
  refine (explains_requestQuantity hwaits _ (checkParams_estimate _ _)).bind fun gas ms hgas => ?_
  refine (explains_ofExcept fun e he => ?_).bind fun raw _ _ => explains_sendRawTransaction hwaits raw
  obtain hnonneg | ⟨n, hn, hnegative⟩ := hnonce
  · have hchosen : Chosen c.url "eth_estimateGas" _ ms gas none := does_chosen (o := none) hgas
    have hgas : 0 ≤ gas := hchosen.nonneg_or.resolve_right nofun
    obtain ⟨raw, hraw⟩ := exists_sign (t := transaction chainId gasPrice nonce gas call) hnonneg hgasPrice hgas hchain
      account.secret
    rw [transaction] at hraw
    rw [hraw] at he
    cases he
  · exact .inr (.negativeNonce hn hnegative)

theorem explains_submitAll (hnonce : 0 ≤ nonce ∨ ∃ n, o.nonce = some n ∧ n < 0) (calls : List ContractCall) :
    Explains files config o c.url prior (submitAll c account chainId gasPrice nonce calls) := by
  -- by induction on the calls; the nonces grow, so that only the one that was given can be negative
  induction calls generalizing nonce prior with
  | nil => exact explains_pure _
  | cons call calls ih =>
    have hnext : 0 ≤ nonce + 1 ∨ ∃ n, o.nonce = some n ∧ n < 0 := hnonce.imp_left (by omega)
    refine (explains_submit hwaits hgasPrice hchain hnonce call).bind fun _ _ _ => ?_
    exact (ih hnext).bind fun _ _ _ => explains_pure _

end Submission

section Receipts

variable {hash receipt : Value}

theorem explained_of_readNumber {name : String} (hname : name = "status" ∨ name = "gasUsed")
    {es : List (Value × Value)} (h : Rpc.Answered url Rpc.receiptMethod [hash] ms (.mapping es)) {v : Value}
    (hv : Value.field? es name = some v) (he : readNumber v = .error e) : Explained files config o url ms e := by
  cases v with
  | text s =>
    obtain ⟨e', he', rfl⟩ := Except.mapError_eq_error he
    exact .inr (.number h hname hv (he' ▸ .text s))
  | halves bs =>
    obtain ⟨e', he', rfl⟩ := Except.mapError_eq_error he
    exact .inr (.number h hname hv (he' ▸ .halves bs))
  | _ =>
    cases he
    exact .inr (.mistyped h hname hv nofun)

theorem explained_of_checkStatus (h : Rpc.Polled url hash ms receipt)
    (he : checkStatus hash receipt = .error e) : Explained files config o url ms e := by
  cases receipt with
  | mapping es =>
    obtain hstatus | ⟨status, -, hother⟩ := Except.bind_eq_error.mp he
    · cases hfield : Value.field? es "status" with
      | none =>
        have hstandard : Integer.parse 16 "0x1" = .ok 1 := by decide
        rw [hfield, Option.getD_none, readNumber, hstandard] at hstatus
        cases hstatus
      | some v =>
        rw [hfield, Option.getD_some] at hstatus
        exact explained_of_readNumber (.inl rfl) h.2 hfield hstatus
    · split at hother
      · cases hother
        exact .inl ⟨_, rfl⟩
      · cases hother
  | _ =>
    cases he
    exact .inr (.notReceipt h (by simp))

theorem explained_of_gasUsed (h : Rpc.Polled url hash ms receipt)
    (he : gasUsed receipt = .error e) : Explained files config o url ms e := by
  cases receipt with
  | mapping es =>
    cases hfield : Value.field? es "gasUsed" with
    | some v =>
      simp only [gasUsed, hfield] at he
      exact explained_of_readNumber (.inr rfl) h.2 hfield he
    | none =>
      simp only [gasUsed, hfield] at he
      cases he
      exact .inr (.noGas h.2 hfield)
  | _ =>
    cases he
    exact .inr (.notReceipt h (by simp))

theorem explained_of_gasDigits {n : ℤ} (h : Rpc.Polled url hash ms receipt)
    (hgas : gasUsed receipt = .ok n) (hn : Nat.pow 10 Integer.maxDigits ≤ n.natAbs) :
    Explained files config o url ms .tooLong := by
  cases receipt with
  | mapping es =>
    cases hfield : Value.field? es "gasUsed" with
    | some v =>
      simp only [gasUsed, hfield] at hgas
      exact .inr (.gasDigits h.2 hfield (readNumber_eq_ok hgas) hn)
    | none =>
      simp only [gasUsed, hfield] at hgas
      cases hgas
  | _ => cases hgas

variable {hashes : List Value}

theorem Submitted.answered {chainId gasPrice nonce : ℤ} {calls : List ContractCall}
    (h : Submitted c account chainId gasPrice nonce calls ms (.ok hashes)) :
    ∀ hash ∈ hashes, Rpc.IsHash hash ∧ ∃ params, Rpc.Answered c.url sendMethod params ms hash := by
  generalize hr : Except.ok hashes = r at h
  induction h generalizing hashes with
  | done nonce =>
    cases hr
    exact fun hash hmem => absurd hmem List.not_mem_nil
  | unsent h => cases hr
  | refused => cases hr
  | @accepted _ _ _ _ before posts rest _ hash r _ _ hposts hhash _ ih =>
    cases r with
    | error e => cases hr
    | ok hashes' =>
      cases hr
      have hsub : rest ⊆ before ++ (posts ++ rest) := fun m hm => by simp [hm]
      refine List.forall_mem_cons.mpr ⟨⟨hhash, _, hposts.answered.mono fun m hm => by simp [hm]⟩, fun other hother => ?_⟩
      obtain ⟨hishash, params, hanswered⟩ := ih rfl other hother
      exact ⟨hishash, params, hanswered.mono hsub⟩

theorem explains_settle (hwaits : Waits c) (hinterval : pauseFault? o.pollInterval = none) (hhashes : hashes ≠ [])
    (hanswered : ∀ hash ∈ hashes, Rpc.IsHash hash ∧ ∃ params, Rpc.Answered c.url sendMethod params prior hash) :
    Explains files config o c.url prior (settle config c o hashes) := by
  refine (explains_mapM fun hash hmem more => ?_).bind fun receipts ms₁ hreceipts => ?_
  · obtain ⟨hhash, params, hposted⟩ := hanswered hash hmem
    exact explains_waitForReceipt hwaits _ hinterval hhash (hposted.mono (List.subset_append_left _ _))
  have hrel := does_receipts hreceipts
  have hlen := hrel.length_eq
  refine Explains.bind ?_ fun _ ms₂ hchecks => ?_
  · intro ms e h
    obtain ⟨rfl, -, herror⟩ := does_checks h
    obtain ⟨⟨hash, receipt⟩, hmem, hcheck⟩ := herror e rfl
    have hpolled := (List.forall₂_iff_zip.mp hrel).2 hmem
    exact (explained_of_checkStatus hpolled hcheck).mono fun m hm => by simp [hm]
  · have hlast : ∃ hash, Rpc.Polled c.url hash ms₁ (receipts.getLastD .null) := by
      have hpos := List.length_pos_iff.mpr hhashes
      have hne : receipts ≠ [] := List.ne_nil_of_length_pos (by omega)
      rw [List.getLastD_eq_getLast?, List.getLast?_eq_getLast_of_ne_nil hne, Option.getD_some, List.getLast_eq_getElem]
      exact ⟨_, hrel.get (by omega) (by omega)⟩
    obtain ⟨hash, hpolled⟩ := hlast
    refine (explains_ofExcept fun e he => ?_).bind fun gas ms₃ hgas => (explains_decimal fun hdigits => ?_).bind
      fun _ _ _ => (explains_echo _).bind fun _ _ _ => (explains_callAddress hwaits _ _).bind fun _ _ _ => explains_pure _
    · exact (explained_of_gasUsed hpolled he).mono fun m hm => by simp [hm]
    · have hgasUsed := Except.mapError_eq_ok.mp (does_ofExcept hgas).2.symm
      exact (explained_of_gasDigits hpolled hgasUsed hdigits).mono fun m hm => by simp [hm]

end Receipts

theorem explains_run (hwaits : Waits c) (hinterval : pauseFault? o.pollInterval = none) (hamount : GivesAmount o) :
    Explains files config o c.url prior (run config c account o) := by
  rw [run_eq]
  refine (explains_prepare hwaits hamount).bind fun ⟨t, p, chainId⟩ ms₁ hprepare => ?_
  have hprepared := does_prepare hprepare
  have hgasPrice : 0 ≤ t.gasPrice := by
    obtain h | h := hprepared.gasPrice.nonneg_or
    · exact h
    · exact (hamount _ h).1
  have hchain : 0 ≤ chainId := by
    obtain ⟨v, -, hquantity⟩ := hprepared.chainId
    exact Rpc.quantity_nonneg hquantity
  have hnonce : 0 ≤ t.nonce ∨ ∃ n, o.nonce = some n ∧ n < 0 := by
    by_cases hnonneg : 0 ≤ t.nonce
    · exact .inl hnonneg
    · exact .inr ⟨t.nonce, hprepared.nonce.nonneg_or.resolve_left hnonneg, not_le.mp hnonneg⟩
  refine (explains_submitAll hwaits hgasPrice hchain hnonce _).bind fun hashes ms₂ hsubmit => ?_
  have hhashes : hashes ≠ [] := by
    obtain ⟨a, hplanned⟩ := hprepared.planned
    obtain ⟨first, second, hcalls, -⟩ := hplanned.calls
    have hlen := (does_submitAll hsubmit).length_eq
    rw [hcalls] at hlen
    exact List.ne_nil_of_length_eq_add_one hlen
  refine (explains_settle hwaits hinterval hhashes fun hash hmem => ?_).bind fun _ _ _ =>
    (explains_echo _).bind fun _ _ _ => explains_pure _
  obtain ⟨hhash, params, hanswered⟩ := (does_submitAll hsubmit).answered hash hmem
  exact ⟨hhash, params, hanswered.mono (List.subset_append_right _ _)⟩

section Misspelled

variable {σ : Type} {around : Surroundings σ} {p p' : Progress σ} {n n' : ℕ}

omit [Platform] in
theorem run_ofCall_error {α : Type} {x : Rpc.Call α} {e : Rpc.Error}
    (h : Session.run around (x.run.run n) p = ((.error e, n'), p')) :
    Session.run around ((ofCall x).run.run n) p = ((.error (.rpc e), n'), p') := by
  have hcall : Session.run around ((ofCall x).run.run n) p = Session.run around (Session.bind (x.run.run n) _) p := rfl
  rw [hcall, Session.run_bind, h]
  rfl

theorem run_of_misspelled {x : Exchange} {remote : σ} {s : String} {e : Integer.LiteralError}
    (hattempts : 0 < c.attempts) (hanswer : around.answer p.remote ⟨n + 1, "eth_gasPrice", []⟩ = (x, remote))
    (hx : Rpc.Outcome.ofExchange c.url "eth_gasPrice" x = .final (.ok (.text s))) (hs : s.startsWith "0x" = true)
    (he : Integer.parse 16 s = .error e) (config : Config) (account : Account) (nonce : Option ℤ) :
    ∃ p', Session.run around ((run config c account { nonce }).run.run n) p =
      ((.error (.rpc (.quantity e)), n + 1), p') := by
  have hread : Rpc.Client.quantity "eth_gasPrice" (.text s) = .error (.quantity e) := by
    rw [Rpc.Client.quantity, if_pos hs, he]
    rfl
  let start := p.record (.printed .out ("Using deployer wallet: " ++ account.address.checksum))
  have hecho : Session.run around ((echo ("Using deployer wallet: " ++ account.address.checksum)).run.run n) p =
      ((.ok (), n), start) := rfl
  obtain ⟨p', hrequest⟩ : ∃ p', Session.run around ((c.request "eth_gasPrice" []).run.run n) start =
      ((.ok (.text s), n + 1), p') := ⟨_, Rpc.run_request hattempts (checkParams_eq_ok (fun _ => rfl) rfl) hanswer hx⟩
  have hquantity : Session.run around ((c.requestQuantity "eth_gasPrice" []).run.run n) start =
      ((.error (.quantity e), n + 1), p') := by
    rw [Rpc.Client.requestQuantity, run_bind_ok hrequest, hread]
    rfl
  rw [run_eq]
  refine ⟨p', run_bind_error ?_ _⟩
  rw [prepare, run_bind_ok hecho, terms_eq]
  exact run_bind_error (run_bind_error (run_ofCall_error hquantity) _) _

end Misspelled

end Settlement.Bridge.BringUp
