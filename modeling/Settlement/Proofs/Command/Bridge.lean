import Mathlib
import Settlement.Command.Bridge
import Settlement.Proofs.Bridge.Failures
import Settlement.Proofs.Command.Run
import Settlement.Proofs.GasPrice

namespace Settlement

namespace Command.Bridge

open Run Session Settlement.Bridge

variable [Platform]

inductive Reported (env : Environment) (o : Options) : String → Prop
  | config {e : Config.Error} (h : Config.ofEnvironment env = .error e) : Reported env o e.message
  | account {e : Deployer.Error} (he : e ≠ .tooDeep) : Reported env o e.summary
  | gasPrice {text : String} {e : GasPrice.Error} (h : o.gasPrice = some text) (he : GasPrice.parse text = .error e) :
    Reported env o e.report
  | bringUp {e : BringUp.Error} {message : String} (h : report? e = some message) : Reported env o message

/-- The last that is printed names the bridge, with status zero, or an error, with status one. -/
inductive Documented (env : Environment) (o : Options) (ms : List Move) : Ending Fault → Prop
  | bridge {a : Address} (h : ms.getLast? = some (.printed .out (BringUp.announcement a))) : Documented env o ms (.exit 0)
  | error {message : String} (hmessage : Reported env o message)
    (h : ms.getLast? = some (.printed .err ("Error: " ++ message))) : Documented env o ms (.exit 1)

/-- What breaks the command off. -/
inductive Breaks (files : String → FileState) (env : Environment) (o : Options) (ms : List Move) : Fault → Prop
  | gasPrice {text : String} (h : o.gasPrice = some text) (hparse : GasPrice.parse text = .error .overflow) :
    Breaks files env o ms .gasPrice
  -- no secret is given, and the file of the mnemonic nests too deep
  | mnemonic {config : Config} {bs : Bytes} (hconfig : Config.ofEnvironment env = .ok config)
    (hsecret : o.secret.filter (· != "") = none) (hmnemonic : config.mnemonic = none)
    (h : (files config.testConfig.toString).content? = some bs) (hbs : Platform.jsonDepth < Json.openings bs) :
    Breaks files env o ms .mnemonic
  | bringUp {config : Config} {e : BringUp.Error} (hconfig : Config.ofEnvironment env = .ok config)
    (he : BringUp.Unforeseen files config o.nonce config.rpcUrl ms e) : Breaks files env o ms (.bringUp e)

def Ended (files : String → FileState) (env : Environment) (o : Options) (ms : List Move)
    (ending : Ending Fault) : Prop :=
  Documented env o ms ending ∨ ∃ f, ending = .fault f ∧ Breaks files env o ms f

variable {files : String → FileState} {env : Environment} {o : Options} {ms : List Move} {ending : Ending Fault}

theorem Documented.append (h : Documented env o ms ending) (front : List Move) :
    Documented env o (front ++ ms) ending := by
  have hlast {m : Move} (h : ms.getLast? = some m) : (front ++ ms).getLast? = some m := by
    rw [List.getLast?_append, h, Option.some_or]
  cases h with
  | bridge h => exact .bridge (hlast h)
  | error hmessage h => exact .error hmessage (hlast h)

theorem Ended.append (h : Ended files env o ms ending) (front : List Move) : Ended files env o (front ++ ms) ending := by
  obtain hdocumented | ⟨f, rfl, hbreaks⟩ := h
  · exact .inl (hdocumented.append front)
  · cases hbreaks with
    | gasPrice h hparse => exact .inr ⟨_, rfl, .gasPrice h hparse⟩
    | mnemonic hconfig hsecret hmnemonic h hbs => exact .inr ⟨_, rfl, .mnemonic hconfig hsecret hmnemonic h hbs⟩
    | bringUp hconfig he => exact .inr ⟨_, rfl, .bringUp hconfig (he.mono (List.subset_append_right _ _))⟩

section Parts

variable {α β : Type}

def Ends (files : String → FileState) (env : Environment) (o : Options) (x : Step α) : Prop :=
  ∀ ms ending, Goes files x.run ms (.error ending) → Ended files env o ms ending

theorem ends_pure (a : α) : Ends files env o (pure a : Step α) := by
  intro ms ending h
  cases (goes_done h).2

theorem Ends.bind {x : Step α} {f : α → Step β} (hx : Ends files env o x)
    (hf : ∀ a ms, Goes files x.run ms (.ok a) → Ends files env o (f a)) : Ends files env o (x >>= f) := by
  intro ms ending h
  obtain ⟨e, heq, h⟩ | ⟨a, ms₁, ms₂, rfl, hfirst, hrest⟩ := goes_run_bind h
  · cases heq
    exact hx ms _ h
  · exact (hf a ms₁ hfirst ms₂ ending hrest).append ms₁

theorem ends_ofSession (s : Session α) : Ends files env o (Run.ofSession s : Step α) := by
  intro ms ending h
  obtain ⟨a, heq, -⟩ := goes_ofSession h
  cases heq

theorem ends_fail {message : String} (hmessage : Reported env o message) :
    Ends files env o (Run.fail 1 message : Step α) := by
  intro ms ending h
  obtain ⟨rfl, heq⟩ := goes_fail h
  cases heq
  exact .inl (.error hmessage rfl)

theorem ends_readConfig : Ends files env o (readConfig env) := by
  unfold readConfig
  split
  · exact ends_pure _
  · rename_i e he
    exact ends_fail (.config he)

theorem config_of_readConfig {config : Config} (h : Goes files (readConfig env).run ms (.ok config)) :
    Config.ofEnvironment env = .ok config := by
  unfold readConfig at h
  split at h
  · rename_i config' hconfig
    cases (goes_done h).2
    exact hconfig
  · cases (goes_fail h).2

theorem deep_of_load {secret : Option String} {config : Config}
    (h : Goes files (Deployer.load secret config) ms (.error .tooDeep)) : secret.filter (· != "") = none ∧
      config.mnemonic = none ∧ ∃ bs, (files config.testConfig.toString).content? = some bs ∧
        Platform.jsonDepth < Json.openings bs := by
  unfold Deployer.load at h
  split at h
  · obtain ⟨e, -, heq⟩ := Except.mapError_eq_error (goes_done h).2.symm
    cases heq
  rename_i hsecret
  obtain ⟨found, ms₁, ms₂, rfl, hfound, hend⟩ := goes_bind (s := Deployer.mnemonic config) h
  cases found with
  | ok v =>
    obtain ⟨e, -, heq⟩ := Except.mapError_eq_error (goes_done hend).2.symm
    cases heq
  | error e =>
    cases (goes_done hend).2
    obtain ⟨field, ms₃, ms₄, rfl, hfield, hnamed⟩ := goes_bind (s := config.deployerMnemonic) hfound
    have hdeep : field = .error (.json .tooDeep) := by
      split at hnamed
      · cases (goes_done hnamed).2
      · cases (goes_done hnamed).2
      · rfl
      · cases (goes_done hnamed).2
    subst hdeep
    unfold Config.deployerMnemonic at hfield
    split at hfield
    · cases (goes_done hfield).2
    · rename_i hmnemonic
      cases hfield with
      | read hread => exact ⟨hsecret, hmnemonic, lt_openings_of_readField (goes_done hread).2.symm⟩

theorem ends_readAccount {config : Config} (hconfig : Config.ofEnvironment env = .ok config) :
    Ends files env o (readAccount o config) := by
  refine (ends_ofSession _).bind fun loaded ms hloaded => ?_
  split
  · exact ends_pure _
  · obtain ⟨_, heq, hload⟩ := goes_ofSession hloaded
    cases heq
    obtain ⟨hsecret, hmnemonic, bs, hbs, hdeep⟩ := deep_of_load hload
    intro ms ending h
    cases (goes_done h).2
    exact .inr ⟨_, rfl, .mnemonic hconfig hsecret hmnemonic hbs hdeep⟩
  · rename_i e he
    exact ends_fail (.account he)

theorem ends_readGasPrice : Ends files env o (readGasPrice o) := by
  unfold readGasPrice
  split
  · exact ends_pure _
  · rename_i text htext
    split
    · exact ends_pure _
    · rename_i hparse
      intro ms ending h
      cases (goes_done h).2
      exact .inr ⟨_, rfl, .gasPrice htext hparse⟩
    · rename_i e _ hparse
      exact ends_fail (.gasPrice htext hparse)

omit [Platform] in
theorem bounds_of_readGasPrice {gasPrice : Option ℤ} (h : Goes files (readGasPrice o).run ms (.ok gasPrice)) :
    ∀ n ∈ gasPrice, 0 ≤ n ∧ n ≤ GasPrice.maxWei := by
  unfold readGasPrice at h
  split at h
  · cases (goes_done h).2
    simp
  · split at h
    · rename_i n hparse
      cases (goes_done h).2
      intro k hk
      obtain rfl := Option.some.inj hk
      exact ⟨Int.natCast_nonneg n, Int.ofNat_le.mpr (GasPrice.le_maxWei_of_parse hparse)⟩
    · cases (goes_done h).2
    · cases (goes_fail h).2

def bringUp (o : Options) (config : Config) (account : Account) (gasPrice : Option ℤ) : Step Unit := do
  let run := BringUp.run config { url := config.rpcUrl } account { gasPrice, nonce := o.nonce }
  match (← Run.ofSession (run.run.run 0)).1 with
  | .ok _ => pure ()
  | .error e =>
    match report? e with
    | some message => Run.fail 1 message
    | none => Run.stopAt (.bringUp e)

variable {config : Config} {account : Account} {gasPrice : Option ℤ}

theorem ends_bringUp (hconfig : Config.ofEnvironment env = .ok config)
    (hamount : ∀ n ∈ gasPrice, 0 ≤ n ∧ n ≤ GasPrice.maxWei) :
    Ends files env o (bringUp o config account gasPrice) := by
  intro ms ending h
  obtain ⟨_, -, hrun⟩ | ⟨⟨result, n⟩, ms₁, ms₂, rfl, hrun, hrest⟩ := goes_run_bind h
  · obtain ⟨a, heq, -⟩ := goes_ofSession hrun
    cases heq
  obtain ⟨_, heq, hgoes⟩ := goes_ofSession hrun
  cases heq
  cases result with
  | ok result => cases (goes_done hrest).2
  | error e =>
    simp only at hrest
    split at hrest
    · rename_i message hmessage
      exact (ends_fail (.bringUp hmessage) _ _ hrest).append _
    · rename_i hnone
      have hgives : BringUp.GivesAmount { gasPrice, nonce := o.nonce } := hamount
      have hinterval : pauseFault? (.ofInt 1) = none := by decide +kernel
      have hexplains : BringUp.Explains files config { gasPrice, nonce := o.nonce } config.rpcUrl []
          (BringUp.run config { url := config.rpcUrl } account { gasPrice, nonce := o.nonce }) :=
        BringUp.explains_run (Rpc.exists_nextPause _) hinterval hgives
      have hexplained := hexplains ms₁ e ⟨0, n, hgoes⟩
      obtain ⟨rfl, heq⟩ := goes_done hrest
      cases heq
      rw [List.append_nil]
      exact .inr ⟨_, rfl, .bringUp hconfig (hexplained.resolve_left (by simp [hnone]))⟩

theorem documented_of_bringUp (h : Goes files (bringUp o config account gasPrice).run ms (.ok ())) :
    Documented env o ms (.exit 0) := by
  obtain ⟨⟨result, n⟩, ms₁, ms₂, rfl, hrun, hrest⟩ := goes_run_bind_ok h
  obtain ⟨_, heq, hgoes⟩ := goes_ofSession hrun
  cases heq
  cases result with
  | ok result =>
    obtain ⟨rfl, -⟩ := goes_done hrest
    rw [List.append_nil]
    exact .bridge (BringUp.getLast?_of_run ⟨0, n, hgoes⟩)
  | error e =>
    simp only at hrest
    split at hrest
    · cases (goes_fail hrest).2
    · cases (goes_done hrest).2

theorem perform_eq : perform env o = (do
    let config ← readConfig env
    let account ← readAccount o config
    let gasPrice ← readGasPrice o
    bringUp o config account gasPrice) := rfl

theorem ends_perform : Ends files env o (perform env o) := by
  rw [perform_eq]
  exact ends_readConfig.bind fun config _ hconfig => (ends_readAccount (config_of_readConfig hconfig)).bind fun _ _ _ =>
    ends_readGasPrice.bind fun _ _ hgasPrice => ends_bringUp (config_of_readConfig hconfig)
      (bounds_of_readGasPrice hgasPrice)

theorem documented_of_perform (h : Goes files (perform env o).run ms (.ok ())) : Documented env o ms (.exit 0) := by
  rw [perform_eq] at h
  obtain ⟨config, ms₁, ms₂, rfl, -, hrest₁⟩ := goes_run_bind_ok h
  obtain ⟨account, ms₃, ms₄, rfl, -, hrest₂⟩ := goes_run_bind_ok hrest₁
  obtain ⟨gasPrice, ms₅, ms₆, rfl, -, hrest₃⟩ := goes_run_bind_ok hrest₂
  exact (((documented_of_bringUp hrest₃).append _).append _).append _

end Parts

variable {args : List String}

theorem ended_of_goes (hargs : options? args = some o) (h : Goes files (session env args) ms ending) :
    Ended files env o ms ending := by
  rw [session, hargs] at h
  obtain ⟨hok, rfl⟩ | herror := goes_session h
  · exact .inl (documented_of_perform hok)
  · exact ends_perform ms ending herror

section Misspelled

variable {σ : Type} {around : Surroundings σ} {p : Progress σ}

theorem run_of_misspelled {args : List String} (hargs : options? args = some o) (hgasPrice : o.gasPrice = none)
    {config : Config} (hconfig : Config.ofEnvironment env = .ok config) {account : Account}
    (haccount : Session.run around (Deployer.load o.secret config) p = (.ok account, p)) {x : Exchange} {remote : σ}
    (hanswer : around.answer p.remote ⟨1, "eth_gasPrice", []⟩ = (x, remote)) {s : String}
    (hx : Rpc.Outcome.ofExchange config.rpcUrl "eth_gasPrice" x = .final (.ok (.text s)))
    (hs : s.startsWith "0x" = true) {e : Integer.LiteralError} (he : Integer.parse 16 s = .error e) :
    (Session.run around (session env args) p).1 = .fault (.bringUp (.rpc (.quantity e))) := by
  have hreadConfig : eval around (readConfig env) p = (.ok config, p) := by
    rw [readConfig, hconfig]
    rfl
  have hreadAccount : eval around (readAccount o config) p = (.ok account, p) := by
    rw [readAccount, eval_bind_ok (eval_ofSession _), haccount]
    rfl
  have hreadGasPrice : eval around (readGasPrice o) p = (.ok none, p) := by
    rw [readGasPrice, hgasPrice]
    rfl
  obtain ⟨p', hrun⟩ := BringUp.run_of_misspelled (c := { url := config.rpcUrl }) (n := 0) (Nat.succ_pos 2) hanswer
    hx hs he
    config account o.nonce
  have hperform : eval around (perform env o) p = (.error (.fault (.bringUp (.rpc (.quantity e)))), p') := by
    rw [perform_eq, eval_bind_ok hreadConfig, eval_bind_ok hreadAccount, eval_bind_ok hreadGasPrice, bringUp,
      eval_bind_ok (eval_ofSession _), hrun]
    rfl
  rw [session, hargs]
  exact congrArg Prod.fst (run_session hperform)

def sampleEnvironment : Environment :=
  fun name => List.lookup name [(Config.homeVariable, "/home"), (Config.gasLimitVariable, "72000000"),
    (Config.diamondVariable, "0x0000000000000000000000000000000000000001"),
    (Config.l1BridgeVariable, "0x0000000000000000000000000000000000000002")]

def sampleSecret : String := "0x1111111111111111111111111111111111111111111111111111111111111111"

omit [Platform]

def misspellingNode : Surroundings Unit where
  files _ := .missing
  answer _ _ := (.response 200 "\x7b\"result\": \"0xzz\"\x7d", ())

end Misspelled

end Command.Bridge

end Settlement
