import Mathlib
import Settlement.Proofs.Command.EntryPoints
import Settlement.Proofs.Json.Limits

/-!
What the command `verify` makes of a policy file: a meter, a report that the policy is invalid, or, for a few kinds of
content, neither.
-/

namespace Settlement

namespace Policy

def IsInfinite (v : Value) : Prop :=
  ∃ negative, v = .float (.infinity negative)

theorem isInfinite_of_ofValue {v : Value} (h : Integer.ofValue v = .error .infinity) : IsInfinite v := by
  unfold Integer.ofValue at h
  split at h
  · cases h
  · cases h
  · cases h
  · rename_i x hnan
    cases x with
    | nan => exact absurd rfl hnan
    | infinity negative => exact ⟨negative, rfl⟩
    | finite negative m e => simp [Binary64.truncate?, Binary64.toRatio?] at h
  · rename_i s
    cases hs : Integer.parse 10 s <;> simp [hs, Except.mapError] at h
  · rename_i bs
    cases hs : Integer.parseHalves 10 bs <;> simp [hs, Except.mapError] at h
  · rename_i bs
    cases hs : Integer.parseBytes 10 bs <;> simp [hs, Except.mapError] at h
  · cases h

theorem exists_of_setPrices_error {s : UnitSchedule} {es : List (Value × Value)} {e : DocumentError}
    (h : setPrices s es = .error e) : ∃ x ∈ es, convert x.2 = .error e := by
  induction es generalizing s with
  | nil => cases h
  | cons x es ih =>
    rw [List.exists_mem_cons_iff]
    unfold setPrices at h
    split at h
    · split at h
      · exact (Except.bind_eq_error.mp h).imp_right fun ⟨_, _, h⟩ => ih h
      · exact .inr (ih h)
    · exact .inr (ih h)

theorem exists_of_setLimits_error {l : SizeLimits} {es : List (Value × Value)} {e : DocumentError}
    (h : setLimits l es = .error e) : ∃ x ∈ es, convert x.2 = .error e := by
  induction es generalizing l with
  | nil => cases h
  | cons x es ih =>
    rw [List.exists_mem_cons_iff]
    unfold setLimits at h
    split at h
    · exact (Except.bind_eq_error.mp h).imp_right fun ⟨_, _, h⟩ => ih h
    · split at h
      · exact (Except.bind_eq_error.mp h).imp_right fun ⟨_, _, h⟩ => ih h
      · exact .inr (ih h)

inductive DocumentError.Escapes : DocumentError → Prop
  | infinity : Escapes (.conversion .infinity)
  | noValues : Escapes .noValues

/-- What in the entries of a document leads to such an error: an infinite number for a budget, price or limit, or a
section that is neither empty nor a mapping. -/
inductive Offends (es : List (Value × Value)) : DocumentError → Prop
  | budget {v : Value} (h : Value.field? es "budget" = some v) (hv : IsInfinite v) :
    Offends es (.conversion .infinity)
  | entry {name : String} (hname : name ∈ ["schedule", "limits"]) {entries : List (Value × Value)}
    (h : Value.field? es name = some (.mapping entries)) {x : Value × Value} (hx : x ∈ entries)
    (hv : IsInfinite x.2) : Offends es (.conversion .infinity)
  | valueless {name : String} (hname : name ∈ ["schedule", "limits"]) {v : Value} (h : Value.field? es name = some v)
    (hv : v.isFalsy = false) (hmapping : ∀ entries, v ≠ .mapping entries) : Offends es .noValues

theorem mapping_of_mem_sectionEntries {v : Value} {entries : List (Value × Value)}
    (h : sectionEntries v = .ok entries) {x : Value × Value} (hx : x ∈ entries) : v = .mapping entries := by
  unfold sectionEntries at h
  split at h
  · obtain rfl := Except.ok.inj h
    rfl
  · split at h
    · obtain rfl := Except.ok.inj h
      cases hx
    · cases h

theorem not_mapping_of_sectionEntries_error {v : Value} {e : DocumentError} (h : sectionEntries v = .error e) :
    e = .noValues ∧ v.isFalsy = false ∧ ∀ entries, v ≠ .mapping entries := by
  unfold sectionEntries at h
  split at h
  · cases h
  · rename_i hmapping
    split at h
    · cases h
    · rename_i hfalsy
      exact ⟨(Except.error.inj h).symm, by simpa using hfalsy, hmapping⟩

theorem isInfinite_of_convert {v : Value} {e : DocumentError} (h : convert v = .error e) (he : e.Escapes) :
    e = .conversion .infinity ∧ IsInfinite v := by
  unfold convert at h
  cases hv : Integer.ofValue v with
  | ok n => simp [hv, Except.mapError] at h
  | error e' =>
    rw [hv] at h
    obtain rfl := Except.error.inj h
    cases he
    exact ⟨rfl, isInfinite_of_ofValue hv⟩

theorem reported_of_sectionNames {v : Value} {e : DocumentError} (h : sectionNames v = .error e) : ¬e.Escapes := by
  have hmistyped : ¬DocumentError.mistyped.Escapes := nofun
  unfold sectionNames at h
  split at h
  case h_2 =>
    split at h
    · cases h
    · exact Except.error.inj h ▸ hmistyped
  case h_7 => exact Except.error.inj h ▸ hmistyped
  all_goals cases h

theorem reported_of_checkNames {names : List Value} {e : DocumentError} (h : checkNames names = .error e) :
    ¬e.Escapes := by
  simp only [checkNames] at h
  split at h
  · cases h
  · split at h
    · obtain rfl := Except.error.inj h
      split <;> exact nofun
    · obtain rfl := Except.error.inj h
      exact nofun

def SectionFails (v : Value) (e : DocumentError) : Prop :=
  sectionEntries v = .error e ∨ ∃ entries, sectionEntries v = .ok entries ∧ ∃ x ∈ entries, convert x.2 = .error e

theorem sectionFails_of_readSchedule {v : Value} {e : DocumentError} (h : readSchedule v = .error e) (he : e.Escapes) :
    SectionFails v e := by
  have hrest (h : (sectionEntries v >>= fun entries => setPrices {} entries) = .error e) : SectionFails v e := by
    obtain h | ⟨entries, hentries, h⟩ := Except.bind_eq_error.mp h
    · exact .inl h
    · exact .inr ⟨entries, hentries, exists_of_setPrices_error h⟩
  unfold readSchedule at h
  -- the names of a schedule are looked at before its entries are, and what is wrong with them is reported
  split at h
  · obtain h | ⟨names, -, h⟩ := Except.bind_eq_error.mp h
    · exact absurd he (reported_of_sectionNames h)
    obtain h | ⟨_, _, h⟩ := Except.bind_eq_error.mp h
    · exact absurd he (reported_of_checkNames h)
    · exact hrest h
  · exact hrest h

theorem sectionFails_of_readLimits {v : Value} {e : DocumentError} (h : readLimits v = .error e) :
    SectionFails v e := by
  obtain h | ⟨entries, hentries, h⟩ := Except.bind_eq_error.mp h
  · exact .inl h
  · exact .inr ⟨entries, hentries, exists_of_setLimits_error h⟩

theorem SectionFails.offends {es : List (Value × Value)} {name : String} {e : DocumentError}
    (h : SectionFails ((Value.field? es name).getD .null) e) (hname : name ∈ ["schedule", "limits"])
    (he : e.Escapes) : Offends es e := by
  cases hfield : Value.field? es name with
  | none =>
    rw [hfield, Option.getD_none] at h
    obtain h | ⟨entries, h, x, hx, -⟩ := h
    · cases h
    · cases mapping_of_mem_sectionEntries h hx
  | some v =>
    rw [hfield, Option.getD_some] at h
    obtain h | ⟨entries, h, x, hx, hconvert⟩ := h
    · obtain ⟨rfl, hfalsy, hmapping⟩ := not_mapping_of_sectionEntries_error h
      exact .valueless hname hfield hfalsy hmapping
    · obtain rfl := mapping_of_mem_sectionEntries h hx
      obtain ⟨rfl, hinfinite⟩ := isInfinite_of_convert hconvert he
      exact .entry hname hfield hx hinfinite

theorem offends_of_readBudget {es : List (Value × Value)} {e : DocumentError}
    (h : readBudget (Value.field? es "budget") = .error e) (he : e.Escapes) : Offends es e := by
  cases hfield : Value.field? es "budget" with
  | none =>
    rw [hfield] at h
    cases h
  | some v =>
    rw [hfield] at h
    have hconvert : convert v = .error e := by
      cases v with
      | null => cases h
      | _ =>
        obtain h | ⟨_, _, h⟩ := Except.bind_eq_error.mp h
        · exact h
        · cases h
    obtain ⟨rfl, hinfinite⟩ := isInfinite_of_convert hconvert he
    exact .budget hfield hinfinite

theorem offends_of_ofEntries {es : List (Value × Value)} {e : DocumentError} (h : ofEntries es = .error e)
    (he : e.Escapes) : Offends es e := by
  obtain h | ⟨_, _, h⟩ := Except.bind_eq_error.mp h
  · exact (sectionFails_of_readSchedule h he).offends (by simp) he
  obtain h | ⟨_, _, h⟩ := Except.bind_eq_error.mp h
  · exact (sectionFails_of_readLimits h).offends (by simp) he
  obtain h | ⟨_, _, h⟩ := Except.bind_eq_error.mp h
  · exact offends_of_readBudget h he
  · cases h

/-- Errors of reading YAML that no one expects: a tag that promises a truth value, a number or a date of text that is
none, a number too large for the machine, and collections too deep. -/
def escaping : List Yaml.Error := [.truth, .emptyNumber, .date, .overflow, .tooDeep]

inductive LoadError.Escapes : LoadError → Prop
  | document {e : DocumentError} (h : e.Escapes) : Escapes (.document e)
  | json : Escapes (.json .tooDeep)
  | yaml {e : Yaml.Error} (h : e ∈ escaping) : Escapes (.yaml e)

section Texts

variable [Platform]

inductive Breaks (text : String) : LoadError → Prop
  | document {es : List (Value × Value)} {e : DocumentError} (h : readText text = .ok (.mapping es))
    (he : Offends es e) : Breaks text (.document e)
  | json (h : Json.parse text = .error .tooDeep)
    (hdeep : Platform.jsonDepth < Json.openings (Bytes.ofString text)) : Breaks text (.json .tooDeep)
  | yaml {e : Yaml.Error} (h : Yaml.load text = .error e) (he : e ∈ escaping) : Breaks text (.yaml e)

theorem breaks_of_readText {text : String} {e : LoadError} (h : readText text = .error e) (he : e.Escapes) :
    Breaks text e := by
  unfold readText at h
  split at h
  · cases hparse : Json.parse text with
    | ok v => simp [hparse, Except.mapError] at h
    | error e' =>
      rw [hparse] at h
      obtain rfl := Except.error.inj h
      cases he
      exact .json hparse (Json.lt_openings_of_parse hparse)
  · obtain h | ⟨v, -, h⟩ := Except.bind_eq_error.mp h
    · cases hload : Yaml.load text with
      | ok v => simp [hload, Except.mapError] at h
      | error e' =>
        rw [hload] at h
        obtain rfl := Except.error.inj h
        cases he with
        | yaml hmem => exact .yaml hload hmem
    · cases h

theorem breaks_of_ofText {path text : String} {e : LoadError} (h : ofText path text = .error e) (he : e.Escapes) :
    Breaks text e := by
  obtain h | ⟨v, hread, h⟩ := Except.bind_eq_error.mp h
  · exact breaks_of_readText h he
  split at h
  · rename_i es
    cases hentries : ofEntries es with
    | ok policy => simp [hentries, Except.mapError] at h
    | error e' =>
      rw [hentries] at h
      obtain rfl := Except.error.inj h
      cases he with
      | document he => exact .document hread (offends_of_ofEntries hentries he)
  · obtain rfl := Except.error.inj h
    cases he

theorem breaks_of_load? {source : Source} {missingOk : Bool} {e : LoadError} (h : load? source missingOk = .error e)
    (he : e.Escapes) : ∃ path bs text, source = .file path bs ∧ String.fromUTF8? ⟨bs.toArray⟩ = some text ∧
      Breaks text e := by
  unfold load? at h
  split at h
  · cases h
  · split at h
    · cases h
    · obtain rfl := Except.error.inj h
      cases he
  · obtain rfl := Except.error.inj h
    cases he
  · rename_i path bs
    split at h
    · obtain rfl := Except.error.inj h
      cases he
    · rename_i text htext
      obtain h | ⟨policy, -, h⟩ := Except.bind_eq_error.mp h
      · exact ⟨path, bs, text, rfl, htext, breaks_of_ofText h he⟩
      · cases h

end Texts

end Policy

namespace Command.Verify

open Run Session

variable {σ : Type} {around : Surroundings σ} {p : Progress σ} {settings : Verifier.Settings}

theorem eval_refusePolicy_of_escapes {e : Policy.LoadError} (he : e.Escapes) (path : String) :
    eval around (refusePolicy path e) p = (.error (.fault (.policy e)), p) := by
  cases he with
  | document he => cases he <;> rfl
  | json => rfl
  | yaml he =>
    simp only [Policy.escaping, List.mem_cons, List.not_mem_nil, or_false] at he
    obtain rfl | rfl | rfl | rfl | rfl := he <;> rfl

theorem escapes_of_policyReason {e : Policy.LoadError} {f : Fault} (h : policyReason e = .error f) : e.Escapes := by
  unfold policyReason at h
  split at h
  all_goals try cases h
  · exact .document .infinity
  · exact .document .noValues
  all_goals first | exact .json | exact .yaml (by simp [Policy.escaping])

theorem eval_refusePolicy {e : Policy.LoadError} (he : ¬e.Escapes) (path : String) :
    ∃ detail, eval around (refusePolicy path e) p =
      (.error (.exit 2), p.record (.printed .err ("Error: invalid policy " ++ path ++ detail))) := by
  have hline : "Error: " ++ "invalid policy " = "Error: invalid policy " := rfl
  unfold refusePolicy
  split
  · rename_i hreason
    exact absurd (escapes_of_policyReason hreason) he
  · rename_i reason _
    refine ⟨": " ++ reason, ?_⟩
    rw [eval_fail, ← hline]
    simp only [String.append_assoc]
  · refine ⟨"", ?_⟩
    rw [eval_fail, ← hline]
    simp only [String.append_assoc, String.append_empty]

theorem content_of_policySource {path path' : String} {state : FileState} {bs : Bytes}
    (h : policySource path state = .file path' bs) : state = .content bs := by
  cases state with
  | missing => cases h
  | unreadable => cases h
  | content bs' =>
    cases h
    rfl

section Runs

variable [Platform]

theorem eval_readMeter {given : Option Path} {path : Path} (h : (given <|> settings.policyPath) = some path)
    (around : Surroundings σ) (p : Progress σ) :
    eval around (readMeter settings given) p =
      match Policy.load? (policySource path.toString (around.files path.toString)) false with
      | .ok policy => (.ok (some (.ofPolicy (policy.getD .standard))), p)
      | .error e => eval around (refusePolicy path.toString e) p := by
  rw [readMeter, h]
  simp only
  rw [eval_bind_ok (eval_readFile _)]
  split <;> simp only [*, eval_pure]

theorem exists_policy {path : String} {state : FileState} {policy? : Option Policy}
    (h : Policy.load? (policySource path state) false = .ok policy?) : ∃ policy, policy? = some policy := by
  cases state with
  | missing => cases h
  | unreadable => cases h
  | content bs =>
    simp only [policySource, Policy.load?] at h
    split at h
    · cases h
    · obtain ⟨policy, -, h⟩ := Except.bind_eq_ok.mp h
      exact ⟨policy, (Except.ok.inj h).symm⟩

/-- With a key and a proof in order, a policy file is put to use, and the command ends as the verification under its
meter does; or it is said to be invalid, with status two; or its content is of the few kinds that break the command
off. The verification is broken off only if it exhausts the meter in numbers too long to be written. -/
theorem policy_reported {env : Environment} {args : List String} {o : Options}
    (hargs : readRequest args = some (.verify o)) {key : Key} {inputs words : List ℕ}
    (h : Prepared around (.ofEnvironment env) o key inputs words) {path : Path}
    (hpath : (o.policy <|> (Verifier.Settings.ofEnvironment env).policyPath) = some path) :
    (∃ policy y m',
      Policy.load? (policySource path.toString (around.files path.toString)) false = .ok (some policy) ∧
      Verifier.verify ⟨some key⟩ (values inputs) (.words (values words)) (some (.ofPolicy policy)) = (y, m') ∧
      m'.map (·.policy) = some policy ∧
      ((∃ v, y = .ok v) ∨ y = .error .unwritable ∧ ∃ e, Meter.Exhausted m' e ∧ e.isWritable = false) ∧
      Session.run around (session env args) p = ended p y) ∨
    (∃ e detail, Policy.load? (policySource path.toString (around.files path.toString)) false = .error e ∧
      Session.run around (session env args) p =
        (.exit 2, p.record (.printed .err ("Error: invalid policy " ++ path.toString ++ detail)))) ∨
    ∃ bs text e, around.files path.toString = .content bs ∧ String.fromUTF8? ⟨bs.toArray⟩ = some text ∧
      Policy.load? (policySource path.toString (.content bs)) false = .error e ∧ Policy.Breaks text e ∧
      Session.run around (session env args) p = (.fault (.policy e), p) := by
  have hmeter := eval_readMeter hpath around p
  cases hload : Policy.load? (policySource path.toString (around.files path.toString)) false with
  | ok policy? =>
    obtain ⟨policy, rfl⟩ := exists_policy hload
    rw [hload] at hmeter
    obtain ⟨_, _, -, -, hkey⟩ := h.key
    obtain ⟨y, m', hverify, hpolicy, hend⟩ :=
      exists_verify (Key.exists_document_of_load hkey) inputs words (some (.ofPolicy policy))
    exact .inl ⟨policy, y, m', rfl, hverify, hpolicy, hend, run_of_meter hargs h hmeter hverify⟩
  | error e =>
    rw [hload] at hmeter
    by_cases he : e.Escapes
    · obtain ⟨_, bs, text, hsource, htext, hbreaks⟩ := Policy.breaks_of_load? hload he
      have hcontent := content_of_policySource hsource
      have hfault := run_of_refusal hargs h (hmeter.trans (eval_refusePolicy_of_escapes he _))
      exact .inr (.inr ⟨bs, text, e, hcontent, htext, hcontent ▸ hload, hbreaks, hfault⟩)
    · obtain ⟨detail, hreport⟩ := eval_refusePolicy he path.toString
      exact .inr (.inl ⟨e, detail, rfl, run_of_refusal hargs h (hmeter.trans hreport)⟩)

end Runs

section Sample

open Linearization

def policyOptions : Options :=
  ⟨Path.ofString "p", some (Path.ofString "k"), [], some (Path.ofString "q")⟩

def policyArguments : List String :=
  ["verify", "--vk", "k", "--proof", "p", "--policy", "q"]

theorem readRequest_policyArguments : readRequest policyArguments = some (.verify policyOptions) := rfl

def policyStart : Progress Unit :=
  ⟨(), .zero, []⟩

def policyRun [Platform] (policy : Bytes) : Ending Fault × Progress Unit :=
  Session.run (sampleSurroundings (some [96]) policy) (session (fun _ => none) policyArguments) policyStart

theorem prepared_sample (policy : Bytes) :
    Prepared (sampleSurroundings (some [96]) policy) (.ofEnvironment fun _ => none) policyOptions twoRowKey [96]
      looseWords := by
  have hfiled := filed_sample (.encoded (ofWords_looseWords (by decide))) policy
  have hprepared := hfiled.prepared ofDocument_twoRowDocument (by decide) (by decide +kernel)
  exact ⟨hprepared.key, hprepared.proof⟩

theorem files_sample (policy : Bytes) : (sampleSurroundings (some [96]) policy).files "q" = .content policy := rfl

def emptyPolicy : Bytes := Bytes.ofString "\x7b\"budget\": 0\x7d"

def unknownPolicy : Bytes := Bytes.ofString "\x7b\"schedule\": \x7b\"pairings\": 1\x7d\x7d"

def infinitePolicy : Bytes := Bytes.ofString "\x7b\"budget\": Infinity\x7d"

theorem policy_reported_samples : letI := Platform.standard
    policyRun emptyPolicy = (.exit 1, policyStart.record (.printed .err
      "✗ proof rejected: RESOURCE_EXHAUSTED: verification budget exhausted (20000 > 0 units at base)")) ∧
    (policyRun unknownPolicy).1 = .exit 2 := by
  let := Platform.standard
  have hempty : Policy.load? (policySource "q" (.content emptyPolicy)) false = .ok (some { budget := some 0 }) := by
    decide +kernel
  have hunknown : Policy.load? (policySource "q" (.content unknownPolicy)) false =
      .error (.document (.unknownEntries ["'pairings'"])) := by
    decide +kernel
  have hreported (policy : Bytes) := policy_reported (p := policyStart) readRequest_policyArguments
    (prepared_sample policy) rfl
  simp only [toString_ofString_letter "q" (by simp), files_sample] at hreported
  constructor
  · have hexhausted : (Verifier.verify ⟨some twoRowKey⟩ (values [96]) (.words (values looseWords))
        (some (.ofPolicy { budget := some 0 }))).1 = .ok (.rejected (.resourceExhausted (.budget 20000 0 .base))) := by
      decide +kernel
    have h := hreported emptyPolicy
    rw [hempty] at h
    obtain ⟨policy, y, m', h, hverify, -, -, hsession⟩ | ⟨e, detail, h, -⟩ | ⟨bs, text, e, hbs, -, h, -⟩ := h
    · cases h
      rw [hverify] at hexhausted
      obtain rfl : y = _ := hexhausted
      exact hsession
    · cases h
    · cases hbs
      cases hempty.symm.trans h
  · have h := hreported unknownPolicy
    rw [hunknown] at h
    obtain ⟨policy, y, m', h, -⟩ | ⟨e, detail, -, hsession⟩ | ⟨bs, text, e, hbs, -, h, hbreaks, -⟩ := h
    · cases h
    · exact congrArg Prod.fst hsession
    · cases hbs
      cases hunknown.symm.trans h
      cases hbreaks with
      | document _ hoffends => cases hoffends

theorem not_policy_reported_infinity : letI := Platform.standard
    ¬∀ policy : Bytes,
      (∃ v, policyRun policy = (.exit (status v), policyStart.record (announcement v))) ∨
      ∃ detail, policyRun policy =
        (.exit 2, policyStart.record (.printed .err ("Error: invalid policy q" ++ detail))) := by
  let := Platform.standard
  intro h
  have hload : Policy.load? (policySource "q" (.content infinitePolicy)) false =
      .error (.document (.conversion .infinity)) := by
    decide +kernel
  have hpath : (some (Path.ofString "q") <|> (Verifier.Settings.ofEnvironment fun _ => none).policyPath) =
      some (Path.ofString "q") := rfl
  have hmeter := eval_readMeter hpath (sampleSurroundings (some [96]) infinitePolicy) policyStart
  rw [toString_ofString_letter "q" (by simp), files_sample, hload] at hmeter
  have hfault := run_of_refusal readRequest_policyArguments (prepared_sample infinitePolicy)
    (hmeter.trans (eval_refusePolicy_of_escapes (.document .infinity) _))
  obtain ⟨v, hv⟩ | ⟨detail, hdetail⟩ := h infinitePolicy
  · cases hfault.symm.trans hv
  · cases hfault.symm.trans hdetail

end Sample

end Command.Verify

end Settlement
