import Mathlib
import Settlement.Command.Verify
import Settlement.Proofs.Command.Run
import Settlement.Proofs.Loading
import Settlement.Proofs.Verifier.Verdict

namespace Settlement.Command.Verify

open Run Session

variable {σ : Type} {around : Surroundings σ} {p p' : Progress σ} {settings : Verifier.Settings}

/-- The files of a verification hold a key, the inputs and the words of a proof. The inputs are those of the
proof's document unless others are given. -/
structure Prepared (around : Surroundings σ) (settings : Verifier.Settings) (o : Options) (key : Key)
    (inputs words : List ℕ) : Prop where
  key : ∃ path bs, (o.key <|> settings.keyPath) = some path ∧ around.files path.toString = .content bs ∧
    Key.load path.toString (some bs) = .ok key
  proof : ∃ bs d, around.files o.proof.toString = .content bs ∧ ProofDocument.decode bs = .ok d ∧
    (if o.publicInputs.isEmpty then d.publicInputs.getD [] else o.publicInputs.map .inr).mapM WrittenWord.read =
      .ok inputs ∧
    d.proof.mapM WrittenWord.read = .ok words

def announcement : Verifier.Verdict → Event
  | .accepted => .printed .out "✓ proof accepted"
  | .rejected r => .printed .err ("✗ proof rejected: " ++ r.code ++ ": " ++ r.message)

def status : Verifier.Verdict → ℕ
  | .accepted => 0
  | .rejected _ => 1

def conclude (p : Progress σ) : Except Failure Verifier.Verdict → Except (Ending Fault) Unit × Progress σ
  | .ok .accepted => (.ok (), p.record (announcement .accepted))
  | .ok (.rejected r) => (.error (.exit 1), p.record (announcement (.rejected r)))
  | .error e => (.error (.fault (.verifier e)), p)

def ended (p : Progress σ) : Except Failure Verifier.Verdict → Ending Fault × Progress σ
  | .ok v => (.exit (status v), p.record (announcement v))
  | .error e => (.fault (.verifier e), p)

theorem exists_verify {key : Key} (hkey : ∃ doc, Key.ofDocument doc = .ok key) (inputs words : List ℕ)
    (m : Option Meter) :
    ∃ y m', Verifier.verify ⟨some key⟩ (values inputs) (.words (values words)) m = (y, m') ∧
      m'.map (·.policy) = m.map (·.policy) ∧
      ((∃ v, y = .ok v) ∨ y = .error .unwritable ∧ ∃ e, Meter.Exhausted m' e ∧ e.isWritable = false) := by
  have hstore : ∀ k, (⟨some key⟩ : KeyStore).active = some k → ∃ doc, Key.ofDocument doc = .ok k := by
    rintro k hk
    obtain rfl := Option.some.inj hk
    exact hkey
  have hraw : Verifier.Raw (.words (values words)) := trivial
  obtain ⟨y, m', hverify, hpolicy, hreports⟩ := Verifier.exists_reports hstore (values inputs) hraw m
  exact ⟨y, m', hverify, hpolicy, hreports.verdict_or_unwritable⟩

theorem exists_verify_none {key : Key} (hkey : ∃ doc, Key.ofDocument doc = .ok key) (inputs words : List ℕ) :
    ∃ v, Verifier.verify ⟨some key⟩ (values inputs) (.words (values words)) none = (.ok v, none) := by
  obtain ⟨y, m', hverify, hpolicy, hend⟩ := exists_verify hkey inputs words none
  obtain rfl := Option.map_eq_none_iff.mp hpolicy
  obtain ⟨v, rfl⟩ | ⟨-, e, he, -⟩ := hend
  · exact ⟨v, hverify⟩
  · cases he

theorem eval_readKey {given : Option Path} {file : Path} (hpath : (given <|> settings.keyPath) = some file)
    {bs : Bytes} (hfile : around.files file.toString = .content bs) {key : Key}
    (hload : Key.load file.toString (some bs) = .ok key) : eval around (readKey settings given) p = (.ok key, p) := by
  have hkeyPath : eval around (keyPath settings given) p = (.ok file, p) := by
    rw [keyPath, hpath]
    rfl
  rw [readKey, eval_bind_ok hkeyPath, eval_bind_ok (eval_readFile _), hfile, FileState.content?, hload]
  rfl

theorem eval_readProof {path : Path} {bs : Bytes} (hfile : around.files path.toString = .content bs)
    {d : ProofDocument} (hdecode : ProofDocument.decode bs = .ok d) :
    eval around (readProof path) p = (.ok d, p) := by
  rw [readProof, eval_bind_ok (eval_readFile _), hfile]
  simp only [FileState.content?, hdecode]
  rfl

theorem eval_readWords {ws : List WrittenWord} {ns : List ℕ} (h : ws.mapM WrittenWord.read = .ok ns) (what : String) :
    eval around (readWords what ws) p = (.ok ns, p) := by
  rw [readWords, h]
  rfl

section Prepared

variable [Platform] {o : Options} {key : Key} {inputs words : List ℕ}

theorem exists_eval_verify (h : Prepared around settings o key inputs words) (p : Progress σ) :
    ∃ announce : Option Meter → Step Unit,
      eval around (verify settings o) p = eval around (readMeter settings o.policy >>= announce) p ∧
      ∀ m y m' (p' : Progress σ),
        Verifier.verify ⟨some key⟩ (values inputs) (.words (values words)) m = (y, m') →
        eval around (announce m) p' = conclude p' y := by
  obtain ⟨path, bs, hpath, hfile, hload⟩ := h.key
  obtain ⟨bs', d, hfile', hdecode, hinputs, hwords⟩ := h.proof
  rw [verify, eval_bind_ok (eval_readKey hpath hfile hload), eval_bind_ok (eval_readProof hfile' hdecode),
    readPublicInputs, eval_bind_ok (eval_readWords hinputs _), eval_bind_ok (eval_readWords hwords _)]
  refine ⟨_, rfl, ?_⟩
  intro m y m' p' hverify
  simp only [hverify]
  match y with
  | .ok .accepted => exact eval_printLine _
  | .ok (.rejected r) => exact eval_bind_ok (eval_printError _) _
  | .error e => rfl

variable {env : Environment} {args : List String} (hargs : readRequest args = some (.verify o))
  (h : Prepared around (.ofEnvironment env) o key inputs words)

include hargs h

theorem run_of_meter {m : Option Meter}
    (hmeter : eval around (readMeter (.ofEnvironment env) o.policy) p = (.ok m, p')) {y : Except Failure Verifier.Verdict}
    {m' : Option Meter} (hverify : Verifier.verify ⟨some key⟩ (values inputs) (.words (values words)) m = (y, m')) :
    Session.run around (session env args) p = ended p' y := by
  obtain ⟨announce, hread, hannounce⟩ := exists_eval_verify h p
  rw [eval_bind_ok hmeter, hannounce m y m' p' hverify] at hread
  rw [session, hargs]
  match y with
  | .ok .accepted => exact run_session hread
  | .ok (.rejected r) => exact run_session hread
  | .error e => exact run_session hread

theorem run_of_refusal {e : Ending Fault}
    (hmeter : eval around (readMeter (.ofEnvironment env) o.policy) p = (.error e, p')) :
    Session.run around (session env args) p = (e, p') := by
  obtain ⟨announce, hread, -⟩ := exists_eval_verify h p
  rw [eval_bind_error hmeter] at hread
  rw [session, hargs]
  exact run_session hread

end Prepared

end Settlement.Command.Verify
