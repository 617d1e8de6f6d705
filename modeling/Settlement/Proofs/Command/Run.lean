import Settlement.Command.Run
import Settlement.Proofs.Session

namespace Settlement.Command.Run

open Session

variable {Fault α β σ : Type} {around : Surroundings σ} {p p' : Progress σ}

def eval (around : Surroundings σ) (r : Run Fault α) (p : Progress σ) : Except (Ending Fault) α × Progress σ :=
  Session.run around r.run p

@[simp] theorem eval_pure (a : α) : eval around (pure a : Run Fault α) p = (.ok a, p) := rfl

@[simp] theorem eval_throw (e : Ending Fault) : eval around (throw e : Run Fault α) p = (.error e, p) := rfl

@[simp] theorem eval_stopAt (f : Fault) : eval around (stopAt f : Run Fault α) p = (.error (.fault f), p) := rfl

theorem eval_bind (r : Run Fault α) (f : α → Run Fault β) :
    eval around (r >>= f) p = match eval around r p with
      | (.ok a, p) => eval around (f a) p
      | (.error e, p) => (.error e, p) := by
  have hbind : eval around (r >>= f) p = Session.run around (Session.bind r.run (ExceptT.bindCont f)) p := rfl
  rw [hbind, Session.run_bind, eval]
  match Session.run around r.run p with
  | (.ok a, p') => rfl
  | (.error e, p') => rfl

theorem eval_bind_ok {r : Run Fault α} {a : α} (h : eval around r p = (.ok a, p')) (f : α → Run Fault β) :
    eval around (r >>= f) p = eval around (f a) p' := by
  rw [eval_bind, h]

theorem eval_bind_error {r : Run Fault α} {e : Ending Fault} (h : eval around r p = (.error e, p'))
    (f : α → Run Fault β) : eval around (r >>= f) p = (.error e, p') := by
  rw [eval_bind, h]

theorem eval_ofSession (s : Session α) :
    eval around (ofSession s : Run Fault α) p = (.ok (Session.run around s p).1, (Session.run around s p).2) := by
  have hlift : eval around (ofSession s : Run Fault α) p =
      Session.run around (Session.bind s fun a => .done (.ok a)) p := rfl
  rw [hlift, Session.run_bind]
  rfl

@[simp] theorem eval_readFile (path : String) :
    eval around (ofSession (readFile path) : Run Fault FileState) p = (.ok (around.files path), p) :=
  eval_ofSession _

@[simp] theorem eval_printLine (line : String) :
    eval around (ofSession (printLine line) : Run Fault Unit) p = (.ok (), p.record (.printed .out line)) :=
  eval_ofSession _

@[simp] theorem eval_printError (line : String) :
    eval around (ofSession (printError line) : Run Fault Unit) p = (.ok (), p.record (.printed .err line)) :=
  eval_ofSession _

@[simp] theorem eval_fail (status : Nat) (message : String) :
    eval around (fail status message : Run Fault α) p =
      (.error (.exit status), p.record (.printed .err ("Error: " ++ message))) :=
  eval_bind_ok (eval_printError _) _

theorem run_session {r : Run Fault Unit} {result : Except (Ending Fault) Unit} (h : eval around r p = (result, p')) :
    Session.run around r.session p = (match result with | .ok () => .exit 0 | .error e => e, p') := by
  have hbind : Session.run around r.session p = Session.run around (Session.bind r.run _) p := rfl
  rw [eval] at h
  rw [hbind, Session.run_bind, h]
  cases result <;> rfl

section Moves

variable {files : String → FileState} {ms : List Move}

theorem goes_ofSession {s : Session α} {r : Except (Ending Fault) α}
    (h : Goes files (ofSession s : Run Fault α).run ms r) : ∃ a, r = .ok a ∧ Goes files s ms a := by
  obtain ⟨a, ms₁, ms₂, rfl, hs, hdone⟩ := goes_bind (s := s) h
  obtain ⟨rfl, rfl⟩ := goes_done hdone
  exact ⟨a, rfl, by rwa [List.append_nil]⟩

theorem goes_fail {status : ℕ} {message : String} {r : Except (Ending Fault) α}
    (h : Goes files (fail status message : Run Fault α).run ms r) :
    ms = [.printed .err ("Error: " ++ message)] ∧ r = .error (.exit status) := by
  cases h with
  | print h =>
    obtain ⟨rfl, rfl⟩ := goes_done h
    exact ⟨rfl, rfl⟩

theorem goes_session {r : Run Fault Unit} {ending : Ending Fault} (h : Goes files r.session ms ending) :
    Goes files r.run ms (.ok ()) ∧ ending = .exit 0 ∨ Goes files r.run ms (.error ending) := by
  obtain ⟨result, ms₁, ms₂, rfl, hr, hdone⟩ := goes_bind (s := r.run) h
  cases result with
  | ok u =>
    obtain ⟨rfl, rfl⟩ := goes_done hdone
    exact .inl ⟨by rwa [List.append_nil], rfl⟩
  | error e =>
    obtain ⟨rfl, rfl⟩ := goes_done hdone
    exact .inr (by rwa [List.append_nil])

end Moves

end Settlement.Command.Run
