import Mathlib
import Settlement.Session

/-!
Sessions by what they do: the moves of a session with the answers that it got, whatever the surroundings are that gave
them.
-/

namespace Settlement.Session

inductive Move where
  | asked (url : String) (request : Request) (answer : Exchange)
  | slept (seconds : Binary64)
  | printed (channel : Channel) (line : String)

def Move.event : Move → Event
  | .asked url request _ => .posted url request
  | .slept seconds => .slept seconds
  | .printed channel line => .printed channel line

variable {α β σ : Type} {files : String → FileState} {ms : List Move}

/-- The moves that lead a session to its value if the files are these. Answers and times may be any. -/
inductive Goes (files : String → FileState) : Session α → List Move → α → Prop
  | done (a : α) : Goes files (.done a) [] a
  | read {path : String} {next : FileState → Session α} {ms : List Move} {a : α}
    (h : Goes files (next (files path)) ms a) : Goes files (.read path next) ms a
  | post {url : String} {request : Request} {next : Exchange → Session α} {ms : List Move} {a : α} {x : Exchange}
    (h : Goes files (next x) ms a) : Goes files (.post url request next) (.asked url request x :: ms) a
  | sleep {seconds : Binary64} {next : Session α} {ms : List Move} {a : α} (h : Goes files next ms a) :
    Goes files (.sleep seconds next) (.slept seconds :: ms) a
  | clock {next : Binary64 → Session α} {ms : List Move} {a : α} {t : Binary64} (h : Goes files (next t) ms a) :
    Goes files (.clock next) ms a
  | print {channel : Channel} {line : String} {next : Session α} {ms : List Move} {a : α} (h : Goes files next ms a) :
    Goes files (.print channel line next) (.printed channel line :: ms) a

theorem goes_done {a b : α} (h : Goes files (.done a) ms b) : ms = [] ∧ b = a := by
  cases h
  exact ⟨rfl, rfl⟩

theorem goes_bind {s : Session α} {f : α → Session β} {b : β} (h : Goes files (s.bind f) ms b) :
    ∃ a ms₁ ms₂, ms = ms₁ ++ ms₂ ∧ Goes files s ms₁ a ∧ Goes files (f a) ms₂ b := by
  induction s generalizing ms with
  | done a => exact ⟨a, [], ms, rfl, .done a, h⟩
  | read path next ih =>
    cases h with
    | read h =>
      obtain ⟨a, ms₁, ms₂, rfl, hs, hf⟩ := ih _ h
      exact ⟨a, ms₁, ms₂, rfl, .read hs, hf⟩
  | post url request next ih =>
    cases h with
    | post h =>
      obtain ⟨a, ms₁, ms₂, rfl, hs, hf⟩ := ih _ h
      exact ⟨a, _ :: ms₁, ms₂, rfl, .post hs, hf⟩
  | sleep seconds next ih =>
    cases h with
    | sleep h =>
      obtain ⟨a, ms₁, ms₂, rfl, hs, hf⟩ := ih h
      exact ⟨a, _ :: ms₁, ms₂, rfl, .sleep hs, hf⟩
  | clock next ih =>
    cases h with
    | clock h =>
      obtain ⟨a, ms₁, ms₂, rfl, hs, hf⟩ := ih _ h
      exact ⟨a, ms₁, ms₂, rfl, .clock hs, hf⟩
  | print channel line next ih =>
    cases h with
    | print h =>
      obtain ⟨a, ms₁, ms₂, rfl, hs, hf⟩ := ih h
      exact ⟨a, _ :: ms₁, ms₂, rfl, .print hs, hf⟩

section Run

variable (around : Surroundings σ)

def moves : Session α → Progress σ → List Move
  | .done _, _ => []
  | .read path next, p => moves (next (around.files path)) p
  | .post url request next, p =>
    let (x, remote) := around.answer p.remote request
    .asked url request x :: moves (next x) { p.record (.posted url request) with remote }
  | .sleep seconds next, p =>
    .slept seconds :: moves next { p.record (.slept seconds) with time := p.time.add seconds }
  | .clock next, p => moves (next p.time) p
  | .print channel line next, p => .printed channel line :: moves next (p.record (.printed channel line))

theorem goes_moves (s : Session α) (p : Progress σ) : Goes around.files s (moves around s p) (run around s p).1 := by
  induction s generalizing p with
  | done a => exact .done a
  | read path next ih => exact .read (ih _ _)
  | post url request next ih => exact .post (ih _ _)
  | sleep seconds next ih => exact .sleep (ih _)
  | clock next ih => exact .clock (ih _ _)
  | print channel line next ih => exact .print (ih _)

theorem past_run (s : Session α) (p : Progress σ) :
    (run around s p).2.past = ((moves around s p).map Move.event).reverse ++ p.past := by
  induction s generalizing p with
  | done a => rfl
  | read path next ih => exact ih _ _
  | post url request next ih =>
    rw [run, moves, ih, List.map_cons, List.reverse_cons, List.append_assoc]
    rfl
  | sleep seconds next ih =>
    rw [run, moves, ih, List.map_cons, List.reverse_cons, List.append_assoc]
    rfl
  | clock next ih => exact ih _ _
  | print channel line next ih =>
    rw [run, moves, ih, List.map_cons, List.reverse_cons, List.append_assoc]
    rfl

end Run

theorem bind_done (s : Session α) : s.bind .done = s := by
  induction s with
  | done a => rfl
  | read path next ih => exact congrArg _ (funext ih)
  | post url request next ih => exact congrArg _ (funext ih)
  | sleep seconds next ih => exact congrArg _ ih
  | clock next ih => exact congrArg _ (funext ih)
  | print channel line next ih => exact congrArg _ ih

theorem bind_bind {γ : Type} (s : Session α) (f : α → Session β) (g : β → Session γ) :
    (s.bind f).bind g = s.bind fun a => (f a).bind g := by
  induction s with
  | done a => rfl
  | read path next ih => exact congrArg _ (funext ih)
  | post url request next ih => exact congrArg _ (funext ih)
  | sleep seconds next ih => exact congrArg _ ih
  | clock next ih => exact congrArg _ (funext ih)
  | print channel line next ih => exact congrArg _ ih

instance : LawfulMonad Session :=
  LawfulMonad.mk' Session (fun s => bind_done s) (fun _ _ => rfl) (fun s f g => bind_bind s f g)

section Failing

variable {ε : Type}

theorem goes_run_bind {x : ExceptT ε Session α} {f : α → ExceptT ε Session β} {r : Except ε β}
    (h : Goes files (x >>= f).run ms r) : (∃ e, r = .error e ∧ Goes files x.run ms (.error e)) ∨
      ∃ a ms₁ ms₂, ms = ms₁ ++ ms₂ ∧ Goes files x.run ms₁ (.ok a) ∧ Goes files (f a).run ms₂ r := by
  obtain ⟨first, ms₁, ms₂, rfl, hx, hf⟩ := goes_bind (s := x.run) h
  cases first with
  | error e =>
    obtain ⟨rfl, rfl⟩ := goes_done hf
    exact .inl ⟨e, rfl, by rwa [List.append_nil]⟩
  | ok a => exact .inr ⟨a, ms₁, ms₂, rfl, hx, hf⟩

theorem goes_run_bind_ok {x : ExceptT ε Session α} {f : α → ExceptT ε Session β} {b : β}
    (h : Goes files (x >>= f).run ms (.ok b)) :
    ∃ a ms₁ ms₂, ms = ms₁ ++ ms₂ ∧ Goes files x.run ms₁ (.ok a) ∧ Goes files (f a).run ms₂ (.ok b) := by
  obtain ⟨e, he, -⟩ | h := goes_run_bind h
  · cases he
  · exact h

end Failing

section Numbered

variable {ε : Type}

def Does (files : String → FileState) (x : ExceptT ε (StateT ℕ Session) α) (ms : List Move) (r : Except ε α) : Prop :=
  ∃ n n', Goes files (x.run.run n) ms (r, n')

theorem does_pure {a : α} {r : Except ε α} (h : Does files (pure a : ExceptT ε (StateT ℕ Session) α) ms r) :
    ms = [] ∧ r = .ok a := by
  obtain ⟨n, n', h⟩ := h
  obtain ⟨rfl, heq⟩ := goes_done h
  exact ⟨rfl, congrArg Prod.fst heq⟩

theorem does_throw {e : ε} {r : Except ε α} (h : Does files (throw e : ExceptT ε (StateT ℕ Session) α) ms r) :
    ms = [] ∧ r = .error e := by
  obtain ⟨n, n', h⟩ := h
  obtain ⟨rfl, heq⟩ := goes_done h
  exact ⟨rfl, congrArg Prod.fst heq⟩

theorem does_bind {x : ExceptT ε (StateT ℕ Session) α} {f : α → ExceptT ε (StateT ℕ Session) β} {r : Except ε β}
    (h : Does files (x >>= f) ms r) : (∃ e, r = .error e ∧ Does files x ms (.error e)) ∨
      ∃ a ms₁ ms₂, ms = ms₁ ++ ms₂ ∧ Does files x ms₁ (.ok a) ∧ Does files (f a) ms₂ r := by
  obtain ⟨n, n', h⟩ := h
  obtain ⟨⟨first, k⟩, ms₁, ms₂, rfl, hx, hf⟩ := goes_bind (s := x.run.run n) h
  cases first with
  | error e =>
    obtain ⟨rfl, heq⟩ := goes_done hf
    cases heq
    exact .inl ⟨e, rfl, n, n', by rwa [List.append_nil]⟩
  | ok a => exact .inr ⟨a, ms₁, ms₂, rfl, ⟨n, k, hx⟩, k, n', hf⟩

theorem does_bind_ok {x : ExceptT ε (StateT ℕ Session) α} {f : α → ExceptT ε (StateT ℕ Session) β} {b : β}
    (h : Does files (x >>= f) ms (.ok b)) :
    ∃ a ms₁ ms₂, ms = ms₁ ++ ms₂ ∧ Does files x ms₁ (.ok a) ∧ Does files (f a) ms₂ (.ok b) := by
  obtain ⟨e, he, -⟩ | h := does_bind h
  · cases he
  · exact h

def Keeps (files : String → FileState) (P : Move → Prop) (x : ExceptT ε (StateT ℕ Session) α) : Prop :=
  ∀ ms r, Does files x ms r → ∀ m ∈ ms, P m

variable {P : Move → Prop}

theorem keeps_pure (a : α) : Keeps files P (pure a : ExceptT ε (StateT ℕ Session) α) := by
  intro ms r h
  simp [(does_pure h).1]

theorem keeps_throw (e : ε) : Keeps files P (throw e : ExceptT ε (StateT ℕ Session) α) := by
  intro ms r h
  simp [(does_throw h).1]

theorem Keeps.bind {x : ExceptT ε (StateT ℕ Session) α} {f : α → ExceptT ε (StateT ℕ Session) β}
    (hx : Keeps files P x) (hf : ∀ a, Keeps files P (f a)) : Keeps files P (x >>= f) := by
  intro ms r h
  obtain ⟨e, -, h⟩ | ⟨a, ms₁, ms₂, rfl, hfirst, hrest⟩ := does_bind h
  · exact hx ms _ h
  · exact List.forall_mem_append.mpr ⟨hx ms₁ _ hfirst, hf a ms₂ r hrest⟩

theorem does_lift {s : Session α} {r : Except ε α} (h : Does files (liftM s : ExceptT ε (StateT ℕ Session) α) ms r) :
    ∃ a, r = .ok a ∧ Goes files s ms a := by
  obtain ⟨n, n', h⟩ := h
  have hlift : (liftM s : ExceptT ε (StateT ℕ Session) α).run.run n =
      (s.bind fun a => .done (a, n)).bind fun x => .done (.ok x.1, x.2) := rfl
  rw [hlift, bind_bind] at h
  obtain ⟨a, ms₁, ms₂, rfl, hs, hdone⟩ := goes_bind h
  obtain ⟨rfl, heq⟩ := goes_done hdone
  exact ⟨a, congrArg Prod.fst heq, by rwa [List.append_nil]⟩

theorem does_bind_lift {s : Session α} {f : α → ExceptT ε (StateT ℕ Session) β} {r : Except ε β}
    (h : Does files (liftM s >>= f) ms r) :
    ∃ a ms₁ ms₂, ms = ms₁ ++ ms₂ ∧ Goes files s ms₁ a ∧ Does files (f a) ms₂ r := by
  obtain ⟨e, -, hs⟩ | ⟨a, ms₁, ms₂, rfl, hs, hf⟩ := does_bind h
  · obtain ⟨a, heq, -⟩ := does_lift hs
    cases heq
  · obtain ⟨a', heq, hs⟩ := does_lift hs
    cases heq
    exact ⟨a, ms₁, ms₂, rfl, hs, hf⟩

theorem goes_pause {seconds : Binary64} {u : Except PauseFault Unit} (h : Goes files (pause seconds) ms u) :
    (∃ f, pauseFault? seconds = some f ∧ u = .error f ∧ ms = []) ∨
      pauseFault? seconds = none ∧ u = .ok () ∧ ms = [.slept seconds] := by
  unfold pause at h
  split at h
  · rename_i f hf
    obtain ⟨rfl, rfl⟩ := goes_done h
    exact .inl ⟨f, hf, rfl, rfl⟩
  · rename_i hf
    cases h with
    | sleep h =>
      obtain ⟨rfl, rfl⟩ := goes_done h
      exact .inr ⟨hf, rfl, rfl⟩

theorem goes_currentTime {t : Binary64} (h : Goes files currentTime ms t) : ms = [] := by
  cases h with
  | clock h => exact (goes_done h).1

theorem Keeps.mapM {f : α → ExceptT ε (StateT ℕ Session) β} {xs : List α} (h : ∀ x ∈ xs, Keeps files P (f x)) :
    Keeps files P (xs.mapM f) := by
  induction xs with
  | nil => exact keeps_pure []
  | cons x xs ih =>
    obtain ⟨hx, hxs⟩ := List.forall_mem_cons.mp h
    rw [List.mapM_cons]
    exact hx.bind fun _ => (ih hxs).bind fun _ => keeps_pure _

theorem does_mapM_ok {f : α → ExceptT ε (StateT ℕ Session) β} {xs : List α} {ys : List β}
    (h : Does files (xs.mapM f) ms (.ok ys)) :
    List.Forall₂ (fun x y => ∃ part, part ⊆ ms ∧ Does files (f x) part (.ok y)) xs ys := by
  induction xs generalizing ms ys with
  | nil =>
    cases (does_pure h).2
    exact .nil
  | cons x xs ih =>
    rw [List.mapM_cons] at h
    obtain ⟨y, ms₁, ms₂, rfl, hx, h⟩ := does_bind_ok h
    obtain ⟨ys', ms₃, ms₄, rfl, hxs, h⟩ := does_bind_ok h
    obtain ⟨rfl, hys⟩ := does_pure h
    cases hys
    refine .cons ⟨ms₁, List.subset_append_left _ _, hx⟩ ((ih hxs).imp ?_)
    rintro x y ⟨part, hsub, hpart⟩
    exact ⟨part, fun m hm => List.mem_append_right _ (List.mem_append_left _ (hsub hm)), hpart⟩

section Results

variable {around : Surroundings σ} {p p' : Progress σ} {n n' : ℕ} {x : ExceptT ε (StateT ℕ Session) α}

theorem run_bind_ok {a : α} (h : run around (x.run.run n) p = ((.ok a, n'), p'))
    (f : α → ExceptT ε (StateT ℕ Session) β) :
    run around ((x >>= f).run.run n) p = run around ((f a).run.run n') p' := by
  have hbind : run around ((x >>= f).run.run n) p = run around ((x.run.run n).bind _) p := rfl
  rw [hbind, run_bind, h]
  rfl

theorem run_bind_error {e : ε} (h : run around (x.run.run n) p = ((.error e, n'), p'))
    (f : α → ExceptT ε (StateT ℕ Session) β) : run around ((x >>= f).run.run n) p = ((.error e, n'), p') := by
  have hbind : run around ((x >>= f).run.run n) p = run around ((x.run.run n).bind _) p := rfl
  rw [hbind, run_bind, h]
  rfl

end Results

end Numbered

end Settlement.Session
