import Settlement.Address

namespace Settlement.Registry

abbrev Entries := List (Nat × Address)

def Increasing (es : Entries) : Prop :=
  es.Pairwise (·.1 < ·.1)

def insertEntry (chain : Nat) (executor : Address) : Entries → Entries
  | [] => [(chain, executor)]
  | e :: es =>
    if chain < e.1 then (chain, executor) :: e :: es
    else if chain = e.1 then (chain, executor) :: es
    else e :: insertEntry chain executor es

theorem mem_insertEntry {chain : Nat} {executor : Address} {x : Nat × Address} {es : Entries}
    (h : x ∈ insertEntry chain executor es) : x = (chain, executor) ∨ x ∈ es := by
  induction es with
  | nil => simpa [insertEntry] using h
  | cons e es ih =>
    simp only [insertEntry] at h
    split at h
    · simpa using h
    · split at h
      · rcases List.mem_cons.1 h with h | h
        · exact .inl h
        · exact .inr (List.mem_cons_of_mem _ h)
      · rcases List.mem_cons.1 h with h | h
        · exact .inr (h ▸ List.mem_cons_self)
        · exact (ih h).imp_right (List.mem_cons_of_mem _)

theorem increasing_insertEntry {chain : Nat} {executor : Address} {es : Entries}
    (h : Increasing es) : Increasing (insertEntry chain executor es) := by
  induction es with
  | nil => simp [insertEntry, Increasing]
  | cons e es ih =>
    obtain ⟨he, hes⟩ := List.pairwise_cons.1 h
    simp only [insertEntry]
    split
    · refine List.pairwise_cons.2 ⟨fun x hx => ?_, h⟩
      rcases List.mem_cons.1 hx with hx | hx
      · simpa [hx]
      · have := he x hx
        dsimp only
        omega
    · split
      · rename_i heq
        exact List.pairwise_cons.2 ⟨fun x hx => by simpa [heq] using he x hx, hes⟩
      · refine List.pairwise_cons.2 ⟨fun x hx => ?_, ih hes⟩
        rcases mem_insertEntry hx with hx | hx
        · subst hx
          dsimp only
          omega
        · exact he x hx

end Settlement.Registry

namespace Settlement

structure Registry where
  entries : Registry.Entries := []
  increasing : Registry.Increasing entries := by simp [Registry.Increasing]

namespace Registry

def empty : Registry := {}

def find? (r : Registry) (chain : Nat) : Option Address :=
  r.entries.lookup chain

def size (r : Registry) : Nat :=
  r.entries.length

def insert (r : Registry) (chain : Nat) (executor : Address) : Registry :=
  ⟨insertEntry chain executor r.entries, increasing_insertEntry r.increasing⟩

def erase (r : Registry) (chain : Nat) : Registry :=
  ⟨r.entries.filter (·.1 != chain), r.increasing.filter _⟩

def ofEntries (es : Entries) : Registry :=
  es.foldl (fun r e => r.insert e.1 e.2) empty

inductive SetError where
  | chain (v : Value)
  | address (v : Value)

def SetError.message : SetError → String
  | .chain v => "chain id must be a non-negative int, got " ++ v.render
  | .address v => "not an address: " ++ v.render

def chainOf : Value → Except SetError Nat
  | .int n => if 0 ≤ n then .ok n.toNat else .error (.chain (.int n))
  | v => .error (.chain v)

def executorOf [Platform] : Value → Except SetError Address
  | .text s => Address.ofText (.address (.text s)) s
  | v => .error (.address v)

def set [Platform] (r : Registry) (chain executor : Value) : Except SetError (Address × Registry) := do
  let chain ← chainOf chain
  let executor ← executorOf executor
  pure (executor, r.insert chain executor)

inductive LookupError where
  | notAKey
  deriving DecidableEq

def keyOf (v : Value) : Except LookupError (Option Nat) :=
  match v with
  | .list _ => .error .notAKey
  | .mapping _ => .error .notAKey
  | _ => .ok (match v.asKey? with
    | some n => if 0 ≤ n then some n.toNat else none
    | none => none)

def get (r : Registry) (chain : Value) : Except LookupError (Option Address) := do
  pure ((← keyOf chain).bind r.find?)

def contains (r : Registry) (chain : Value) : Except LookupError Bool := do
  pure (← r.get chain).isSome

def remove (r : Registry) (chain : Value) : Except LookupError (Bool × Registry) := do
  match ← keyOf chain with
  | some n => pure ((r.find? n).isSome, r.erase n)
  | none => pure (false, r)

end Registry

end Settlement
