import Mathlib
import Settlement.Proofs.Address
import Settlement.Proofs.Except
import Settlement.Proofs.Registry.Basic
import Settlement.Registry.History

/-!
The life of a registry: it holds for each chain what was set last, by itself or in a document, unless the chain has been
removed since. What is refused changes nothing.
-/

namespace Settlement.Registry

inductive Names : Value → ℕ → Prop
  | int (n : ℕ) : Names (.int n) n
  | bool (b : Bool) : Names (.bool b) b.toNat
  | float {x : Binary64} {n : ℕ} (h : x.toInt? = some n) : Names (.float x) n

theorem keyOf_eq_some_iff {v : Value} {n : ℕ} : keyOf v = .ok (some n) ↔ Names v n := by
  constructor
  · intro h
    cases v with
    | int k =>
      by_cases hk : 0 ≤ k
      · simp only [keyOf, Value.asKey?, hk, ↓reduceIte, Except.ok.injEq, Option.some.injEq] at h
        obtain rfl : k = n := by omega
        exact .int n
      · simp [keyOf, Value.asKey?, hk] at h
    | bool b =>
      cases b with
      | false =>
        obtain rfl : 0 = n := by simpa [keyOf, Value.asKey?] using h
        exact .bool false
      | true =>
        obtain rfl : 1 = n := by simpa [keyOf, Value.asKey?] using h
        exact .bool true
    | float x =>
      cases hx : x.toInt? with
      | none => simp [keyOf, Value.asKey?, hx] at h
      | some k =>
        by_cases hk : 0 ≤ k
        · simp only [keyOf, Value.asKey?, hx, hk, ↓reduceIte, Except.ok.injEq, Option.some.injEq] at h
          obtain rfl : k = n := by omega
          exact .float hx
        · simp [keyOf, Value.asKey?, hx, hk] at h
    | list items => cases h
    | mapping es => cases h
    | _ => simp [keyOf, Value.asKey?] at h
  · intro h
    cases h with
    | int => simp [keyOf, Value.asKey?]
    | bool b => cases b <;> simp [keyOf, Value.asKey?]
    | float hx => simp [keyOf, Value.asKey?, hx]

theorem chainOf_eq_ok {v : Value} {n : ℕ} : chainOf v = .ok n ↔ v = .int n := by
  constructor
  · intro h
    unfold chainOf at h
    split at h
    · split at h
      · rename_i k hk
        rw [← Except.ok.inj h, Int.toNat_of_nonneg hk]
      · cases h
    · cases h
  · rintro rfl
    simp [chainOf]

section Step

theorem executorOf_eq_ok [Platform] {v : Value} {a : Address} :
    executorOf v = .ok a ↔ ∃ s, v = .text s ∧ Address.Reads s a := by
  cases v with
  | text s => simp [executorOf, Address.ofText_eq_ok]
  | _ => simp [executorOf]

variable {r r' : Registry} {n : ℕ} {a : Address}

theorem set_eq_ok [Platform] {chain executor : Value} : r.set chain executor = .ok (a, r') ↔
    ∃ n : ℕ, chain = .int n ∧ (∃ s, executor = .text s ∧ Address.Reads s a) ∧ r' = r.insert n a := by
  simp only [set, Except.bind_eq_ok, chainOf_eq_ok, executorOf_eq_ok]
  constructor
  · rintro ⟨n, hchain, b, hexecutor, h⟩
    cases h
    exact ⟨n, hchain, hexecutor, rfl⟩
  · rintro ⟨n, hchain, hexecutor, rfl⟩
    exact ⟨n, hchain, a, hexecutor, rfl⟩

theorem lookups (r : Registry) (v : Value) :
    (∃ n, Names v n ∧ r.get v = .ok (r.find? n) ∧ r.contains v = .ok (r.find? n).isSome ∧
      r.remove v = .ok ((r.find? n).isSome, r.erase n)) ∨
    (∀ n, ¬Names v n) ∧ (r.get v = .ok none ∧ r.contains v = .ok false ∧ r.remove v = .ok (false, r) ∨
      ∃ e, r.get v = .error e ∧ r.contains v = .error e ∧ r.remove v = .error e) := by
  cases hkey : keyOf v with
  | error e =>
    refine .inr ⟨fun n hn => ?_, .inr ⟨e, ?_⟩⟩
    · cases hkey.symm.trans (keyOf_eq_some_iff.mpr hn)
    · simp only [get, contains, remove, hkey]
      exact ⟨rfl, rfl, rfl⟩
  | ok key =>
    cases key with
    | none =>
      refine .inr ⟨fun n hn => ?_, .inl ?_⟩
      · cases hkey.symm.trans (keyOf_eq_some_iff.mpr hn)
      · simp only [get, contains, remove, hkey]
        exact ⟨rfl, rfl, rfl⟩
    | some n =>
      refine .inl ⟨n, keyOf_eq_some_iff.mp hkey, ?_⟩
      simp only [get, contains, remove, hkey]
      exact ⟨rfl, rfl, rfl⟩

inductive Gives : Step × Reply → ℕ → Address → Prop
  | set {executor : Value} {n : ℕ} {a : Address} : Gives (.set (.int n) executor, .stored a) n a
  | loaded {s : Step} {r : Registry} {n : ℕ} {a : Address} (h : r.find? n = some a) : Gives (s, .loaded r) n a

inductive Decides : Step × Reply → ℕ → Prop
  | set {executor : Value} {n : ℕ} {a : Address} : Decides (.set (.int n) executor, .stored a) n
  | removed {chain : Value} {n : ℕ} {b : Bool} (h : Names chain n) : Decides (.remove chain, .removed b) n
  | loaded {s : Step} {r : Registry} {n : ℕ} : Decides (s, .loaded r) n

theorem Gives.decides {x : Step × Reply} (h : Gives x n a) : Decides x n := by
  cases h with
  | set => exact .set
  | loaded => exact .loaded

/-- Of all steps that decide about a chain, the last one has given it this executor. -/
def LastGiven (history : List (Step × Reply)) (n : ℕ) (a : Address) : Prop :=
  ∃ before x after, history = before ++ x :: after ∧ Gives x n a ∧ ∀ y ∈ after, ¬Decides y n

theorem lastGiven_append_singleton {history : List (Step × Reply)} {x : Step × Reply} :
    LastGiven (history ++ [x]) n a ↔ Gives x n a ∨ ¬Decides x n ∧ LastGiven history n a := by
  constructor
  · rintro ⟨before, y, after, heq, hgives, hafter⟩
    induction after using List.reverseRecOn with
    | nil =>
      obtain ⟨-, hy⟩ := List.append_inj' heq rfl
      obtain rfl := List.singleton_inj.mp hy
      exact .inl hgives
    | append_singleton after z =>
      rw [← List.cons_append, ← List.append_assoc] at heq
      obtain ⟨rfl, hz⟩ := List.append_inj' heq rfl
      obtain rfl := List.singleton_inj.mp hz
      refine .inr ⟨hafter x (by simp), before, y, after, rfl, hgives, ?_⟩
      exact fun w hw => hafter w (List.mem_append_left _ hw)
  · rintro (hgives | ⟨hdecides, before, y, after, rfl, hgives, hafter⟩)
    · exact ⟨history, x, [], rfl, hgives, by simp⟩
    · refine ⟨before, y, after ++ [x], by simp, hgives, ?_⟩
      intro z hz
      obtain hz | hz := List.mem_append.mp hz
      · exact hafter z hz
      · rwa [List.mem_singleton.mp hz]

theorem not_lastGiven_nil : ¬LastGiven [] n a := by
  rintro ⟨before, x, after, heq, -⟩
  simp at heq

theorem find?_insert {b : Address} {m : ℕ} :
    (r.insert m b).find? n = some a ↔ m = n ∧ b = a ∨ m ≠ n ∧ r.find? n = some a := by
  rw [find?_eq_some_iff, mem_entries_insert, ← find?_eq_some_iff, Prod.mk.injEq, eq_comm (a := n),
    eq_comm (a := a), ne_comm]

theorem find?_erase {m : ℕ} : (r.erase m).find? n = some a ↔ m ≠ n ∧ r.find? n = some a := by
  rw [find?_eq_some_iff, mem_entries_erase, ← find?_eq_some_iff, ne_comm]

def Settles (x : Step × Reply) (before after : Registry) : Prop :=
  ∀ n a, after.find? n = some a ↔ Gives x n a ∨ ¬Decides x n ∧ before.find? n = some a

theorem settles_self {x : Step × Reply} (h : ∀ n, ¬Decides x n) : Settles x r r := by
  intro n a
  constructor
  · exact fun hfind => .inr ⟨h n, hfind⟩
  · rintro (hgives | ⟨-, hfind⟩)
    · exact absurd hgives.decides (h n)
    · exact hfind

theorem settles_replaceWith (s : Step) (read : Except LoadError Registry) :
    Settles (s, (r.replaceWith read).1) r (r.replaceWith read).2 := by
  cases read with
  | error e => exact settles_self fun n h => by cases h
  | ok read =>
    intro n a
    constructor
    · exact fun h => .inl (.loaded h)
    · rintro (h | ⟨h, -⟩)
      · cases h with
        | loaded h => exact h
      · exact absurd .loaded h

theorem settles_insert (executor : Value) (m : ℕ) (b : Address) :
    Settles (.set (.int m) executor, .stored b) r (r.insert m b) := by
  intro n a
  rw [find?_insert]
  constructor
  · rintro (⟨rfl, rfl⟩ | ⟨hne, hfind⟩)
    · exact .inl .set
    · refine .inr ⟨fun h => ?_, hfind⟩
      cases h
      exact hne rfl
  · rintro (h | ⟨h, hfind⟩)
    · cases h
      exact .inl ⟨rfl, rfl⟩
    · refine .inr ⟨fun heq => ?_, hfind⟩
      subst heq
      exact h .set

theorem Names.unique {v : Value} {m : ℕ} (hm : Names v m) (hn : Names v n) : m = n := by
  have h := (keyOf_eq_some_iff.mpr hm).symm.trans (keyOf_eq_some_iff.mpr hn)
  exact Option.some.inj (Except.ok.inj h)

theorem settles_erase {v : Value} {m : ℕ} (hm : Names v m) (b : Bool) :
    Settles (.remove v, .removed b) r (r.erase m) := by
  intro n a
  rw [find?_erase]
  constructor
  · rintro ⟨hne, hfind⟩
    refine .inr ⟨fun h => ?_, hfind⟩
    cases h with
    | removed hn => exact hne (hm.unique hn)
  · rintro (h | ⟨h, hfind⟩)
    · cases h
    · refine ⟨fun heq => ?_, hfind⟩
      subst heq
      exact h (.removed hm)

theorem settles_step [Platform] (s : Step) : Settles (s, (r.step s).1) r (r.step s).2 := by
  cases s with
  | set chain executor =>
    cases hset : r.set chain executor with
    | error e =>
      simp only [step, hset]
      exact settles_self fun n h => by cases h
    | ok x =>
      obtain ⟨n, rfl, -, heq⟩ := set_eq_ok.mp (show r.set chain executor = .ok (x.1, x.2) from hset)
      simp only [step, hset, heq]
      exact settles_insert executor n x.1
  | get v =>
    simp only [step]
    split
    · exact settles_self fun n h => by cases h
    · exact settles_self fun n h => by cases h
  | remove v =>
    obtain ⟨n, hn, -, -, hremove⟩ | ⟨hnone, ⟨-, -, hremove⟩ | ⟨e, -, -, hremove⟩⟩ := lookups r v
    · simp only [step, hremove]
      exact settles_erase hn _
    · simp only [step, hremove]
      refine settles_self fun n h => ?_
      cases h with
      | removed hn => exact hnone n hn
    · simp only [step, hremove]
      exact settles_self fun n h => by cases h
  | contains v =>
    simp only [step]
    split
    · exact settles_self fun n h => by cases h
    · exact settles_self fun n h => by cases h
  | size => exact settles_self fun n h => by cases h
  | entries => exact settles_self fun n h => by cases h
  | document v => exact settles_replaceWith _ _
  | load path content => exact settles_replaceWith _ _

theorem replaceWith_of_refused {read : Except LoadError Registry} {e : Refusal}
    (h : (r.replaceWith read).1 = .refused e) : (r.replaceWith read).2 = r := by
  cases read with
  | error => rfl
  | ok => cases h

theorem step_of_refused [Platform] {s : Step} {e : Refusal} (h : (r.step s).1 = .refused e) : (r.step s).2 = r := by
  cases s with
  | set chain executor =>
    simp only [step] at h ⊢
    split at h
    · cases h
    · rfl
  | remove v =>
    simp only [step] at h ⊢
    split at h
    · cases h
    · rfl
  | get v =>
    simp only [step]
    split <;> rfl
  | contains v =>
    simp only [step]
    split <;> rfl
  | size => rfl
  | entries => rfl
  | document v => exact replaceWith_of_refused h
  | load path content => exact replaceWith_of_refused h

end Step

section Run

variable [Platform] {n : ℕ} {a : Address}

theorem run_append (r : Registry) (steps steps' : List Step) :
    run r (steps ++ steps') =
      ((run r steps).1 ++ (run (run r steps).2 steps').1, (run (run r steps).2 steps').2) := by
  induction steps generalizing r with
  | nil => rfl
  | cons s steps ih => simp only [List.cons_append, run, ih]

theorem find?_run (steps : List Step) :
    (run empty steps).2.find? n = some a ↔ LastGiven (run empty steps).1 n a := by
  -- a chain has what was given to it last, by induction on the steps from the last one
  induction steps using List.reverseRecOn with
  | nil =>
    rw [find?_eq_some_iff]
    exact iff_of_false List.not_mem_nil not_lastGiven_nil
  | append_singleton steps s ih =>
    rw [run_append]
    exact (settles_step s n a).trans (by rw [ih]; exact lastGiven_append_singleton.symm)

/-- The registry is the map that the history leaves, with one form for each executor, and answers as such. -/
structure IsMapOf (r : Registry) (history : List (Step × Reply)) : Prop where
  checksummed : ∀ e ∈ r.entries, Address.IsChecksummed e.2.checksum
  entries : (r.step .entries).1 = .entries r.entries ∧ Increasing r.entries ∧
    ∀ n a, (n, a) ∈ r.entries ↔ LastGiven history n a
  size : (r.step .size).1 = .size r.entries.length
  get : ∀ v n, Names v n → ∃ x, (r.step (.get v)).1 = .found x ∧ ∀ a, x = some a ↔ LastGiven history n a
  contains : ∀ v n, Names v n →
    ∃ b, (r.step (.contains v)).1 = .contained b ∧ (b = true ↔ ∃ a, LastGiven history n a)
  remove : ∀ v n, Names v n →
    ∃ b, (r.step (.remove v)).1 = .removed b ∧ (b = true ↔ ∃ a, LastGiven history n a)
  -- what names no chain is not found, unless it is of a type that names nothing
  unnamed : ∀ v, (∀ n, ¬Names v n) →
    (r.step (.get v)).1 = .found none ∧ (r.step (.contains v)).1 = .contained false ∧
        (r.step (.remove v)).1 = .removed false ∨
      ∃ e, (r.step (.get v)).1 = .refused (.lookup e) ∧ (r.step (.contains v)).1 = .refused (.lookup e) ∧
        (r.step (.remove v)).1 = .refused (.lookup e)
  -- just numbers that are no truth values get an executor, and just from text that is taken for it
  set : ∀ chain executor a r', r.step (.set chain executor) = (.stored a, r') ↔
    ∃ n : ℕ, chain = .int n ∧ (∃ s, executor = .text s ∧ Address.Reads s a) ∧ r' = r.insert n a
  refused : ∀ s e, (r.step s).1 = .refused e → (r.step s).2 = r
  -- texts of the same bytes are stored as the same text, and no others are
  normal : ∀ m n s t a b, (r.step (.set m (.text s))).1 = .stored a → (r.step (.set n (.text t))).1 = .stored b →
    (a.checksum = b.checksum ↔ a.bytes = b.bytes) ∧
    (a.checksum = b.checksum ↔
      (Hex.dropMarker s.toList).map Char.toLower = (Hex.dropMarker t.toList).map Char.toLower)
  again : ∀ n a, LastGiven history n a → r.step (.set (.int n) (.text a.checksum)) = (.stored a, r)

theorem step_set_iff {r r' : Registry} {chain executor : Value} :
    r.step (.set chain executor) = (.stored a, r') ↔ r.set chain executor = .ok (a, r') := by
  simp only [step]
  cases r.set chain executor with
  | error e => simp
  | ok x => simp [Prod.ext_iff]

theorem spells_of_stored {r : Registry} {chain : Value} {s : String}
    (h : (r.step (.set chain (.text s))).1 = .stored a) : Address.Spells s a := by
  obtain ⟨-, -, ⟨t, ht, hspells, -⟩, -⟩ := set_eq_ok.mp (step_set_iff.mp (Prod.ext h rfl))
  cases ht
  exact hspells

theorem isMapOf_of_find? {r : Registry} {history : List (Step × Reply)}
    (hfind : ∀ n a, r.find? n = some a ↔ LastGiven history n a) : IsMapOf r history := by
  have hsome (n : ℕ) : (r.find? n).isSome = true ↔ ∃ a, LastGiven history n a := by
    simp only [Option.isSome_iff_exists, hfind]
  have hnamed {v : Value} {n : ℕ} (hn : Names v n) : r.get v = .ok (r.find? n) ∧
      r.contains v = .ok (r.find? n).isSome ∧ r.remove v = .ok ((r.find? n).isSome, r.erase n) := by
    obtain ⟨m, hm, hlookups⟩ | ⟨hnone, -⟩ := lookups r v
    · rwa [hm.unique hn] at hlookups
    · exact absurd hn (hnone n)
  constructor
  case checksummed => exact fun e _ => Address.isChecksummed_checksum e.2
  case entries =>
    refine ⟨rfl, r.increasing, fun n a => ?_⟩
    rw [← find?_eq_some_iff, hfind]
  case size => rfl
  case get =>
    intro v n hn
    exact ⟨r.find? n, by simp only [step, (hnamed hn).1], hfind n⟩
  case contains =>
    intro v n hn
    exact ⟨_, by simp only [step, (hnamed hn).2.1], hsome n⟩
  case remove =>
    intro v n hn
    exact ⟨_, by simp only [step, (hnamed hn).2.2], hsome n⟩
  case unnamed =>
    intro v hnone
    obtain ⟨n, hn, -⟩ | ⟨-, ⟨hget, hcontains, hremove⟩ | ⟨e, hget, hcontains, hremove⟩⟩ := lookups r v
    · exact absurd hn (hnone n)
    · left
      simp only [step, hget, hcontains, hremove, and_self]
    · refine .inr ⟨e, ?_⟩
      simp only [step, hget, hcontains, hremove, and_self]
  case set =>
    intro chain executor a r'
    rw [step_set_iff, set_eq_ok]
  case refused => exact fun s e => step_of_refused
  case normal =>
    intro m n s t a b hs ht
    refine ⟨⟨fun h => by rw [Address.checksum_inj h], fun h => ?_⟩,
      Address.checksum_eq_iff (spells_of_stored hs) (spells_of_stored ht)⟩
    rw [show a = b by cases a; cases b; cases h; rfl]
  case again =>
    intro n a h
    rw [step_set_iff, set_eq_ok]
    refine ⟨n, rfl, ⟨a.checksum, rfl, Address.reads_checksum a⟩, ?_⟩
    rw [insert_of_find? ((hfind n a).mpr h)]

end Run

end Settlement.Registry
