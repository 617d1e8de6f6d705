import Mathlib
import Settlement.Proofs.Policy.Serialization
import Settlement.Proofs.Verifier.Charges

/-!
Accounts of a meter that is charged by name, call after call, whatever each call ends with. Prices and counts always
agree, and a call is refused over the budget unless the refusal cannot be written.
-/

namespace Settlement

theorem Operation.ofName?_eq_some {name : String} {op : Operation} : ofName? name = some op ↔ op.name = name := by
  constructor
  · intro h
    have hname := List.find?_some h
    exact eq_of_beq hname
  · rintro rfl
    exact ofName?_name op

theorem Operation.name_injective : Function.Injective name := by
  intro op op' h
  rw [← Option.some_inj, ← ofName?_name op, h, ofName?_name]

theorem Integer.isWritable_iff {n : ℤ} : isWritable n = true ↔ n.natAbs < 10 ^ maxDigits := by
  simp only [isWritable, decide_eq_true_eq, Nat.pow_eq]

namespace Meter

section Added

variable {cs : List Charge} {op : Operation} {n : ℤ}

def added (op : Operation) (n : ℤ) (c : Charge) : Charge :=
  if c.1 = op then (op, c.2 + n) else c

theorem fst_added (op : Operation) (n : ℤ) (c : Charge) : (added op n c).1 = c.1 := by
  rw [added]
  split
  · next h => exact h.symm
  · rfl

theorem operations_map_added (op : Operation) (n : ℤ) (cs : List Charge) :
    (cs.map (added op n)).map Prod.fst = cs.map Prod.fst := by
  simp [fst_added]

theorem lookup_map_added (op op' : Operation) (n : ℤ) (cs : List Charge) :
    (cs.map (added op n)).lookup op' = if op' = op then (cs.lookup op).map (· + n) else cs.lookup op' := by
  induction cs with
  | nil => simp
  | cons c cs ih =>
    obtain ⟨first, k⟩ := c
    by_cases hfirst : first = op
    · subst hfirst
      by_cases hop : op' = first
      · simp [added, hop]
      · simp [added, hop, List.lookup_cons, beq_false_of_ne hop, ih]
    · by_cases hop : op' = op
      · subst hop
        simp [added, hfirst, List.lookup_cons, beq_false_of_ne (Ne.symm hfirst), ih]
      · simp [added, hfirst, hop, List.lookup_cons, ih]

theorem map_added_of_not_mem (h : op ∉ cs.map Prod.fst) : cs.map (added op n) = cs := by
  refine (List.map_congr_left fun c hc => ?_).trans (List.map_id' cs)
  rw [added, if_neg]
  rintro rfl
  exact h (List.mem_map_of_mem hc)

theorem price_map_added (s : UnitSchedule) (hcs : (cs.map Prod.fst).Nodup) (h : op ∈ cs.map Prod.fst) :
    s.price (cs.map (added op n)) = s.price cs + s.cost op n := by
  induction cs with
  | nil => simp at h
  | cons c cs ih =>
    obtain ⟨hc, hcs⟩ := List.nodup_cons.mp hcs
    rw [List.map_cons, UnitSchedule.price_cons, UnitSchedule.price_cons]
    obtain hop | hop := List.mem_cons.mp h
    · subst hop
      rw [map_added_of_not_mem hc, added, if_pos rfl]
      simp only [UnitSchedule.cost]
      ring
    · have hne : c.1 ≠ op := by
        rintro rfl
        exact hc hop
      rw [ih hcs hop, added, if_neg hne]
      ring

end Added

section Record

variable {m : Meter}

theorem isSome_count? (m : Meter) (op : Operation) : (m.count? op).isSome ↔ op ∈ m.counts.map Prod.fst := by
  simp [count?, List.lookup_isSome_iff]

theorem counts_record (m : Meter) (op : Operation) (n : ℤ) : (m.record op n).counts =
    if op ∈ m.counts.map Prod.fst then m.counts.map (added op n) else m.counts ++ [(op, n)] := by
  simp only [record, isSome_count?]
  rfl

theorem count?_record (m : Meter) (op op' : Operation) (n : ℤ) : (m.record op n).count? op' =
    if op' = op then some ((m.count? op).getD 0 + n) else m.count? op' := by
  rw [count?, counts_record]
  by_cases hop : op ∈ m.counts.map Prod.fst
  · obtain ⟨k, hk⟩ := Option.isSome_iff_exists.mp ((isSome_count? m op).mpr hop)
    rw [if_pos hop, lookup_map_added, hk, show m.counts.lookup op = some k from hk]
    rfl
  · have hnone : m.counts.lookup op = none := by
      rw [← Option.not_isSome_iff_eq_none]
      exact fun h => hop ((isSome_count? m op).mp h)
    rw [if_neg hop, List.lookup_append]
    by_cases hop' : op' = op
    · subst hop'
      simp [count?, hnone]
    · simp [count?, hop', List.lookup_cons, beq_false_of_ne hop']

theorem nodup_record (h : (m.counts.map Prod.fst).Nodup) (op : Operation) (n : ℤ) :
    ((m.record op n).counts.map Prod.fst).Nodup := by
  rw [counts_record]
  split
  · rwa [operations_map_added]
  · next hop =>
    rw [List.map_append]
    exact h.append (List.nodup_singleton op) (by simpa using hop)

theorem price_counts_record (h : (m.counts.map Prod.fst).Nodup) (s : UnitSchedule) (op : Operation) (n : ℤ) :
    s.price (m.record op n).counts = s.price m.counts + s.cost op n := by
  rw [counts_record]
  split
  · next hop => exact price_map_added s h hop
  · simp [UnitSchedule.price]

end Record

abbrev Call : Type := String × ℤ

def chargeEach (m : Meter) (calls : List Call) : Meter :=
  calls.foldl (fun m c => (m.chargeNamed c.1 c.2).2) m

def asked (op : Operation) (calls : List Call) : List ℤ :=
  (calls.filter fun c => c.1 = op.name).map Prod.snd

structure Balanced (p : Policy) (calls : List Call) (m : Meter) : Prop where
  policy : m.policy = p
  distinct : (m.counts.map Prod.fst).Nodup
  used : m.used = p.schedule.price m.counts
  count (op : Operation) : m.count? op = if asked op calls = [] then none else some (asked op calls).sum
  remaining : m.remaining = p.budget.map fun b => max 0 (b - m.used)

def Exceeds (m : Meter) (op : Operation) (n : ℤ) : Prop :=
  ∃ b, m.policy.budget = some b ∧ b < m.used + m.policy.schedule.cost op n

/-- What a call has to do. Over the budget it fails for that reason, with the charge recorded all the same; if it
fails for any other, the meter stays as it is. -/
structure Lawful (m : Meter) (name : String) (n : ℤ) : Prop where
  exhausted {op : Operation} (hop : op.name = name) :
    (∃ e, (m.chargeNamed name n).1 = .error (.exhausted e)) ↔ m.Exceeds op n
  recorded {op : Operation} (hop : op.name = name) (h : m.Exceeds op n) : (m.chargeNamed name n).2 = m.record op n
  unchanged {e : NamedError} (h : (m.chargeNamed name n).1 = .error e) (he : ∀ x, e ≠ .exhausted x) :
    (m.chargeNamed name n).2 = m

def Unwritable (m : Meter) (name : String) (n : ℤ) : Prop :=
  ∃ op b, op.name = name ∧ m.policy.budget = some b ∧ b < m.used + m.policy.schedule.cost op n ∧
    (10 ^ Integer.maxDigits ≤ (m.used + m.policy.schedule.cost op n).natAbs ∨ 10 ^ Integer.maxDigits ≤ b.natAbs)

section Step

variable {p : Policy} {calls : List Call} {m : Meter} {name : String} {op : Operation} {n b : ℤ}

theorem asked_append (op : Operation) (calls : List Call) (name : String) (n : ℤ) :
    asked op (calls ++ [(name, n)]) = asked op calls ++ if op.name = name then [n] else [] := by
  simp only [asked, List.filter_append, List.map_append, List.filter_singleton]
  by_cases h : op.name = name
  · simp [h]
  · simp [h, Ne.symm h]

theorem chargeNamed_of_unknown (h : Operation.ofName? name = none) (n : ℤ) :
    m.chargeNamed name n = (.error (.ofName name), m) := by
  simp only [chargeNamed, h]

theorem chargeNamed_name (m : Meter) (op : Operation) (n : ℤ) : m.chargeNamed op.name n =
    ((m.charge op n).1.mapError .ofExhaustion, m.record op n) := by
  simp only [chargeNamed, Operation.ofName?_name, charge]
  split <;> rfl

theorem chargeNamed_of_not_exceeds (h : ¬m.Exceeds op n) : m.chargeNamed op.name n = (.ok (), m.record op n) := by
  have hwithin : Metered.Within m op n := fun b hb => Int.not_lt.mp fun hlt => h ⟨b, hb, hlt⟩
  rw [chargeNamed_name, charge_of_within (c := (op, n)) hwithin]
  rfl

theorem chargeNamed_of_lt (hb : m.policy.budget = some b) (h : b < m.used + m.policy.schedule.cost op n) :
    m.chargeNamed op.name n =
      (.error (.ofExhaustion (.budget (m.used + m.policy.schedule.cost op n) b op)), m.record op n) := by
  rw [chargeNamed_name, charge_of_lt (c := (op, n)) hb h]
  rfl

theorem chargeNamed_of_unwritable (h : Unwritable m name n) :
    ∃ op, op.name = name ∧ m.Exceeds op n ∧ m.chargeNamed name n = (.error .unwritable, m.record op n) := by
  obtain ⟨op, b, rfl, hb, hlt, hdigits⟩ := h
  refine ⟨op, rfl, ⟨b, hb, hlt⟩, ?_⟩
  rw [chargeNamed_of_lt hb hlt, NamedError.ofExhaustion, if_neg]
  simp only [Exhaustion.isWritable, Bool.and_eq_true, Integer.isWritable_iff]
  rintro ⟨hused, hlimit⟩
  obtain h | h := hdigits
  · exact absurd hused (Nat.not_lt_of_ge h)
  · exact absurd hlimit (Nat.not_lt_of_ge h)

theorem chargeNamed_of_writable (h : ¬Unwritable m op.name n) (hb : m.policy.budget = some b)
    (hlt : b < m.used + m.policy.schedule.cost op n) :
    m.chargeNamed op.name n =
      (.error (.exhausted (.budget (m.used + m.policy.schedule.cost op n) b op)), m.record op n) := by
  rw [chargeNamed_of_lt hb hlt, NamedError.ofExhaustion, if_pos]
  simp only [Exhaustion.isWritable, Bool.and_eq_true, Integer.isWritable_iff]
  constructor <;> by_contra hdigits
  · exact h ⟨op, b, rfl, hb, hlt, .inl (Nat.not_lt.mp hdigits)⟩
  · exact h ⟨op, b, rfl, hb, hlt, .inr (Nat.not_lt.mp hdigits)⟩

theorem exhausted_or_ok (h : ¬Unwritable m op.name n) :
    (∃ e, (m.chargeNamed op.name n).1 = .error (.exhausted e)) ∧ m.Exceeds op n ∨
      (m.chargeNamed op.name n).1 = .ok () ∧ ¬m.Exceeds op n := by
  by_cases hexceeds : m.Exceeds op n
  · obtain ⟨b, hb, hlt⟩ := hexceeds
    rw [chargeNamed_of_writable h hb hlt]
    exact .inl ⟨⟨_, rfl⟩, b, hb, hlt⟩
  · rw [chargeNamed_of_not_exceeds hexceeds]
    exact .inr ⟨rfl, hexceeds⟩

theorem lawful_iff : Lawful m name n ↔ ¬Unwritable m name n := by
  constructor
  · rintro hlawful hlong
    obtain ⟨op, hop, hexceeds, hcharge⟩ := chargeNamed_of_unwritable hlong
    obtain ⟨e, he⟩ := (hlawful.exhausted hop).mpr hexceeds
    rw [hcharge] at he
    cases he
  · intro hshort
    refine ⟨?_, ?_, ?_⟩
    · rintro op rfl
      obtain ⟨he, hexceeds⟩ | ⟨hok, hexceeds⟩ := exhausted_or_ok hshort
      · exact iff_of_true he hexceeds
      · refine iff_of_false ?_ hexceeds
        rintro ⟨e, he⟩
        cases hok.symm.trans he
    · rintro op rfl -
      rw [chargeNamed_name]
    · intro e he hother
      cases hname : Operation.ofName? name with
      | none => rw [chargeNamed_of_unknown hname]
      | some op =>
        obtain rfl := Operation.ofName?_eq_some.mp hname
        obtain ⟨⟨x, hx⟩, -⟩ | ⟨hok, -⟩ := exhausted_or_ok hshort
        · exact absurd (Except.error.inj (he.symm.trans hx)) (hother x)
        · cases hok.symm.trans he

theorem balanced_ofPolicy (p : Policy) : Balanced p [] (ofPolicy p) where
  policy := rfl
  distinct := List.nodup_nil
  used := rfl
  count _ := rfl
  remaining := rfl

theorem Balanced.record (h : Balanced p calls m) (op : Operation) (n : ℤ) :
    Balanced p (calls ++ [(op.name, n)]) (m.record op n) where
  policy := h.policy
  distinct := nodup_record h.distinct op n
  used := by
    rw [price_counts_record h.distinct, ← h.used, ← h.policy]
    rfl
  count op' := by
    rw [count?_record, asked_append, h.count, h.count]
    by_cases hop : op' = op
    · subst hop
      by_cases hasked : asked op' calls = []
      · simp [hasked]
      · simp [hasked]
    · have hname : op'.name ≠ op.name := fun hname => hop (Operation.name_injective hname)
      simp [hop, hname]
  remaining := by
    rw [← h.policy]
    rfl

theorem Balanced.chargeNamed (h : Balanced p calls m) (name : String) (n : ℤ) :
    Balanced p (calls ++ [(name, n)]) (m.chargeNamed name n).2 := by
  cases hname : Operation.ofName? name with
  | none =>
    have hasked (op : Operation) : asked op (calls ++ [(name, n)]) = asked op calls := by
      rw [asked_append, if_neg, List.append_nil]
      rintro rfl
      simp [Operation.ofName?_name] at hname
    rw [chargeNamed_of_unknown hname]
    exact { h with count := fun op => by rw [hasked, h.count] }
  | some op =>
    obtain rfl := Operation.ofName?_eq_some.mp hname
    rw [chargeNamed_name]
    exact h.record op n

end Step

theorem balanced_chargeEach (p : Policy) (calls : List Call) : Balanced p calls ((ofPolicy p).chargeEach calls) := by
  induction calls using List.reverseRecOn with
  | nil => exact balanced_ofPolicy p
  | append_singleton calls c ih =>
    rw [chargeEach, List.foldl_append]
    exact ih.chargeNamed c.1 c.2

/-- After any calls the accounts balance, and the next call does what it has to but for one whose message cannot be
written: that one is recorded, and fails for a reason that is not its own. -/
theorem charges_account (p : Policy) (calls : List Call) (name : String) (n : ℤ) :
    let m := (ofPolicy p).chargeEach calls
    Balanced p calls m ∧ (Lawful m name n ↔ ¬Unwritable m name n) ∧
      (Unwritable m name n → ∃ op, op.name = name ∧ m.Exceeds op n ∧
        m.chargeNamed name n = (.error .unwritable, m.record op n)) :=
  ⟨balanced_chargeEach p calls, lawful_iff, chargeNamed_of_unwritable⟩

theorem not_lawful_manyDigits :
    ¬Lawful (ofPolicy { schedule := { base := 10 ^ 2150 }, budget := some 100 }) "base" (10 ^ 2150) := by
  have hused : (0 : ℤ) + 10 ^ 2150 * 10 ^ 2150 = ((10 ^ Integer.maxDigits : ℕ) : ℤ) := by
    rw [zero_add, ← pow_add, Nat.cast_pow]
    rfl
  have hlong : 100 < 10 ^ Integer.maxDigits :=
    lt_of_lt_of_le (by decide) (Nat.pow_le_pow_right (by decide) (show 3 ≤ Integer.maxDigits by decide))
  refine fun hlawful => lawful_iff.mp hlawful ⟨.base, 100, rfl, rfl, ?_, .inl ?_⟩
  · change 100 < (0 : ℤ) + 10 ^ 2150 * 10 ^ 2150
    rw [hused]
    exact Int.ofNat_lt.mpr hlong
  · change _ ≤ ((0 : ℤ) + 10 ^ 2150 * 10 ^ 2150).natAbs
    rw [hused, Int.natAbs_natCast]

end Meter

end Settlement
