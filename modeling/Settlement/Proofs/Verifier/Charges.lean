import Mathlib
import Settlement.Proofs.Verifier.Metered

/-!
Charges that are made one after the other. A budget stops them at the first that it does not cover, and
a metered computation is nothing but its charges and its result.
-/

namespace Settlement

abbrev Charge : Type := Operation × ℤ

namespace UnitSchedule

def price (s : UnitSchedule) (cs : List Charge) : ℤ :=
  (cs.map fun c => s.cost c.1 c.2).sum

theorem price_nil (s : UnitSchedule) : s.price [] = 0 := rfl

theorem price_cons (s : UnitSchedule) (c : Charge) (cs : List Charge) :
    s.price (c :: cs) = s.cost c.1 c.2 + s.price cs :=
  List.sum_cons

end UnitSchedule

namespace Meter

variable {m : Meter} {c : Charge} {cs pre post : List Charge} {b : ℤ}

def recordAll (m : Meter) (cs : List Charge) : Meter :=
  cs.foldl (fun m c => m.record c.1 c.2) m

theorem used_recordAll (m : Meter) (cs : List Charge) :
    (m.recordAll cs).used = m.used + m.policy.schedule.price cs := by
  induction cs generalizing m with
  | nil => exact (add_zero _).symm
  | cons c cs ih =>
    rw [UnitSchedule.price_cons, ← add_assoc]
    exact ih (m.record c.1 c.2)

def pay (m : Meter) : List Charge → Except Exhaustion Unit × Meter
  | [] => (.ok (), m)
  | c :: cs =>
    match m.charge c.1 c.2 with
    | (.ok (), m) => m.pay cs
    | (.error e, m) => (.error e, m)

def Covers (m : Meter) (cs : List Charge) : Prop :=
  ∀ b, m.policy.budget = some b →
    ∀ pre, pre ≠ [] → pre <+: cs → m.used + m.policy.schedule.price pre ≤ b

theorem covers_nil (m : Meter) : m.Covers [] := by
  intro b _ pre hne hpre
  exact absurd (List.prefix_nil.mp hpre) hne

theorem covers_cons : m.Covers (c :: cs) ↔ Metered.Within m c.1 c.2 ∧ (m.record c.1 c.2).Covers cs := by
  constructor
  · intro h
    refine ⟨?_, ?_⟩
    · intro b hb
      have hone := h b hb [c] (List.cons_ne_nil _ _) (by simp)
      rwa [UnitSchedule.price_cons, UnitSchedule.price_nil, add_zero] at hone
    · intro b hb pre _ hpre
      have hmore := h b hb (c :: pre) (List.cons_ne_nil _ _) (List.cons_prefix_cons.mpr ⟨rfl, hpre⟩)
      rwa [UnitSchedule.price_cons, ← add_assoc] at hmore
  · rintro ⟨hc, hcs⟩ b hb pre hne hpre
    cases pre with
    | nil => exact absurd rfl hne
    | cons d pre =>
      obtain ⟨rfl, htail⟩ := List.cons_prefix_cons.mp hpre
      rw [UnitSchedule.price_cons, ← add_assoc]
      obtain rfl | hmore := eq_or_ne pre []
      · rw [UnitSchedule.price_nil, add_zero]
        exact hc b hb
      · exact hcs b hb pre hmore htail

theorem charge_of_within (h : Metered.Within m c.1 c.2) : m.charge c.1 c.2 = (.ok (), m.record c.1 c.2) := by
  simp only [charge, (Metered.overrun_record_iff m c.1 c.2).mpr h]

theorem charge_of_lt (hb : m.policy.budget = some b) (h : b < m.used + m.policy.schedule.cost c.1 c.2) :
    m.charge c.1 c.2 =
      (.error (.budget (m.used + m.policy.schedule.cost c.1 c.2) b c.1), m.record c.1 c.2) := by
  simp only [charge, overrun, record, hb, gt_iff_lt, h, ↓reduceIte]

theorem pay_of_covers (h : m.Covers cs) : m.pay cs = (.ok (), m.recordAll cs) := by
  induction cs generalizing m with
  | nil => rfl
  | cons c cs ih =>
    obtain ⟨hc, hcs⟩ := covers_cons.mp h
    rw [pay, charge_of_within hc]
    exact ih hcs

theorem pay_of_exceeds (hpre : m.Covers pre) (hb : m.policy.budget = some b)
    (h : b < m.used + m.policy.schedule.price (pre ++ [c])) :
    m.pay (pre ++ c :: post) =
      (.error (.budget (m.used + m.policy.schedule.price (pre ++ [c])) b c.1), m.recordAll (pre ++ [c])) := by
  induction pre generalizing m with
  | nil =>
    simp only [List.nil_append, UnitSchedule.price_cons, UnitSchedule.price_nil, add_zero] at h ⊢
    rw [pay, charge_of_lt hb h]
    rfl
  | cons d pre ih =>
    obtain ⟨hd, hpre⟩ := covers_cons.mp hpre
    simp only [List.cons_append, UnitSchedule.price_cons, ← add_assoc] at h ⊢
    rw [pay, charge_of_within hd]
    exact ih hpre hb h

theorem covers_or_exceeds (m : Meter) (cs : List Charge) :
    m.Covers cs ∨ ∃ pre c post b, cs = pre ++ c :: post ∧ m.Covers pre ∧ m.policy.budget = some b ∧
      b < m.used + m.policy.schedule.price (pre ++ [c]) := by
  induction cs generalizing m with
  | nil => exact .inl (covers_nil m)
  | cons d cs ih =>
    by_cases hd : Metered.Within m d.1 d.2
    · obtain h | ⟨pre, c, post, b, rfl, hpre, hb, h⟩ := ih (m.record d.1 d.2)
      · exact .inl (covers_cons.mpr ⟨hd, h⟩)
      · refine .inr ⟨d :: pre, c, post, b, rfl, covers_cons.mpr ⟨hd, hpre⟩, hb, ?_⟩
        rw [List.cons_append, UnitSchedule.price_cons, ← add_assoc]
        exact h
    · simp only [Metered.Within, not_forall, not_le] at hd
      obtain ⟨b, hb, h⟩ := hd
      refine .inr ⟨[], d, cs, b, rfl, covers_nil m, hb, ?_⟩
      rwa [List.nil_append, UnitSchedule.price_cons, UnitSchedule.price_nil, add_zero]

theorem pay_append (m : Meter) (cs cs' : List Charge) :
    m.pay (cs ++ cs') = match m.pay cs with
      | (.ok (), m) => m.pay cs'
      | (.error e, m) => (.error e, m) := by
  induction cs generalizing m with
  | nil => rfl
  | cons c cs ih =>
    rw [List.cons_append, pay, pay]
    match m.charge c.1 c.2 with
    | (.ok (), m') => exact ih m'
    | (.error e, m') => rfl

end Meter

namespace Metered

variable {α β : Type}

def paid (cs : List Charge) (res : Except Failure α) : Metered α := fun m? =>
  match m? with
  | none => (res, none)
  | some m =>
    match m.pay cs with
    | (.ok (), m) => (res, some m)
    | (.error e, m) => (.error (.ofExhaustion e), some m)

theorem pure_eq_paid (a : α) : (pure a : Metered α) = paid [] (.ok a) := by
  funext m
  cases m <;> rfl

theorem throw_eq_paid (e : Failure) : (throw e : Metered α) = paid [] (.error e) := by
  funext m
  cases m <;> rfl

theorem charge_eq_paid (op : Operation) (count : ℤ) : charge op count = paid [(op, count)] (.ok ()) := by
  funext m
  cases m with
  | none => rfl
  | some m =>
    simp only [charge, paid, Meter.pay]
    obtain ⟨y, m'⟩ := m.charge op count
    cases y <;> rfl

theorem ofExcept_eq_paid {ε : Type} (f : ε → Failure) (y : Except ε α) :
    ofExcept f y = paid [] (y.mapError f) := by
  cases y with
  | ok a => exact pure_eq_paid a
  | error e => exact throw_eq_paid (f e)

theorem paid_ok_bind (cs : List Charge) (a : α) {f : α → Metered β} {cs' : List Charge} {res : Except Failure β}
    (hf : f a = paid cs' res) : paid cs (.ok a) >>= f = paid (cs ++ cs') res := by
  funext m
  rw [bind_apply]
  cases m with
  | none => exact congrFun hf none
  | some m =>
    simp only [paid, Meter.pay_append]
    match m.pay cs with
    | (.ok (), m') => exact congrFun hf (some m')
    | (.error e, m') => rfl

theorem paid_error_bind (cs : List Charge) (e : Failure) (f : α → Metered β) :
    paid cs (.error e) >>= f = paid cs (.error e) := by
  funext m
  rw [bind_apply]
  cases m with
  | none => rfl
  | some m =>
    simp only [paid]
    match m.pay cs with
    | (.ok (), m') => rfl
    | (.error e', m') => rfl

theorem exists_paid_some (cs : List Charge) (res : Except Failure α) (m : Meter) :
    ∃ res' m', paid cs res (some m) = (res', some m') := by
  simp only [paid]
  match m.pay cs with
  | (.ok (), m') => exact ⟨_, _, rfl⟩
  | (.error e, m') => exact ⟨_, _, rfl⟩

section Paid

variable {m : Meter} {c : Charge} {cs pre post : List Charge} {b : ℤ}

theorem paid_of_covers (h : m.Covers cs) (res : Except Failure α) :
    paid cs res (some m) = (res, some (m.recordAll cs)) := by
  simp only [paid, Meter.pay_of_covers h]

theorem paid_of_exceeds (hpre : m.Covers pre) (hb : m.policy.budget = some b)
    (h : b < m.used + m.policy.schedule.price (pre ++ [c])) (res : Except Failure α) :
    paid (pre ++ c :: post) res (some m) =
      (.error (.ofExhaustion (.budget (m.used + m.policy.schedule.price (pre ++ [c])) b c.1)),
        some (m.recordAll (pre ++ [c]))) := by
  simp only [paid, Meter.pay_of_exceeds hpre hb h]

end Paid

end Metered

end Settlement
