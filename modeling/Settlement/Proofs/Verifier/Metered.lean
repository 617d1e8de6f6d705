import Settlement.Verifier.Failure

namespace Settlement

inductive Meter.Exhausted : Option Meter → Exhaustion → Prop
  | budget {m : Meter} {b : Int} (op : Operation) (hb : m.policy.budget = some b) (h : b < m.used) :
    Exhausted (some m) (.budget m.used b op)
  | publicInputs {m : Meter} {count : Int} (h : m.policy.limits.maxPublicInputs < count) :
    Exhausted (some m) (.publicInputs count m.policy.limits.maxPublicInputs)
  | domainSize {m : Meter} {size : Int} (h : m.policy.limits.maxDomainSize < size) :
    Exhausted (some m) (.domainSize size m.policy.limits.maxDomainSize)

namespace Metered

variable {α β : Type}

/-- The computation has the result without a meter, and with one unless that is exhausted before. The meter keeps its
policy. -/
structure Ends (x : Metered α) (res : Except Failure α) : Prop where
  unmetered : x none = (res, none)
  metered : ∀ m, ∃ m', m'.policy = m.policy ∧ (x (some m) = (res, some m') ∨
    ∃ e, Meter.Exhausted (some m') e ∧ x (some m) = (.error (.ofExhaustion e), some m'))

theorem bind_apply (x : Metered α) (f : α → Metered β) (m : Option Meter) :
    (x >>= f) m = match (x m).1 with
      | .ok a => f a (x m).2
      | .error e => (.error e, (x m).2) := by
  change ExceptT.bindCont f (x m).1 (x m).2 = _
  cases h : (x m).1 with
  | ok a => rfl
  | error e => rfl

theorem bind_ok {x : Metered α} {f : α → Metered β} {a : α} {m m' : Option Meter} (h : x m = (.ok a, m')) :
    (x >>= f) m = f a m' := by
  rw [bind_apply, h]

theorem bind_error {x : Metered α} {f : α → Metered β} {e : Failure} {m m' : Option Meter}
    (h : x m = (.error e, m')) : (x >>= f) m = (.error e, m') := by
  rw [bind_apply, h]

theorem tryCatch_ok {x : Metered α} {handle : Failure → Metered α} {a : α} {m m' : Option Meter}
    (h : x m = (.ok a, m')) : (tryCatch x handle) m = (.ok a, m') := by
  simp only [tryCatch, tryCatchThe, MonadExceptOf.tryCatch, ExceptT.tryCatch, ExceptT.mk, bind, StateT.bind]
  rw [h]
  rfl

theorem tryCatch_error {x : Metered α} {handle : Failure → Metered α} {e : Failure} {m m' : Option Meter}
    (h : x m = (.error e, m')) : (tryCatch x handle) m = handle e m' := by
  simp only [tryCatch, tryCatchThe, MonadExceptOf.tryCatch, ExceptT.tryCatch, ExceptT.mk, bind, StateT.bind]
  rw [h]

theorem ofExcept_ok {ε : Type} {f : ε → Failure} {y : Except ε α} {a : α} (h : y = .ok a) (m : Option Meter) :
    ofExcept f y m = (.ok a, m) := by
  rw [h]
  rfl

theorem ofExcept_error {ε : Type} {f : ε → Failure} {y : Except ε α} {e : ε} (h : y = .error e)
    (m : Option Meter) : ofExcept f y m = (.error (f e), m) := by
  rw [h]
  rfl

theorem checkLimits_of_le {m : Meter} {inputs size : Int} (hinputs : inputs ≤ m.policy.limits.maxPublicInputs)
    (hsize : size ≤ m.policy.limits.maxDomainSize) :
    checkLimits inputs size (some m) = (.ok (), some m) := by
  have h1 : ¬inputs > m.policy.limits.maxPublicInputs := Int.not_lt.mpr hinputs
  have h2 : ¬size > m.policy.limits.maxDomainSize := Int.not_lt.mpr hsize
  simp only [checkLimits, Meter.checkLimits, h1, h2, ↓reduceIte]

theorem checkLimits_of_manyInputs {m : Meter} {inputs size : Int}
    (h : m.policy.limits.maxPublicInputs < inputs) :
    checkLimits inputs size (some m) =
      (.error (.ofExhaustion (.publicInputs inputs m.policy.limits.maxPublicInputs)), some m) := by
  simp only [checkLimits, Meter.checkLimits, gt_iff_lt, h, ↓reduceIte]

theorem checkLimits_of_largeDomain {m : Meter} {inputs size : Int}
    (hinputs : inputs ≤ m.policy.limits.maxPublicInputs) (h : m.policy.limits.maxDomainSize < size) :
    checkLimits inputs size (some m) =
      (.error (.ofExhaustion (.domainSize size m.policy.limits.maxDomainSize)), some m) := by
  simp only [checkLimits, Meter.checkLimits, gt_iff_lt, Int.not_lt.mpr hinputs, h, ↓reduceIte]

theorem checkLimits_of_not_le {m : Meter} {inputs size : Int}
    (h : ¬(inputs ≤ m.policy.limits.maxPublicInputs ∧ size ≤ m.policy.limits.maxDomainSize)) :
    ∃ e, Meter.Exhausted (some m) e ∧ checkLimits inputs size (some m) = (.error (.ofExhaustion e), some m) := by
  by_cases hinputs : inputs ≤ m.policy.limits.maxPublicInputs
  · have hsize : m.policy.limits.maxDomainSize < size := Int.not_le.mp fun hsize => h ⟨hinputs, hsize⟩
    exact ⟨_, .domainSize hsize, checkLimits_of_largeDomain hinputs hsize⟩
  · have hcount := Int.not_le.mp hinputs
    exact ⟨_, .publicInputs hcount, checkLimits_of_manyInputs hcount⟩

def Within (m : Meter) (op : Operation) (count : Int) : Prop :=
  ∀ b, m.policy.budget = some b → m.used + m.policy.schedule.cost op count ≤ b

theorem overrun_record_iff (m : Meter) (op : Operation) (count : Int) :
    (m.record op count).overrun op = none ↔ Within m op count := by
  simp only [Meter.overrun, Meter.record, Within]
  cases m.policy.budget with
  | none => simp
  | some b => simp

theorem charge_of_within {m : Meter} {op : Operation} {count : Int} (h : Within m op count) :
    charge op count (some m) = (.ok (), some (m.record op count)) := by
  simp only [charge, Meter.charge, (overrun_record_iff m op count).mpr h]

theorem exhausted_of_overrun {m : Meter} {op : Operation} {e : Exhaustion} (h : m.overrun op = some e) :
    Meter.Exhausted (some m) e := by
  unfold Meter.overrun at h
  split at h
  · cases h
  · rename_i b hb
    split at h
    · rename_i hlt
      cases h
      exact .budget op hb hlt
    · cases h

theorem charge_of_not_within {m : Meter} {op : Operation} {count : Int} (h : ¬Within m op count) :
    ∃ e, Meter.Exhausted (some (m.record op count)) e ∧
      charge op count (some m) = (.error (.ofExhaustion e), some (m.record op count)) := by
  rw [← overrun_record_iff] at h
  obtain ⟨e, he⟩ := Option.ne_none_iff_exists'.mp h
  simp only [charge, Meter.charge, he]
  exact ⟨e, exhausted_of_overrun he, rfl⟩

namespace Ends

theorem pure (a : α) : Ends (Pure.pure a) (.ok a) :=
  ⟨rfl, fun m => ⟨m, rfl, .inl rfl⟩⟩

theorem throw (e : Failure) : Ends (MonadExcept.throw e : Metered α) (.error e) :=
  ⟨rfl, fun m => ⟨m, rfl, .inl rfl⟩⟩

theorem bind {x : Metered α} {f : α → Metered β} {a : α} {res : Except Failure β} (hx : Ends x (.ok a))
    (hf : Ends (f a) res) : Ends (x >>= f) res where
  unmetered := by rw [bind_ok hx.unmetered, hf.unmetered]
  metered m := by
    obtain ⟨m', hpolicy, h | ⟨e, he, h⟩⟩ := hx.metered m
    · rw [bind_ok h, ← hpolicy]
      exact hf.metered m'
    · exact ⟨m', hpolicy, .inr ⟨e, he, bind_error h⟩⟩

theorem bind_error {x : Metered α} {e : Failure} (f : α → Metered β) (hx : Ends x (.error e)) :
    Ends (x >>= f) (.error e) where
  unmetered := Metered.bind_error hx.unmetered
  metered m := by
    obtain ⟨m', hpolicy, h | ⟨e', he', h⟩⟩ := hx.metered m
    · exact ⟨m', hpolicy, .inl (Metered.bind_error h)⟩
    · exact ⟨m', hpolicy, .inr ⟨e', he', Metered.bind_error h⟩⟩

theorem ofExcept {ε : Type} {f : ε → Failure} {y : Except ε α} {a : α} (h : y = .ok a) :
    Ends (Metered.ofExcept f y) (.ok a) := by
  subst h
  exact pure a

theorem charge (op : Operation) (count : Int) : Ends (Metered.charge op count) (.ok ()) where
  unmetered := rfl
  metered m := by
    refine ⟨m.record op count, rfl, ?_⟩
    by_cases h : Within m op count
    · exact .inl (charge_of_within h)
    · exact .inr (charge_of_not_within h)

theorem checkLimits (inputs size : Int) : Ends (Metered.checkLimits inputs size) (.ok ()) where
  unmetered := rfl
  metered m := by
    refine ⟨m, rfl, ?_⟩
    by_cases h : inputs ≤ m.policy.limits.maxPublicInputs ∧ size ≤ m.policy.limits.maxDomainSize
    · exact .inl (checkLimits_of_le h.1 h.2)
    · exact .inr (checkLimits_of_not_le h)

theorem apply {x : Metered α} {res : Except Failure α} (h : Ends x res) (m : Option Meter) :
    ∃ m', m'.map (·.policy) = m.map (·.policy) ∧ (x m = (res, m') ∨
      ∃ e, Meter.Exhausted m' e ∧ x m = (.error (.ofExhaustion e), m')) := by
  cases m with
  | none => exact ⟨none, rfl, .inl h.unmetered⟩
  | some m =>
    obtain ⟨m', hpolicy, h⟩ := h.metered m
    exact ⟨some m', congrArg some hpolicy, h⟩

theorem result_unique {x : Metered α} {res res' : Except Failure α} (h : Ends x res) (h' : Ends x res') :
    res = res' :=
  congrArg Prod.fst (h.unmetered.symm.trans h'.unmetered)

end Ends

end Metered

end Settlement
