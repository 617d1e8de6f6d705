import Mathlib
import Settlement.Policy.Document
import Settlement.Proofs.Json.Files
import Settlement.Proofs.Json.Values

namespace Settlement

section Restrict

def Value.restrict (keep : String → Bool) : Value → Value
  | .mapping es => .mapping (es.filter fun e => match e.1 with
    | .text name => keep name
    | _ => true)
  | v => v

theorem Value.restrict_object (keep : String → Bool) (fields : List (String × Value)) :
    Value.restrict keep (.object fields) = .object (fields.filter fun e => keep e.1) := by
  rw [Value.object_eq, Value.object_eq, restrict, List.filter_map]
  rfl

theorem Value.field?_filter (keep : String → Bool) (change : String → Value → Value) (fields : List (String × Value))
    (name : String) :
    Value.field? (((fields.filter fun e => keep e.1).map fun e => (e.1, change e.1 e.2)).map fun e => (.text e.1, e.2))
      name =
        if keep name then (Value.field? (fields.map fun e => (.text e.1, e.2)) name).map (change name) else none := by
  induction fields with
  | nil => simp [field?]
  | cons e fields ih =>
    have hkey (v : Value) (es : List (Value × Value)) :
        field? ((.text e.1, v) :: es) name = if e.1 = name then some v else field? es name := by
      simp only [field?_cons, isKey_iff, text.injEq]
    rw [List.map_cons, hkey, List.filter_cons]
    by_cases hname : e.1 = name
    · subst hname
      by_cases hkeep : keep e.1 = true
      · rw [if_pos hkeep, List.map_cons, List.map_cons, hkey]
        simp [hkeep]
      · rw [if_neg hkeep, ih]
        simp [hkeep]
    · rw [if_neg hname, ← ih]
      split
      · rw [List.map_cons, List.map_cons, hkey, if_neg hname]
      · rfl

theorem Json.Portable.restrict {k : ℕ} {v : Value} (h : Portable k v) (keep : String → Bool) :
    Portable k (v.restrict keep) := by
  cases h with
  | null => exact .null
  | bool b => exact .bool b
  | int h => exact .int h
  | text h => exact .text h
  | list h => exact .list h
  | @object _ fields hnames hnodup h =>
    rw [Value.restrict_object]
    have hsub : (fields.filter fun e => keep e.1).Sublist fields := List.filter_sublist
    exact .object (fun e he => hnames e (hsub.mem he)) (hnodup.sublist (hsub.map _)) fun e he => h e (hsub.mem he)

end Restrict

namespace UnitSchedule

def ofUnits (f : Operation → ℤ) : UnitSchedule :=
  ⟨f .base, f .perPublicInput, f .g1Mul, f .pairing, f .inversion⟩

theorem unit_ofUnits (f : Operation → ℤ) (op : Operation) : (ofUnits f).unit op = f op := by
  cases op <;> rfl

theorem ext_unit {s t : UnitSchedule} (h : ∀ op, s.unit op = t.unit op) : s = t := by
  cases s
  cases t
  rw [UnitSchedule.mk.injEq]
  exact ⟨h .base, h .perPublicInput, h .g1Mul, h .pairing, h .inversion⟩

theorem unit_set (s : UnitSchedule) (n : ℤ) (op op' : Operation) :
    (s.set n op).unit op' = if op' = op then n else s.unit op' := by
  cases op <;> cases op' <;> rfl

theorem unit_foldl_set (s : UnitSchedule) (f : Operation → ℤ) (ops : List Operation) (op : Operation) :
    (ops.foldl (fun s op => s.set (f op) op) s).unit op = if op ∈ ops then f op else s.unit op := by
  induction ops generalizing s with
  | nil => simp
  | cons first ops ih =>
    rw [List.foldl_cons, ih, unit_set]
    by_cases hops : op ∈ ops
    · simp [hops]
    · by_cases hop : op = first
      · simp [hop]
      · simp [hops, hop]

end UnitSchedule

theorem Operation.mem_all (op : Operation) : op ∈ all := by
  cases op <;> decide

theorem Operation.ofName?_name (op : Operation) : ofName? op.name = some op := by
  cases op <;> decide

namespace Policy

/-- What is left out of a document: entries as a whole, and entries of its sections. -/
structure Removal where
  whole : String → Bool
  entry : String → String → Bool

namespace Removal

def apply (x : Removal) (v : Value) : Value :=
  match v.restrict fun name => !x.whole name with
  | .mapping es => .mapping (es.map fun e => match e.1 with
    | .text name => (.text name, e.2.restrict fun n => !x.entry name n)
    | _ => e)
  | v => v

theorem apply_object (x : Removal) (fields : List (String × Value)) :
    x.apply (.object fields) = .object ((fields.filter fun e => !x.whole e.1).map fun e =>
      (e.1, e.2.restrict fun n => !x.entry e.1 n)) := by
  rw [apply, Value.restrict_object, Value.object_eq, Value.object_eq]
  simp only [List.map_map]
  rfl

def nothing : Removal :=
  ⟨fun _ => false, fun _ _ => false⟩

def leavesOut (x : Removal) (part name : String) : Bool :=
  x.whole part || x.entry part name

def restore (x : Removal) (p : Policy) : Policy where
  schedule := .ofUnits fun op =>
    if x.leavesOut "schedule" op.name then Policy.standard.schedule.unit op else p.schedule.unit op
  budget := if x.whole "budget" then Policy.standard.budget else p.budget
  limits :=
    { maxPublicInputs :=
        if x.leavesOut "limits" "max_public_inputs" then Policy.standard.limits.maxPublicInputs
        else p.limits.maxPublicInputs
      maxDomainSize :=
        if x.leavesOut "limits" "max_domain_size" then Policy.standard.limits.maxDomainSize
        else p.limits.maxDomainSize }

theorem unit_restore (x : Removal) (p : Policy) (op : Operation) : (x.restore p).schedule.unit op =
    if x.leavesOut "schedule" op.name then Policy.standard.schedule.unit op else p.schedule.unit op :=
  UnitSchedule.unit_ofUnits _ op

end Removal

section Schedule

def priceFields (f : Operation → ℤ) (ops : List Operation) : List (String × Value) :=
  ops.map fun op => (op.name, .int (f op))

theorem setPrices_priceFields (s : UnitSchedule) (f : Operation → ℤ) (ops : List Operation) :
    setPrices s ((priceFields f ops).map fun e => (.text e.1, e.2)) =
      .ok (ops.foldl (fun s op => s.set (f op) op) s) := by
  induction ops generalizing s with
  | nil => rfl
  | cons op ops ih =>
    rw [priceFields, List.map_cons, List.map_cons, setPrices]
    simp only [Operation.ofName?_name]
    exact ih _

theorem checkNames_priceFields (f : Operation → ℤ) (ops : List Operation) :
    checkNames ((priceFields f ops).map fun e => .text e.1) = .ok () := by
  have hnone : ((priceFields f ops).map fun e => Value.text e.1).filter (fun v => !isPrice v) = [] := by
    rw [List.filter_eq_nil_iff, List.forall_mem_map]
    intro e he
    obtain ⟨op, -, rfl⟩ := List.mem_map.mp he
    simp [isPrice, Operation.ofName?_name]
  rw [checkNames, hnone]
  rfl

theorem readSchedule_priceFields (f : Operation → ℤ) (ops : List Operation) :
    readSchedule (.object (priceFields f ops)) =
      .ok (.ofUnits fun op => if op ∈ ops then f op else Policy.standard.schedule.unit op) := by
  have hentries : (sectionEntries (.object (priceFields f ops)) >>= setPrices {}) =
      .ok (.ofUnits fun op => if op ∈ ops then f op else Policy.standard.schedule.unit op) := by
    refine (setPrices_priceFields {} f ops).trans (congrArg Except.ok ?_)
    apply UnitSchedule.ext_unit
    intro op
    rw [UnitSchedule.unit_foldl_set, UnitSchedule.unit_ofUnits]
    rfl
  have hnames : sectionNames (.object (priceFields f ops)) = .ok ((priceFields f ops).map fun e => .text e.1) := by
    rw [Value.object_eq, sectionNames, List.map_map]
    rfl
  unfold readSchedule
  split
  · exact Except.bind_eq_ok.mpr ⟨_, hnames, Except.bind_eq_ok.mpr ⟨_, checkNames_priceFields f ops, hentries⟩⟩
  · exact hentries

theorem restrict_schedule (keep : String → Bool) (s : UnitSchedule) :
    (UnitSchedule.toValue s).restrict keep =
      .object (priceFields s.unit (Operation.all.filter fun op => keep op.name)) := by
  rw [UnitSchedule.toValue, Value.restrict_object, List.filter_map]
  rfl

theorem readSchedule_restrict (keep : String → Bool) (s : UnitSchedule) :
    readSchedule ((UnitSchedule.toValue s).restrict keep) =
      .ok (.ofUnits fun op => if keep op.name then s.unit op else Policy.standard.schedule.unit op) := by
  rw [restrict_schedule, readSchedule_priceFields]
  simp only [List.mem_filter, Operation.mem_all, true_and]

end Schedule

theorem readLimits_restrict (keep : String → Bool) (l : SizeLimits) :
    readLimits ((limitsValue l).restrict keep) = .ok
      { maxPublicInputs := if keep "max_public_inputs" then l.maxPublicInputs else Policy.standard.limits.maxPublicInputs
        maxDomainSize := if keep "max_domain_size" then l.maxDomainSize else Policy.standard.limits.maxDomainSize } := by
  rw [limitsValue, Value.restrict_object]
  cases hinputs : keep "max_public_inputs" <;> cases hsize : keep "max_domain_size" <;>
    simp only [List.filter_cons, List.filter_nil, hinputs, hsize] <;> rfl

section Restore

variable (x : Removal) (p : Policy)

def budgetValue (p : Policy) : Value :=
  match p.budget with
  | none => .null
  | some b => .int b

def sections (p : Policy) : List (String × Value) :=
  [("schedule", UnitSchedule.toValue p.schedule), ("budget", budgetValue p), ("limits", limitsValue p.limits)]

theorem toValue_eq : toValue p = .object (sections p) := rfl

theorem restrict_budgetValue (keep : String → Bool) : (budgetValue p).restrict keep = budgetValue p := by
  unfold budgetValue
  split <;> rfl

def part (name : String) (v : Value) : Option Value :=
  if x.whole name then none else some (v.restrict fun n => !x.entry name n)

theorem readSchedule_part :
    readSchedule ((part x "schedule" (UnitSchedule.toValue p.schedule)).getD .null) = .ok (x.restore p).schedule := by
  unfold part Removal.restore Removal.leavesOut
  cases x.whole "schedule" with
  | true => rfl
  | false =>
    refine (readSchedule_restrict _ p.schedule).trans (congrArg Except.ok ?_)
    dsimp only
    congr 1
    funext op
    cases x.entry "schedule" op.name <;> rfl

theorem readLimits_part :
    readLimits ((part x "limits" (limitsValue p.limits)).getD .null) = .ok (x.restore p).limits := by
  unfold part Removal.restore Removal.leavesOut
  cases x.whole "limits" with
  | true => rfl
  | false =>
    refine (readLimits_restrict _ p.limits).trans ?_
    cases x.entry "limits" "max_public_inputs" <;> cases x.entry "limits" "max_domain_size" <;> rfl

theorem readBudget_part : readBudget (part x "budget" (budgetValue p)) = .ok (x.restore p).budget := by
  rw [part, restrict_budgetValue]
  unfold Removal.restore budgetValue
  cases x.whole "budget" with
  | true => rfl
  | false => cases p.budget <;> rfl

def remaining : List (String × Value) :=
  ((sections p).filter fun e => !x.whole e.1).map fun e => (e.1, e.2.restrict fun n => !x.entry e.1 n)

theorem field?_remaining (name : String) {v : Value}
    (h : Value.field? ((sections p).map fun e => (.text e.1, e.2)) name = some v) :
    Value.field? ((remaining x p).map fun e => (.text e.1, e.2)) name = part x name v := by
  rw [remaining, Value.field?_filter (fun n => !x.whole n) fun name v => v.restrict fun n => !x.entry name n, h, part]
  cases x.whole name <;> rfl

def Describes (v : Value) (p : Policy) : Prop :=
  ∃ es, v = .mapping es ∧ ofEntries es = .ok p

theorem describes_apply : Describes (x.apply (toValue p)) (x.restore p) := by
  rw [toValue_eq, Removal.apply_object]
  refine ⟨(remaining x p).map fun e => (.text e.1, e.2), rfl, ?_⟩
  unfold ofEntries
  dsimp only
  rw [field?_remaining x p "schedule" rfl, field?_remaining x p "limits" rfl, field?_remaining x p "budget" rfl,
    readSchedule_part, readLimits_part, readBudget_part]
  rfl

end Restore

section Files

theorem Removal.apply_nothing (v : Value) : nothing.apply v = v := by
  have hrestrict (v : Value) : v.restrict (fun _ => !false) = v := by
    cases v with
    | mapping es =>
      rw [Value.restrict, List.filter_eq_self.mpr]
      intro e _
      split <;> rfl
    | _ => rfl
  unfold apply nothing
  dsimp only
  rw [hrestrict]
  cases v with
  | mapping es =>
    refine congrArg Value.mapping (List.map_id'' (fun e => ?_) es)
    obtain ⟨key, v⟩ := e
    cases key with
    | text name => exact congrArg (Prod.mk _) (hrestrict v)
    | _ => rfl
  | _ => rfl

theorem Removal.restore_nothing (p : Policy) : nothing.restore p = p := by
  obtain ⟨schedule, budget, limits⟩ := p
  have hschedule : UnitSchedule.ofUnits schedule.unit = schedule :=
    UnitSchedule.ext_unit fun op => UnitSchedule.unit_ofUnits _ op
  exact congrArg (fun s => Policy.mk s budget limits) hschedule

structure Fits (p : Policy) : Prop where
  price : ∀ op, (p.schedule.unit op).natAbs < 10 ^ Integer.maxDigits
  budget : ∀ n ∈ p.budget, n.natAbs < 10 ^ Integer.maxDigits
  maxPublicInputs : p.limits.maxPublicInputs.natAbs < 10 ^ Integer.maxDigits
  maxDomainSize : p.limits.maxDomainSize.natAbs < 10 ^ Integer.maxDigits

theorem portable_int {k : ℕ} {n : ℤ} (h : n.natAbs < 10 ^ Integer.maxDigits) : Json.Portable k (.int n) :=
  .int (Nat.toDigits_length 10 n.natAbs _ (by decide) h)

theorem isPlain_name (op : Operation) : Json.IsPlain op.name := by
  cases op <;> decide

theorem Fits.portable {p : Policy} (h : p.Fits) : Json.Portable 2 (toValue p) := by
  have hschedule : Json.Portable 1 (UnitSchedule.toValue p.schedule) := by
    have hnodup : (Operation.all.map Operation.name).Nodup := by decide
    refine .object ?_ hnodup ?_
    · rw [List.forall_mem_map]
      exact fun op _ => isPlain_name op
    · rw [List.forall_mem_map]
      exact fun op _ => portable_int (h.price op)
  have hbudget : Json.Portable 1 (budgetValue p) := by
    unfold budgetValue
    split
    · exact .null
    · rename_i n hn
      exact portable_int (h.budget n hn)
  have hlimits : Json.Portable 1 (limitsValue p.limits) := by
    obtain ⟨hnodup, hinputs, hsize⟩ : ["max_public_inputs", "max_domain_size"].Nodup ∧
      Json.IsPlain "max_public_inputs" ∧ Json.IsPlain "max_domain_size" := by decide
    refine .object (List.forall_mem_cons.mpr ⟨hinputs, List.forall_mem_singleton.mpr hsize⟩) hnodup ?_
    exact List.forall_mem_cons.mpr
      ⟨portable_int h.maxPublicInputs, List.forall_mem_singleton.mpr (portable_int h.maxDomainSize)⟩
  obtain ⟨hnodup, hnames⟩ : ["schedule", "budget", "limits"].Nodup ∧
    ∀ name ∈ ["schedule", "budget", "limits"], Json.IsPlain name := by decide
  rw [toValue_eq]
  refine .object ?_ hnodup ?_
  · exact fun e he => hnames e.1 (List.mem_map_of_mem he)
  · exact List.forall_mem_cons.mpr
      ⟨hschedule, List.forall_mem_cons.mpr ⟨hbudget, List.forall_mem_singleton.mpr hlimits⟩⟩

theorem portable_apply (x : Removal) {k : ℕ} {v : Value} (h : Json.Portable k v) : Json.Portable k (x.apply v) := by
  have hrestrict := h.restrict fun name => !x.whole name
  unfold Removal.apply
  clear h
  generalize v.restrict (fun name => !x.whole name) = w at hrestrict
  cases hrestrict with
  | null => exact .null
  | bool b => exact .bool b
  | int h => exact .int h
  | text h => exact .text h
  | list h => exact .list h
  | @object k fields hnames hnodup h =>
    have hfields : Json.Portable (k + 1) (.object (fields.map fun e => (e.1, e.2.restrict fun n => !x.entry e.1 n))) := by
      refine .object ?_ ?_ ?_
      · rw [List.forall_mem_map]
        exact hnames
      · rwa [List.map_map]
      · rw [List.forall_mem_map]
        exact fun e he => (h e he).restrict _
    rw [Value.object_eq, List.map_map] at hfields
    rw [Value.object_eq]
    dsimp only
    rwa [List.map_map]

theorem head_print_mapping (st : Json.Style) (es : List (Value × Value)) (t : String) :
    ((Json.print st 0 (.mapping es) ++ t).toList.dropWhile Text.isBlank).head? = some '\x7b' := by
  have hbrace (t : String) : (("\x7b" ++ t).toList.dropWhile Text.isBlank).head? = some '\x7b' := by
    rw [String.toList_append]
    rfl
  rw [Json.print, Json.enclose]
  split
  all_goals
    simp only [String.append_assoc]
    exact hbrace _

variable [Platform]

/-- Every JSON text of the value, on one line or indented and with any blanks at its end, is a file with the policy. -/
def Spells (v : Value) (p : Policy) : Prop :=
  ∀ (st : Json.Style) (blank : String), st.IsLegible → Json.IsBlank (Bytes.ofString blank) → ∀ path missingOk,
    load? (.file path (Bytes.ofString (Json.print st 0 v ++ blank))) missingOk = .ok (some p)

theorem Describes.spells {v : Value} {p : Policy} (h : Describes v p) (hv : Json.Portable 2 v) : Spells v p := by
  intro st blank hst hblank path missingOk
  obtain ⟨es, rfl, hes⟩ := h
  have hread : readText (Json.print st 0 (.mapping es) ++ blank) = .ok (.mapping es) := by
    rw [readText, head_print_mapping]
    exact congrArg (Except.mapError LoadError.json) (Json.parse_print hst hv (by decide) hblank)
  have htext : ofText path (Json.print st 0 (.mapping es) ++ blank) = .ok p :=
    Except.bind_eq_ok.mpr ⟨_, hread, congrArg (Except.mapError LoadError.document) hes⟩
  rw [load?, Bytes.fromUTF8?_ofString]
  exact Except.bind_eq_ok.mpr ⟨p, htext, rfl⟩

/-- A policy is what is read from its document and from every JSON text of that. Where entries, sections or the budget
have been left out, standard values stand in their places and nowhere else: no number is taken for a missing one, and
a null budget is neither zero nor a missing one. -/
theorem serialization_exact {p : Policy} (h : p.Fits) :
    (Describes (toValue p) p ∧ Spells (toValue p) p) ∧
    ∀ x : Removal, Describes (x.apply (toValue p)) (x.restore p) ∧ Spells (x.apply (toValue p)) (x.restore p) ∧
      (∀ op, (x.restore p).schedule.unit op = 0 ↔ x.leavesOut "schedule" op.name = false ∧ p.schedule.unit op = 0) ∧
      ((x.restore p).budget = none ↔ x.whole "budget" = false ∧ p.budget = none) ∧
      ((x.restore p).budget = some 0 ↔ x.whole "budget" = false ∧ p.budget = some 0) := by
  have hspells (x : Removal) := (describes_apply x p).spells (portable_apply x h.portable)
  have hwhole : Describes (toValue p) p := by
    have hread := describes_apply .nothing p
    rwa [Removal.apply_nothing, Removal.restore_nothing] at hread
  refine ⟨⟨hwhole, hwhole.spells h.portable⟩, fun x => ⟨describes_apply x p, hspells x, ?_, ?_, ?_⟩⟩
  · intro op
    have hstandard : Policy.standard.schedule.unit op ≠ 0 := by cases op <;> decide
    rw [Removal.unit_restore]
    cases x.leavesOut "schedule" op.name <;> simp [hstandard]
  · unfold Removal.restore
    cases x.whole "budget" <;> simp [Policy.standard]
  · unfold Removal.restore
    cases x.whole "budget" <;> simp [Policy.standard]

omit [Platform]

def samplePolicy : Policy where
  schedule := { g1Mul := 0, inversion := -7 }
  budget := none
  limits := { maxPublicInputs := 0, maxDomainSize := 5 }

theorem fits_samplePolicy : samplePolicy.Fits := by
  have hsmall {n : ℕ} (hn : n < 10 ^ 5) : n < 10 ^ Integer.maxDigits :=
    hn.trans_le (Nat.pow_le_pow_right (by decide) (by decide))
  refine ⟨fun op => hsmall ?_, nofun, hsmall (by decide), hsmall (by decide)⟩
  cases op <;> decide

def spaced : Json.Style := ⟨.ascii, none, ", ", ": "⟩

theorem isLegible_spaced : spaced.IsLegible := by
  have hblank : Json.IsBlank [32] := by
    rw [Json.IsBlank, List.forall_mem_singleton]
    rfl
  exact ⟨rfl, ⟨[32], by decide +kernel, hblank⟩, ⟨[32], by decide +kernel, hblank⟩⟩

def sampleRemoval : Removal where
  whole name := name == "limits"
  entry part name := part == "schedule" && name == "inversion"

theorem serialization_exact_samplePolicy : letI := Platform.standard
    samplePolicy.Fits ∧
    load? (.file "p" (Bytes.ofString (Json.print spaced 0 (toValue samplePolicy) ++ "\n"))) true =
      .ok (some samplePolicy) ∧
    Describes (sampleRemoval.apply (toValue samplePolicy)) { schedule := { g1Mul := 0 }, budget := none } := by
  let := Platform.standard
  obtain ⟨⟨-, hspells⟩, hremoval⟩ := serialization_exact fits_samplePolicy
  have hblank : Json.IsBlank (Bytes.ofString "\n") := by
    rw [show Bytes.ofString "\n" = [10] by decide +kernel, Json.IsBlank, List.forall_mem_singleton]
    rfl
  have hrestore : sampleRemoval.restore samplePolicy = { schedule := { g1Mul := 0 }, budget := none } := by
    decide +kernel
  refine ⟨fits_samplePolicy, hspells spaced "\n" isLegible_spaced hblank "p" true, ?_⟩
  rw [← hrestore]
  exact (hremoval sampleRemoval).1

end Files

end Policy

end Settlement
