import Mathlib
import Settlement.Proofs.Json.Files
import Settlement.Proofs.Json.Limits
import Settlement.Proofs.Registry.Acceptance

namespace Settlement.Registry

open Bytes

def ObeysRules (r : Registry) : Prop :=
  (r.entries.map (·.1)).Nodup ∧ ∀ e ∈ r.entries, Address.IsChecksummed e.2.checksum

theorem obeysRules (r : Registry) : ObeysRules r :=
  ⟨r.increasing.nodup, fun e _ => e.2.isChecksummed_checksum⟩

variable [Platform] {path text : String} {content : Option Bytes} {bs : Bytes} {r old : Registry} {e : LoadError}

def LoadError.IsReported : LoadError → Prop
  | .unreadable _ => True
  | .malformed _ => True
  | .invalid _ => True
  | .tooManyDigits => False
  | .encoding => False
  | .tooDeep => False

def HasLongRun (bs : Bytes) : Prop :=
  ∃ n, Integer.maxDigits < n ∧ Json.HasDigits n bs

/-- A file that is absent, or text with no such run of digits and with no more brackets than may be open at once. -/
def IsBounded (content : Option Bytes) : Prop :=
  ∀ bs, content = some bs →
    (∃ text, bs = ofString text) ∧ ¬HasLongRun bs ∧ Json.openings bs ≤ Platform.jsonDepth

theorem load_of_not_text (h : ¬∃ text, bs = ofString text) : load path (some bs) = .error .encoding := by
  rw [load, fromUTF8?_eq_none_iff.mpr h]

theorem load_ofString (path text : String) : load path (some (ofString text)) = match Json.parse text with
    | .error .malformed => .error (.malformed path)
    | .error (.tooManyDigits _) => .error .tooManyDigits
    | .error .tooDeep => .error .tooDeep
    | .ok v => ofDocument v := by
  cases hparse : Json.parse text with
  | ok v => simp only [load, fromUTF8?_ofString, hparse]
  | error e => cases e <;> simp only [load, fromUTF8?_ofString, hparse]

theorem load_ofString_of_ok {v : Value} (h : Json.parse text = .ok v) :
    load path (some (ofString text)) = ofDocument v := by
  rw [load_ofString, h]

theorem ofDocument_reported (v : Value) : (∃ r, ofDocument v = .ok r) ∨ ∃ ds, ofDocument v = .error (.invalid ds) := by
  unfold ofDocument
  split
  · exact .inl ⟨_, rfl⟩
  · exact .inr ⟨_, rfl⟩

theorem ofDocument_of_parse {v : Value} (h : Json.parse text = .ok v) :
    ofDocument v = .ok r ↔ ∃ es, Admits Takes v es ∧ r = ofEntries es := by
  rw [ofDocument_eq_ok]
  exact exists_congr fun es => and_congr_left fun _ => checkDocument_iff (Json.denotable_of_parse h)

theorem load_eq_ok : load path content = .ok r ↔ ∃ text v es, content = some (ofString text) ∧
    Json.parse text = .ok v ∧ Admits Takes v es ∧ r = ofEntries es := by
  constructor
  · intro h
    cases content with
    | none => cases h
    | some bs =>
      by_cases htext : ∃ text, bs = ofString text
      · obtain ⟨text, rfl⟩ := htext
        cases hparse : Json.parse text with
        | error e =>
          rw [load_ofString, hparse] at h
          cases e <;> cases h
        | ok v =>
          rw [load_ofString_of_ok hparse] at h
          obtain ⟨es, hadmits, rfl⟩ := (ofDocument_of_parse hparse).mp h
          exact ⟨text, v, es, rfl, hparse, hadmits, rfl⟩
      · rw [load_of_not_text htext] at h
        cases h
  · rintro ⟨text, v, es, rfl, hparse, hadmits, rfl⟩
    rw [load_ofString_of_ok hparse]
    exact (ofDocument_of_parse hparse).mpr ⟨es, hadmits, rfl⟩

theorem reported_or_unbounded (h : load path content = .error e) : e.IsReported ∨
    (e = .encoding ∧ ∃ bs, content = some bs ∧ ¬∃ text, bs = ofString text) ∨
    (e = .tooManyDigits ∧ ∃ bs, content = some bs ∧ HasLongRun bs) ∨
    e = .tooDeep ∧ ∃ bs, content = some bs ∧ Platform.jsonDepth < Json.openings bs := by
  cases content with
  | none =>
    cases h
    exact .inl trivial
  | some bs =>
    by_cases htext : ∃ text, bs = ofString text
    · obtain ⟨text, rfl⟩ := htext
      rw [load_ofString] at h
      split at h
      · cases h
        exact .inl trivial
      · rename_i n hparse
        cases h
        exact .inr (.inr (.inl ⟨rfl, _, rfl, n, Json.hasDigits_of_parse hparse⟩))
      · rename_i hparse
        cases h
        exact .inr (.inr (.inr ⟨rfl, _, rfl, Json.lt_openings_of_parse hparse⟩))
      · rename_i v _
        obtain ⟨r, hr⟩ | ⟨ds, hds⟩ := ofDocument_reported v
        · cases hr.symm.trans h
        · cases hds.symm.trans h
          exact .inl trivial
    · rw [load_of_not_text htext] at h
      cases h
      exact .inr (.inl ⟨rfl, bs, rfl, htext⟩)

theorem load_of_bounded (path : String) (h : IsBounded content) :
    (∃ r, load path content = .ok r ∧ ObeysRules r) ∨ ∃ e, load path content = .error e ∧ e.IsReported := by
  cases hload : load path content with
  | ok r => exact .inl ⟨r, rfl, obeysRules r⟩
  | error e =>
    obtain hreported | ⟨-, bs, hbs, htext⟩ | ⟨-, bs, hbs, hrun⟩ | ⟨-, bs, hbs, hdeep⟩ := reported_or_unbounded hload
    · exact .inr ⟨e, rfl, hreported⟩
    · exact absurd (h bs hbs).1 htext
    · exact absurd hrun (h bs hbs).2.1
    · exact absurd hdeep (not_lt.mpr (h bs hbs).2.2)

theorem load_of_long (path : String) {n : ℕ} (h : 10 ^ Integer.maxDigits ≤ n) :
    load path (some (ofString (toString (n : ℤ)))) = .error .tooManyDigits := by
  rw [load_ofString, Json.parse_of_long h]

theorem load_of_nested (path : String) :
    load path (some (ofString (Json.nested (Platform.jsonDepth + 1)))) = .error .tooDeep := by
  rw [load_ofString, Json.parse_nested]

section Keeping

def replace? (path : String) (old : Registry) (content : Option Bytes) : Option Registry :=
  match load path content with
  | .ok r => some r
  | .error (.unreadable _) => some old
  | .error (.malformed _) => some old
  | .error (.invalid _) => some old
  | .error .tooManyDigits => none
  | .error .encoding => none
  | .error .tooDeep => none

theorem replace?_of_bounded (path : String) (old : Registry) (h : IsBounded content) :
    ∃ r, replace? path old content = some r ∧ (r = old ∨ load path content = .ok r) := by
  obtain ⟨r, hr, -⟩ | ⟨e, he, hreported⟩ := load_of_bounded path h
  · exact ⟨r, by rw [replace?, hr], .inr hr⟩
  · refine ⟨old, ?_, .inl rfl⟩
    rw [replace?, he]
    cases e with
    | tooManyDigits => exact hreported.elim
    | encoding => exact hreported.elim
    | tooDeep => exact hreported.elim
    | _ => rfl

theorem foldlM_replace? (path : String) (old : Registry) {contents : List (Option Bytes)}
    (h : ∀ content ∈ contents, IsBounded content) : ∃ r, contents.foldlM (replace? path) old = some r ∧
      (r = old ∨ ∃ content ∈ contents, load path content = .ok r) := by
  induction contents generalizing old with
  | nil => exact ⟨old, rfl, .inl rfl⟩
  | cons content contents ih =>
    obtain ⟨hcontent, hcontents⟩ := List.forall_mem_cons.mp h
    obtain ⟨r, hr, hkept⟩ := replace?_of_bounded path old hcontent
    obtain ⟨r', hr', hlast⟩ := ih r hcontents
    refine ⟨r', ?_, ?_⟩
    · rw [List.foldlM_cons, hr]
      exact hr'
    · obtain rfl | ⟨c, hc, hload⟩ := hlast
      · obtain rfl | hload := hkept
        · exact .inl rfl
        · exact .inr ⟨content, List.mem_cons_self, hload⟩
      · exact .inr ⟨c, List.mem_cons_of_mem _ hc, hload⟩

end Keeping

end Settlement.Registry
