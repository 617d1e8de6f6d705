import Mathlib
import Settlement.Bytecode.Artifact
import Settlement.Proofs.Json.Compact
import Settlement.Proofs.Json.Documents
import Settlement.Proofs.Json.Limits
import Settlement.Proofs.Text.Utf8

namespace Settlement

section Text

variable {bs : Bytes} {s : String}

theorem Bytes.fromUTF8?_eq_some_iff : String.fromUTF8? ⟨bs.toArray⟩ = some s ↔ bs = ofString s := by
  constructor
  · intro h
    rw [String.fromUTF8?] at h
    split at h
    · obtain rfl := Option.some.inj h
      rw [ofString, String.toUTF8, ByteArray.toList, toList_loop]
      rfl
    · cases h
  · rintro rfl
    exact fromUTF8?_ofString s

theorem Bytes.fromUTF8?_eq_none_iff : String.fromUTF8? ⟨bs.toArray⟩ = none ↔ ¬∃ s, bs = ofString s := by
  simp only [Option.eq_none_iff_forall_ne_some, ne_eq, Bytes.fromUTF8?_eq_some_iff, not_exists]

end Text

section Object

variable {fields : List (String × Value)} {entries : List (Value × Value)} {name : String} {v : Value}

theorem Value.object_eq (fields : List (String × Value)) :
    Value.object fields = .mapping (fields.map fun e => (.text e.1, e.2)) := rfl

theorem Value.isKey_iff : v.isKey name = true ↔ v = .text name := by
  cases v <;> simp [Value.isKey]

theorem Value.field?_cons (e : Value × Value) (entries : List (Value × Value)) (name : String) :
    Value.field? (e :: entries) name = if e.1.isKey name then some e.2 else Value.field? entries name := by
  by_cases he : e.1.isKey name = true <;> simp [Value.field?, he]

theorem Value.field?_eq_some_iff (h : (entries.map (·.1)).Nodup) :
    Value.field? entries name = some v ↔ (.text name, v) ∈ entries := by
  induction entries with
  | nil => simp [Value.field?]
  | cons e entries ih =>
    obtain ⟨hfresh, hnodup⟩ := List.nodup_cons.mp h
    rw [Value.field?_cons, List.mem_cons]
    split
    · rename_i he
      rw [Value.isKey_iff] at he
      have hother : (.text name, v) ∉ entries := fun hmem => hfresh (List.mem_map.mpr ⟨_, hmem, he.symm⟩)
      simp [hother, Prod.ext_iff, he, eq_comm]
    · rename_i he
      have hother : (.text name, v) ≠ e := fun heq => he (Value.isKey_iff.mpr (heq ▸ rfl))
      simp [hother, ih hnodup]

theorem Value.field?_eq_none_iff : Value.field? entries name = none ↔ .text name ∉ entries.map (·.1) := by
  induction entries with
  | nil => simp [Value.field?]
  | cons e entries ih =>
    rw [Value.field?_cons, List.map_cons, List.mem_cons, not_or, ← ih]
    by_cases he : e.1 = .text name
    · simp [he, Value.isKey]
    · simp [mt Value.isKey_iff.mp he, Ne.symm he]

end Object

section Content

variable [Platform]

def Json.Holds (content : Option Bytes) (name : String) (v : Value) : Prop :=
  ∃ text entries, content = some (Bytes.ofString text) ∧ Json.parse text = .ok (.mapping entries) ∧
    (.text name, v) ∈ entries

inductive Json.Lacks (name : String) : Option Bytes → FieldError → Prop
  | unreadable : Lacks name none .unreadable
  | encoding {bs : Bytes} (h : ¬∃ text, bs = Bytes.ofString text) : Lacks name (some bs) .encoding
  | json {text : String} {e : ReadError} (h : parse text = .error e) :
    Lacks name (some (Bytes.ofString text)) (.json e)
  | notObject {text : String} {v : Value} (h : parse text = .ok v) (hv : ∀ entries, v ≠ .mapping entries) :
    Lacks name (some (Bytes.ofString text)) .notObject
  | missing {text : String} {entries : List (Value × Value)} (h : parse text = .ok (.mapping entries))
    (hname : .text name ∉ entries.map (·.1)) : Lacks name (some (Bytes.ofString text)) (.missing name)

variable {content : Option Bytes} {name text : String} {v : Value}

def fieldOf (name : String) : Value → Except FieldError Value
  | .mapping es => match Value.field? es name with
    | some v => .ok v
    | none => .error (.missing name)
  | _ => .error .notObject

theorem readField_ofString (text name : String) : readField (some (Bytes.ofString text)) name =
    (Json.parse text).mapError .json >>= fieldOf name := by
  rw [readField, Bytes.fromUTF8?_ofString]
  rfl

theorem readField_of_parse (h : Json.parse text = .ok v) :
    readField (some (Bytes.ofString text)) name = fieldOf name v := by
  rw [readField_ofString, h]
  rfl

theorem nodup_of_parse {es : List (Value × Value)} (h : Json.parse text = .ok (.mapping es)) : (es.map (·.1)).Nodup := by
  cases Json.denotable_of_parse h with
  | text h => cases h
  | mapping _ hnodup => exact hnodup

theorem readField_of_holds (h : Json.Holds content name v) : readField content name = .ok v := by
  obtain ⟨text, entries, rfl, hparse, hmem⟩ := h
  rw [readField_of_parse hparse]
  simp only [fieldOf, (Value.field?_eq_some_iff (nodup_of_parse hparse)).mpr hmem]

theorem readField_of_lacks {e : FieldError} (h : Json.Lacks name content e) : readField content name = .error e := by
  cases h with
  | unreadable => rfl
  | encoding h =>
    rw [readField, Bytes.fromUTF8?_eq_none_iff.mpr h]
    rfl
  | json h =>
    rw [readField_ofString, h]
    rfl
  | notObject h hv =>
    rw [readField_of_parse h]
    unfold fieldOf
    split
    · exact absurd rfl (hv _)
    · rfl
  | missing h hname =>
    rw [readField_of_parse h]
    simp only [fieldOf, Value.field?_eq_none_iff.mpr hname]

theorem holds_or_lacks (content : Option Bytes) (name : String) :
    (∃ v, Json.Holds content name v) ∨ ∃ e, Json.Lacks name content e := by
  cases content with
  | none => exact .inr ⟨_, .unreadable⟩
  | some bs =>
    by_cases htext : ∃ text, bs = Bytes.ofString text
    · obtain ⟨text, rfl⟩ := htext
      cases hparse : Json.parse text with
      | error e => exact .inr ⟨_, .json hparse⟩
      | ok v =>
        by_cases hobject : ∃ entries, v = .mapping entries
        · obtain ⟨entries, rfl⟩ := hobject
          by_cases hname : .text name ∈ entries.map (·.1)
          · obtain ⟨⟨_, v⟩, hmem, rfl⟩ := List.mem_map.mp hname
            exact .inl ⟨v, text, entries, rfl, hparse, hmem⟩
          · exact .inr ⟨_, .missing hparse hname⟩
        · exact .inr ⟨_, .notObject hparse (not_exists.mp hobject)⟩
    · exact .inr ⟨_, .encoding htext⟩

theorem lt_openings_of_lacks (h : Json.Lacks name content (.json .tooDeep)) :
    ∃ bs, content = some bs ∧ Platform.jsonDepth < Json.openings bs := by
  cases h with
  | json hparse => exact ⟨_, rfl, Json.lt_openings_of_parse hparse⟩

theorem lt_openings_of_readField (h : readField content name = .error (.json .tooDeep)) :
    ∃ bs, content = some bs ∧ Platform.jsonDepth < Json.openings bs := by
  obtain ⟨v, hv⟩ | ⟨e, he⟩ := holds_or_lacks content name
  · cases (readField_of_holds hv).symm.trans h
  · obtain rfl := Except.error.inj ((readField_of_lacks he).symm.trans h)
    exact lt_openings_of_lacks he

end Content

end Settlement
