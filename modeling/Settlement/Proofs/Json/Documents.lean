import Mathlib
import Settlement.Json.Reader
import Settlement.Proofs.Except

namespace Settlement

inductive Value.IsText : Value → Prop
  | text (s : String) : IsText (.text s)
  | halves (bs : Bytes) : IsText (.halves bs)

theorem Value.sameText_iff {v w : Value} (h : v.IsText) : v.sameText w = true ↔ v = w := by
  cases h <;> cases w <;> simp [sameText]

namespace Json

inductive Denotable : Value → Prop
  | null : Denotable .null
  | bool (b : Bool) : Denotable (.bool b)
  | int (n : ℤ) : Denotable (.int n)
  | float (x : Binary64) : Denotable (.float x)
  | text {v : Value} (h : v.IsText) : Denotable v
  | list {items : List Value} (h : ∀ v ∈ items, Denotable v) : Denotable (.list items)
  | mapping {entries : List (Value × Value)} (hnames : ∀ e ∈ entries, e.1.IsText) (hnodup : (entries.map (·.1)).Nodup)
    (h : ∀ e ∈ entries, Denotable e.2) : Denotable (.mapping entries)

structure Gathered (entries : List (Value × Value)) : Prop where
  names : ∀ e ∈ entries, e.1.IsText
  nodup : (entries.map (·.1)).Nodup
  values : ∀ e ∈ entries, Denotable e.2

theorem gathered_nil : Gathered [] :=
  ⟨List.forall_mem_nil _, List.nodup_nil, List.forall_mem_nil _⟩

theorem Gathered.mapping {entries : List (Value × Value)} (h : Gathered entries) : Denotable (.mapping entries) :=
  .mapping h.names h.nodup h.values

theorem isText_textValue (bs : Bytes) : (textValue bs).IsText := by
  unfold textValue
  split
  · exact .text _
  · exact .halves _

theorem gathered_setField {entries : List (Value × Value)} (h : Gathered entries) {name v : Value} (hname : name.IsText)
    (hv : Denotable v) : Gathered (setField entries name v) := by
  unfold setField
  split
  · -- the value is replaced, and all names stay in their places
    have hkept : (entries.map fun e => if e.1.sameText name then (e.1, v) else e).map (·.1) = entries.map (·.1) := by
      rw [List.map_map]
      apply List.map_congr_left
      intro e _
      dsimp only [Function.comp_apply]
      split <;> rfl
    refine ⟨?_, hkept ▸ h.nodup, ?_⟩
    · rw [List.forall_mem_map]
      intro e he
      split <;> exact h.names e he
    · rw [List.forall_mem_map]
      intro e he
      split
      · exact hv
      · exact h.values e he
  · rename_i hfresh
    refine ⟨?_, ?_, ?_⟩
    · rw [List.forall_mem_append, List.forall_mem_singleton]
      exact ⟨h.names, hname⟩
    · rw [List.map_append, List.map_singleton, List.nodup_append]
      refine ⟨h.nodup, List.nodup_singleton _, fun n hn m hm heq => hfresh ?_⟩
      obtain ⟨e, he, rfl⟩ := List.mem_map.mp hn
      rw [List.any_eq_true]
      exact ⟨e, he, (Value.sameText_iff (h.names e he)).mpr (heq.trans (List.mem_singleton.mp hm))⟩
    · rw [List.forall_mem_append, List.forall_mem_singleton]
      exact ⟨h.values, hv⟩

theorem isText_of_readName {bs rest : Bytes} {name : Value} (h : readName bs = .ok (name, rest)) : name.IsText := by
  unfold readName at h
  split at h
  · split at h
    · cases h
      exact isText_textValue _
    · cases h
  · cases h

structure ReadsDenotable (fuel : ℕ) : Prop where
  value : ∀ depth bs v rest, readValue fuel depth bs = .ok (v, rest) → Denotable v
  items : ∀ depth acc bs v rest, (∀ u ∈ acc, Denotable u) → readItems fuel depth acc bs = .ok (v, rest) → Denotable v
  fields : ∀ depth entries bs v rest, Gathered entries → readFields fuel depth entries bs = .ok (v, rest) → Denotable v

section Steps

variable {fuel depth : ℕ} {bs rest : Bytes} {v : Value} (ih : ReadsDenotable fuel)

include ih

theorem denotable_readValue (h : readValue (fuel + 1) depth bs = .ok (v, rest)) : Denotable v := by
  rw [readValue] at h
  split at h
  · cases h
  · cases h
    exact .null
  · cases h
    exact .bool _
  · cases h
    exact .text (isText_textValue _)
  · split at h
    · cases h
    · cases h
      exact .int _
  · cases h
    exact .float _
  · split at h
    · cases h
    · split at h
      · cases h
        exact .list (List.forall_mem_nil _)
      · exact ih.items _ _ _ _ _ (List.forall_mem_nil _) h
  · split at h
    · cases h
    · split at h
      · cases h
        exact gathered_nil.mapping
      · exact ih.fields _ _ _ _ _ gathered_nil h

theorem denotable_readItems {acc : List Value} (hacc : ∀ u ∈ acc, Denotable u)
    (h : readItems (fuel + 1) depth acc bs = .ok (v, rest)) : Denotable v := by
  rw [readItems] at h
  split at h
  · cases h
  · rename_i u _ hu
    have hitems : ∀ x ∈ u :: acc, Denotable x := List.forall_mem_cons.mpr ⟨ih.value _ _ _ _ hu, hacc⟩
    split at h
    · cases h
      exact .list fun x hx => hitems x (List.mem_reverse.mp hx)
    · exact ih.items _ _ _ _ _ hitems h
    · cases h

theorem denotable_readFields {entries : List (Value × Value)} (hentries : Gathered entries)
    (h : readFields (fuel + 1) depth entries bs = .ok (v, rest)) : Denotable v := by
  rw [readFields] at h
  split at h
  · cases h
  · rename_i hname
    split at h
    · cases h
    · rename_i hu
      have hset := gathered_setField hentries (isText_of_readName hname) (ih.value _ _ _ _ hu)
      split at h
      · cases h
        exact hset.mapping
      · exact ih.fields _ _ _ _ _ hset h
      · cases h

end Steps

theorem readsDenotable (fuel : ℕ) : ReadsDenotable fuel := by
  induction fuel with
  | zero => exact ⟨nofun, nofun, nofun⟩
  | succ fuel ih =>
    exact ⟨fun _ _ _ _ => denotable_readValue ih, fun _ _ _ _ _ => denotable_readItems ih,
      fun _ _ _ _ _ => denotable_readFields ih⟩

theorem denotable_of_parse [Platform] {s : String} {v : Value} (h : parse s = .ok v) : Denotable v := by
  obtain ⟨⟨u, rest⟩, hread, h⟩ := Except.bind_eq_ok.mp h
  dsimp only at h
  split at h
  · cases h
    exact (readsDenotable _).value _ _ _ _ hread
  · cases h

end Json

end Settlement
