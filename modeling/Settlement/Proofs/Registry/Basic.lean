import Mathlib
import Settlement.Registry.Basic

namespace Settlement

namespace Registry

variable {r r' : Registry} {n m : ℕ} {a b : Address} {es es' : Entries}

theorem Increasing.nodup (h : Increasing es) : (es.map (·.1)).Nodup := by
  rw [List.Nodup, List.pairwise_map]
  exact h.imp fun hlt => ne_of_lt hlt

theorem mem_insertEntry_iff (h : Increasing es) {x : ℕ × Address} :
    x ∈ insertEntry n a es ↔ x = (n, a) ∨ x.1 ≠ n ∧ x ∈ es := by
  induction es with
  | nil => simp [insertEntry]
  | cons e es ih =>
    obtain ⟨he, hes⟩ := List.pairwise_cons.mp h
    have hbehind (hle : n ≤ e.1) : ∀ y ∈ es, y.1 ≠ n := fun y hy => by
      have := he y hy
      omega
    unfold insertEntry
    split
    · rename_i hlt
      have hne : ∀ y ∈ e :: es, y.1 ≠ n := List.forall_mem_cons.mpr ⟨by omega, hbehind hlt.le⟩
      rw [List.mem_cons]
      exact or_congr_right ⟨fun hx => ⟨hne x hx, hx⟩, And.right⟩
    · split
      · rename_i heq
        rw [List.mem_cons, List.mem_cons]
        refine or_congr_right ⟨fun hx => ⟨hbehind heq.le x hx, .inr hx⟩, ?_⟩
        rintro ⟨hne, rfl | hx⟩
        · exact absurd heq.symm hne
        · exact hx
      · rename_i hne
        rw [List.mem_cons, ih hes, List.mem_cons]
        constructor
        · rintro (rfl | rfl | ⟨hx, hmem⟩)
          · exact .inr ⟨fun heq => hne heq.symm, .inl rfl⟩
          · exact .inl rfl
          · exact .inr ⟨hx, .inr hmem⟩
        · rintro (rfl | ⟨hx, rfl | hmem⟩)
          · exact .inr (.inl rfl)
          · exact .inl rfl
          · exact .inr (.inr ⟨hx, hmem⟩)

theorem mem_entries_insert {x : ℕ × Address} :
    x ∈ (r.insert n a).entries ↔ x = (n, a) ∨ x.1 ≠ n ∧ x ∈ r.entries :=
  mem_insertEntry_iff r.increasing

theorem mem_entries_erase {x : ℕ × Address} : x ∈ (r.erase n).entries ↔ x.1 ≠ n ∧ x ∈ r.entries := by
  rw [erase, List.mem_filter, bne_iff_ne, and_comm]

theorem find?_eq_some_iff : r.find? n = some a ↔ (n, a) ∈ r.entries := by
  have hlookup {es : Entries} (h : Increasing es) : es.lookup n = some a ↔ (n, a) ∈ es := by
    induction es with
    | nil => simp
    | cons e es ih =>
      obtain ⟨he, hes⟩ := List.pairwise_cons.mp h
      rw [List.lookup_cons, List.mem_cons]
      split
      · rename_i heq
        obtain rfl := beq_iff_eq.mp heq
        constructor
        · intro h
          exact .inl (Prod.ext rfl (Option.some.inj h).symm)
        · rintro (h | h)
          · rw [← h]
          · exact absurd (he _ h) (lt_irrefl _)
      · rename_i hne
        rw [ih hes]
        refine ⟨.inr, ?_⟩
        rintro (rfl | h)
        · simp at hne
        · exact h
  exact hlookup r.increasing

theorem ext_entries (h : ∀ x, x ∈ r.entries ↔ x ∈ r'.entries) : r = r' := by
  have hnodup (r : Registry) : r.entries.Nodup := r.increasing.nodup.of_map
  have hperm := (List.perm_ext_iff_of_nodup (hnodup r) (hnodup r')).mpr h
  have hentries : r.entries = r'.entries :=
    hperm.eq_of_pairwise (fun _ _ _ _ hlt hgt => absurd hlt hgt.asymm) r.increasing r'.increasing
  cases r
  cases r'
  cases hentries
  rfl

theorem insert_of_find? (h : r.find? n = some a) : r.insert n a = r := by
  rw [find?_eq_some_iff] at h
  apply ext_entries
  rintro ⟨m, b⟩
  rw [mem_entries_insert]
  constructor
  · rintro (heq | ⟨-, hmem⟩)
    · rwa [heq]
    · exact hmem
  · intro hmem
    by_cases hm : m = n
    · subst hm
      rw [← find?_eq_some_iff] at h hmem
      cases h.symm.trans hmem
      exact .inl rfl
    · exact .inr ⟨hm, hmem⟩

theorem mem_ofEntries (h : (es.map (·.1)).Nodup) {x : ℕ × Address} : x ∈ (ofEntries es).entries ↔ x ∈ es := by
  have hfold (r : Registry) (hr : ∀ e ∈ es, ∀ y ∈ r.entries, y.1 ≠ e.1) :
      x ∈ (es.foldl (fun r e => r.insert e.1 e.2) r).entries ↔ x ∈ r.entries ∨ x ∈ es := by
    induction es generalizing r with
    | nil => simp
    | cons e es ih =>
      rw [List.map_cons, List.nodup_cons] at h
      obtain ⟨hfree, hrest⟩ := List.forall_mem_cons.mp hr
      have hne : ∀ e' ∈ es, e.1 ≠ e'.1 := fun e' he' heq => h.1 (heq ▸ List.mem_map_of_mem he')
      rw [List.foldl_cons, ih h.2, mem_entries_insert, List.mem_cons]
      · constructor
        · rintro ((rfl | ⟨-, hx⟩) | hx)
          · exact .inr (.inl rfl)
          · exact .inl hx
          · exact .inr (.inr hx)
        · rintro (hx | rfl | hx)
          · exact .inl (.inr ⟨hfree x hx, hx⟩)
          · exact .inl (.inl rfl)
          · exact .inr hx
      · intro e' he' y hy
        obtain rfl | ⟨-, hy⟩ := mem_entries_insert.mp hy
        · exact hne e' he'
        · exact hrest e' he' y hy
  rw [ofEntries, hfold empty (by simp [empty])]
  simp [empty]

theorem ofEntries_entries (r : Registry) : ofEntries r.entries = r :=
  ext_entries fun _ => mem_ofEntries r.increasing.nodup

end Registry

end Settlement
