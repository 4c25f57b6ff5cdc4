import SheetMarkup.Proofs.Document.Rendering
import SheetMarkup.Proofs.Style.Descriptor

/-!
# The declared styles

A registry knows every identifier that was declared, once, with the style that was declared for it
last. What one declaration does is said first, and then what all declarations of a script do.

* `Registry.ids`, `ids_declare`: the declared identifiers, and what one more declaration adds;
* `mem_ids_ofDeclarations`, **`nodup_ids_ofDeclarations`**: the identifiers of some declarations;
* `exists_mem_of_mem_styles`: every style of the registry is one of those declared;
* `mem_warnings_foldl_add`: a warning on the way is that of a declaration, given what stands
  before it.
-/

namespace SheetMarkup

namespace Registry

def ids (r : Registry) : List String := r.styles.map Descriptor.id

theorem declares_iff {r : Registry} {id : String} : r.declares id = true ↔ id ∈ r.ids := by
  simp [declares, ids]

theorem contains_iff {r : Registry} {id : String} :
    r.contains id = true ↔ id = r.defaultId ∨ id ∈ r.ids := by
  rw [contains, Bool.or_eq_true, beq_iff_eq, declares_iff]

/-! ## One declaration -/

/-- A declaration adds its identifier, unless that is declared already. -/
theorem ids_declare (r : Registry) (s : Descriptor) :
    (r.declare s).ids = if s.id ∈ r.ids then r.ids else r.ids ++ [s.id] := by
  by_cases h : s.id ∈ r.ids
  · rw [declare, if_pos (declares_iff.mpr h), if_pos h, ids, List.map_map]
    refine List.map_congr_left fun t _ => ?_
    by_cases ht : t.id = s.id <;> simp [ht]
  · have hn : ¬ r.declares s.id = true := fun hd => h (declares_iff.mp hd)
    rw [declare, if_neg hn, if_neg h, ids, List.map_append]
    rfl

theorem mem_ids_declare {r : Registry} {s : Descriptor} {id : String} :
    id ∈ (r.declare s).ids ↔ id ∈ r.ids ∨ id = s.id := by
  rw [ids_declare]
  split_ifs with h
  · rw [or_iff_left_of_imp fun e => e ▸ h]
  · simp

theorem nodup_ids_declare {r : Registry} (h : r.ids.Nodup) (s : Descriptor) :
    (r.declare s).ids.Nodup := by
  rw [ids_declare]
  split_ifs with hs
  · exact h
  · refine List.nodup_append.mpr ⟨h, by simp, fun a ha b hb => ?_⟩
    rw [List.mem_singleton] at hb
    exact fun e => hs (hb ▸ e ▸ ha)

theorem mem_styles_declare {r : Registry} {s t : Descriptor} (h : t ∈ (r.declare s).styles) :
    t ∈ r.styles ∨ t = s := by
  unfold declare at h
  split_ifs at h
  · obtain ⟨u, hu, rfl⟩ := List.mem_map.mp h
    split_ifs
    · exact Or.inr rfl
    · exact Or.inl hu
  · simpa using h

/-! ## All declarations -/

variable {defaultStyle : String} {ds : List Declaration}

theorem ofDeclarations_append_singleton (defaultStyle : String) (ds : List Declaration)
    (d : Declaration) : ofDeclarations defaultStyle (ds ++ [d]) =
      (ofDeclarations defaultStyle ds).declare d.style := by
  rw [ofDeclarations, List.foldl_append]
  rfl

theorem mem_ids_ofDeclarations {id : String} :
    id ∈ (ofDeclarations defaultStyle ds).ids ↔ ∃ d ∈ ds, d.style.id = id := by
  induction ds using List.reverseRecOn with
  | nil => simp [ofDeclarations, new, ids]
  | append_singleton ds d ih =>
    rw [ofDeclarations_append_singleton, mem_ids_declare, ih]
    simp [or_and_right, exists_or, eq_comm]

theorem nodup_ids_ofDeclarations (defaultStyle : String) (ds : List Declaration) :
    (ofDeclarations defaultStyle ds).ids.Nodup := by
  induction ds using List.reverseRecOn with
  | nil => exact List.nodup_nil
  | append_singleton ds d ih =>
    rw [ofDeclarations_append_singleton]
    exact nodup_ids_declare ih d.style

theorem exists_mem_of_mem_styles {s : Descriptor}
    (h : s ∈ (ofDeclarations defaultStyle ds).styles) : ∃ d ∈ ds, d.style = s := by
  induction ds using List.reverseRecOn with
  | nil => cases h
  | append_singleton ds d ih =>
    rw [ofDeclarations_append_singleton] at h
    rcases mem_styles_declare h with h | rfl
    · obtain ⟨e, he, hs⟩ := ih h
      exact ⟨e, List.mem_append_left _ he, hs⟩
    · exact ⟨d, by simp, rfl⟩

theorem warnings_foldl_add_append_singleton (defaultStyle : String) (ds : List Declaration)
    (d : Declaration) : ((ds ++ [d]).foldl Progress.add (.start defaultStyle)).warnings =
      (ds.foldl Progress.add (.start defaultStyle)).warnings ++
        d.warnings (ofDeclarations defaultStyle ds) := by
  rw [List.foldl_append]
  change _ ++ d.warnings (ds.foldl Progress.add (.start defaultStyle)).registry = _
  rw [foldl_add_registry]
  rfl

theorem mem_warnings_foldl_add {w : Warning}
    (h : w ∈ (ds.foldl Progress.add (.start defaultStyle)).warnings) :
    ∃ before d after, ds = before ++ d :: after ∧
      w ∈ d.warnings (ofDeclarations defaultStyle before) := by
  induction ds using List.reverseRecOn with
  | nil => cases h
  | append_singleton ds d ih =>
    rw [warnings_foldl_add_append_singleton] at h
    rcases List.mem_append.mp h with h | h
    · obtain ⟨before, e, after, rfl, hw⟩ := ih h
      exact ⟨before, e, after ++ [d], by simp, hw⟩
    · exact ⟨ds, d, [], rfl, h⟩

end Registry

end SheetMarkup
