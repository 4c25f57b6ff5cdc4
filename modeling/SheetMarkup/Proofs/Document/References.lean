import SheetMarkup.Proofs.Document.Identifiers
import SheetMarkup.Proofs.Document.UnknownParents
import SheetMarkup.Proofs.Style.Words

/-!
# References to styles

A reference leads to a style through the identifier that it gives. The name of a declared style
leads to the style, whatever it looks like. Its identifier is a text as well, and leads to the style
only where it gives itself as an identifier: where no letter behind the first is a capital.

* `id_of_mem_styles`, `resolve?_eq_some_id_iff`: the references to a declared style;
* **`spellings_resolve`**: the identifiers of names, and which spellings of a style lead to it.
-/

namespace SheetMarkup

open Registry

variable {blocks : List Block} {defaultStyle : String} {r : Registry} {warnings : List Warning}
  {s : Descriptor}

theorem id_of_mem_styles (h : collect blocks defaultStyle = .ok (r, warnings))
    (hs : s ∈ r.styles) : s.id = toIdentifier s.name := by
  obtain ⟨ds, hds, rfl, -⟩ := collect_eq_ok h
  obtain ⟨d, hd, rfl⟩ := exists_mem_of_mem_styles hs
  exact (Descriptor.ofBlock_sound ((declares_of_mapM hds).2 d hd).2).id_eq

theorem resolve?_eq_some_id_iff (hs : s ∈ r.styles) {reference : String} :
    r.resolve? reference = some s.id ↔ toIdentifier reference = s.id := by
  have hknown : r.contains s.id = true :=
    contains_iff.mpr (.inr (List.mem_map_of_mem hs))
  rw [resolve?, Option.filter_eq_some_iff, Option.some.injEq]
  exact ⟨fun h => h.1, fun h => ⟨h, hknown⟩⟩

/-- **Which spellings lead to a declared style.** Its name always does, and its identifier if only
the first character of that is a capital. -/
theorem spellings_resolve :
    (∀ name, (∀ c ∈ (toIdentifier name).toList, c.isAlphanum = true) ∧
      (toIdentifier name = "" ↔ ¬ HasWord name) ∧
      (toIdentifier (toIdentifier name) = toIdentifier name ↔
        ∀ before run after, name.toList = before ++ (run ++ after) → IsRun before run after →
          (∃ c ∈ before, c.isAlphanum = true) → ∀ c ∈ run.head?, c.isAlpha = false)) ∧
    ∀ blocks defaultStyle r warnings, collect blocks defaultStyle = .ok (r, warnings) →
      ∀ s ∈ r.styles, r.resolve? s.name = some s.id ∧
        (r.resolve? s.id = some s.id ↔ ∀ c ∈ s.id.toList.tail, c.isUpper = false) := by
  refine ⟨fun name => ⟨fun c hc => ?_, ?_, ?_⟩, fun blocks defaultStyle r warnings h s hs => ?_⟩
  · exact Text.isAsciiAlphanumeric_iff.mp (isAsciiAlphanumeric_of_mem_toIdentifier hc)
  · rw [← toIdentifier_ne_empty_iff, not_not]
  · rw [toIdentifier_toIdentifier_iff]
    constructor
    · intro hwords before run after hname hrun hbefore
      exact hwords run (mem_tail_words_iff.mpr ⟨before, after, hname, hrun, hbefore⟩)
    · intro hruns run hmem
      obtain ⟨before, after, hname, hrun, hbefore⟩ := mem_tail_words_iff.mp hmem
      exact hruns before run after hname hrun hbefore
  · have hid := id_of_mem_styles h hs
    rw [resolve?_eq_some_id_iff hs, resolve?_eq_some_id_iff hs]
    refine ⟨hid.symm, ?_⟩
    rw [hid]
    exact toIdentifier_toIdentifier_iff_capitals

/-- Styles of two words, of which the second starts with a letter or with a digit. -/
def twoWordScript : List Block :=
  [{ command := .style, arguments := [⟨"name", "block quote", none⟩] },
    { command := .style, arguments := [⟨"name", "note 2b", none⟩] }]

theorem spellings_resolve_twoWordScript : ∃ r warnings,
    collect twoWordScript "Normal" = .ok (r, warnings) ∧
      r.resolve? "block quote" = some "BlockQuote" ∧ r.resolve? "BlockQuote" = none ∧
      r.resolve? "note 2b" = some "Note2b" ∧ r.resolve? "Note2b" = some "Note2b" := by
  have hcollect : collect twoWordScript "Normal" =
      .ok (⟨[⟨"BlockQuote", "block quote", none, "000000", "Aptos", 24⟩,
        ⟨"Note2b", "note 2b", none, "000000", "Aptos", 24⟩], "Normal"⟩, []) := by
    rfl
  have hstyles := spellings_resolve.2 _ _ _ _ hcollect
  have hquote := hstyles ⟨"BlockQuote", "block quote", none, "000000", "Aptos", 24⟩ (by simp)
  have hnote := hstyles ⟨"Note2b", "note 2b", none, "000000", "Aptos", 24⟩ (by simp)
  exact ⟨_, _, hcollect, hquote.1, by decide, hnote.1, hnote.2.mpr (by simp)⟩

end SheetMarkup
