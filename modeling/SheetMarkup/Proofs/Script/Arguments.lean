import SheetMarkup.Proofs.Script.Cells

/-!
# Arguments and their texts

A payload is an argument exactly when it has an equals sign. Reading brings both sides into a form
that a second reading leaves alone: trimming takes nothing off a trimmed text, lower-casing changes
nothing in lower case, and neither of them makes an equals sign.

* `Argument.Normal`: the form of both sides;
* `equals_not_mem_lowercase`: lower-casing makes no equals sign;
* `Argument.normal_of_parse`: what is read has the form;
* `Argument.parse_display`: what has the form is read back from its text;
* **`Argument.parse_stable`**: what is read, read once more, and when nothing is read.
-/

namespace SheetMarkup

theorem equals_not_mem_lowercase {s : String} (h : '=' ∉ s.toList) :
    '=' ∉ (Text.lowercase s).toList := by
  have hmade : '='.toNat ∉ Text.Lowercase.madeCodes := by decide +kernel
  intro hmem
  rw [Text.lowercase, String.toList_ofList] at hmem
  exact h (Text.Lowercase.mem_of_mem_lowerFrom hmade hmem)

theorem equals_not_mem_trim {s : String} (h : '=' ∉ s.toList) : '=' ∉ (Text.trim s).toList :=
  mt Argument.equals_mem_trim.mp h

namespace Argument

/-- The name has no equals sign, no blanks at its ends and no other lower-case form, and the value
has no blanks at its ends. -/
structure Normal (a : Argument) : Prop where
  equals_not_mem : '=' ∉ a.name.toList
  name_unpadded : Text.Unpadded a.name
  lowercase_name : Text.lowercase a.name = a.name
  value_unpadded : Text.Unpadded a.value

theorem parse_eq_ok {p : String} {a : Argument} (h : parse p = .ok a) :
    ∃ xs ys, p.toList = xs ++ '=' :: ys ∧ '=' ∉ xs ∧
      a = { name := Text.lowercase (Text.trim (String.ofList xs))
            value := Text.trim (String.ofList ys) } := by
  by_cases hmem : '=' ∈ p.toList
  · obtain ⟨xs, ys, hp, hxs⟩ := List.eq_append_cons_of_mem hmem
    rw [parse_append hp hxs] at h
    exact ⟨xs, ys, hp, hxs, (Except.ok.inj h).symm⟩
  · rw [parse_of_not_mem hmem] at h
    cases h

theorem normal_of_parse {p : String} {a : Argument} (h : parse p = .ok a) : Normal a := by
  obtain ⟨xs, ys, -, hxs, rfl⟩ := parse_eq_ok h
  have hname : '=' ∉ (String.ofList xs).toList := by rwa [String.toList_ofList]
  exact {
    equals_not_mem := equals_not_mem_lowercase (equals_not_mem_trim hname)
    name_unpadded := Text.unpadded_iff.mpr (Text.trim_lowercase_trim _)
    lowercase_name := Text.lowercase_lowercase _
    value_unpadded := Text.unpadded_trim _ }

/-- **An argument in this form is read back from its text.** Only its origin is not in the text. -/
theorem parse_display {a : Argument} (h : Normal a) :
    parse a.display = .ok { a with origin := none } := by
  have hdisplay : a.display.toList = a.name.toList ++ '=' :: a.value.toList := by
    simp [display]
  rw [parse_append hdisplay h.equals_not_mem, String.ofList_toList, String.ofList_toList,
    Text.unpadded_iff.mp h.name_unpadded, h.lowercase_name, Text.unpadded_iff.mp h.value_unpadded]

/-- **Reading an argument is stable.** It fails only without an equals sign, and what is read is
read again from its own text. -/
theorem parse_stable :
    (∀ p a, parse p = .ok a → Normal a ∧ parse a.display = .ok a) ∧
      ∀ p, (∃ fault, parse p = .error fault) ↔ '=' ∉ p.toList := by
  refine ⟨fun p a h => ?_, fun p => ?_⟩
  · have hnormal := normal_of_parse h
    obtain ⟨xs, ys, -, -, rfl⟩ := parse_eq_ok h
    exact ⟨hnormal, parse_display hnormal⟩
  · constructor
    · rintro ⟨fault, hfault⟩ hmem
      obtain ⟨xs, ys, hp, hxs⟩ := List.eq_append_cons_of_mem hmem
      rw [parse_append hp hxs] at hfault
      cases hfault
    · intro hmem
      exact ⟨_, parse_of_not_mem hmem⟩

/-- A name with a capital sigma at its end and a capital that becomes two characters. -/
theorem parse_stable_capitals :
    parse "\u00a0İ ΟΔΟΣ\t= a = B " = .ok ⟨"i\u0307 οδος", "a = B", none⟩ ∧
      Normal ⟨"i\u0307 οδος", "a = B", none⟩ ∧
      parse "i\u0307 οδος=a = B" = .ok ⟨"i\u0307 οδος", "a = B", none⟩ := by
  have hread : parse "\u00a0İ ΟΔΟΣ\t= a = B " = .ok ⟨"i\u0307 οδος", "a = B", none⟩ := by
    decide +kernel
  obtain ⟨hnormal, hagain⟩ := parse_stable.1 _ _ hread
  exact ⟨hread, hnormal, hagain⟩

end Argument

end SheetMarkup
