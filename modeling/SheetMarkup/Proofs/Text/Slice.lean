import Mathlib.Tactic.SplitIfs
import SheetMarkup.Text.Bytes

/-!
# Slices of a text

The place of a stretch of a text is given in bytes. Only where both of its ends fall between two
characters of the text, in order and not behind its end, is there a stretch to be taken.

* `splitBytes?`, `slice?`: a text cut at a byte, and the stretch between two of them;
* `StandsAt`: the stretch that stands between two bytes;
* **`slice?_eq_some`**: a slice is what stands there.
-/

namespace SheetMarkup.Text

/-- A text cut behind its first bytes, if a character ends there. -/
def splitBytes? : Nat → List Char → Option (List Char × List Char)
  | 0, cs => some ([], cs)
  | _ + 1, [] => none
  | n + 1, c :: cs =>
    if c.utf8Size ≤ n + 1 then
      (splitBytes? (n + 1 - c.utf8Size) cs).map fun x => (c :: x.1, x.2)
    else none

/-- The stretch of a text between two bytes. -/
def slice? (source : List Char) (start stop : Nat) : Option (List Char) :=
  if start ≤ stop then do
    let (_, behind) ← splitBytes? start source
    let (text, _) ← splitBytes? (stop - start) behind
    some text
  else none

/-- The text stands in the source between two bytes. -/
def StandsAt (source text : List Char) (start stop : Nat) : Prop :=
  ∃ before behind, source = before ++ (text ++ behind) ∧ start = byteLength before ∧
    stop = byteLength (before ++ text)

theorem splitBytes?_eq_some {n : Nat} {cs front rest : List Char} :
    splitBytes? n cs = some (front, rest) ↔ cs = front ++ rest ∧ n = byteLength front := by
  induction cs generalizing n front with
  | nil =>
    cases n with
    | zero =>
      rw [splitBytes?, Option.some.injEq, Prod.mk.injEq]
      constructor
      · rintro ⟨rfl, rfl⟩
        exact ⟨rfl, rfl⟩
      · rintro ⟨h, -⟩
        obtain ⟨rfl, rfl⟩ := List.append_eq_nil_iff.mp h.symm
        exact ⟨rfl, rfl⟩
    | succ n =>
      rw [splitBytes?]
      constructor
      · rintro ⟨⟩
      · rintro ⟨h, hn⟩
        rw [(List.append_eq_nil_iff.mp h.symm).1] at hn
        cases hn
  | cons c cs ih =>
    have hpos := c.utf8Size_pos
    cases n with
    | zero =>
      rw [splitBytes?, Option.some.injEq, Prod.mk.injEq]
      constructor
      · rintro ⟨rfl, rfl⟩
        exact ⟨rfl, rfl⟩
      · rintro ⟨h, hn⟩
        cases front with
        | nil => exact ⟨rfl, h⟩
        | cons d front =>
          have hd := d.utf8Size_pos
          rw [byteLength_cons] at hn
          omega
    | succ n =>
      rw [splitBytes?]
      constructor
      · intro h
        split_ifs at h with hle
        obtain ⟨⟨front', rest'⟩, hsplit, heq⟩ := Option.map_eq_some_iff.mp h
        obtain ⟨rfl, rfl⟩ := Prod.mk.inj heq
        obtain ⟨hcs, hn⟩ := ih.mp hsplit
        refine ⟨by rw [hcs]; rfl, ?_⟩
        show n + 1 = byteLength (c :: front')
        rw [byteLength_cons]
        omega
      · rintro ⟨h, hn⟩
        cases front with
        | nil => cases hn
        | cons d front =>
          obtain ⟨rfl, hcs⟩ := List.cons.inj h
          rw [byteLength_cons] at hn
          rw [if_pos (by omega), ih.mpr ⟨hcs, by omega⟩]
          rfl

/-- **A slice is what stands between the two bytes.** -/
theorem slice?_eq_some {source text : List Char} {start stop : Nat} :
    slice? source start stop = some text ↔ StandsAt source text start stop := by
  rw [slice?]
  constructor
  · intro h
    split_ifs at h with hle
    obtain ⟨⟨before, rest⟩, hbefore, h⟩ := Option.bind_eq_some_iff.mp h
    obtain ⟨⟨text', behind⟩, htext, h⟩ := Option.bind_eq_some_iff.mp h
    obtain rfl := Option.some.inj h
    obtain ⟨hsource, hstart⟩ := splitBytes?_eq_some.mp hbefore
    obtain ⟨hrest, hstop⟩ := splitBytes?_eq_some.mp htext
    refine ⟨before, behind, by rw [hsource, hrest], hstart, ?_⟩
    rw [byteLength_append]
    omega
  · rintro ⟨before, behind, hsource, rfl, rfl⟩
    have hbefore := splitBytes?_eq_some.mpr ⟨hsource, rfl⟩
    have htext : splitBytes? (byteLength text) (text ++ behind) = some (text, behind) :=
      splitBytes?_eq_some.mpr ⟨rfl, rfl⟩
    rw [byteLength_append, if_pos (Nat.le_add_right _ _), Nat.add_sub_cancel_left, hbefore]
    show (splitBytes? (byteLength text) (text ++ behind)).bind _ = _
    rw [htext]
    rfl

end SheetMarkup.Text
