import SheetMarkup.Proofs.Text.Trim
import SheetMarkup.Script.Block

/-!
# Trimmed bodies

Trimming leaves a single line alone, and takes empty texts off the ends of all longer bodies.

* `TrimsTo`: what trimming makes of a body;
* `trimsTo_trimBody`, `TrimsTo.trimBody_eq`: trimming makes this of it, and nothing else;
* `TrimsTo.self`, `TrimsTo.filter_eq`: what is trimmed stays, and no line is lost that is no empty
  text;
* `trimByPlaces?`, **`TrimsTo.trimByPlaces?_eq`**: trimming by places in the body, all of which lie
  in it;
* **`trimmed_exact`**: trimming a block.
-/

namespace SheetMarkup

theorem BodyEntry.isBlank_iff {e : BodyEntry} : e.isBlank = true ↔ e = .text "" := by
  cases e with
  | text line => rw [isBlank, String.isEmpty_iff, text.injEq]
  | image source => exact ⟨nofun, nofun⟩

theorem BodyEntry.isBlank_eq_false {e : BodyEntry} : e.isBlank = false ↔ e ≠ .text "" := by
  rw [ne_eq, ← isBlank_iff, Bool.not_eq_true]

/-! ## What is left of a body -/

/-- What trimming makes of a body. -/
inductive TrimsTo (body : List BodyEntry) : List BodyEntry → Prop
  /-- At most one line stays as it is. -/
  | short (length : body.length ≤ 1) : TrimsTo body body
  /-- Of several empty texts nothing is left. -/
  | blank (length : 2 ≤ body.length) (blank : ∀ e ∈ body, e = .text "") : TrimsTo body []
  /-- Of all others everything is left from the first to the last line that is no empty text. -/
  | part {before core after : List BodyEntry} (length : 2 ≤ body.length)
      (parts : body = before ++ core ++ after) (outside : ∀ e ∈ before ++ after, e = .text "")
      (head : ∃ e ∈ core.head?, e ≠ .text "") (last : ∃ e ∈ core.getLast?, e ≠ .text "") :
      TrimsTo body core

theorem trimsTo_trimBody (body : List BodyEntry) : TrimsTo body (trimBody body) := by
  rw [trimBody]
  split_ifs with hlength
  · exact .short hlength
  · by_cases hblank : ∀ e ∈ body, e = .text ""
    · have hnil : Text.trimWhile BodyEntry.isBlank body = [] :=
        (Text.trimWhile_eq_nil_iff _ _).mpr fun e he => BodyEntry.isBlank_iff.mpr (hblank e he)
      rw [hnil]
      exact .blank (by omega) hblank
    · have hne : Text.trimWhile BodyEntry.isBlank body ≠ [] := fun h => hblank fun e he =>
        BodyEntry.isBlank_iff.mp ((Text.trimWhile_eq_nil_iff _ _).mp h e he)
      have hhead := List.head?_eq_some_head hne
      have hlast := List.getLast?_eq_some_getLast hne
      obtain ⟨before, after, hparts, hout⟩ := Text.exists_around BodyEntry.isBlank body
      exact .part (by omega) hparts (fun e he => BodyEntry.isBlank_iff.mp (hout e he))
        ⟨_, hhead, BodyEntry.isBlank_eq_false.mp (Text.head?_trimWhile hhead)⟩
        ⟨_, hlast, BodyEntry.isBlank_eq_false.mp (Text.getLast?_trimWhile hlast)⟩

namespace TrimsTo

variable {body left : List BodyEntry}

/-- **There is one body that a body is trimmed to.** -/
theorem trimBody_eq (h : TrimsTo body left) : trimBody body = left := by
  cases h with
  | short length => rw [trimBody, if_pos length]
  | blank length blank =>
    rw [trimBody, if_neg (by omega), Text.trimWhile_eq_nil_iff]
    exact fun e he => BodyEntry.isBlank_iff.mpr (blank e he)
  | part length parts outside head last =>
    rw [trimBody, if_neg (by omega), parts]
    obtain ⟨x, hx, hhead⟩ := head
    obtain ⟨y, hy, hlast⟩ := last
    exact Text.trimWhile_core ⟨x, hx, BodyEntry.isBlank_eq_false.mpr hhead⟩
      ⟨y, hy, BodyEntry.isBlank_eq_false.mpr hlast⟩
      fun e he => BodyEntry.isBlank_iff.mpr (outside e he)

/-- **What is left stays as it is.** What is left of several lines may be a single one. -/
theorem self (h : TrimsTo body left) : TrimsTo left left := by
  cases h with
  | short length => exact .short length
  | blank length blank => exact .short (Nat.zero_le 1)
  | part length parts outside head last =>
    by_cases hlength : left.length ≤ 1
    · exact .short hlength
    · have hparts : left = [] ++ left ++ [] := by rw [List.nil_append, List.append_nil]
      exact .part (by omega) hparts nofun head last

/-- **No line is lost that is no empty text.** -/
theorem filter_eq (h : TrimsTo body left) :
    left.filter (· ≠ .text "") = body.filter (· ≠ .text "") := by
  have hnil : ∀ lines : List BodyEntry, (∀ e ∈ lines, e = .text "") →
      lines.filter (· ≠ .text "") = [] := by
    intro lines hlines
    rw [List.filter_eq_nil_iff]
    intro e he
    simp [hlines e he]
  cases h with
  | short length => rfl
  | blank length blank => rw [hnil body blank, List.filter_nil]
  | part length parts outside head last =>
    obtain ⟨hbefore, hafter⟩ := List.forall_mem_append.mp outside
    rw [parts, List.filter_append, List.filter_append, hnil _ hbefore, hnil _ hafter,
      List.nil_append, List.append_nil]

end TrimsTo

/-! ## Trimming by places -/

/-- The place of the first line that is no empty text. -/
def firstFilled? (body : List BodyEntry) : Option Nat := body.findIdx? fun e => !e.isBlank

/-- The place of the last line that is no empty text, searched from the end. -/
def lastFilled? (body : List BodyEntry) : Option Nat :=
  (body.reverse.findIdx? fun e => !e.isBlank).map fun n => body.length - 1 - n

/-- The lines of a body between two places, if these lie in the body, in order. -/
def linesBetween? (body : List BodyEntry) (start stop : Nat) : Option (List BodyEntry) :=
  if start ≤ stop ∧ stop ≤ body.length then some ((body.take stop).drop start) else none

/-- Trimming by places. Where there is no line to be found, both places are behind the body. There
is no result where a place does not lie in the body. -/
def trimByPlaces? (body : List BodyEntry) : Option (List BodyEntry) :=
  if body.length ≤ 1 then some body
  else
    let start := (firstFilled? body).getD body.length
    let stop := (lastFilled? body).elim start (· + 1)
    linesBetween? body start stop

theorem linesBetween?_append (before core after : List BodyEntry) :
    linesBetween? (before ++ core ++ after) before.length (before.length + core.length) =
      some core := by
  have hin : before.length ≤ before.length + core.length ∧
      before.length + core.length ≤ (before ++ core ++ after).length := by
    simp only [List.length_append]
    omega
  rw [linesBetween?, if_pos hin, ← List.length_append, List.take_left, List.drop_left]

section Filled

variable {before core after : List BodyEntry}

theorem firstFilled?_append (outside : ∀ e ∈ before, e = .text "")
    (head : ∃ e ∈ core.head?, e ≠ .text "") :
    firstFilled? (before ++ core ++ after) = some before.length := by
  obtain ⟨x, hx, hfilled⟩ := head
  obtain ⟨lines, rfl⟩ := List.head?_eq_some_iff.mp hx
  rw [List.append_assoc]
  exact Text.findIdx?_append_stop (fun e he => BodyEntry.isBlank_iff.mpr (outside e he))
    (BodyEntry.isBlank_eq_false.mpr hfilled) (lines ++ after)

theorem lastFilled?_append (outside : ∀ e ∈ after, e = .text "")
    (last : ∃ e ∈ core.getLast?, e ≠ .text "") :
    ∃ place, lastFilled? (before ++ core ++ after) = some place ∧
      place + 1 = before.length + core.length := by
  obtain ⟨x, hx, hfilled⟩ := last
  obtain ⟨lines, rfl⟩ := List.getLast?_eq_some_iff.mp hx
  have hreverse : (before ++ (lines ++ [x]) ++ after).reverse =
      after.reverse ++ x :: (before ++ lines).reverse := by simp
  have hblank : ∀ e ∈ after.reverse, e.isBlank = true := fun e he =>
    BodyEntry.isBlank_iff.mpr (outside e (List.mem_reverse.mp he))
  have hfound := Text.findIdx?_append_stop hblank (BodyEntry.isBlank_eq_false.mpr hfilled)
    (before ++ lines).reverse
  refine ⟨_, by rw [lastFilled?, hreverse, hfound, Option.map_some], ?_⟩
  simp only [List.length_append, List.length_reverse, List.length_singleton]
  omega

end Filled

/-- **Trimming by places makes the same of a body**, and all its places lie in it. -/
theorem TrimsTo.trimByPlaces?_eq {body left : List BodyEntry} (h : TrimsTo body left) :
    trimByPlaces? body = some left := by
  cases h with
  | short length => rw [trimByPlaces?, if_pos length]
  | blank length blank =>
    have hnone : ∀ lines : List BodyEntry, (∀ e ∈ lines, e = .text "") →
        lines.findIdx? (fun e => !e.isBlank) = none := by
      intro lines hlines
      rw [List.findIdx?_eq_none_iff]
      exact fun e he => by rw [BodyEntry.isBlank_iff.mpr (hlines e he)]; rfl
    have hfirst : firstFilled? body = none := hnone body blank
    have hlast : lastFilled? body = none := by
      rw [lastFilled?, hnone _ fun e he => blank e (List.mem_reverse.mp he), Option.map_none]
    -- both places meet behind the last line
    have hbetween := linesBetween?_append body [] []
    rw [List.append_nil, List.append_nil] at hbetween
    rw [trimByPlaces?, if_neg (by omega), hfirst, hlast]
    exact hbetween
  | part length parts outside head last =>
    obtain ⟨hbefore, hafter⟩ := List.forall_mem_append.mp outside
    obtain ⟨place, hlast, hplace⟩ := lastFilled?_append hafter last
    rw [trimByPlaces?, if_neg (by omega), parts, firstFilled?_append hbefore head, hlast]
    simp only [Option.getD_some, Option.elim_some, hplace]
    exact linesBetween?_append _ left _

/-! ## Blocks -/

/-- **Trimming a block** only cuts its body, within bounds and once and for all, and takes off
nothing but empty texts. -/
theorem trimmed_exact (b : Block) :
    (b.trimmed.command = b.command ∧ b.trimmed.arguments = b.arguments ∧
      b.trimmed.origin = b.origin) ∧
    trimByPlaces? b.body = some b.trimmed.body ∧
    (∀ left, b.trimmed.body = left ↔ TrimsTo b.body left) ∧
    b.trimmed.trimmed = b.trimmed ∧
    b.trimmed.body.filter (· ≠ .text "") = b.body.filter (· ≠ .text "") := by
  have hbody : TrimsTo b.body b.trimmed.body := trimsTo_trimBody b.body
  refine ⟨⟨rfl, rfl, rfl⟩, hbody.trimByPlaces?_eq, fun left => ⟨?_, ?_⟩, ?_, hbody.filter_eq⟩
  · rintro rfl
    exact hbody
  · exact fun h => h.trimBody_eq
  · have hagain : trimBody b.trimmed.body = b.trimmed.body := hbody.self.trimBody_eq
    rw [Block.trimmed, hagain]

/-- An empty text between two others stays. -/
example : trimBody [.text "", .text "a", .text "", .image "b.png", .text ""] =
    [.text "a", .text "", .image "b.png"] := by decide

end SheetMarkup
