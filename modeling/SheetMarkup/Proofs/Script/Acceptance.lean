import SheetMarkup.Proofs.Script.Run

/-!
# Which sheets are accepted

A sheet is accepted when each of its command rows is. Otherwise the first wrong cell in row-major
order decides, and nothing behind it matters.

* `Row.Accepted`: what a command row must be like;
* `Row.accepted_iff`: no cell of an accepted command row is wrong;
* `firstError?_eq_none_iff`, `firstError?_eq_some_iff`: the first wrong cell of a sheet;
* `groupsOf_head`, `command?_of_firstError?`: one group for every command row, with its command;
* **`parse_exact`**: acceptance, the first error and the blocks of a sheet.
-/

namespace SheetMarkup

/-- The word of the first cell opens a command, and every further cell with content has an equals
sign and a key that the command takes. -/
def Row.Accepted (r : Row) : Prop :=
  ∃ command : Command, (∃ head ∈ r.cells.head?, head.word ∈ command.aliases) ∧
    ∀ c ∈ r.cells.tail, c.hasContent = true →
      '=' ∈ c.value.toList ∧ c.key ∈ command.legalArguments

/-! ## One row -/

theorem mem_zipIdx_one {cells : List Cell} {x : Cell × Nat} (h : x ∈ cells.zipIdx 1) :
    x.1 ∈ cells ∧ ∃ column, x = (x.1, column + 1) := by
  obtain ⟨c, i⟩ := x
  obtain ⟨h1, h2, h3⟩ := List.mem_zipIdx h
  refine ⟨h3 ▸ List.getElem_mem _, i - 1, ?_⟩
  rw [Nat.sub_add_cancel h1]

theorem exists_mem_zipIdx_one {cells : List Cell} {c : Cell} (h : c ∈ cells) :
    ∃ column, (c, column + 1) ∈ cells.zipIdx 1 := by
  obtain ⟨i, hi⟩ := List.mem_iff_getElem?.mp h
  refine ⟨i, List.mk_mem_zipIdx_iff_le_and_getElem?_sub.mpr ⟨by omega, ?_⟩⟩
  rwa [Nat.add_sub_cancel]

theorem fault?_head {r : Row} {head : Cell} (h : head.hasContent = true) :
    (r.placeOf head (head, 0)).fault? = none ↔
      ∃ command : Command, head.word ∈ command.aliases := by
  simp only [← Command.ofWord?_eq_some]
  cases hw : Command.ofWord? head.word <;> simp [Placed.fault?, Row.placeOf, h, hw]

theorem fault?_argument_eq_none {r : Row} {head c : Cell} {column : Nat} {command : Command}
    (hh : head.hasContent = true) (hw : head.word ∈ command.aliases) :
    (r.placeOf head (c, column + 1)).fault? = none ↔
      (c.hasContent = true → '=' ∈ c.value.toList ∧ c.key ∈ command.legalArguments) := by
  by_cases hc : c.hasContent = true
  · rw [fault?_argument hh (Command.ofWord?_eq_some.mpr hw) hc]
    by_cases he : '=' ∈ c.value.toList
    · simp [he, hc, Command.accepts]
    · simp [he, hc]
  · simp [Placed.fault?, Row.placeOf, hc]

/-- **No cell of an accepted command row is wrong.** -/
theorem Row.accepted_iff {r : Row} (h : r.isCommand = true) :
    (∀ p ∈ r.placed, p.fault? = none) ↔ r.Accepted := by
  cases hc : r.cells with
  | nil => rw [isCommand, hc] at h; cases h
  | cons head cells =>
    rw [isCommand_of_cells hc] at h
    rw [placed_of_cells hc, List.forall_mem_cons, fault?_head h, Accepted, hc]
    simp only [List.head?_cons, Option.mem_some_iff, exists_eq_left', List.tail_cons]
    constructor
    · rintro ⟨⟨command, hw⟩, hcells⟩
      refine ⟨command, hw, fun c hm => ?_⟩
      obtain ⟨column, hx⟩ := exists_mem_zipIdx_one hm
      exact (fault?_argument_eq_none h hw).mp (hcells _ (List.mem_map_of_mem hx))
    · rintro ⟨command, hw, hcells⟩
      refine ⟨⟨command, hw⟩, fun p hp => ?_⟩
      obtain ⟨x, hx, rfl⟩ := List.mem_map.mp hp
      obtain ⟨hm, column, he⟩ := mem_zipIdx_one hx
      rw [he]
      exact (fault?_argument_eq_none h hw).mpr (hcells _ hm)

/-! ## The sheet -/

theorem Placed.error?_eq_none_iff {p : Placed} : p.error? = none ↔ p.fault? = none := by
  rw [error?, Option.map_eq_none_iff]

theorem firstError?_eq_none_iff {rows : List Row} :
    firstError? rows = none ↔ ∀ r ∈ rows, r.isCommand = true → r.Accepted := by
  have h : firstError? rows = none ↔ ∀ r ∈ rows, ∀ p ∈ r.placed, p.fault? = none := by
    simp only [firstError?, cellsOf, List.findSome?_eq_none_iff, List.mem_flatMap,
      Placed.error?_eq_none_iff]
    constructor
    · exact fun h r hr p hp => h p ⟨r, hr, hp⟩
    · rintro h p ⟨r, hr, hp⟩
      exact h r hr p hp
  rw [h]
  refine forall_congr' fun r => forall_congr' fun hr => ?_
  cases hc : r.isCommand with
  | true => simp [Row.accepted_iff hc]
  | false =>
    have hn := Row.error?_eq_none_of_body hc
    simp only [Placed.error?_eq_none_iff] at hn
    simpa using hn

/-- The first wrong cell of a sheet: all cells before it are right. -/
theorem firstError?_eq_some_iff {rows : List Row} {e : Error} :
    firstError? rows = some e ↔ ∃ before p after, cellsOf rows = before ++ p :: after ∧
      (∀ q ∈ before, q.fault? = none) ∧ p.fault? = some e.fault ∧ e.origin = some p.origin := by
  have hp : ∀ p : Placed,
      p.error? = some e ↔ p.fault? = some e.fault ∧ e.origin = some p.origin := by
    intro p
    obtain ⟨fault, origin⟩ := e
    simp [Placed.error?, eq_comm]
  simp only [firstError?, List.findSome?_eq_some_iff, hp, Placed.error?_eq_none_iff]
  refine exists_congr fun before => exists_congr fun p => exists_congr fun after => ?_
  tauto

theorem Placed.fault?_ne_argumentWithoutCommand (p : Placed) (payload : String) :
    p.fault? ≠ some (.argumentWithoutCommand payload) := by
  unfold fault?
  split
  · split
    · simp
    · split
      · split <;> simp
      · simp
    · simp
  · simp

/-! ## Groups and blocks -/

theorem groupsOf_head (rows : List Row) :
    (groupsOf rows).map Group.head = rows.filter Row.isCommand := by
  induction rows with
  | nil => rfl
  | cons r rows ih =>
    rw [groupsOf, List.filter_cons]
    split_ifs
    · rw [List.map_cons, ih]
    · exact ih

theorem head_mem_of_mem_groupsOf {rows : List Row} {g : Group} (h : g ∈ groupsOf rows) :
    g.head ∈ rows ∧ g.head.isCommand = true := by
  have hm : g.head ∈ (groupsOf rows).map Group.head := List.mem_map_of_mem h
  rw [groupsOf_head] at hm
  exact List.mem_filter.mp hm

theorem command?_of_firstError? {rows : List Row} (h : firstError? rows = none) {g : Group}
    (hg : g ∈ groupsOf rows) : g.head.command? = some g.block.command := by
  obtain ⟨hr, hc⟩ := head_mem_of_mem_groupsOf hg
  obtain ⟨command, ⟨head, hh, hw⟩, -⟩ := firstError?_eq_none_iff.mp h g.head hr hc
  have hcommand : g.head.command? = some command := by
    rw [Row.command?, Option.mem_def.mp hh, Option.bind_some]
    exact Command.ofWord?_eq_some.mpr hw
  change g.head.command? = some (g.head.command?.getD .paragraph)
  rw [hcommand]
  rfl

/-- **Acceptance, the first error and the blocks of a sheet.** The first wrong cell decides,
whatever stands behind it. -/
theorem parse_exact (rows : List Row) :
    ((∃ blocks, parse rows = .ok blocks) ↔ ∀ r ∈ rows, r.isCommand = true → r.Accepted) ∧
    (∀ e, parse rows = .error e → ∃ before p after, cellsOf rows = before ++ p :: after ∧
      (∀ q ∈ before, q.fault? = none) ∧ p.fault? = some e.fault ∧ e.origin = some p.origin ∧
      ∀ rows' after', cellsOf rows' = before ++ p :: after' → parse rows' = .error e) ∧
    (∀ payload origin, parse rows ≠ .error ⟨.argumentWithoutCommand payload, origin⟩) ∧
    ∀ blocks, parse rows = .ok blocks →
      blocks.map (fun b => (some b.command, b.arguments, b.origin)) =
        (rows.filter Row.isCommand).map fun r => (r.command?, r.arguments, r.commandOrigin?) := by
  refine ⟨?_, fun e he => ?_, fun payload origin he => ?_, fun blocks hb => ?_⟩
  · rw [← firstError?_eq_none_iff, parse_eq]
    cases firstError? rows <;> simp
  · obtain ⟨before, p, after, hcells, hbefore, hp, ho⟩ :=
      firstError?_eq_some_iff.mp (parse_eq_error.mp he)
    refine ⟨before, p, after, hcells, hbefore, hp, ho, fun rows' after' hrows' => ?_⟩
    rw [parse_eq_error, firstError?_eq_some_iff]
    exact ⟨before, p, after', hrows', hbefore, hp, ho⟩
  · obtain ⟨-, p, -, -, -, hp, -⟩ := firstError?_eq_some_iff.mp (parse_eq_error.mp he)
    exact p.fault?_ne_argumentWithoutCommand payload hp
  · obtain ⟨he, rfl⟩ := parse_eq_ok hb
    rw [← groupsOf_head, List.map_map, List.map_map]
    refine List.map_congr_left fun g hg => ?_
    simp only [Function.comp_apply, command?_of_firstError? he hg]
    rfl

end SheetMarkup
