import Mathlib.Data.List.TakeWhile
import SheetMarkup.Cli.Shorthand

/-!
# Where the command of a run is put in

A command line that names no command gets one behind the flags that every command takes, before
the first other argument.

* `GlobalFlag`, `isGlobalFlag_iff`: the flags that every command takes;
* `withRun_append`: flags are passed over;
* `CommandLine`, `exists_words`: the command lines with an argument that is no such flag;
* `withRunShorthand_words`, `withRunShorthand_withRunShorthand`: what becomes of such a line, and
  that it stays so;
* **`withRunShorthand_idempotent_placed`**: the shorthand of a run, for every command line.
-/

namespace SheetMarkup.Cli

/-! ## Flags -/

/-- A flag that every command takes. -/
inductive GlobalFlag : String → Prop
  | noColor : GlobalFlag "--no-color"
  | verbose : GlobalFlag "--verbose"
  /-- A dash and at least one `v`. -/
  | count (more : Nat) : GlobalFlag (String.ofList ('-' :: 'v' :: List.replicate more 'v'))

theorem isGlobalFlag_iff {arg : String} : isGlobalFlag arg = true ↔ GlobalFlag arg := by
  rw [isGlobalFlag, Bool.or_eq_true, Bool.or_eq_true, beq_iff_eq, beq_iff_eq]
  constructor
  · rintro ((rfl | rfl) | h)
    · exact .noColor
    · exact .verbose
    · split at h
      case h_1 flags hchars =>
        rw [Bool.and_eq_true, Bool.not_eq_true', List.all_eq_true] at h
        obtain ⟨hne, hall⟩ := h
        cases flags with
        | nil => cases hne
        | cons c more =>
          have hv : c :: more = List.replicate (more.length + 1) 'v' :=
            List.eq_replicate_iff.mpr ⟨rfl, fun d hd => by simpa using hall d hd⟩
          have harg : arg = String.ofList ('-' :: 'v' :: List.replicate more.length 'v') := by
            rw [← String.ofList_toList (s := arg), hchars, hv, List.replicate_succ]
          rw [harg]
          exact .count more.length
      case h_2 => cases h
  · rintro (_ | _ | more)
    · exact .inl (.inl rfl)
    · exact .inl (.inr rfl)
    · right
      simp

instance (arg : String) : Decidable (GlobalFlag arg) := decidable_of_iff _ isGlobalFlag_iff

/-- **Flags that every command takes are passed over.** -/
theorem withRun_append {flags : List String} (h : ∀ flag ∈ flags, GlobalFlag flag)
    (args : List String) : withRun (flags ++ args) = flags ++ withRun args := by
  induction flags with
  | nil => rfl
  | cons flag flags ih =>
    obtain ⟨hflag, hflags⟩ := List.forall_mem_cons.mp h
    rw [List.cons_append, withRun, if_pos (isGlobalFlag_iff.mpr hflag), ih hflags,
      List.cons_append]

/-! ## Command lines -/

/-- A command line in which some argument is no flag that every command takes. -/
structure CommandLine where
  program : String
  flags : List String
  /-- The first other argument. -/
  first : String
  rest : List String
  flags_global : ∀ flag ∈ flags, GlobalFlag flag
  first_not_global : ¬ GlobalFlag first

namespace CommandLine

/-- The words of the line. -/
def words (l : CommandLine) : List String := l.program :: (l.flags ++ l.first :: l.rest)

/-- The line with a command before its first argument that is no flag. -/
def withRun (l : CommandLine) : CommandLine :=
  { l with first := "run", rest := l.first :: l.rest, first_not_global := by decide }

end CommandLine

/-- A line either has flags only behind the name of the program, or some other argument. -/
theorem exists_words (line : List String) :
    (∀ arg ∈ line.tail, GlobalFlag arg) ∨ ∃ l : CommandLine, l.words = line := by
  cases line with
  | nil => exact .inl fun _ h => nomatch h
  | cons program args =>
    have hargs := args.takeWhile_append_dropWhile (p := isGlobalFlag)
    have hflags : ∀ flag ∈ args.takeWhile isGlobalFlag, GlobalFlag flag :=
      fun flag h => isGlobalFlag_iff.mp (List.mem_takeWhile_imp h)
    cases hd : args.dropWhile isGlobalFlag with
    | nil =>
      rw [hd, List.append_nil] at hargs
      rw [hargs] at hflags
      exact .inl hflags
    | cons first rest =>
      have hfirst : ¬ GlobalFlag first := fun h => by
        have := List.head?_dropWhile_not isGlobalFlag args
        rw [hd] at this
        simp [isGlobalFlag_iff.mpr h] at this
      rw [hd] at hargs
      exact .inr ⟨⟨program, _, first, rest, hflags, hfirst⟩, congrArg (program :: ·) hargs⟩

theorem withRunShorthand_of_flags {line : List String} (h : ∀ arg ∈ line.tail, GlobalFlag arg) :
    withRunShorthand line = line := by
  cases line with
  | nil => rfl
  | cons program args =>
    have hrun := withRun_append h []
    rw [List.tail_cons, List.append_nil, withRun, List.append_nil] at hrun
    rw [withRunShorthand, hrun]

/-- **The command goes before the first argument that is no flag**, unless that has a meaning of
its own there. -/
theorem withRunShorthand_words (l : CommandLine) : withRunShorthand l.words =
    if l.first ∈ commandWords then l.words else l.withRun.words := by
  have hfirst : isGlobalFlag l.first = false :=
    Bool.eq_false_iff.mpr fun h => l.first_not_global (isGlobalFlag_iff.mp h)
  rw [CommandLine.words, withRunShorthand, withRun_append l.flags_global, withRun, hfirst,
    if_neg Bool.false_ne_true]
  by_cases hword : l.first ∈ commandWords
  · rw [if_pos hword, if_pos (List.contains_iff_mem.mpr hword)]
  · rw [if_neg hword, if_neg fun h => hword (List.contains_iff_mem.mp h)]
    rfl

theorem CommandLine.words_withRun_ne (l : CommandLine) : l.withRun.words ≠ l.words := by
  intro h
  have := congrArg List.length h
  simp [words, withRun] at this

theorem withRunShorthand_words_eq_self (l : CommandLine) :
    withRunShorthand l.words = l.words ↔ l.first ∈ commandWords := by
  rw [withRunShorthand_words]
  split_ifs with hword
  · exact ⟨fun _ => hword, fun _ => rfl⟩
  · exact ⟨fun h => absurd h l.words_withRun_ne, fun h => absurd h hword⟩

/-- **A second time no command is put in.** -/
theorem withRunShorthand_withRunShorthand (line : List String) :
    withRunShorthand (withRunShorthand line) = withRunShorthand line := by
  rcases exists_words line with h | ⟨l, rfl⟩
  · rw [withRunShorthand_of_flags h, withRunShorthand_of_flags h]
  · rw [withRunShorthand_words]
    split_ifs with hword
    · exact (withRunShorthand_words_eq_self l).mpr hword
    · -- the command that was put in is now the first argument that is no flag
      exact (withRunShorthand_words_eq_self l.withRun).mpr List.mem_cons_self

/-- **The shorthand of a run.** A second time nothing is put in, and the first time at most one
word, in front of the first argument that is no flag. -/
theorem withRunShorthand_idempotent_placed (line : List String) :
    withRunShorthand (withRunShorthand line) = withRunShorthand line ∧
    (withRunShorthand line = line ∨ ∃ l : CommandLine, l.words = line ∧
      withRunShorthand line = l.program :: (l.flags ++ "run" :: l.first :: l.rest)) ∧
    (withRunShorthand line = line ↔
      (∀ arg ∈ line.tail, GlobalFlag arg) ∨ ∃ l : CommandLine, l.words = line ∧
        l.first ∈ ["run", "test", "help", "-h", "--help", "-V", "--version"]) := by
  refine ⟨withRunShorthand_withRunShorthand line, ?_, ?_, ?_⟩
  · rcases exists_words line with h | ⟨l, rfl⟩
    · exact .inl (withRunShorthand_of_flags h)
    · rw [withRunShorthand_words]
      split_ifs with hword
      · exact .inl rfl
      · exact .inr ⟨l, rfl, rfl⟩
  · intro h
    rcases exists_words line with hflags | ⟨l, rfl⟩
    · exact .inl hflags
    · exact .inr ⟨l, rfl, (withRunShorthand_words_eq_self l).mp h⟩
  · rintro (h | ⟨l, rfl, hword⟩)
    · exact withRunShorthand_of_flags h
    · exact (withRunShorthand_words_eq_self l).mpr hword

/-- Flags that look like those of every command, but stand behind the command, stay there. -/
example : withRunShorthand ["sheets", "--no-color", "-vv", "--check", "-v", "a.csv"] =
    ["sheets", "--no-color", "-vv", "run", "--check", "-v", "a.csv"] := by decide

end SheetMarkup.Cli
