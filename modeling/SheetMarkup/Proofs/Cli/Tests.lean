import SheetMarkup.Cli.Test
import SheetMarkup.Proofs.Cli.Output
import SheetMarkup.Proofs.Files.Places
import SheetMarkup.Proofs.Fixture.Selection

/-!
# Tests of fixtures

A test checks each fixture that is selected once, and reports how many of them pass.

* `Passes`, `checked`: one fixture;
* `runFixtures_apply`, **`runCategories_apply`**: all fixtures, one after the other;
* `testReport_code`, `lastLine`, `testReport_stderr`: what a report says of them;
* `Reports`, `Reports.ends`, `reports_test`: the report on the fixtures that are selected;
* `SelectsIn`, `selectsIn_selection`: what is selected in a folder;
* **`test_selected_fixtures`**: the whole.
-/

namespace SheetMarkup.Cli

open Fixture FolderTree

/-! ## One fixture -/

/-- The file at a path is a fixture that passes. -/
def Passes (t : FileTree) (path : String) : Prop :=
  ∃ bytes source, t.read path = .ok bytes ∧ Text.decodeUtf8? bytes = some source ∧
    (check source).failure = none

/-- What checking the file at a path gives. -/
def checked (t : FileTree) (path : String) : Checked := (runFixture (m := StateM FileTree) path t).1

theorem checked_eq (t : FileTree) (path : String) : checked t path =
    match t.read path with
    | .error e => ⟨path, { failure := some (.unreadable e) }⟩
    | .ok bytes =>
      match Text.decodeUtf8? bytes with
      | none => ⟨path, { failure := some (.unreadable .notText) }⟩
      | some source => ⟨path, check source⟩ := by
  have hread : FileSystem.read (m := StateM FileTree) path t = (t.read path, t) := rfl
  rw [checked, runFixture, readText, bind_apply, bind_apply, hread]
  cases t.read path with
  | error e => rfl
  | ok bytes =>
    simp only
    cases Text.decodeUtf8? bytes <;> rfl

theorem passes_checked {t : FileTree} {path : String} :
    (checked t path).passes = true ↔ Passes t path := by
  unfold Passes
  rw [checked_eq, Checked.passes, Option.isNone_iff_eq_none]
  cases t.read path with
  | error e => simp
  | ok bytes => cases hsource : Text.decodeUtf8? bytes <;> simp [hsource]

instance (t : FileTree) (path : String) : Decidable (Passes t path) :=
  decidable_of_iff _ passes_checked

/-! ## All fixtures -/

theorem readOnly_runFixture (path : String) :
    ReadOnly (runFixture path : StateM FileTree Checked) := by
  refine (readOnly_readText path).bind fun r => ?_
  split <;> exact readOnly_pure _

theorem runFixtures_apply (paths : List String) (t : FileTree) :
    runFixtures (m := StateM FileTree) paths t = (paths.map (checked t), t) := by
  induction paths with
  | nil => rfl
  | cons path paths ih =>
    rw [runFixtures, bind_apply, readOnly_runFixture, bind_apply, ih]
    rfl

/-- **The fixtures of categories** are checked one after the other, each once. -/
theorem runCategories_apply (root : String) (selected : List Category) (t : FileTree) :
    runCategories (m := StateM FileTree) root selected t = (selected.map fun c =>
      ⟨some c.label, c.fixtures.map fun l => checked t (l.path root)⟩, t) := by
  induction selected with
  | nil => rfl
  | cons c selected ih =>
    rw [runCategories, bind_apply, runFixtures_apply, bind_apply, ih, List.map_map]
    rfl

/-! ## Reports -/

theorem testReport_code (noColor : Bool) (groups : List Group) :
    (testReport noColor groups).code = 0 ↔
      ∀ c ∈ groups.flatMap Group.fixtures, c.passes = true := by
  have hall : ((groups.flatMap Group.fixtures).filter (!·.passes)).isEmpty = true ↔
      ∀ c ∈ groups.flatMap Group.fixtures, c.passes = true := by
    rw [List.isEmpty_iff, List.filter_eq_nil_iff]
    simp only [Bool.not_eq_true', Bool.not_eq_false]
  simp only [testReport]
  rw [← hall]
  split_ifs with h <;> simp [h]

theorem testReport_code_le (noColor : Bool) (groups : List Group) :
    (testReport noColor groups).code ≤ 1 := by
  simp only [testReport]
  split_ifs <;> decide

/-- The last line of a report, by the numbers of the fixtures that pass and fail. -/
def lastLine (noColor : Bool) (passed failed : Nat) : String :=
  let verdict := match noColor, failed with
    | true, 0 => "ok"
    | true, _ + 1 => "FAILED"
    | false, 0 => "\x1b[32mok\x1b[0m"
    | false, _ + 1 => "\x1b[31mFAILED\x1b[0m"
  let all := if failed = 0 then "" else " (of " ++ Text.decimal (passed + failed) ++ ")"
  "test result: " ++ verdict ++ ". " ++ Text.decimal passed ++ " passed, " ++
    Text.decimal failed ++ " failed" ++ all ++ "\n"

theorem resultLine_eq (noColor : Bool) (passed failed : Nat) :
    resultLine noColor passed failed = lastLine noColor passed failed := by
  have hgreen : paint false "32" "ok" = "\x1b[32mok\x1b[0m" := by decide
  have hred : paint false "31" "FAILED" = "\x1b[31mFAILED\x1b[0m" := by decide
  have hnone : " passed, 0 failed\n" =
      " passed, " ++ (Text.decimal 0 ++ (" failed" ++ ("" ++ "\n"))) := by decide
  have hsome : " failed (of " = " failed" ++ " (of " ∧ ")\n" = ")" ++ "\n" := by decide
  unfold resultLine lastLine
  cases failed with
  | zero =>
    rw [if_pos rfl, if_pos rfl, hnone]
    cases noColor
    · rw [hgreen]
      simp only [String.append_assoc]
    · simp only [String.append_assoc]
      rfl
  | succ n =>
    rw [if_neg (Nat.succ_ne_zero n), if_neg (Nat.succ_ne_zero n), hsome.1, hsome.2]
    cases noColor
    · rw [hred]
      simp only [String.append_assoc]
    · simp only [String.append_assoc]
      rfl

/-- A report ends with the number of the fixtures that pass and the number of all others. -/
theorem testReport_stderr (noColor : Bool) (groups : List Group) : ∃ before failed,
    (testReport noColor groups).stderr = before ++
        lastLine noColor ((groups.flatMap Group.fixtures).countP Checked.passes) failed ∧
      (groups.flatMap Group.fixtures).countP Checked.passes + failed =
        (groups.flatMap Group.fixtures).length := by
  have hstderr : ∃ before, (testReport noColor groups).stderr = before ++ resultLine noColor
      ((groups.flatMap Group.fixtures).filter Checked.passes).length
      ((groups.flatMap Group.fixtures).filter (!·.passes)).length := ⟨_, rfl⟩
  obtain ⟨before, hstderr⟩ := hstderr
  rw [resultLine_eq, ← List.countP_eq_length_filter, ← List.countP_eq_length_filter] at hstderr
  refine ⟨before, _, hstderr, ?_⟩
  rw [List.length_eq_countP_add_countP Checked.passes]
  simp only [Bool.not_eq_true, Bool.decide_eq_false]

/-- The report is one on the fixtures at these paths. -/
structure Reports (t : FileTree) (noColor : Bool) (paths : List String) (r : Report) : Prop where
  code : r.code = 0 ↔ paths ≠ [] ∧ ∀ p ∈ paths, Passes t p
  code_le : r.code ≤ 1
  /-- Each of them has been checked once. -/
  once : paths ≠ [] → ∃ noted groups, groups.flatMap Group.fixtures = paths.map (checked t) ∧
    r = (testReport noColor groups).after noted
  result : paths ≠ [] → ∃ before failed,
    r.stderr = before ++ lastLine noColor (paths.countP (Passes t ·)) failed ∧
      paths.countP (Passes t ·) + failed = paths.length

section Report

variable {t : FileTree} {noColor : Bool}

theorem reports_nil (stderr : String) : Reports t noColor [] { code := 1, stderr } where
  code := iff_of_false Nat.one_ne_zero fun h => h.1 rfl
  code_le := le_refl 1
  once h := absurd rfl h
  result h := absurd rfl h

theorem reports_of_groups {paths : List String} (hne : paths ≠ []) {groups : List Group}
    (h : groups.flatMap Group.fixtures = paths.map (checked t)) (noted : String) :
    Reports t noColor paths ((testReport noColor groups).after noted) where
  code := by
    rw [Report.after, testReport_code, h, List.forall_mem_map, and_iff_right hne]
    simp only [passes_checked]
  code_le := testReport_code_le noColor groups
  once _ := ⟨noted, groups, h, rfl⟩
  result _ := by
    obtain ⟨before, failed, hstderr, hcount⟩ := testReport_stderr noColor groups
    have hpassed : (paths.map (checked t)).countP Checked.passes = paths.countP (Passes t ·) := by
      rw [List.countP_map]
      exact List.countP_congr fun p _ => passes_checked.trans decide_eq_true_iff.symm
    rw [h, hpassed] at hstderr hcount
    refine ⟨noted ++ before, failed, ?_, hcount.trans (List.length_map _)⟩
    rw [Report.after, hstderr, String.append_assoc]

theorem Reports.ends {paths : List String} {r : Report} (h : Reports t noColor paths r)
    (hne : paths ≠ []) {passed failed : Nat} (hpassed : paths.countP (Passes t ·) = passed)
    (hall : paths.length = passed + failed) :
    ∃ before, r.stderr = before ++ lastLine noColor passed failed := by
  obtain ⟨before, failed', hstderr, hsum⟩ := h.result hne
  rw [hpassed] at hstderr hsum
  obtain rfl : failed' = failed := Nat.add_left_cancel (hsum.trans hall)
  exact ⟨before, hstderr⟩

end Report

/-! ## The test -/

/-- The paths of the fixtures that are selected under a path. -/
def selectedPaths (t : FileTree) (path : String) (requests : List String) : List String :=
  if t.isFile path then [path]
  else ((selection (t.listing path) requests).flatMap Category.fixtures).map (·.path path)

theorem reports_testFolder (t : FileTree) (path : String) (settings : TestSettings) :
    Reports t settings.noColor
        (((selection (t.listing path) settings.categories).flatMap Category.fixtures).map
          (·.path path))
        (testFolder (m := StateM FileTree) path settings t).1 ∧
      (testFolder (m := StateM FileTree) path settings t).2 = t := by
  have hcategories : categoriesIn (m := StateM FileTree) path t =
      (categories (fixturesIn [] (t.listing path)), t) := rfl
  unfold testFolder
  rw [bind_apply, hcategories]
  simp only [← selection.eq_def]
  split_ifs with h
  · rw [selection_eq_nil_iff.mp (List.isEmpty_iff.mp h)]
    exact ⟨reports_nil _, rfl⟩
  · rw [bind_apply, runCategories_apply]
    refine ⟨reports_of_groups (fun hnil => h ?_) ?_ _, rfl⟩
    · exact List.isEmpty_iff.mpr (selection_eq_nil_iff.mpr (List.map_eq_nil_iff.mp hnil))
    · rw [List.flatMap_map, List.map_flatMap, List.map_flatMap]
      simp only [List.map_map]
      rfl

theorem reports_test (t : FileTree) (path : String) (settings : TestSettings)
    (h : settings.listCategories = false) :
    Reports t settings.noColor (selectedPaths t path settings.categories)
        (test (m := StateM FileTree) path settings t).1 ∧
      (test (m := StateM FileTree) path settings t).2 = t := by
  have hisFile : FileSystem.isFile (m := StateM FileTree) path t = (t.isFile path, t) := rfl
  unfold test selectedPaths
  rw [bind_apply, hisFile, h]
  cases t.isFile path with
  | true =>
    refine ⟨?_, readOnly_runFixture path t⟩
    exact reports_of_groups (List.cons_ne_nil _ _) rfl ""
  | false => exact reports_testFolder t path settings

/-- What is selected in a folder under a path, where categories are asked for. -/
structure SelectsIn (t : FileTree) (path : String) (es : List (String × FileTree))
    (requests : List String) (selected : List Category) : Prop where
  paths : selectedPaths t path requests =
    (selected.flatMap Category.fixtures).map (·.path path)
  nodup : (selectedPaths t path requests).Nodup
  isSelection : IsSelection es requests selected
  /-- The paths lead to the fixtures, unless they are longer than any path may be. -/
  reads : ∀ l ∈ selected.flatMap Category.fixtures, ∀ content,
    at? l.place (folder es) = some (file content) →
      (l.path path).utf8ByteSize < pathLimit → t.read (l.path path) = .ok content
  /-- Neither the order in which folders are listed nor that of the requests counts, and it does
  not matter how often a category is asked for. -/
  congr : ∀ listing requests', Rearranged (t.listing path) listing →
    (∀ name, name ∈ requests.map requested ↔ name ∈ requests'.map requested) →
      selection listing requests' = selected

theorem selectsIn_selection {t : FileTree} {path : String} {es : List (String × FileTree)}
    (hpath : t.get path = .ok (folder es)) (hes : (folder es).WellNamed) {requests : List String}
    (hne : requests ≠ []) :
    SelectsIn t path es requests (selection (t.listing path) requests) := by
  have hisFile : t.isFile path = false := by
    rw [isFile, hpath]
  have hpaths : selectedPaths t path requests =
      ((selection (t.listing path) requests).flatMap Category.fixtures).map (·.path path) := by
    rw [selectedPaths, hisFile]
    rfl
  have hselection : IsSelection es requests (selection (t.listing path) requests) := by
    rw [listing_eq hpath]
    exact isSelection hes.distinct hne
  refine ⟨hpaths, ?_, hselection, fun l _ content hfile => read_join hpath hes hfile,
    fun listing requests' hlisting hrequests => (selection_congr hlisting hrequests).symm⟩
  rw [hpaths]
  refine List.Nodup.map_on (fun l hl l' hl' heq => Location.place_injective ?_) hselection.once
  obtain ⟨⟨content, hfile⟩, -⟩ := (hselection.mem l).mp hl
  obtain ⟨⟨content', hfile'⟩, -⟩ := (hselection.mem l').mp hl'
  exact join_injective (by simp [Location.place]) (by simp [Location.place]) (hes.place hfile)
    (hes.place hfile') heq

/-- **A test checks every fixture that is selected, and each of them once**, in whatever order they
are listed and asked for. -/
theorem test_selected_fixtures (t : FileTree) (path : String) (settings : TestSettings)
    (h : settings.listCategories = false) :
    Reports t settings.noColor (selectedPaths t path settings.categories)
        (test (m := StateM FileTree) path settings t).1 ∧
      (test (m := StateM FileTree) path settings t).2 = t ∧
      ∀ es, t.get path = .ok (folder es) → (folder es).WellNamed → settings.categories ≠ [] →
        SelectsIn t path es settings.categories
          (selection (t.listing path) settings.categories) := by
  obtain ⟨hreports, hfiles⟩ := reports_test t path settings h
  exact ⟨hreports, hfiles, fun es hpath hes hne => selectsIn_selection hpath hes hne⟩

/-- A fixture that passes. -/
def passing : ByteArray := "rows = []\n[test]\n".toUTF8

/-- A fixture that expects a text which its rows do not give. -/
def failing : ByteArray :=
  "rows = [[\"p\"], [\"\", \"x\"]]\n[test]\nexpect_output = \"[Normal] y\"\n".toUTF8

/-- A folder with fixtures, one of them in a category whose name only starts as another one. -/
def styleFixtures : List (String × FileTree) :=
  [("styles2", folder [("c.test.toml", file failing)]),
    ("styles", folder [("nested", folder [("b.test.toml", file passing)]),
      ("notes.txt", file ByteArray.empty), ("a.test.toml", file passing)]),
    ("d.test.toml", file ByteArray.empty)]

theorem wellNamed_styleFixtures : (folder styleFixtures).WellNamed := by
  have hstyles2 : (folder [("c.test.toml", file failing)]).WellNamed :=
    wellNamed_folder (by decide) (by decide) (List.forall_mem_singleton.mpr (wellNamed_file _))
  have hnested : (folder [("b.test.toml", file passing)]).WellNamed :=
    wellNamed_folder (by decide) (by decide) (List.forall_mem_singleton.mpr (wellNamed_file _))
  have hstyles : (folder [("nested", folder [("b.test.toml", file passing)]),
      ("notes.txt", file ByteArray.empty), ("a.test.toml", file passing)]).WellNamed :=
    wellNamed_folder (by decide) (by decide) (List.forall_mem_cons.mpr ⟨hnested,
      List.forall_mem_cons.mpr ⟨wellNamed_file _,
        List.forall_mem_singleton.mpr (wellNamed_file _)⟩⟩)
  exact wellNamed_folder (by decide) (by decide) (List.forall_mem_cons.mpr ⟨hstyles2,
    List.forall_mem_cons.mpr ⟨hstyles, List.forall_mem_singleton.mpr (wellNamed_file _)⟩⟩)

theorem test_selected_fixtures_styles :
    let tree : FileTree := folder [("tests", folder styleFixtures)]
    let requests := ["styles/", "/styles/nested/", "styles"]
    let report := (test (m := StateM FileTree) "tests" { categories := requests } tree).1
    let mixed := ["styles2", "styles/nested"]
    let refused :=
      (test (m := StateM FileTree) "tests" { categories := mixed, noColor := true } tree).1
    SelectsIn tree "tests" styleFixtures requests (selection (tree.listing "tests") requests) ∧
      selectedPaths tree "tests" requests =
        ["tests/styles/a.test.toml", "tests/styles/nested/b.test.toml"] ∧
      report.code = 0 ∧
      (∃ before, report.stderr =
        before ++ "test result: \x1b[32mok\x1b[0m. 2 passed, 0 failed\n") ∧
      selectedPaths tree "tests" mixed =
        ["tests/styles/nested/b.test.toml", "tests/styles2/c.test.toml"] ∧
      refused.code = 1 ∧
      ∃ before, refused.stderr = before ++ "test result: FAILED. 1 passed, 1 failed (of 2)\n" := by
  intro tree requests report mixed refused
  have hpaths : selectedPaths tree "tests" requests =
      ["tests/styles/a.test.toml", "tests/styles/nested/b.test.toml"] := by
    decide +kernel
  have hmixed : selectedPaths tree "tests" mixed =
      ["tests/styles/nested/b.test.toml", "tests/styles2/c.test.toml"] := by
    decide +kernel
  have ha : Passes tree "tests/styles/a.test.toml" := by decide +kernel
  have hb : Passes tree "tests/styles/nested/b.test.toml" := by decide +kernel
  have hc : ¬ Passes tree "tests/styles2/c.test.toml" := by decide +kernel
  obtain ⟨hreport, -, hselects⟩ := test_selected_fixtures tree "tests"
    { categories := requests } rfl
  obtain ⟨hrefused, -, -⟩ := test_selected_fixtures tree "tests"
    { categories := mixed, noColor := true } rfl
  rw [hpaths] at hreport
  rw [hmixed] at hrefused
  refine ⟨hselects styleFixtures rfl wellNamed_styleFixtures (List.cons_ne_nil _ _), hpaths,
    hreport.code.mpr ⟨List.cons_ne_nil _ _, by simp [ha, hb]⟩, ?_, hmixed, ?_, ?_⟩
  · have hpassed : ["tests/styles/a.test.toml", "tests/styles/nested/b.test.toml"].countP
        (Passes tree ·) = 2 := by
      simp [ha, hb]
    have hline : lastLine false 2 0 =
        "test result: \x1b[32mok\x1b[0m. 2 passed, 0 failed\n" := by
      decide
    rw [← hline]
    exact hreport.ends (List.cons_ne_nil _ _) hpassed rfl
  · have hcode : refused.code ≠ 0 := fun h => hc ((hrefused.code.mp h).2 _ (by simp))
    exact Nat.le_antisymm hrefused.code_le (Nat.one_le_iff_ne_zero.mpr hcode)
  · have hpassed : ["tests/styles/nested/b.test.toml", "tests/styles2/c.test.toml"].countP
        (Passes tree ·) = 1 := by
      simp [hb, hc]
    have hline : lastLine true 1 1 = "test result: FAILED. 1 passed, 1 failed (of 2)\n" := by
      decide
    rw [← hline]
    exact hrefused.ends (List.cons_ne_nil _ _) hpassed rfl

end SheetMarkup.Cli
