import SheetMarkup.Cli.Execute
import SheetMarkup.Proofs.Files.Tree

/-!
# The output of a run that fails

A run reads all it needs before it writes its output, except for the images of a package: the file
of a package is emptied first. So a run that fails leaves its output as it was, unless an image is
missing or of no known format.

* `ReadOnly`: actions that leave all files alone;
* `extracted`, `Reaches`: how far a run gets before it writes;
* `Empties`, `writeDocument_cases`: what becomes of an output that cannot be written;
* `run_of_reaches`, **`files_of_failed_run`**: the files after a run that fails;
* **`read_output_of_failed_run`**: when the output is as it was.
-/

namespace SheetMarkup.Cli

/-! ## Actions that leave the files alone -/

section ReadOnly

variable {β γ : Type}

theorem bind_apply (x : StateM FileTree β) (f : β → StateM FileTree γ) (t : FileTree) :
    (x >>= f) t = f (x t).1 (x t).2 := rfl

/-- The action leaves all files as they are. -/
def ReadOnly (x : StateM FileTree β) : Prop := ∀ t, (x t).2 = t

theorem readOnly_pure (b : β) : ReadOnly (pure b) := fun _ => rfl

theorem ReadOnly.bind {x : StateM FileTree β} {f : β → StateM FileTree γ} (hx : ReadOnly x)
    (hf : ∀ b, ReadOnly (f b)) : ReadOnly (x >>= f) := by
  intro t
  rw [bind_apply, hx t]
  exact hf _ t

theorem readOnly_read (path : String) :
    ReadOnly (FileSystem.read path : StateM FileTree (Except FileError ByteArray)) := fun _ => rfl

theorem readOnly_isFile (path : String) :
    ReadOnly (FileSystem.isFile path : StateM FileTree Bool) := fun _ => rfl

theorem readOnly_load (file : String) :
    ReadOnly (Sheet.load file : StateM FileTree (Except SheetRefusal Sheet)) := by
  unfold Sheet.load
  split
  · exact readOnly_pure _
  · refine (readOnly_read file).bind fun r => ?_
    split <;> exact readOnly_pure _

theorem readOnly_readText (path : String) :
    ReadOnly (readText path : StateM FileTree (Except FileError String)) := by
  refine (readOnly_read path).bind fun r => ?_
  split
  · exact readOnly_pure _
  · split <;> exact readOnly_pure _

theorem readOnly_readConfig (path : String) :
    ReadOnly (readConfig path : StateM FileTree (Except ConfigRefusal Config)) := by
  refine (readOnly_readText path).bind fun r => ?_
  split
  · exact readOnly_pure _
  · split <;> exact readOnly_pure _

theorem readOnly_loadConfig (file : String) (config : Option String) :
    ReadOnly (loadConfig file config : StateM FileTree (Except ConfigRefusal Config)) := by
  unfold loadConfig
  split
  · exact readOnly_readConfig _
  · split
    · exact readOnly_pure _
    · refine (readOnly_isFile _).bind fun b => ?_
      split
      · exact readOnly_readConfig _
      · exact readOnly_pure _

theorem readOnly_mediaOf (file : String) (sheet : Sheet) (d : Document) :
    ReadOnly (mediaOf file sheet d : StateM FileTree Docx.Media) := by
  have himages : ∀ sources, ReadOnly (readImages (sheetFolder file) sources :
      StateM FileTree (List (String × Except FileError ByteArray))) := by
    intro sources
    induction sources with
    | nil => exact readOnly_pure _
    | cons source sources ih =>
      exact (readOnly_read _).bind fun data => ih.bind fun rest => readOnly_pure _
  exact (himages _).bind fun files => readOnly_pure _

end ReadOnly

/-! ## How far a run gets -/

/-- The files after the pictures of the sheet have been extracted, where that is asked for. -/
def extracted (file : String) (settings : RunSettings) (t : FileTree) : FileTree :=
  match (Sheet.load (m := StateM FileTree) file t).1 with
  | .error _ => t
  | .ok sheet => (extractFor (m := StateM FileTree) settings sheet t).2

/-- The blocks of a sheet are rendered, with the settings that are found. -/
def Renders (file : String) (settings : RunSettings) (t : FileTree) (blocks : List Block)
    (rendered : Rendered) : Prop :=
  ∃ config, (loadConfig (m := StateM FileTree) file settings.config t).1 = .ok config ∧
    render blocks config = .ok rendered

/-- The run comes to write a document. -/
structure Reaches (file : String) (settings : RunSettings) (t : FileTree) (sheet : Sheet)
    (d : Document) : Prop where
  loaded : (Sheet.load (m := StateM FileTree) file t).1 = .ok sheet
  extracted : (extractFor (m := StateM FileTree) settings sheet t).1 = none
  /-- Nothing less is asked for. -/
  whole : (settings.tokens || settings.check || settings.blocks || settings.styles) = false
  rendered : ∃ blocks rendered, parse sheet.rows = .ok blocks ∧
    Renders file settings (Cli.extracted file settings t) blocks rendered ∧ rendered.document = d

/-! ## Writing a document -/

/-- The output is made empty, and then an image of the document is refused. -/
structure Empties (file output : String) (sheet : Sheet) (d : Document) (t t' : FileTree) :
    Prop where
  isPackage : isPackagePath output = true
  emptied : t.write output ByteArray.empty = .ok t'
  refused : ∃ e, Docx.package d (mediaOf (m := StateM FileTree) file sheet d t').1 = .error e

theorem write_apply (path : String) (content : ByteArray) (t : FileTree) :
    FileSystem.write (m := StateM FileTree) path content t =
      match t.write path content with
      | .ok t' => (.ok (), t')
      | .error e => (.error e, t) := rfl

theorem writePackage_eq (file output : String) (sheet : Sheet) (d : Document) (t : FileTree) :
    writePackage (m := StateM FileTree) file output sheet d t =
      match t.write output ByteArray.empty with
      | .error e => (.error (unwritten output e.message), t)
      | .ok t' =>
        match Docx.package d (mediaOf (m := StateM FileTree) file sheet d t').1 with
        | .error e => (.error (unpacked output e), t')
        | .ok parts =>
          match t'.write output (packageBytes parts) with
          | .error e => (.error (unwritten output e.message), t')
          | .ok t'' => (.ok (), t'') := by
  unfold writePackage
  rw [bind_apply, write_apply]
  cases t.write output ByteArray.empty with
  | error e => rfl
  | ok t' =>
    simp only
    rw [bind_apply, readOnly_mediaOf]
    cases Docx.package d (mediaOf (m := StateM FileTree) file sheet d t').1 with
    | error e => rfl
    | ok parts =>
      simp only
      rw [bind_apply, write_apply]
      cases t'.write output (packageBytes parts) <;> rfl

/-- **A document that cannot be written** leaves all files as they are, or an empty output. -/
theorem writeDocument_cases {file output : String} {sheet : Sheet} {d : Document} {t : FileTree}
    {report : Report}
    (h : (writeDocument (m := StateM FileTree) file output sheet d t).1 = .error report) :
    (writeDocument (m := StateM FileTree) file output sheet d t).2 = t ∨
      Empties file output sheet d t
        (writeDocument (m := StateM FileTree) file output sheet d t).2 := by
  unfold writeDocument at h ⊢
  by_cases hp : isPackagePath output = true
  · rw [if_pos hp] at h ⊢
    rw [writePackage_eq] at h ⊢
    cases hw : t.write output ByteArray.empty with
    | error e => exact Or.inl rfl
    | ok t' =>
      simp only [hw] at h ⊢
      cases hd : Docx.package d (mediaOf (m := StateM FileTree) file sheet d t').1 with
      | error e => exact Or.inr ⟨hp, hw, e, hd⟩
      | ok parts =>
        -- a file that was made empty can be written
        obtain ⟨t'', hw'⟩ := FolderTree.write_of_write hw (packageBytes parts)
        simp only [hd, hw'] at h
        cases h
  · rw [if_neg hp] at h ⊢
    rw [bind_apply, write_apply] at h ⊢
    cases hw : t.write output d.display.toUTF8 with
    | error e => exact Or.inl rfl
    | ok t' =>
      rw [hw] at h
      cases h

theorem writeDocument_of_empties {file output : String} {sheet : Sheet} {d : Document}
    {t t' : FileTree} (h : Empties file output sheet d t t') : ∃ report,
      writeDocument (m := StateM FileTree) file output sheet d t = (.error report, t') := by
  obtain ⟨e, he⟩ := h.refused
  refine ⟨unpacked output e, ?_⟩
  unfold writeDocument
  rw [if_pos h.isPackage, writePackage_eq]
  simp only [h.emptied, he]

section Deliver

variable {file output : String} {settings : RunSettings} (ho : settings.output = some output)
  {sheet : Sheet} {d : Document} {t : FileTree}

include ho

theorem deliver_cases (h : (deliver (m := StateM FileTree) file settings sheet d t).1.code = 1) :
    (deliver (m := StateM FileTree) file settings sheet d t).2 = t ∨
      settings.styles = false ∧ Empties file output sheet d t
        (deliver (m := StateM FileTree) file settings sheet d t).2 := by
  unfold deliver at h ⊢
  by_cases hs : settings.styles = true
  · rw [if_pos hs] at h
    cases h
  · rw [if_neg hs, ho] at h ⊢
    simp only at h ⊢
    rw [bind_apply] at h ⊢
    cases hw : (writeDocument (m := StateM FileTree) file output sheet d t).1 with
    | error report =>
      exact (writeDocument_cases hw).imp_right fun he => ⟨Bool.eq_false_iff.mpr hs, he⟩
    | ok _ =>
      rw [hw] at h
      cases h

theorem deliver_of_empties (hs : settings.styles = false) {t' : FileTree}
    (h : Empties file output sheet d t t') :
    (deliver (m := StateM FileTree) file settings sheet d t).2 = t' := by
  obtain ⟨report, hw⟩ := writeDocument_of_empties h
  unfold deliver
  rw [if_neg (by rw [hs]; exact Bool.false_ne_true), ho]
  simp only
  rw [bind_apply, hw]
  rfl

end Deliver

/-! ## Runs -/

/-- How a command ends, and the files that it leaves behind. -/
def ending (r : Report × FileTree) : Nat × FileTree := (r.1.code, r.2)

section Run

variable {file : String} {settings : RunSettings} {sheet : Sheet} {t : FileTree}

theorem runBlocks_of_renders (sheet : Sheet) {blocks : List Block} {rendered : Rendered}
    (h : Renders file settings t blocks rendered) :
    ending (runBlocks (m := StateM FileTree) file settings sheet blocks t) =
      ending (deliver (m := StateM FileTree) file settings sheet rendered.document t) := by
  obtain ⟨config, hc, hr⟩ := h
  unfold runBlocks
  rw [bind_apply, readOnly_loadConfig, hc]
  simp only [hr]
  rfl

theorem runBlocks_cases (file : String) (settings : RunSettings) (sheet : Sheet) (t : FileTree)
    (blocks : List Block) : (∃ rendered, Renders file settings t blocks rendered) ∨
      (runBlocks (m := StateM FileTree) file settings sheet blocks t).2 = t := by
  unfold runBlocks
  rw [bind_apply, readOnly_loadConfig]
  cases hc : (loadConfig (m := StateM FileTree) file settings.config t).1 with
  | error e => exact Or.inr rfl
  | ok config =>
    cases hr : render blocks config with
    | error e =>
      simp only [hr]
      exact Or.inr rfl
    | ok rendered => exact Or.inl ⟨rendered, config, hc, hr⟩

theorem runSheet_of_parse {blocks : List Block} (hp : parse sheet.rows = .ok blocks)
    (hw : (settings.tokens || settings.check || settings.blocks) = false) :
    runSheet (m := StateM FileTree) file settings sheet t =
      runBlocks (m := StateM FileTree) file settings sheet blocks t := by
  rw [Bool.or_eq_false_iff, Bool.or_eq_false_iff] at hw
  obtain ⟨⟨ht, hc⟩, hb⟩ := hw
  unfold runSheet
  simp only [ht, hp, hc, hb, Bool.false_eq_true, if_false]

theorem runSheet_cases (file : String) (settings : RunSettings) (sheet : Sheet) (t : FileTree) :
    ((settings.tokens || settings.check || settings.blocks) = false ∧
      ∃ blocks, parse sheet.rows = .ok blocks) ∨
      (runSheet (m := StateM FileTree) file settings sheet t).2 = t := by
  unfold runSheet
  cases ht : settings.tokens with
  | true => exact Or.inr rfl
  | false =>
    cases hp : parse sheet.rows with
    | error e => exact Or.inr rfl
    | ok blocks =>
      cases hc : settings.check with
      | true => exact Or.inr rfl
      | false =>
        cases hb : settings.blocks with
        | true => exact Or.inr rfl
        | false => exact Or.inl ⟨rfl, blocks, rfl⟩

theorem run_of_loaded (hl : (Sheet.load (m := StateM FileTree) file t).1 = .ok sheet)
    (he : (extractFor (m := StateM FileTree) settings sheet t).1 = none) :
    run (m := StateM FileTree) file settings t =
      runSheet (m := StateM FileTree) file settings sheet (extracted file settings t) := by
  unfold run extracted
  rw [bind_apply, readOnly_load, hl]
  simp only
  rw [bind_apply, he]

theorem run_cases (file : String) (settings : RunSettings) (t : FileTree) :
    (∃ sheet, (Sheet.load (m := StateM FileTree) file t).1 = .ok sheet ∧
      (extractFor (m := StateM FileTree) settings sheet t).1 = none) ∨
      (run (m := StateM FileTree) file settings t).2 = extracted file settings t := by
  unfold run extracted
  rw [bind_apply, readOnly_load]
  cases hl : (Sheet.load (m := StateM FileTree) file t).1 with
  | error e => exact Or.inr rfl
  | ok sheet =>
    simp only
    rw [bind_apply]
    cases he : (extractFor (m := StateM FileTree) settings sheet t).1 with
    | none => exact Or.inl ⟨sheet, rfl, he⟩
    | some report => exact Or.inr rfl

theorem run_of_reaches {d : Document} (h : Reaches file settings t sheet d) :
    ending (run (m := StateM FileTree) file settings t) =
      ending (deliver (m := StateM FileTree) file settings sheet d
        (extracted file settings t)) := by
  obtain ⟨blocks, rendered, hp, hr, rfl⟩ := h.rendered
  have hw := (Bool.or_eq_false_iff.mp h.whole).1
  rw [run_of_loaded h.loaded h.extracted, runSheet_of_parse hp hw]
  exact runBlocks_of_renders sheet hr

/-- **What a run that fails leaves behind:** the files as they were when the pictures of the sheet
had been extracted, or an output that was emptied for a document with an image that is refused. -/
theorem files_of_failed_run {output : String} (ho : settings.output = some output)
    (h : (run (m := StateM FileTree) file settings t).1.code = 1) :
    (run (m := StateM FileTree) file settings t).2 = extracted file settings t ∨
      ∃ sheet d, Reaches file settings t sheet d ∧
        Empties file output sheet d (extracted file settings t)
          (run (m := StateM FileTree) file settings t).2 := by
  rcases run_cases file settings t with ⟨sheet, hl, he⟩ | hrun
  swap
  · exact Or.inl hrun
  rw [run_of_loaded hl he] at h ⊢
  rcases runSheet_cases file settings sheet (extracted file settings t) with
    ⟨hw, blocks, hp⟩ | hsheet
  swap
  · exact Or.inl hsheet
  rw [runSheet_of_parse hp hw] at h ⊢
  rcases runBlocks_cases file settings sheet (extracted file settings t) blocks with
    ⟨rendered, hr⟩ | hblocks
  swap
  · exact Or.inl hblocks
  obtain ⟨hcode, hfiles⟩ := Prod.mk.inj (runBlocks_of_renders sheet hr)
  rw [hcode] at h
  rw [hfiles]
  refine (deliver_cases ho h).imp_right ?_
  rintro ⟨hs, hempties⟩
  refine ⟨sheet, rendered.document, ⟨hl, he, ?_, blocks, rendered, hp, hr, rfl⟩, hempties⟩
  rw [hw, hs]
  rfl

end Run

/-! ## The output -/

/-- The run comes to write a document, and empties its output before it finds that an image is
refused. -/
def RefusesImage (file output : String) (settings : RunSettings) (t : FileTree) : Prop :=
  ∃ sheet d t', Reaches file settings t sheet d ∧
    Empties file output sheet d (extracted file settings t) t'

theorem extracted_of_none {settings : RunSettings} (h : settings.extractImages = none)
    (file : String) (t : FileTree) : extracted file settings t = t := by
  unfold extracted extractFor
  rw [h]
  split <;> rfl

/-- **When a run that fails leaves its output as it was:** unless an image is refused, or pictures
are extracted over it. -/
theorem read_output_of_failed_run {args : List String} {file output : String}
    {settings : RunSettings} (ha : Request.ofArguments args = .ok (.run file settings))
    (ho : settings.output = some output) (t : FileTree)
    (hcode : (execute (m := StateM FileTree) args t).1.code = 1) :
    ((execute (m := StateM FileTree) args t).2.read output = t.read output ↔
      (RefusesImage file output settings t → t.read output = .ok ByteArray.empty) ∧
      (¬ RefusesImage file output settings t →
        (extracted file settings t).read output = t.read output)) ∧
    (settings.extractImages = none → extracted file settings t = t) := by
  refine ⟨?_, fun hnone => extracted_of_none hnone file t⟩
  have hrun : execute (m := StateM FileTree) args = run file settings := by
    unfold execute
    rw [ha]
  rw [hrun] at hcode ⊢
  by_cases hr : RefusesImage file output settings t
  · obtain ⟨sheet, d, t', hreach, hempties⟩ := hr
    have hstyles := (Bool.or_eq_false_iff.mp hreach.whole).2
    have hfiles : (run (m := StateM FileTree) file settings t).2 = t' :=
      (congrArg Prod.snd (run_of_reaches hreach)).trans (deliver_of_empties ho hstyles hempties)
    rw [hfiles, FolderTree.read_of_write hempties.emptied]
    have hrefuses : RefusesImage file output settings t := ⟨sheet, d, t', hreach, hempties⟩
    constructor
    · intro h
      exact ⟨fun _ => h.symm, fun hn => absurd hrefuses hn⟩
    · intro h
      exact (h.1 hrefuses).symm
  · have hfiles : (run (m := StateM FileTree) file settings t).2 = extracted file settings t := by
      refine (files_of_failed_run ho hcode).resolve_right ?_
      rintro ⟨sheet, d, hreach, hempties⟩
      exact hr ⟨sheet, d, _, hreach, hempties⟩
    rw [hfiles]
    constructor
    · intro h
      exact ⟨fun hrefuses => absurd hrefuses hr, fun _ => h⟩
    · intro h
      exact h.2 hr

/-- A sheet beside a package that was written before. -/
def filesWith (sheet : String) : FileTree :=
  .folder [("sheet.toml", .file sheet.toUTF8), ("out.docx", .file "old".toUTF8)]

def packageArguments : List String := ["run", "sheet.toml", "-o", "out.docx"]

def packageSettings : RunSettings := { output := some "out.docx" }

theorem ofArguments_packageArguments : Request.ofArguments packageArguments =
    .ok (.run "sheet.toml" packageSettings) := rfl

/-- A sheet that uses an unknown style. -/
def unknownStyleFiles : FileTree := filesWith "rows = [[\"p\", \"style=gone\"], [\"\", \"x\"]]"

theorem read_output_of_failed_run_unknownStyle :
    (execute (m := StateM FileTree) packageArguments unknownStyleFiles).1.code = 1 ∧
    ((execute (m := StateM FileTree) packageArguments unknownStyleFiles).2.read "out.docx" =
        unknownStyleFiles.read "out.docx" ↔
      (RefusesImage "sheet.toml" "out.docx" packageSettings unknownStyleFiles →
        unknownStyleFiles.read "out.docx" = .ok ByteArray.empty) ∧
      (¬ RefusesImage "sheet.toml" "out.docx" packageSettings unknownStyleFiles →
        (extracted "sheet.toml" packageSettings unknownStyleFiles).read "out.docx" =
          unknownStyleFiles.read "out.docx")) ∧
    (packageSettings.extractImages = none →
      extracted "sheet.toml" packageSettings unknownStyleFiles = unknownStyleFiles) := by
  have hcode : (execute (m := StateM FileTree) packageArguments unknownStyleFiles).1.code = 1 := by
    decide +kernel
  exact ⟨hcode, read_output_of_failed_run ofArguments_packageArguments rfl unknownStyleFiles hcode⟩

/-- A sheet that shows an image that is missing. -/
def missingImageFiles : FileTree :=
  filesWith "rows = [[\"p\"], [\"\", \x7b image = \"gone.png\" \x7d]]"

/-- A run fails because of an image, and its output is lost. -/
theorem output_lost_of_missing_image :
    Request.ofArguments packageArguments = .ok (.run "sheet.toml" packageSettings) ∧
    packageSettings.output = some "out.docx" ∧ packageSettings.extractImages = none ∧
    (execute (m := StateM FileTree) packageArguments missingImageFiles).1.code = 1 ∧
    missingImageFiles.read "out.docx" = .ok "old".toUTF8 ∧
    (execute (m := StateM FileTree) packageArguments missingImageFiles).2.read "out.docx" =
      .ok ByteArray.empty ∧
    (execute (m := StateM FileTree) packageArguments missingImageFiles).2.read "out.docx" ≠
      missingImageFiles.read "out.docx" := by
  have hcode : (execute (m := StateM FileTree) packageArguments missingImageFiles).1.code = 1 := by
    decide +kernel
  have hbefore : missingImageFiles.read "out.docx" = .ok "old".toUTF8 := by decide +kernel
  have hafter : (execute (m := StateM FileTree) packageArguments missingImageFiles).2.read
      "out.docx" = .ok ByteArray.empty := by
    decide +kernel
  refine ⟨ofArguments_packageArguments, rfl, rfl, hcode, hbefore, hafter, ?_⟩
  rw [hafter, hbefore]
  decide +kernel

end SheetMarkup.Cli
