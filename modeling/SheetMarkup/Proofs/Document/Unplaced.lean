import SheetMarkup.Proofs.Document.Rendering
import SheetMarkup.Proofs.Script.Unplaced

/-!
# Rendering without places

A script without its places in the source text is rendered as the same document, with the same
warnings or the same error, without their places.

* `Warning.unplaced`, `Rendered.unplaced`: what a rendering gives, without places;
* `ofBlock_unplaced`, `layout_unplaced`: one style block and one paragraph block (the steps);
* `warnings_unplaced`: the warnings of all declarations;
* **`render_unplaced`**: a whole script.
-/

namespace SheetMarkup

def Warning.unplaced (w : Warning) : Warning := { w with origin := w.origin.map Origin.unplaced }

def Rendered.unplaced (r : Rendered) : Rendered :=
  { r with warnings := r.warnings.map Warning.unplaced }

def Registry.Declaration.unplaced (d : Registry.Declaration) : Registry.Declaration :=
  { d with block := d.block.unplaced }

/-! ## Style blocks -/

theorem lastNamed?_unplaced (arguments : List Argument) (name : String) :
    lastNamed? (arguments.map Argument.unplaced) name =
      (lastNamed? arguments name).map Argument.unplaced := by
  rw [lastNamed?, lastNamed?, List.filter_map, List.getLast?_map]
  rfl

theorem readValue_unplaced {α : Type} (argument? : Option Argument)
    (read : String → Except Fault α) (default : α) :
    Descriptor.readValue (argument?.map Argument.unplaced) read default =
      unplacedResult id (Descriptor.readValue argument? read default) := by
  cases argument? with
  | none => rfl
  | some a =>
    show (read a.value).mapError _ = unplacedResult id ((read a.value).mapError _)
    cases read a.value <;> rfl

theorem ofArguments_unplaced (arguments : List Argument) :
    Descriptor.ofArguments (arguments.map Argument.unplaced) =
      unplacedResult id (Descriptor.ofArguments arguments) := by
  unfold Descriptor.ofArguments
  simp only [lastNamed?_unplaced, readValue_unplaced, Option.map_map]
  cases lastNamed? arguments "name" with
  | none => rfl
  | some name =>
    apply unplacedResult_bind
    intro color
    apply unplacedResult_bind
    intro size
    show (if (toIdentifier name.value).isEmpty then _ else _) =
      unplacedResult id (if (toIdentifier name.value).isEmpty then _ else _)
    split_ifs <;> rfl

theorem ofBlock_unplaced (b : Block) :
    Descriptor.ofBlock b.unplaced = unplacedResult id (Descriptor.ofBlock b) := by
  show (Descriptor.ofArguments (b.arguments.map Argument.unplaced)).mapError _ = _
  rw [ofArguments_unplaced, Descriptor.ofBlock]
  cases Descriptor.ofArguments b.arguments with
  | ok style => rfl
  | error e =>
    obtain ⟨fault, origin⟩ := e
    cases origin <;> rfl

theorem declaration_unplaced (b : Block) : Registry.declaration b.unplaced =
    unplacedResult Registry.Declaration.unplaced (Registry.declaration b) := by
  rw [Registry.declaration, Registry.declaration, ofBlock_unplaced]
  apply unplacedResult_map
  intro style
  rfl

theorem ofDeclarations_unplaced (defaultStyle : String) (ds : List Registry.Declaration) :
    Registry.ofDeclarations defaultStyle (ds.map Registry.Declaration.unplaced) =
      Registry.ofDeclarations defaultStyle ds := by
  rw [Registry.ofDeclarations, List.foldl_map]
  rfl

/-! ## Paragraph blocks -/

theorem argumentsNamed_unplaced (b : Block) (name : String) :
    b.unplaced.argumentsNamed name = (b.argumentsNamed name).map Argument.unplaced := by
  rw [Block.argumentsNamed, Block.unplaced, List.filter_map]
  rfl

theorem layout_unplaced (r : Registry) (b : Block) :
    r.layout b.unplaced = unplacedResult id (r.layout b) := by
  have hstyle : r.styleOf b.unplaced = unplacedResult id (r.styleOf b) := by
    rw [Registry.styleOf, Registry.styleOf, Block.argument?, Block.argument?,
      argumentsNamed_unplaced, List.getLast?_map]
    cases (b.argumentsNamed "style").getLast? with
    | none => rfl
    | some a =>
      simp only [Option.map_some, Argument.unplaced]
      cases r.resolve? a.value <;> rfl
  rw [Registry.layout, Registry.layout, hstyle]
  apply unplacedResult_map
  intro style
  rfl

/-! ## Warnings -/

theorem repeated_unplaced (b : Block) :
    Registry.repeated b.unplaced = (Registry.repeated b).map Warning.unplaced := by
  simp only [Registry.repeated, argumentsNamed_unplaced, List.length_map]
  split_ifs <;> rfl

theorem declarationWarnings_unplaced (r : Registry) (d : Registry.Declaration) :
    d.unplaced.warnings r = (d.warnings r).map Warning.unplaced := by
  show (if d.block.body.isEmpty then _ else _) ++ (if r.declares d.style.id then _ else _) =
    List.map Warning.unplaced
      ((if d.block.body.isEmpty then _ else _) ++ (if r.declares d.style.id then _ else _))
  split_ifs <;> rfl

theorem warnings_unplaced (ds : List Registry.Declaration) (p q : Registry.Progress)
    (hr : q.registry = p.registry) (hw : q.warnings = p.warnings.map Warning.unplaced) :
    ((ds.map Registry.Declaration.unplaced).foldl Registry.Progress.add q).warnings =
      (ds.foldl Registry.Progress.add p).warnings.map Warning.unplaced := by
  induction ds generalizing p q with
  | nil => exact hw
  | cons d ds ih =>
    rw [List.map_cons, List.foldl_cons, List.foldl_cons]
    apply ih
    · show q.registry.declare d.style = p.registry.declare d.style
      rw [hr]
    · show q.warnings ++ d.unplaced.warnings q.registry =
        (p.warnings ++ d.warnings p.registry).map Warning.unplaced
      rw [hr, hw, declarationWarnings_unplaced, List.map_append]

theorem unknownParent?_unplaced (r : Registry) (d : Registry.Declaration) :
    r.unknownParent? d.unplaced = (r.unknownParent? d).map Warning.unplaced := by
  rw [Registry.unknownParent?, Registry.unknownParent?, Option.map_map]
  rfl

theorem filter_unplaced (command : Command) (blocks : List Block) :
    (blocks.map Block.unplaced).filter (·.command = command) =
      (blocks.filter (·.command = command)).map Block.unplaced := by
  rw [List.filter_map]
  rfl

theorem warningsOf_unplaced (blocks : List Block) (config : Config)
    (ds : List Registry.Declaration) :
    warningsOf (blocks.map Block.unplaced) config (ds.map Registry.Declaration.unplaced) =
      (warningsOf blocks config ds).map Warning.unplaced := by
  have hadded := warnings_unplaced ds (.start config.defaultStyle) (.start config.defaultStyle) rfl rfl
  rw [warningsOf, hadded, ofDeclarations_unplaced, paragraphBlocks, filter_unplaced, warningsOf,
    paragraphBlocks]
  simp only [List.map_append, List.flatMap_map, List.map_flatMap, List.filterMap_map,
    List.map_filterMap, repeated_unplaced, Function.comp_def, unknownParent?_unplaced]

/-! ## Scripts -/

/-- **A script is rendered alike with places and without.** -/
theorem render_unplaced (blocks : List Block) (config : Config) :
    render (blocks.map Block.unplaced) config =
      unplacedResult Rendered.unplaced (render blocks config) := by
  rw [render_eq, render_eq, styleBlocks, paragraphBlocks, filter_unplaced, filter_unplaced,
    mapM_unplaced declaration_unplaced]
  apply unplacedResult_bind
  intro ds
  rw [ofDeclarations_unplaced, mapM_unplaced (layout_unplaced _)]
  apply unplacedResult_map
  intro nodes
  rw [warningsOf_unplaced, List.map_id]
  show (⟨documentOf config (ds.map Registry.Declaration.unplaced) nodes, _⟩ : Rendered) = _
  rw [documentOf, ofDeclarations_unplaced]
  rfl

end SheetMarkup
