import SheetMarkup.Docx.Picture
import SheetMarkup.Xml.Tree

/-!
# The parts of a document package

The markup of each part of a word processor document, as trees.

* `contentTypes`, `packageRelations`, `documentRelations`: how the parts hang together.
* `documentPart`: one paragraph for every node.
* `stylesPart`: the default style, if it is not declared, and the declared styles.
-/

namespace SheetMarkup.Docx

open Xml (Tree leaf group escape)

/-! ## Names -/

/-- The names of the formats that the parts use. -/
def wordSpace : String := "http://schemas.openxmlformats.org/wordprocessingml/2006/main"

/-- The base of the kinds of relations. -/
def relationSpace : String :=
  "http://schemas.openxmlformats.org/officeDocument/2006/relationships"

/-- Where drawings are placed. -/
def placementSpace : String :=
  "http://schemas.openxmlformats.org/drawingml/2006/wordprocessingDrawing"

/-- The main part of drawings. -/
def drawingSpace : String := "http://schemas.openxmlformats.org/drawingml/2006/main"

/-- Pictures among drawings. -/
def pictureSpace : String := "http://schemas.openxmlformats.org/drawingml/2006/picture"

/-- Relations between parts. -/
def packageRelationSpace : String :=
  "http://schemas.openxmlformats.org/package/2006/relationships"

/-- Content types of parts. -/
def contentTypeSpace : String :=
  "http://schemas.openxmlformats.org/package/2006/content-types"

/-! ## How the parts hang together -/

/-- The type of all parts with an extension. -/
def defaultType (extension type : String) : Tree :=
  leaf "Default" [("Extension", extension), ("ContentType", type)]

/-- The type of one part. -/
def overrideType (part type : String) : Tree :=
  leaf "Override" [("PartName", part), ("ContentType", type)]

/-- The formats in use, in the order of their extensions. -/
def formatsInUse (pictures : List Picture) : List ImageFormat :=
  [ImageFormat.bmp, .gif, .jpeg, .png].filter fun f => pictures.any (·.format = f)

/-- The types of all parts. -/
def contentTypes (pictures : List Picture) : Tree :=
  .element "Types" [("xmlns", contentTypeSpace)] (
    [defaultType "rels" "application/vnd.openxmlformats-package.relationships+xml",
      defaultType "xml" "application/xml"] ++
    (formatsInUse pictures).map (fun f => defaultType f.extension f.contentType) ++
    [overrideType "/word/document.xml"
        "application/vnd.openxmlformats-officedocument.wordprocessingml.document.main+xml",
      overrideType "/word/styles.xml"
        "application/vnd.openxmlformats-officedocument.wordprocessingml.styles+xml"])

/-- A relation to another part. -/
def relation (id kind target : String) : Tree :=
  leaf "Relationship" [("Id", id), ("Type", relationSpace ++ "/" ++ kind), ("Target", target)]

/-- Some relations. -/
def relations (items : List Tree) : Tree :=
  .element "Relationships" [("xmlns", packageRelationSpace)] items

/-- The relation of the package to its document. -/
def packageRelations : Tree := relations [relation "rId1" "officeDocument" "word/document.xml"]

/-- The relations of the document to its styles and pictures. -/
def documentRelations (pictures : List Picture) : Tree :=
  relations (relation "rId1" "styles" "styles.xml" ::
    pictures.map fun p => relation p.relationId "image" p.target)

/-! ## The document -/

/-- An element with a single value. -/
def valued (name value : String) : Tree := leaf name [("w:val", value)]

/-- The lines of a text: what stands between line feeds. -/
def lines (cs : List Char) : List (List Char) := cs.splitOn '\n'

/-- The text of one line, without carriage returns at its end. -/
def lineText (line : List Char) : Tree :=
  .element "w:t" [("xml:space", "preserve")]
    [.text (escape (String.ofList (Text.dropEndWhile (· == '\r') line)))]

/-- A text as a run, with breaks between its lines. An empty text has none. -/
def textRun (text : String) : List Tree :=
  if text.isEmpty then []
  else [group "w:r" (((lines text.toList).map lineText).intersperse (leaf "w:br"))]

/-- What follows the last slash, of either kind, of a source. -/
def sourceName (source : String) : String :=
  String.ofList (source.toList.reverse.takeWhile fun c => c != '/' && c != '\\').reverse

/-- A picture as a run. -/
def drawing (p : Picture) (source : String) (id : Nat) : Tree :=
  let size := [("cx", Text.decimal p.width), ("cy", Text.decimal p.height)]
  let label := [("id", Text.decimal id), ("name", escape (sourceName source))]
  group "w:r" [group "w:drawing" [
    .element "wp:inline" [("distT", "0"), ("distB", "0"), ("distL", "0"), ("distR", "0")] [
      leaf "wp:extent" size,
      leaf "wp:effectExtent" [("l", "0"), ("t", "0"), ("r", "0"), ("b", "0")],
      leaf "wp:docPr" label,
      group "wp:cNvGraphicFramePr" [leaf "a:graphicFrameLocks" [("noChangeAspect", "1")]],
      group "a:graphic" [.element "a:graphicData" [("uri", pictureSpace)] [group "pic:pic" [
        group "pic:nvPicPr" [leaf "pic:cNvPr" label, leaf "pic:cNvPicPr"],
        group "pic:blipFill" [
          leaf "a:blip" [("r:embed", p.relationId)],
          group "a:stretch" [leaf "a:fillRect"]],
        group "pic:spPr" [
          group "a:xfrm" [leaf "a:off" [("x", "0"), ("y", "0")], leaf "a:ext" size],
          .element "a:prstGeom" [("prst", "rect")] [leaf "a:avLst"]]]]]]]]

/-- A paragraph in a style. -/
def paragraph (style : String) (content : List Tree) : Tree :=
  group "w:p" (group "w:pPr" [valued "w:pStyle" (escape style)] :: content)

/-- The paragraphs of some nodes. Drawings are numbered from the given one on. -/
def paragraphs (pictures : List Picture) : Nat → List Node → List Tree
  | _, [] => []
  | id, .paragraph style text :: nodes =>
    paragraph style (textRun text) :: paragraphs pictures id nodes
  | id, .image style source :: nodes =>
    match pictures.find? (·.source == source) with
    | some p => paragraph style [drawing p source id] :: paragraphs pictures (id + 1) nodes
    | none => paragraph style [] :: paragraphs pictures id nodes

/-- The page of the document. -/
def pageSetup (margin : Nat) : Tree :=
  let m := Text.decimal margin
  group "w:sectPr" [
    valued "w:type" "continuous",
    leaf "w:pgSz" [("w:w", Text.decimal pageWidth), ("w:h", Text.decimal pageHeight)],
    leaf "w:pgMar" [("w:top", m), ("w:right", m), ("w:bottom", m), ("w:left", m),
      ("w:header", "708"), ("w:footer", "708"), ("w:gutter", "0")]]

/-- The document itself. -/
def documentPart (d : Document) (pictures : List Picture) : Tree :=
  .element "w:document" [("xmlns:w", wordSpace), ("xmlns:r", relationSpace),
      ("xmlns:wp", placementSpace), ("xmlns:a", drawingSpace), ("xmlns:pic", pictureSpace)]
    [group "w:body" (paragraphs pictures 1 d.nodes ++ [pageSetup d.pageMargin])]

/-! ## Styles -/

/-- Lines of normal height without gaps. -/
def spacing : Tree :=
  group "w:pPr" [leaf "w:spacing"
    [("w:before", "0"), ("w:after", "0"), ("w:line", "276"), ("w:lineRule", "auto")]]

/-- A font for all scripts, given as it is written. -/
def fonts (font : String) : Tree :=
  leaf "w:rFonts" [("w:ascii", font), ("w:hAnsi", font), ("w:cs", font)]

/-- A size for all scripts. -/
def sizes (size : Nat) : List Tree :=
  [valued "w:sz" (Text.decimal size), valued "w:szCs" (Text.decimal size)]

/-- The looks of text without a style. -/
def documentDefaults : Tree :=
  group "w:docDefaults" [
    group "w:rPrDefault" [group "w:rPr" (fonts fallbackFont :: sizes defaultSize)],
    group "w:pPrDefault" [spacing]]

/-- The style that a style is based on: its parent, else the default style; none of them is based
on itself. -/
def basedOn? (defaultId : String) (s : Descriptor) : Option String :=
  match s.parent.filter (· != s.id) with
  | some parent => some parent
  | none => if s.id == defaultId then none else some defaultId

/-- The element of a style. -/
def styleElement (defaultId : String) (s : Descriptor) : Tree :=
  let mark := if s.id == defaultId then "w:default" else "w:customStyle"
  .element "w:style" [("w:type", "paragraph"), (mark, "1"), ("w:styleId", escape s.id)] (
    [valued "w:name" (escape s.name)] ++
    (basedOn? defaultId s).toList.map (fun id => valued "w:basedOn" (escape id)) ++
    [valued "w:next" (escape defaultId), valued "w:uiPriority" "1", leaf "w:qFormat", spacing,
      group "w:rPr" (fonts (escape s.font) :: valued "w:color" s.color :: sizes s.size)])

/-- The default style where the sheet does not declare it. -/
def builtinStyle (id : String) : Descriptor :=
  ⟨id, id, none, defaultColor, fallbackFont, defaultSize⟩

/-- The styles of the package. -/
def packageStyles (d : Document) : List Descriptor :=
  if d.styles.any (·.id == d.defaultStyle) then d.styles
  else builtinStyle d.defaultStyle :: d.styles

/-- The styles. -/
def stylesPart (d : Document) : Tree :=
  .element "w:styles" [("xmlns:w", wordSpace)]
    (documentDefaults :: (packageStyles d).map (styleElement d.defaultStyle))

end SheetMarkup.Docx
