import SheetMarkup.Text.Number
import SheetMarkup.Xml.Escape
import SheetMarkup.Xml.Lexeme

/-!
# Events of markup

Words become events once tags are split into name and attributes and every end tag has been
checked against the element that is open. A text may end while elements are open.

* `Tag`: the name and attributes of an element.
* `Tag.attribute?`: the value of an attribute, by its local name.
* `Event`: what a reader of markup sees.
* `events`: the events of a text up to the first fault.
-/

namespace SheetMarkup.Xml

/-! ## References -/

/-- The character with a code point, where it is one. -/
def scalar? (n : Nat) : Option Char :=
  if h : n.isValidChar then some (Char.ofNatAux n h) else none

/-- The character of a numeric reference in an attribute: digits, or an `x` and hexadecimal
digits; zero is refused. -/
def strictNumber? (code : List Char) : Option Char :=
  let n? := match code with
    | 'x' :: ds => Text.digitsInBase? 16 ds
    | ds => Text.digitsInBase? 10 ds
  (n?.filter (0 < ·)).bind scalar?

/-- The character of a reference in an attribute. -/
def strictReference? (name : List Char) : Option Char :=
  match name with
  | '#' :: code => strictNumber? code
  | _ => entity? (String.ofList name)

/-- An attribute value with its references resolved, if all of them can be. The characters read
are given in reverse. -/
def unescapeFrom? (read : List Char) (cs : List Char) : Option (List Char) :=
  match cs with
  | [] => some read.reverse
  | '&' :: body =>
    match _h : reference? body with
    | some (.reference name, rest) =>
      match strictReference? name with
      | some c => unescapeFrom? (c :: read) rest
      | none => none
    | _ => none
  | c :: rest => unescapeFrom? (c :: read) rest
termination_by cs.length
decreasing_by
  · have := reference?_length _h
    simp only [List.length_cons]
    omega
  · simp

/-- An attribute value with its references resolved; with one that cannot be, it stays as it
is written. -/
def unescape (cs : List Char) : List Char := (unescapeFrom? [] cs).getD cs

/-- The number of a reference in a text, with an optional plus sign. -/
def looseNumber? (code : List Char) : Option Nat :=
  let unsigned (ds : List Char) : List Char := match ds with
    | '+' :: ds => ds
    | ds => ds
  let n? := match code with
    | 'x' :: ds => Text.digitsInBase? 16 (unsigned ds)
    | 'X' :: ds => Text.digitsInBase? 16 (unsigned ds)
    | ds => Text.digitsInBase? 10 (unsigned ds)
  n?.filter (· < Text.bound32)

/-- The characters that a reference in a text stands for. One that is unknown stays as it is. -/
def resolve (name : List Char) : List Char :=
  let c? := match name with
    | '#' :: code => (looseNumber? code).bind scalar?
    | _ => entity? (String.ofList name)
  match c? with
  | some c => [c]
  | none => '&' :: name ++ [';']

/-! ## Attributes -/

/-- The end of a name, up to an equals sign or a blank. -/
def endsKey (c : Char) : Bool := c == '=' || isSpace c

/-- The attributes of a tag, as they are written. One that is malformed, or repeats a key, is
passed over; where a quote is never closed, there are no more. -/
def attributesFrom (seen : List (List Char)) (cs : List Char) : List (List Char × List Char) :=
  match _hkey : cs.dropWhile isSpace with
  | [] => []
  | first :: tail =>
    let key := first :: tail.takeWhile fun c => !endsKey c
    match _hsign : (tail.dropWhile fun c => !endsKey c).dropWhile isSpace with
    | '=' :: body =>
      let resume := body.dropWhile fun c => !isSpace c
      if seen.contains key then attributesFrom seen resume
      else match _hquote : body.dropWhile isSpace with
        | [] => []
        | quote :: value =>
          if quote == '"' || quote == '\'' then
            match _hvalue : value.dropWhile (· != quote) with
            | [] => []
            | _ :: rest =>
              (key, value.takeWhile (· != quote)) :: attributesFrom (key :: seen) rest
          else attributesFrom (key :: seen) (value.dropWhile fun c => !isSpace c)
    | rest => attributesFrom seen rest
termination_by cs.length
decreasing_by
  all_goals
    have e0 := (List.dropWhile_sublist (l := cs) isSpace).length_le
    have e1 := (List.dropWhile_sublist (l := tail) fun c => !endsKey c).length_le
    have e2 := (List.dropWhile_sublist (l := tail.dropWhile fun c => !endsKey c) isSpace).length_le
    rw [_hkey] at e0
    simp only [List.length_cons] at e0
  · have e3 := (List.dropWhile_sublist (l := body) fun c => !isSpace c).length_le
    rw [_hsign] at e2
    simp only [List.length_cons] at e2
    omega
  · have e3 := (List.dropWhile_sublist (l := body) isSpace).length_le
    have e4 := (List.dropWhile_sublist (l := value) (· != quote)).length_le
    rw [_hsign] at e2
    rw [_hquote] at e3
    rw [_hvalue] at e4
    simp only [List.length_cons] at e2 e3 e4
    omega
  · have e3 := (List.dropWhile_sublist (l := body) isSpace).length_le
    have e4 := (List.dropWhile_sublist (l := value) fun c => !isSpace c).length_le
    rw [_hsign] at e2
    rw [_hquote] at e3
    simp only [List.length_cons] at e2 e3
    omega
  · rw [_hsign] at e2
    omega

/-- What follows the first colon of a name, or the whole name. -/
def localName (name : List Char) : List Char :=
  match name.dropWhile (· != ':') with
  | _ :: rest => rest
  | [] => name

/-- An element: its name and what follows it in its tag. -/
structure Tag where
  name : List Char
  rest : List Char
  deriving DecidableEq

namespace Tag

/-- Splits the content of a tag at its first blank. -/
def ofContent (content : List Char) : Tag :=
  ⟨content.takeWhile fun c => !isSpace c, content.dropWhile fun c => !isSpace c⟩

/-- The local name of an element. -/
def localName (t : Tag) : String := String.ofList (Xml.localName t.name)

/-- The value of the first attribute with a local name. -/
def attribute? (t : Tag) (name : String) : Option String :=
  ((attributesFrom [] t.rest).find? fun a => String.ofList (Xml.localName a.1) == name).map
    fun a => String.ofList (unescape a.2)

end Tag

/-! ## Events -/

/-- What a reader of markup sees. -/
inductive Event where
  | start (tag : Tag)
  | empty (tag : Tag)
  | close (name : String)
  | text (s : String)
  | reference (name : List Char)
  deriving DecidableEq

/-- The events of a text, and whether all of it is well formed. -/
structure Reading where
  events : List Event
  complete : Bool

/-- An end tag without the blanks at its end. -/
def endName (content : List Char) : List Char := (content.reverse.dropWhile isSpace).reverse

/-- The events of some words, with the names of the open elements, the innermost first. The events
read are given in reverse. -/
def eventsFrom (complete : Bool) : List (List Char) → List Event → List Lexeme → Reading
  | _, read, [] => ⟨read.reverse, complete⟩
  | names, read, x :: xs =>
    match x with
    | .other => eventsFrom complete names read xs
    | .text cs => eventsFrom complete names (.text (String.ofList cs) :: read) xs
    | .reference name => eventsFrom complete names (.reference name :: read) xs
    | .emptyTag content => eventsFrom complete names (.empty (Tag.ofContent content) :: read) xs
    | .startTag content =>
      let tag := Tag.ofContent content
      eventsFrom complete (tag.name :: names) (.start tag :: read) xs
    | .endTag content =>
      match names with
      | name :: names =>
        if name == endName content then
          eventsFrom complete names (.close (String.ofList (localName name)) :: read) xs
        else ⟨read.reverse, false⟩
      | [] => ⟨read.reverse, false⟩

/-- The events of a text up to the first fault. -/
def events (source : String) : Reading :=
  let words := lexemes source.toList
  eventsFrom words.complete [] [] words.lexemes

end SheetMarkup.Xml
