/-!
# The order of texts

Texts are ordered by their code points, the shorter of two first where one continues the other.

* `precedes`: the strict order.
* `insertSorted`: adds an entry to a list that is sorted by its keys.
-/

namespace SheetMarkup.Text

/-- The first list of characters comes before the second. -/
def precedesChars : List Char → List Char → Bool
  | _, [] => false
  | [], _ :: _ => true
  | c :: cs, d :: ds => c.toNat < d.toNat || (c == d && precedesChars cs ds)

/-- The first text comes before the second. -/
def precedes (s t : String) : Bool := precedesChars s.toList t.toList

/-- Adds an entry to a list sorted by key; an entry with the same key is replaced. -/
def insertSorted {α : Type} (key : String) (value : α) :
    List (String × α) → List (String × α)
  | [] => [(key, value)]
  | e :: es =>
    if precedes key e.1 then (key, value) :: e :: es
    else if key == e.1 then (key, value) :: es
    else e :: insertSorted key value es

/-- The distinct texts of a list in order. -/
def sortedDistinct (texts : List String) : List String :=
  (texts.foldl (fun sorted t => insertSorted t () sorted) []).map Prod.fst

end SheetMarkup.Text
