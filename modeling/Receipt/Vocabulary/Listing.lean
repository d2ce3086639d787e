import Receipt.Vocabulary

/-!
# Listings of vocabularies

A vocabulary as lines for a reader: how many section types there are, and for each type what sets it
apart from a plain line of text.
-/

namespace Receipt

/-- The word that a listing uses for an alignment. -/
def Alignment.note : Alignment → String
  | left => "left"
  | center => "center"
  | right => "right"

/-- What a listing says of an emphasis, if it is not plain. -/
def Rule.Emphasis.note? : Emphasis → Option String
  | plain => none
  | bold => some "bold"
  | alwaysBold => some "alwaysbold"

/-- What sets a rule apart, in the order of the listing. -/
def Rule.notes (r : Rule) : List String :=
  (if r.kind = .spacer then ["spacer"] else []) ++
    (r.alignment.map Alignment.note).toList ++
    r.emphasis.note?.toList ++
    (if r.multiline then ["multiline"] else []) ++
    (r.binding.map fun part => "order:" ++ part.key).toList

namespace Vocabulary

/-- The columns that a tag takes at least in a listing. -/
def tagColumns : Nat := 22

def listingLine (tag : String) (r : Rule) : String :=
  "  " ++ String.ofList (tag.toList.rightpad tagColumns ' ') ++ " " ++ ", ".intercalate r.notes

/-- The listing of a vocabulary; every type ends its line. -/
def listing (v : Vocabulary) : String :=
  "Section types (" ++ toString v.size ++ "):\n" ++
    String.join (v.entries.map fun (tag, r) => listingLine tag r ++ "\n")

end Vocabulary

end Receipt
