/-!
# Listings

Messages show several items in square brackets, separated by a comma and a blank.
-/

namespace RaftAdmin.Text

/-- The items with `separator` between neighbours. -/
def joinWith (separator : String) : List String → String
  | [] => ""
  | [item] => item
  | item :: items => item ++ separator ++ joinWith separator items

/-- The items in brackets. -/
def listing (items : List String) : String := "[" ++ joinWith ", " items ++ "]"

end RaftAdmin.Text
