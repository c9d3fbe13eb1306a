/-
# Search

Whether a text contains another.
-/

namespace WasmLowering
namespace Text

/-- Whether some characters stand in a row within others. -/
def isWithin (part : List Char) : List Char → Bool
  | [] => part.isEmpty
  | c :: cs => part.isPrefixOf (c :: cs) || isWithin part cs

/-- Whether a text contains another. -/
def contains (text part : String) : Bool := isWithin part.toList text.toList

end Text
end WasmLowering
