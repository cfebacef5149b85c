-- Items between round brackets.
namespace SuperChip.Text

-- A single item is followed by a comma.
def tuple : List String → String
  | [] => "()"
  | [item] => s!"({item},)"
  | items => "(" ++ ", ".intercalate items ++ ")"

end SuperChip.Text
