/-! # Separated lists -/

namespace Polyglot.Text

/-- The texts in order, with a comma and a space between neighbours. -/
def commaSeparated : List String → String
  | [] => ""
  | [last] => last
  | first :: second :: rest => first ++ ", " ++ commaSeparated (second :: rest)

end Polyglot.Text
