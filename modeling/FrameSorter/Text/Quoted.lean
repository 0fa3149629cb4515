/-!
# Quoted text

A text between two equal delimiters. Inside, a backslash stands before every backslash and before
every delimiter (`quote`), so a reader that takes the character after a backslash literally
finds the end of the text at the first delimiter that no backslash protects.
-/

set_option autoImplicit false
set_option relaxedAutoImplicit false

namespace FrameSorter.Quoted

/-- The characters between the delimiters. -/
def escape (delimiter : Char) : List Char → List Char
  | [] => []
  | c :: rest =>
    if c = '\\' ∨ c = delimiter then '\\' :: c :: escape delimiter rest
    else c :: escape delimiter rest

/-- A text in delimiters, with its backslashes and delimiters escaped. -/
def quote (value : String) (delimiter : Char) : String :=
  String.ofList (delimiter :: (escape delimiter value.toList ++ [delimiter]))

end FrameSorter.Quoted
