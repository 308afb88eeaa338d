/-! Cutting a text at every occurrence of one character. There is always one more piece than there
are separators, so an empty text is one empty piece. -/
namespace ClassLoading.Text

def splitChars (separator : Char) : List Char → List (List Char)
  | [] => [[]]
  | c :: rest =>
    if c = separator then [] :: splitChars separator rest
    else match splitChars separator rest with
      | [] => [[c]]
      | piece :: pieces => (c :: piece) :: pieces

def split (separator : Char) (text : String) : List String :=
  (splitChars separator text.toList).map String.ofList

def replace (old new : Char) (text : String) : String :=
  text.map fun c => if c = old then new else c

end ClassLoading.Text
