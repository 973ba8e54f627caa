namespace GlPrograms.Text

/-- Whether the piece stands somewhere in the text. The empty piece stands in every text. -/
def occursIn (piece : List Char) : List Char → Bool
  | [] => piece.isEmpty
  | c :: cs => piece.isPrefixOf (c :: cs) || occursIn piece cs

def contains (text piece : String) : Bool := occursIn piece.toList text.toList

end GlPrograms.Text
