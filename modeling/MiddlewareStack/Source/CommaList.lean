import MiddlewareStack.Source.TokenReader

/-!
# Lists of tokens between separators

Generic parameters and arguments are written with the lifetimes before the others, whatever their
order was. Each keeps the comma that stood behind it, and where one is missing it is put in.
-/

namespace MiddlewareStack.Source

def comma : List Token :=
  Token.operator ","

/-- Items with the separator between each two, and behind the last if `trailing`. -/
def separatedBy (separator : List Token) (trailing : Bool) : List (List Token) → List Token
  | [] => []
  | [last] => if trailing then last ++ separator else last
  | first :: rest => first ++ separator ++ separatedBy separator trailing rest

/-- Items between separators up to where a test holds or no separator follows. -/
def separatedTokens (stop : List Token → Bool) (separator : String)
    (item : TokenReader (List Token)) : TokenReader (List Token) := do
  let (items, trailing) ← TokenReader.separated stop separator item
  return separatedBy (Token.operator separator) trailing items

/-- Items between commas up to the end. -/
def commaTokens (item : TokenReader (List Token)) : TokenReader (List Token) :=
  separatedTokens List.isEmpty "," item

/-- One item of a list of parameters or arguments. -/
structure ListItem where
  isLifetime : Bool
  tokens : List Token

/-- Each item with whether a comma stands behind it. -/
def withCommas (trailing : Bool) : List ListItem → List (ListItem × Bool)
  | [] => []
  | [last] => [(last, trailing)]
  | first :: rest => (first, true) :: withCommas trailing rest

/-- `separated` says whether no comma is missing before the first item. -/
def joinItems (separated : Bool) : List (ListItem × Bool) → List Token
  | [] => []
  | (item, followed) :: rest =>
    (if separated then [] else comma) ++ item.tokens ++ (if followed then comma else []) ++
      joinItems followed rest

/-- Lifetimes first. -/
def lifetimesFirst (trailing : Bool) (items : List ListItem) : List Token :=
  let items := withCommas trailing items
  joinItems true (items.filter (·.1.isLifetime) ++ items.filter (!·.1.isLifetime))

def angleBrackets (content : List Token) : List Token :=
  Token.operator "<" ++ content ++ Token.operator ">"

end MiddlewareStack.Source
