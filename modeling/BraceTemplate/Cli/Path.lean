import BraceTemplate.Text.Trim

/- Paths of files as they are written, with `/` between their parts. -/
namespace BraceTemplate
namespace Cli
namespace Path

def isAbsolute (path : String) : Bool := path.toList.head? == some '/'

def isIdle (part : List Char) : Bool := part.isEmpty || part == ['.']

/-- Leaves out the parts at the end that change nothing, but not the first part. -/
def dropIdle : List (List Char) → List (List Char)
  | [] => []
  | first :: rest => first :: (rest.reverse.dropWhile isIdle).reverse

/-- The directory of a file; empty when the path is a name alone. -/
def parent (path : String) : String :=
  match dropIdle (Text.splitOn '/' path.toList).dropLast with
  | [] => ""
  | [[]] => "/"
  | parts => String.ofList (Text.joinWith ['/'] parts)

/-- A path that starts in a directory, unless it is absolute. -/
def join (directory path : String) : String :=
  if isAbsolute path then path
  else if directory.isEmpty || directory.toList.getLast? == some '/' then directory ++ path
  else directory ++ "/" ++ path

end Path
end Cli
end BraceTemplate
