/-!
# Taking characters from the front of a text

A reader yields a value and the rest of the text, or fails without a reason.
What a failed alternative took is given back.
-/
namespace MethodContracts.Text

/-- Takes a value from the front of a text. -/
abbrev Reader := StateT (List Char) Option

namespace Reader

/-- The next character, left in place. -/
def peek? : Reader (Option Char) := fun cs => some (cs.head?, cs)

/-- Whether these characters come next; they are left in place. -/
def startsWith (front : List Char) : Reader Bool := fun cs => some (front.isPrefixOf cs, cs)

/-- Takes one character that satisfies `p`. -/
def satisfy (p : Char → Bool) : Reader Char := fun cs =>
  match cs with
  | c :: rest => if p c then some (c, rest) else none
  | [] => none

def expect (c : Char) : Reader Unit := do
  discard (satisfy (· == c))

def expectAll : List Char → Reader Unit
  | [] => pure ()
  | c :: cs => do
    expect c
    expectAll cs

/-- Takes this character if it comes next, and says whether it did. -/
def accept (c : Char) : Reader Bool := fun cs =>
  match cs with
  | d :: rest => if d = c then some (true, rest) else some (false, cs)
  | [] => some (false, [])

/-- Takes these characters if they come next, and says whether they did. -/
def acceptAll (front : List Char) : Reader Bool := do
  let found ← startsWith front
  if found then expectAll front
  return found

/-- Takes the longest run of characters that satisfy `p`. -/
def takeWhile (p : Char → Bool) : Reader (List Char) := fun cs =>
  some (cs.takeWhile p, cs.dropWhile p)

/-- Takes the longest run of characters that satisfy `p`, at least one. -/
def takeWhile1 (p : Char → Bool) : Reader (List Char) := do
  let taken ← takeWhile p
  if taken.isEmpty then failure
  return taken

/-- Takes exactly `count` characters that satisfy `p`. -/
def takeExactly (p : Char → Bool) : Nat → Reader (List Char)
  | 0 => return []
  | count + 1 => return (← satisfy p) :: (← takeExactly p count)

/-- Takes one value, and more as long as the separator comes next; at most `limit`. -/
def separatedWithin (separator : Char) (item : Reader α) : Nat → Reader (List α)
  | 0 => failure
  | limit + 1 => do
    let first ← item
    if ← accept separator then return first :: (← separatedWithin separator item limit)
    else return [first]

/-- Takes values with a separator between them, at least one. -/
def separated (separator : Char) (item : Reader α) : Reader (List α) := do
  separatedWithin separator item ((← get).length + 1)

def left : Reader Nat := return (← get).length

end Reader
end MethodContracts.Text
