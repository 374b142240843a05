import CatalogServer.Glob.Basic

/-!
# Reading patterns

A pattern is read in two passes.  The first one recognizes what a single
character means: escapes and classes become one lexeme each, and the list of
lexemes ends where reading cannot go on.  The second one recognizes the
wildcards for folders, which depend on what stands around them, and nests
the groups.  Of several errors the first one in the text is reported; that a
group is not closed shows only at the end.
-/

namespace CatalogServer.Glob

/-- What a stretch of a pattern means by itself. -/
inductive Lexeme where
  | char (c : Char)
  | escaped (c : Char)
  | byteIn (negated : Bool) (ranges : List (Char × Char))
  | fault (error : PatternError)
  deriving DecidableEq, Repr

/-- What has been read of a class. -/
structure ClassPart where
  negated : Bool
  ranges : List (Char × Char)
  /-- A dash behind the last range waits for the end of the range. -/
  dashed : Bool
  deriving DecidableEq, Repr

namespace ClassPart

/-- A character added to a class; behind a dash it ends the last range. -/
def add (part : ClassPart) (c : Char) : Except PatternError ClassPart :=
  match part.dashed, part.ranges with
  | true, (first, _) :: ranges =>
      if c < first then .error (.invalidRange first c)
      else .ok ⟨part.negated, (first, c) :: ranges, false⟩
  | _, ranges => .ok ⟨part.negated, (c, c) :: ranges, false⟩

/-- A character in a class other than its closing bracket.  A dash joins
the ends of a range unless it comes first. -/
def step (part : ClassPart) (c : Char) : Except PatternError ClassPart :=
  if c == '-' && !part.dashed && !part.ranges.isEmpty then .ok { part with dashed := true }
  else part.add c

/-- The ranges of a class that ends here; a dash at the end stands for
itself. -/
def finish (part : ClassPart) : List (Char × Char) :=
  (if part.dashed then ('-', '-') :: part.ranges else part.ranges).reverse

end ClassPart

/-- How far the reader is in a lexeme. -/
inductive LexMode where
  | between
  | escape
  | classStart
  | inClass (part : ClassPart)
  deriving DecidableEq, Repr

/-- The lexemes of a text in which brackets stand for themselves. -/
def lexWithoutClasses : (escaped : Bool) → List Char → List Lexeme
  | false, [] => []
  | true, [] => [.fault .danglingEscape]
  | true, c :: rest => .escaped c :: lexWithoutClasses false rest
  | false, c :: rest =>
      if c == '\\' then lexWithoutClasses true rest
      else .char c :: lexWithoutClasses false rest

/-- The lexemes when a class is not closed: an error, or with `lenient` an
opening bracket that stands for itself, as all brackets behind it do. -/
def lexUnclosed (lenient : Bool) (behindBracket : List Char) : List Lexeme :=
  if lenient then .char '[' :: lexWithoutClasses false behindBracket
  else [.fault .unclosedClass]

/-- The lexemes of a text; `behindBracket` is the text behind the last
opening bracket. -/
def lex (lenient : Bool) (behindBracket : List Char) : LexMode → List Char → List Lexeme
  | .between, [] => []
  | .escape, [] => [.fault .danglingEscape]
  | .classStart, [] | .inClass _, [] => lexUnclosed lenient behindBracket
  | .between, c :: rest =>
      if c == '\\' then lex lenient behindBracket .escape rest
      else if c == '[' then lex lenient rest .classStart rest
      else .char c :: lex lenient behindBracket .between rest
  | .escape, c :: rest => .escaped c :: lex lenient behindBracket .between rest
  | .classStart, c :: rest =>
      if c == '!' || c == '^' then
        lex lenient behindBracket (.inClass ⟨true, [], false⟩) rest
      else
        lex lenient behindBracket (.inClass ⟨false, [(c, c)], false⟩) rest
  | .inClass part, c :: rest =>
      if c == ']' && !part.ranges.isEmpty then
        .byteIn part.negated part.finish :: lex lenient behindBracket .between rest
      else
        match part.step c with
        | .ok next => lex lenient behindBracket (.inClass next) rest
        | .error error => [.fault error]

/-- A group that is being read. -/
structure Group where
  /-- The alternatives before the current one, the last one first. -/
  finished : List (List Token) := []
  /-- The parts of the current alternative, the last one first. -/
  current : List Token := []
  deriving Repr

namespace Group

def push (group : Group) (token : Token) : Group :=
  { group with current := token :: group.current }

def next (group : Group) : Group :=
  ⟨group.current.reverse :: group.finished, []⟩

def alternatives (group : Group) : List (List Token) :=
  group.next.finished.reverse.filter fun tokens => !tokens.all Token.isVoid

/-- The last part is replaced by a wildcard for folders, unless it already
is one that covers the folders. -/
def replaceLast (group : Group) (token : Token) : Group :=
  match group.current with
  | .leadingFolders :: _ | .trailingFolders :: _ => group
  | _ :: before => { group with current := token :: before }
  | [] => group.push token

end Group

/-- What has been read of a pattern. -/
structure Reading where
  /-- The groups around the current one, the innermost first. -/
  outer : List Group := []
  /-- The current group; the whole pattern counts as a group. -/
  group : Group := {}
  /-- The character before the rest of the text. -/
  before : Option Char := none
  deriving Repr

namespace Reading

def push (reading : Reading) (token : Token) (before : Option Char) : Reading :=
  { reading with group := reading.group.push token, before := before }

def pushRuns (reading : Reading) : Reading :=
  (reading.push .anyRun (some '*')).push .anyRun (some '*')

def isNested (reading : Reading) : Bool :=
  !reading.outer.isEmpty

/-- Two stars here stand for whole folders: they follow a separator, or the
start of an alternative. -/
def followsSeparator (reading : Reading) : Bool :=
  reading.before == some '/' ||
    (reading.isNested && (reading.before == some ',' || reading.before == some '\x7b'))

/-- What two stars mean, and how many characters behind them belong to
them. -/
def twoStars (reading : Reading) (behind : List Lexeme) : Reading × Nat :=
  let separated := behind.head? == some (.char '/')
  let ended := behind.isEmpty || (reading.isNested &&
    (behind.head? == some (.char ',') || behind.head? == some (.char '\x7d')))
  if reading.group.current.isEmpty then
    if separated then (reading.push .leadingFolders (some '/'), 1)
    else if behind.isEmpty then (reading.push .leadingFolders (some '*'), 0)
    else (reading.pushRuns, 0)
  else if !reading.followsSeparator then (reading.pushRuns, 0)
  else if separated then
    ({ reading with group := reading.group.replaceLast .innerFolders, before := some '/' }, 1)
  else if ended then
    ({ reading with group := reading.group.replaceLast .trailingFolders, before := some '*' },
      0)
  else (reading.pushRuns, 0)

/-- What a star means, and how many characters behind it belong to it. -/
def stars (reading : Reading) (behind : List Lexeme) : Reading × Nat :=
  if behind.head? == some (.char '*') then
    let (next, taken) := reading.twoStars behind.tail
    (next, taken + 1)
  else (reading.push .anyRun (some '*'), 0)

/-- A single character without escape other than a star. -/
def step (reading : Reading) (c : Char) : Except PatternError Reading :=
  if c == '?' then .ok (reading.push .anyByte (some c))
  else if c == '\x7b' then
    .ok { outer := reading.group :: reading.outer, before := some c }
  else if c == '\x7d' then
    match reading.outer with
    | [] => .error .unopenedGroup
    | group :: outer =>
        .ok ⟨outer, group.push (.oneOf reading.group.alternatives), some c⟩
  else if c == ',' && reading.isNested then
    .ok { reading with group := reading.group.next, before := some c }
  else .ok (reading.push (.literal c) (some c))

def finish (reading : Reading) : Except PatternError Pattern :=
  match reading.outer with
  | [] => .ok ⟨reading.group.current.reverse⟩
  | _ :: _ => .error .unclosedGroup

end Reading

def assemble : Reading → List Lexeme → Except PatternError Pattern
  | reading, [] => reading.finish
  | _, .fault error :: _ => .error error
  | reading, .escaped c :: rest => assemble (reading.push (.literal c) (some c)) rest
  | reading, .byteIn negated ranges :: rest =>
      assemble (reading.push (.byteIn negated ranges) (some ']')) rest
  | reading, .char c :: rest =>
      if c == '*' then
        let (next, taken) := reading.stars rest
        assemble next (rest.drop taken)
      else
        match reading.step c with
        | .ok next => assemble next rest
        | .error error => .error error
termination_by _ lexemes => lexemes.length
decreasing_by
  all_goals
    simp only [List.length_cons, List.length_drop]
    omega

/-- Reads a pattern.  With `lenient` a class that is not closed is no
error. -/
def Pattern.read (text : String) (lenient : Bool) : Except PatternError Pattern :=
  assemble {} (lex lenient [] .between text.toList)

end CatalogServer.Glob
