/-!
# Path patterns

A pattern describes the paths it matches byte by byte.  Besides characters
that stand for themselves it knows wildcards for one byte, for a run of
bytes and for a number of folders, classes of bytes, and groups of
alternatives.
-/

namespace CatalogServer.Glob

/-- A part of a pattern. -/
inductive Token where
  | literal (c : Char)
  | anyByte
  | anyRun
  | leadingFolders
  | innerFolders
  | trailingFolders
  /-- One byte in a class, or outside of it when the class is negated. -/
  | byteIn (negated : Bool) (ranges : List (Char × Char))
  /-- One of several alternatives, or nothing when there are none. -/
  | oneOf (alternatives : List (List Token))
  deriving Repr

/-- A group without alternatives, which stands for nothing.  Alternatives
that stand for nothing do not count. -/
def Token.isVoid : Token → Bool
  | .oneOf [] => true
  | _ => false

structure Pattern where
  tokens : List Token
  deriving Repr

/-- Why a text is no pattern. -/
inductive PatternError where
  | unclosedClass
  /-- A range of a class whose end comes before its start. -/
  | invalidRange (first last : Char)
  | unopenedGroup
  | unclosedGroup
  | danglingEscape
  deriving DecidableEq, Repr

def PatternError.message : PatternError → String
  | .unclosedClass => "unclosed character class; missing ']'"
  | .invalidRange first last =>
      "invalid range; '" ++ String.singleton first ++ "' > '" ++ String.singleton last ++ "'"
  | .unopenedGroup =>
      "unopened alternate group; missing '\x7b' (maybe escape '\x7d' with '[\x7d]'?)"
  | .unclosedGroup =>
      "unclosed alternate group; missing '\x7d' (maybe escape '\x7b' with '[\x7b]'?)"
  | .danglingEscape => "dangling '\\'"

/-- The wording of an error together with the text that is no pattern. -/
def PatternError.describe (text : String) (error : PatternError) : String :=
  "error parsing glob '" ++ text ++ "': " ++ error.message

end CatalogServer.Glob
