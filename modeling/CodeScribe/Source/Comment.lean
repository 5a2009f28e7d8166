import CodeScribe.Text.Pattern
import CodeScribe.Source.Language

/-!
# Comments

* `CommentStyle.comments` — the comments of a source, line comments first;
* `CommentStyle.clean` — a comment without its marks.
-/

namespace CodeScribe

open Pattern

inductive CommentStyle where
  /-- Two slashes, or a slash and a star. -/
  | slashes
  /-- An apostrophe, or the word REM. -/
  | apostrophe
  /-- Two slashes, or a parenthesis and a star. -/
  | parentheses
deriving DecidableEq, Repr

namespace CommentStyle

/-- Text up to the next place where a pattern fits, line ends included. -/
def throughTo (stop : Pattern) : Pattern := spanLazy (fun _ => true) ++ stop

def restOfLine : Pattern := spanLazy (· != '\n') ++ lineEnd

def patterns : CommentStyle → List Pattern
  | slashes => [lit "//" ++ restOfLine, lit "/*" ++ throughTo (lit "*/")]
  | apostrophe => [char '\'' ++ restOfLine, litAnyCase "REM" ++ blanks1 ++ restOfLine]
  | parentheses => [lit "//" ++ restOfLine, lit "(*" ++ throughTo (lit "*)")]

def comments (style : CommentStyle) (code : List Char) : List String :=
  style.patterns.flatMap fun p => (p.findAll code).map (·.text)

/-- The marks that are removed from a comment, one kind after the other. -/
def marks : CommentStyle → List Pattern
  | slashes =>
    [textStart ++ lit "//" ++ blanks, textStart ++ lit "/*" ++ blanks,
      blanks ++ lit "*/" ++ textEnd, lineStart ++ char '*' ++ blanks]
  | apostrophe =>
    [textStart ++ char '\'' ++ blanks, textStart ++ litAnyCase "REM" ++ blanks1]
  | parentheses =>
    [textStart ++ lit "//" ++ blanks, textStart ++ lit "(*" ++ blanks,
      blanks ++ lit "*)" ++ textEnd, lineStart ++ char '*' ++ blanks]

def clean (style : CommentStyle) (comment : String) : String :=
  String.ofList (Chars.trim (style.marks.foldl (fun cs p => p.removeAll cs)
    (Chars.trim comment.toList)))

end CommentStyle

def Language.commentStyle : Language → CommentStyle
  | .vbnet => .apostrophe
  | .fsharp => .parentheses
  | _ => .slashes

end CodeScribe
