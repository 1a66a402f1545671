import CalcDoc.Text.Basic

/-!
# The demonstration

- `Document.demo`: a short document whose one value changes from reference to reference.
-/

namespace CalcDoc.Document

/-- A document with three blocks and eight references. -/
def demo : Text :=
  ("`a` is \x7b\x7b_ \"a\"\x7d\x7d, twice \x7b\x7b_ \"a\"\x7d\x7d, " ++
    "thrice \x7b\x7b_ \"a\"\x7d\x7d.\n" ++
    "```calc\na = 9\nb = 3.2\n```\n" ++
    "But now `a` = \x7b\x7b_ \"a\"\x7d\x7d (\x7b\x7b_ \"a\"\x7d\x7d).\n" ++
    "```calc\na = 10\n```\n" ++
    "And then `a` is \x7b\x7b_ \"a\"\x7d\x7d.\n" ++
    "```calc\na *= b\n```\n" ++
    "Finally a: \x7b\x7b_ \"a\"\x7d\x7d (\x7b\x7b_ \"a\"\x7d\x7d).\n").toList

end CalcDoc.Document
