import DaoGen.Text.Identifier

/-!
# Reserved words

Words that have the form of an identifier and cannot be used as a name.
-/
namespace DaoGen.Code

/-- Words that are never plain names; the underscore is one. -/
def reservedWords : List String :=
  ["_", "abstract", "as", "async", "await", "become", "box", "break", "const", "continue", "crate",
    "do", "dyn", "else", "enum", "extern", "false", "final", "fn", "for", "if", "impl", "in",
    "let", "loop", "macro", "match", "mod", "move", "mut", "override", "priv", "pub", "ref",
    "return", "Self", "self", "static", "struct", "super", "trait", "true", "try", "type",
    "typeof", "unsafe", "unsized", "use", "virtual", "where", "while", "yield"]

/-- Words that stay reserved even when written as raw identifiers. -/
def neverRaw : List String := ["_", "super", "self", "Self", "crate"]

/-- Whether the text of an identifier token is a name; raw identifiers always are. -/
def isName (text : String) : Bool := !reservedWords.contains text

end DaoGen.Code
