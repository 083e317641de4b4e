/-!
# HTTP verbs

A verb may be written in any casing.  Casing is that of all of Unicode, and a
few letters outside ASCII have an upper case inside it: `poſt` is a verb.
-/

set_option autoImplicit false

namespace TimeoutAudit.HttpVerb

/-- The verbs that the first argument of a request may name. -/
def all : List String := ["GET", "POST", "PUT", "DELETE", "PATCH", "HEAD", "OPTIONS"]

/-- Letters outside ASCII whose upper case consists of letters of ASCII. -/
def specialUpperCase : List (Char × List Char) :=
  [('ß', ['S', 'S']), ('ı', ['I']), ('ſ', ['S']), ('ﬀ', ['F', 'F']), ('ﬁ', ['F', 'I']),
    ('ﬂ', ['F', 'L']), ('ﬃ', ['F', 'F', 'I']), ('ﬄ', ['F', 'F', 'L']), ('ﬅ', ['S', 'T']),
    ('ﬆ', ['S', 'T'])]

/-- The upper case of a character where that lies in ASCII; any other character
stands for itself, since none of them occurs in a verb. -/
def upperCase (c : Char) : List Char :=
  if 'a' ≤ c && c ≤ 'z' then [Char.ofNat (c.toNat - 32)]
  else (specialUpperCase.lookup c).getD [c]

/-- Whether a text is a verb in some casing. -/
def isVerb (text : String) : Bool := all.contains (String.ofList (text.toList.flatMap upperCase))

end TimeoutAudit.HttpVerb
