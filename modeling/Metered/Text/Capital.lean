/-!
# Capital Forms

`capital c` is the capital form of a character as far as it is spelled in the letters `A` to `Z`;
a character whose capital form needs any other letter stands for itself. A text therefore has a
capital form spelled in `A` to `Z` exactly when `capitals` gives it, and no word in `A` to `Z` is
gained or lost.
-/

namespace Metered.Text

/-- The letters outside `a` to `z` whose capital form is spelled in `A` to `Z`: sharp s, dotless i,
long s, and the ligatures of f and of st. -/
def irregularCapitals : List (Char × String) := [
  ('\u00DF', "SS"), ('\u0131', "I"), ('\u017F', "S"), ('\uFB00', "FF"), ('\uFB01', "FI"),
  ('\uFB02', "FL"), ('\uFB03', "FFI"), ('\uFB04', "FFL"), ('\uFB05', "ST"), ('\uFB06', "ST")]

/-- The capital form of a character, or the character where `A` to `Z` do not spell one. -/
def capital (c : Char) : List Char :=
  if 'a' ≤ c ∧ c ≤ 'z' then [c.toUpper]
  else match irregularCapitals.lookup c with
    | some form => form.toList
    | none => [c]

/-- The capital form of a text. -/
def capitals (text : List Char) : List Char :=
  text.flatMap capital

end Metered.Text
