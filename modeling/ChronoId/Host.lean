/-
# The host

What a program finds and does not decide: how much memory there is for a text,
how deep the stack lets values be nested, and how the words of a command line
are taken where one reader of command lines differs from another.

Key definitions: `Host`, `Host.ample`.
-/

namespace ChronoId

/-- The most characters that a text can have. -/
def Text.maxLength : Nat := 9223372036854775807

/-- What a host decides. -/
class Host where
  /-- The most zeros in a row for which memory is found, beside whatever is to be
  written behind them. -/
  memory : Nat
  memory_le : memory ≤ Text.maxLength
  /-- The most brackets and braces that may be open at once in a JSON text. -/
  depth : Nat
  depth_pos : 0 < depth
  /-- Whether two hyphens behind an equals sign are a value like any other. -/
  takesHyphens : Bool
  /-- Whether the short option for help may have other characters behind it. -/
  takesTails : Bool

/-- A host with room for every text and every value. -/
@[reducible]
def Host.ample : Host where
  memory := Text.maxLength
  memory_le := Nat.le_refl _
  depth := Text.maxLength
  depth_pos := by decide
  takesHyphens := true
  takesTails := true

end ChronoId
