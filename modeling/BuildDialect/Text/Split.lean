/-! Cutting a text at a separator. -/
namespace BuildDialect

/-- The stretches before, between and after the places where a separator stands, empty ones
included. -/
def stretches {α : Type} [DecidableEq α] (separator : α) : List α → List (List α)
  | [] => [[]]
  | c :: rest =>
    if c = separator then [] :: stretches separator rest
    else match stretches separator rest with
      | [] => [[c]]
      | first :: others => (c :: first) :: others

end BuildDialect
