namespace Statechart

variable {α : Type}

/-- Follows links from a start until one is missing and lists the places passed, the start first. There is
    no answer when the walk takes more steps than allowed. -/
def walk? (next : α → Option α) : Nat → α → Option (List α)
  | 0, _ => none
  | steps + 1, place =>
    match next place with
    | none => some [place]
    | some place' => (walk? next steps place').map (place :: ·)

end Statechart
