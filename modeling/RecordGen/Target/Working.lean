/-!
Work on a state that outlives it.

A backend collects what a file needs while it builds the file, and a build that fails leaves in the
collection what it met before it failed.
-/

namespace RecordGen

/-- Does the steps of a traversal on a state, up to the first that fails. -/
def workThrough {σ α β ε : Type} (step : σ → α → Except ε β × σ) :
    σ → List α → Except ε (List β) × σ
  | s, [] => (.ok [], s)
  | s, x :: xs =>
    match step s x with
    | (.error e, s) => (.error e, s)
    | (.ok y, s) =>
      match workThrough step s xs with
      | (.error e, s) => (.error e, s)
      | (.ok ys, s) => (.ok (y :: ys), s)

/-- What the steps of a traversal meet, up to the first that fails. -/
def metUpTo {α β ε : Type} (step : α → Except ε β) (met : α → List String) :
    List α → List String
  | [] => []
  | x :: xs =>
    met x ++
      match step x with
      | .ok _ => metUpTo step met xs
      | .error _ => []

end RecordGen
